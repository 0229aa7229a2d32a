import OpenAgentHub.Lib.Text

/-- Values of JSON columns and of parsed YAML manifests. -/
inductive Json where
  | null
  | bool (value : Bool)
  | num (value : Int)
  | str (value : String)
  | arr (items : List Json)
  | obj (fields : List (String × Json))
  deriving Inhabited, Repr

namespace Json

/-- `dict.get`; a repeated key would have kept its last value. -/
def get (value : Json) (key : String) : Option Json :=
  match value with
  | .obj fields => (fields.reverse.find? fun field => field.1 == key).map Prod.snd
  | _ => none

def asString : Json → Option String
  | .str text => some text
  | _ => none

def strings : Json → List String
  | .arr items => items.filterMap asString
  | _ => []

def isNull : Json → Bool
  | .null => true
  | _ => false

mutual

/-- `String(value)` in JavaScript. -/
def toText : Json → String
  | .null => "null"
  | .bool value => if value then "true" else "false"
  | .num value => toString value
  | .str text => text
  | .arr items => Text.join "," (itemTexts items)
  | .obj _ => "[object Object]"

def itemTexts : List Json → List String
  | [] => []
  | item :: rest => (if item.isNull then "" else item.toText) :: itemTexts rest

end

end Json
