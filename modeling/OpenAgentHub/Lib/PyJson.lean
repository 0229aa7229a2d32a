import Mathlib.Data.Rat.Defs

/-- What `json.loads` of Python gives. A float that is not a number of the reals has no value here. -/
inductive PyJson where
  | none
  | bool (flag : Bool)
  | int (value : Int)
  | float (value : Option Rat)
  | str (text : String)
  | list (items : List PyJson)
  | dict (fields : List (String × PyJson))

namespace PyJson

/-- How `json.loads` fails: with a `ValueError`, or nested deeper than the interpreter recurses. -/
inductive Fault where
  | malformed | tooDeep
  deriving DecidableEq

/-- `dict.get`. -/
def field (fields : List (String × PyJson)) (key : String) : PyJson := (fields.lookup key).getD .none

/-- `value == text`. -/
def isText (text : String) : PyJson → Bool
  | .str other => other == text
  | _ => false

/-- `value == number`: a boolean is an integer, and a float is compared by its value. -/
def isNumber (number : Int) : PyJson → Bool
  | .int value => value == number
  | .bool flag => (if flag then 1 else 0) == number
  | .float value => value == some (number : Rat)
  | _ => false

/-- The value where `isinstance(value, int)`. -/
def asInt : PyJson → Option Int
  | .int value => some value
  | .bool flag => some (if flag then 1 else 0)
  | _ => Option.none

end PyJson
