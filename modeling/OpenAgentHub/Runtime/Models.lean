import OpenAgentHub.Runtime.Config

namespace Runtime

open Sdk (Thrown)

inductive ModelProvider where
  | openai | anthropic | google | deepseek | ollama | mistral | xai | groq | «local» | custom
  deriving DecidableEq, Repr

namespace ModelProvider

def name : ModelProvider → String
  | openai => "openai"
  | anthropic => "anthropic"
  | google => "google"
  | deepseek => "deepseek"
  | ollama => "ollama"
  | mistral => "mistral"
  | xai => "xai"
  | groq => "groq"
  | «local» => "local"
  | custom => "custom"

structure Settings where
  model : String
  baseUrl : Option String := none
  keyEnv : Option String := none

def settings : ModelProvider → Settings
  | openai => ⟨"gpt-4o-mini", some "https://api.openai.com/v1", some "OPENAI_API_KEY"⟩
  | anthropic => ⟨"claude-sonnet-4-20250514", some "https://api.anthropic.com", some "ANTHROPIC_API_KEY"⟩
  | google => ⟨"gemini-2.0-flash", some "https://generativelanguage.googleapis.com/v1beta", some "GOOGLE_API_KEY"⟩
  | deepseek => ⟨"deepseek-chat", some "https://api.deepseek.com", some "DEEPSEEK_API_KEY"⟩
  | ollama => ⟨"llama3.1", some "http://localhost:11434/v1", none⟩
  | mistral => ⟨"mistral-small-latest", some "https://api.mistral.ai/v1", some "MISTRAL_API_KEY"⟩
  | xai => ⟨"grok-2-latest", some "https://api.x.ai/v1", some "XAI_API_KEY"⟩
  | groq => ⟨"llama-3.1-8b-instant", some "https://api.groq.com/openai/v1", some "GROQ_API_KEY"⟩
  | «local» => ⟨"local-model", some "http://localhost:8000/v1", none⟩
  | custom => ⟨"custom-model", none, none⟩

end ModelProvider

inductive SandboxRequest where
  | auto | container | isolatedProcess
  deriving DecidableEq, Repr

/-- The fields of a manifest that a run reads. `loadManifestFromDir` has checked it against the schema, which
    wants at least one model. -/
structure Manifest where
  name : String
  version : String
  sandbox : Option SandboxRequest := none
  supported : List ModelProvider
  someSupported : supported ≠ []
  cli : Option String := none
  mcp : Option String := none
  http : Option String := none
  permissions : List String := []
  system : List String := []
  secrets : List String := []

def Manifest.keyNames (manifest : Manifest) : List String :=
  manifest.supported.filterMap fun provider => provider.settings.keyEnv

structure ModelConfig where
  provider : ModelProvider
  model : String
  baseUrl : Option String := none
  apiKey : Option String := none
  deriving DecidableEq, Repr

/-- A value that is there and is not `""`. -/
def truthy (value : Option String) : Bool := value.any (· != "")

section PickModel

variable (manifest : Manifest) (secrets : Record String) (agentKey : String)

def splitModel (requested : String) : String × Option String :=
  let parts := Text.split ':' requested
  ((parts[0]?).getD "", parts[1]?)

def configFor (provider : ModelProvider) (overrideModel : Option String) : ModelConfig where
  provider := provider
  model := overrideModel.getD provider.settings.model
  baseUrl := provider.settings.baseUrl
  apiKey := provider.settings.keyEnv.bind secrets.get

def pickRequested (requested : String) : Except Thrown ModelConfig := do
  let (reqProvider, reqModel) := splitModel requested
  let provider ← Outcome.demand (manifest.supported.find? fun provider => provider.name == reqProvider)
    ⟨.error, "model provider '" ++ reqProvider ++ "' is not in manifest.models.supported (" ++
      Text.join ", " (manifest.supported.map ModelProvider.name) ++ ")"⟩
  let config := configFor secrets provider reqModel
  Outcome.ensure (provider.settings.keyEnv = none ∨ truthy config.apiKey ∨ provider = .ollama ∨ provider = .local)
    ⟨.error, "no API key for provider '" ++ provider.name ++ "'. Set it with: agent env " ++ agentKey ++ " " ++
      provider.settings.keyEnv.getD "" ++ "=..."⟩
  return config

/-- Otherwise the first model that needs no key or has one, or else the first one. -/
def pickDefault : ModelConfig :=
  let withKey := manifest.supported.find? fun provider =>
    provider.settings.keyEnv.isNone || truthy (provider.settings.keyEnv.bind secrets.get)
  configFor secrets (withKey.getD (manifest.supported.head manifest.someSupported)) none

def pickModel (requested : Option String) : Except Thrown ModelConfig :=
  match requested with
  | some requested => if requested = "" then .ok (pickDefault manifest secrets) else pickRequested manifest secrets agentKey requested
  | none => .ok (pickDefault manifest secrets)

end PickModel

def setWhen (env : Record String) (key : String) (value : Option String) : Record String :=
  match value with
  | some value => if value = "" then env else env.set key value
  | none => env

def buildAgentEnv (model : ModelConfig) (agentName agentVersion : String) : Record String :=
  let env := Record.setAll {} [("AGENT_NAME", agentName), ("AGENT_VERSION", agentVersion),
    ("AGENT_MODEL_PROVIDER", model.provider.name), ("AGENT_MODEL_NAME", model.model)]
  let env := setWhen env "AGENT_BASE_URL" model.baseUrl
  let env := setWhen env "AGENT_API_KEY" model.apiKey
  match model.provider.settings.keyEnv with
  | none => env
  | some keyEnv =>
    if truthy model.apiKey then setWhen env keyEnv model.apiKey
    else if model.provider = .ollama ∨ model.provider = .local then env
    else env.set "AGENT_MODEL_KEY_MISSING" keyEnv

end Runtime
