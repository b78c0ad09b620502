import Multicall.Filter.Predicate
import Multicall.Module.Registry
/-!
The namespace `search`: compiles filters for clients that build queries themselves. A manifest may
give the prefix for calls that name none; it has to be a text.
-/
namespace Multicall.Search

variable {ω : Type}

def name : String := "search"

/-- The member of a manifest that holds the prefix. -/
def prefixKey : String := "field_prefix"

/-- The prefix for calls that name none; nothing when the manifest's is no text. -/
def manifestPrefix? (manifest : Option Toml.Table) : Option String :=
  match manifest.bind (·.get? prefixKey) with
  | none => some ""
  | some (.string s) => some s
  | some _ => none

def ofFilterError (e : Filter.FilterError) : Failure := .shown e.message [.filter e]

def compileArguments (defaultPrefix : String) (arguments : Arguments) :
    Except Failure (Payload ω) := do
  let filter ← arguments.required Reading.any "filter"
  let fieldPrefix := (← arguments.optional Reading.text "prefix").getD defaultPrefix
  match Filter.Predicate.compile fieldPrefix .and filter with
  | .ok predicate => return .json predicate.toJson
  | .error e => .error (ofFilterError e)

def compile (defaultPrefix : String) : Operation ω where
  name := "compile"
  parameters := [⟨"filter", "object", false⟩, ⟨"prefix", "string", true⟩]
  returns := "object"
  invoke arguments :=
    match compileArguments defaultPrefix arguments with
    | .ok payload => return .ok payload
    | .error f => return .error (.failure f [])

def factory : Factory ω := fun ctx =>
  match manifestPrefix? ctx.manifest with
  | none => return .error (.invalidHandler ctx.namespaceName "`field_prefix` must be a string")
  | some fieldPrefix => return Draft.build ⟨ctx.namespaceName, [compile fieldPrefix], none⟩

end Multicall.Search
