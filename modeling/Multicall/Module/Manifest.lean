import Multicall.Failure.Cause
import Multicall.Toml.Document
/-!
Manifests: TOML files in a route directory, one per namespace and named after it.
-/
namespace Multicall

/-- A directory, which may be missing. Files do not change while it is in use. What is wrong with a
text that is no TOML is told in the words of whatever reads it. -/
structure RouteDirectory where
  path : String
  tree : Option FileTree
  wording : String → String

namespace RouteDirectory

/-- The entries that a path is looked up in; an absolute path does not need the directory. -/
def treeFor (path : String) (d : RouteDirectory) : Except FileFault FileTree :=
  match d.tree with
  | some tree => .ok tree
  | none => if isAbsolute path then .ok .empty else .error .notFound

def manifestFile (namespaceName : String) : String := namespaceName ++ ".toml"

def manifest (namespaceName : String) (d : RouteDirectory) : Except LoadError Toml.Table :=
  let file := manifestFile namespaceName
  match (d.treeFor file).bind (·.read file) with
  | .error fault => .error (.unreadableManifest namespaceName (joinPath d.path file) fault)
  | .ok text =>
      match Toml.parse? text with
      | some table => .ok table
      | none => .error (.invalidManifest namespaceName (d.wording text))

/-- Why a path cannot be used as a route directory, if it cannot: `below` leads on from the
directory. -/
def refuse? (below : Option String) (d : RouteDirectory) : Option String :=
  let path := below.getD ""
  let shown := (below.map (joinPath d.path)).getD d.path
  match (d.treeFor path).bind (·.find path) with
  | .ok .directory => none
  | .ok (.file _) => some ("Invalid route directory " ++ shown ++ ": not a directory")
  | .error _ => some ("Invalid route directory " ++ shown)

end RouteDirectory
end Multicall
