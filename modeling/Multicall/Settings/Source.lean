import Multicall.FileTree
import Multicall.Json.Parser
import Multicall.Settings.Format.Ini
import Multicall.Settings.Format.Json5
import Multicall.Settings.Format.Ron
import Multicall.Settings.Format.Yaml.Document
import Multicall.Toml.Early.Document
/-!
Settings files. The ending of a file's name says how it is to be read, and may be left out of the
path that leads to the file; a path that leads to a file as it stands needs an ending that is known.
-/
namespace Multicall.Settings

/-- How files are read, by the endings of their names, in the order in which files are looked for. -/
def readers : List (String × (String → Option Value)) :=
  [("toml", fun text => (Toml.Early.parse? text).map .ofToml),
   ("json", fun text => (Json.parse? text).map .ofJson),
   ("yaml", Yaml.parse?), ("yml", Yaml.parse?), ("ini", Ini.parse?), ("ron", Ron.parse?),
   ("json5", Json5.parse?)]

def ending? (name : String) : Option String :=
  let cs := name.toList.reverse
  match cs.dropWhile (· != '.') with
  | _ :: _ :: _ => some (String.ofList (cs.takeWhile (· != '.')).reverse)
  | _ => none

def withEnding? (path ending : String) : Option String :=
  match (pathNames path).reverse.dropWhile staysPut with
  | [] => none
  | last :: before =>
      if last = ".." then none
      else some ("/".intercalate (before.reverse ++ [last ++ "." ++ ending]))

def source? (tree : FileTree) (path : String) : Option (String × (String → Option Value)) :=
  if tree.isFile path then do
    let ending ← ending? ((pathNames path).getLastD "")
    let (_, read) ← readers.find? (·.1 == ending)
    return (path, read)
  else
    readers.findSome? fun (ending, read) => do
      let path ← withEnding? path ending
      if tree.isFile path then some (path, read) else none

end Multicall.Settings
