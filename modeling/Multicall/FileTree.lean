import Multicall.Text.Ascii
import Multicall.Text.Utf8
/-!
The files below a directory. A path is walked name by name: an empty name and a point stay where
they are, two points go up, and only a directory can be walked on from. Outside of the directory
nothing is known but the directories on the way up.
-/
namespace Multicall

inductive FileFault
  | notFound
  | notDirectory
  | isDirectory
  | notText
  | badName
  | longName
  deriving DecidableEq, Repr

def FileFault.message : FileFault → String
  | .notFound => "No such file or directory (os error 2)"
  | .notDirectory => "Not a directory (os error 20)"
  | .isDirectory => "Is a directory (os error 21)"
  | .notText => "stream did not contain valid UTF-8"
  | .badName => "file name contained an unexpected NUL byte"
  | .longName => "File name too long (os error 36)"

inductive FileEntry
  | file (content : Octets)
  | directory

/-- The entries below a directory, each by the names that lead to it. -/
structure FileTree where
  entries : List (List String × FileEntry)

/-- Where a walk stands: below the directory, or outside of it. -/
inductive Place
  | below (names : List String)
  | outside

def pathNames (path : String) : List String := (Ascii.split '/' path.toList).map String.ofList

def isAbsolute (path : String) : Bool := path.toList.head? == some '/'

/-- A path below a directory; an absolute one stands for itself. -/
def joinPath (directory path : String) : String :=
  if isAbsolute path then path else directory ++ "/" ++ path

def staysPut (name : String) : Bool := name = "" || name = "."

def Place.up : Place → Place
  | .below [] => .outside
  | .below names => .below names.dropLast
  | .outside => .outside

namespace FileTree

def empty : FileTree := ⟨[]⟩

def ofPaths (paths : List (String × FileEntry)) : FileTree where
  entries := paths.map fun (path, entry) => ((pathNames path).filter (!staysPut ·), entry)

def entryAt? (t : FileTree) : Place → Option FileEntry
  | .outside => some .directory
  | .below [] => some .directory
  | .below names =>
      match t.entries.find? (·.1 == names) with
      | some (_, entry) => some entry
      | none => if t.entries.any (names.isPrefixOf ·.1) then some .directory else none

/-- The most octets that a name may have. -/
def longestName : Nat := 255

def enter (t : FileTree) (name : String) (place : Place) : Except FileFault Place :=
  if staysPut name then .ok place
  else if name = ".." then .ok place.up
  else if longestName < name.utf8ByteSize then .error .longName
  else
    match place with
    | .outside => .error .notFound
    | .below names =>
        let next := .below (names ++ [name])
        if (t.entryAt? next).isSome then .ok next else .error .notFound

def step (t : FileTree) (place : Place) (name : String) : Except FileFault Place :=
  match t.entryAt? place with
  | some .directory => t.enter name place
  | some (.file _) => .error .notDirectory
  | none => .error .notFound

def find (t : FileTree) (path : String) : Except FileFault FileEntry :=
  if path.toList.contains '\x00' then .error .badName
  else do
    let start : Place := if isAbsolute path then .outside else .below []
    let place ← (pathNames path).foldlM t.step start
    match t.entryAt? place with
    | some entry => .ok entry
    | none => .error .notFound

def read (t : FileTree) (path : String) : Except FileFault String := do
  match ← t.find path with
  | .directory => .error .isDirectory
  | .file content =>
      match Octets.text? content with
      | some text => .ok text
      | none => .error .notText

def isFile (t : FileTree) (path : String) : Bool :=
  match t.find path with
  | .ok (.file _) => true
  | _ => false

end FileTree
end Multicall
