import FernLang.Text.Pieces

/-!
File paths and the folders they lead through. A path is written with single slashes and without
dots for the same folder; two slashes in front stay two. A folder holds files by the names on the
way to them, and a folder inside it is there when some file lies in it. What lies outside cannot be
seen, except that there are folders above.
-/

namespace FernLang

structure FilePath where
  root : String
  names : List String
deriving DecidableEq

namespace FilePath

def rootOf (text : List Char) : String :=
  match (text.takeWhile (· == '/')).length with
  | 0 => ""
  | 2 => "//"
  | _ => "/"

def ofText (text : String) : FilePath where
  root := rootOf text.toList
  names := ((Text.pieces '/' text.toList).map String.ofList).filter fun name =>
    name ≠ "" ∧ name ≠ "."

def text (path : FilePath) : String :=
  if path.root.isEmpty && path.names.isEmpty then "." else path.root ++ "/".intercalate path.names

def append (path : FilePath) (ending : String) : FilePath :=
  { path with names := path.names.dropLast ++ path.names.getLast?.toList.map (· ++ ending) }

end FilePath

inductive Entry where
  | missing
  | folder
  | file (bytes : ByteArray)

/-- Where a path leads: to names inside the folder, or to a folder above it. -/
inductive Place where
  | inside (names : List String)
  | above
deriving DecidableEq

structure Folder where
  files : List (List String × ByteArray)

namespace Folder

def file? (folder : Folder) (names : List String) : Option ByteArray :=
  (folder.files.find? (·.1 == names)).map (·.2)

def hasFolder (folder : Folder) (names : List String) : Bool :=
  names.isEmpty || folder.files.any fun file => names.isPrefixOf file.1 && names != file.1

/-- One step of the way, which has to start in a folder. -/
def step (folder : Folder) (place : Place) (name : String) : Option Place :=
  match place with
  | .above => if name = ".." then some .above else none
  | .inside names =>
      if !folder.hasFolder names then none
      else if name ≠ ".." then some (.inside (names ++ [name]))
      else if names.isEmpty then some .above
      else some (.inside names.dropLast)

def resolve (folder : Folder) (path : FilePath) : Option Place :=
  path.names.foldlM folder.step (if path.root.isEmpty then .inside [] else .above)

def entry (folder : Folder) (path : FilePath) : Entry :=
  match folder.resolve path with
  | none => .missing
  | some .above => .folder
  | some (.inside names) =>
      match folder.file? names with
      | some bytes => .file bytes
      | none => if folder.hasFolder names then .folder else .missing

def write (folder : Folder) (path : FilePath) (bytes : ByteArray) : Folder :=
  match folder.resolve path with
  | some (.inside names) => ⟨folder.files.filter (·.1 != names) ++ [(names, bytes)]⟩
  | _ => folder

end Folder
end FernLang
