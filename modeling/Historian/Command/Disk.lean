import Historian.Catalog.Basic
import Historian.Command.Error
import Historian.Text.Cut

/-!
The files that calls of the tool read and write: texts and catalogs by their paths. A folder is
there as soon as a file is in it.
-/
namespace Historian.Command

/-- The names along a path. That of the root comes first if the path is absolute, and a dot counts
only at the beginning. -/
def namesOf (path : String) : List String :=
  let names := (Text.split '/' path.toList).map String.ofList
  let isAbsolute := path.toList.head? == some '/'
  let isRelativeToDot := names.head? == some "."
  (if isAbsolute then ["/"] else if isRelativeToDot then ["."] else []) ++
    names.filter fun n => n != "" && n != "."

/-- The path of names. -/
def pathOf : List String → String
  | "/" :: names => "/" ++ "/".intercalate names
  | names => "/".intercalate names

/-- The folder that a path is in; the empty path is the current one. -/
def folderOf (path : String) : String := pathOf (namesOf path).dropLast

/-- The names along a path without the dot, so that paths of one file are equal. -/
def placeOf (path : String) : List String := (namesOf path).filter (· != ".")

/-- What a file holds. -/
inductive Content
  | text (s : String)
  | catalog (c : Catalog)

/-- Files by the names along their paths. -/
structure Disk where
  files : List (List String × Content) := []

namespace Disk

def get? (d : Disk) (path : String) : Option Content := d.files.lookup (placeOf path)

/-- Whether a path is that of a folder. -/
def isFolder (d : Disk) (path : String) : Bool :=
  let place := placeOf path
  place.isEmpty || d.files.any fun f => place.isPrefixOf f.1 && place != f.1

/-- Whether there is a file or a folder at a path. -/
def has (d : Disk) (path : String) : Bool := (d.get? path).isSome || d.isFolder path

/-- The text of a file that holds one. -/
def text? (d : Disk) (path : String) : Option String :=
  match d.get? path with
  | some (.text s) => some s
  | _ => none

def put (d : Disk) (path : String) (content : Content) : Disk :=
  ⟨(placeOf path, content) :: d.files.filter (·.1 != placeOf path)⟩

/-- Why a folder cannot be made, if it cannot: a file is at its path, or on the way to it. -/
def folderFault? (d : Disk) (folder : String) : Option FolderFault :=
  let place := placeOf folder
  if (d.files.lookup place).isSome then some .taken
  else if d.files.any fun f => f.1.isPrefixOf place then some .blocked
  else none

end Disk

end Historian.Command
