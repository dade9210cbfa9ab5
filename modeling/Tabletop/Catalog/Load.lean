import Tabletop.Catalog.Basic
import Tabletop.Codec.Sheet
import Tabletop.Toml.Reader
/-!
# Loading catalogues

A catalogue is loaded from the TOML files of a directory and of all directories in it. Files are
read in the order of their paths, which is that of the names of their directories and of their own
names.
-/

namespace Tabletop

namespace Decode

/-- An item, with its owner beside its own fields. -/
def catalogItem : Decoder CatalogItem := fun dialect d => do
  let entries ← d.entries?
  let owner ← fromEntries (optional "owner" string) dialect entries
  let item ← fromEntries itemFields .tagged entries
  return { owner, item }

def catalogFile : Decoder CatalogFile :=
  record do
    let actors ← withDefault "actors" (list actor) []
    let items ← withDefault "items" (list catalogItem) []
    return { actors, items }

end Decode

/-- A file on the disk. -/
structure StoredFile where
  /-- The names of its directories, and its own name. -/
  path : List String
  /-- The text of the file, if its bytes are one. -/
  text : Option String

namespace StoredFile

def pathText (f : StoredFile) : String := "/".intercalate f.path

/-- Whether the name ends in `.toml` and has something before that. -/
def isCatalogName (name : String) : Bool :=
  let suffix := ".toml".toList
  suffix.length < name.toList.length && suffix.isSuffixOf name.toList

/-- Whether the file is one that catalogues are read from. -/
def isCatalogFile (f : StoredFile) : Bool := f.path.getLast?.any isCatalogName

/-- The contents of the file as a part of a catalogue. -/
def contents (f : StoredFile) : Except LoadError CatalogFile :=
  match f.text with
  | none => .error (.unreadable f.pathText)
  | some text =>
    match (Document.ofToml? text).bind (Decode.catalogFile .toml) with
    | some file => .ok file
    | none => .error (.malformed f.pathText)

/-- Whether a path does not come behind another one. -/
def pathLe : List String → List String → Bool
  | [], _ => true
  | _ :: _, [] => false
  | a :: as, b :: bs => a < b || (a == b && pathLe as bs)

end StoredFile

namespace Catalog

/-- Loads a directory, given as the names on its way. One that is missing is an empty catalogue,
and one that is a file cannot be read. -/
def load (files : List StoredFile) (directory : List String) : Except LoadError Catalog :=
  if files.any (·.path = directory) then .error (.unreadable ("/".intercalate directory))
  else
    let below := files.filter fun f => directory.isPrefixOf f.path && f.isCatalogFile
    let sorted := below.mergeSort fun a b => StoredFile.pathLe a.path b.path
    ofFiles (sorted.map fun f => (f.pathText, f.contents))

end Catalog

/-- What is shown of the error when the files are below a root directory. For a file that cannot be
read the reason is left to the caller. -/
def LoadError.message (root : String) : LoadError → String
  | unreadable path => "IO error reading '" ++ root ++ "/" ++ path ++ "'"
  | malformed path => "Parse error in '" ++ root ++ "/" ++ path ++ "'"
  | invalid problem path =>
    "Validation error in '" ++ root ++ "/" ++ path ++ "': " ++ problem.message

end Tabletop
