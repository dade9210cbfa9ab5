import Tabletop.Document.Basic
import Tabletop.NameMap
/-!
# Decoding documents

Readers of values from documents. A record is read from an object by the names of its fields, or
from an array by their order. A choice without data is the string with its name, or an object with
the name as its only entry.
-/

namespace Tabletop

/-- Where a document comes from; readers are less strict on some forms than on others. -/
inductive Dialect where
  | json
  | toml
  /-- A part of a document of either kind that was kept back until its tag was known. -/
  | tagged
deriving DecidableEq

/-- A reader of values; `none` is a document of the wrong form. -/
abbrev Decoder (α : Type) := Dialect → Document → Option α

namespace Decode

def string : Decoder String
  | _, .string s => some s
  | _, _ => none

def bool : Decoder Bool
  | _, .bool b => some b
  | _, _ => none

/-- An integer in a range. -/
def intWithin (least greatest : Int) : Decoder Int
  | _, .integer n => if least ≤ n && n ≤ greatest then some n else none
  | _, _ => none

/-- A natural number that is not above a bound. -/
def natUpTo (greatest : Nat) : Decoder Nat := fun dialect d =>
  (intWithin 0 greatest dialect d).map Int.toNat

/-- A number of 8 bits. -/
def nat8 : Decoder Nat := natUpTo maxByte

/-- A number of 32 bits. -/
def nat32 : Decoder Nat := natUpTo maxCount

/-- A number of 64 bits. -/
def nat64 : Decoder Nat := natUpTo maxIndex

/-- An integer of 64 bits with a sign. -/
def int64 : Decoder Int := intWithin (-maxConstant - 1) maxConstant

def word32 : Decoder UInt32 := fun dialect d => (nat32 dialect d).map UInt32.ofNat

def word64 : Decoder UInt64 := fun dialect d => (nat64 dialect d).map UInt64.ofNat

/-- A floating point number; integers are rounded to one. -/
def float : Decoder Double
  | _, .float x => some x
  | _, .integer n => some (.ofInt n)
  | _, _ => none

/-- A value, or null for none. -/
def option {α : Type} (f : Decoder α) : Decoder (Option α)
  | _, .null => some none
  | dialect, d => (f dialect d).map some

def list {α : Type} (f : Decoder α) : Decoder (List α)
  | dialect, .array items => items.mapM (f dialect)
  | _, _ => none

/-- An object with any names. -/
def nameMap {α : Type} (f : Decoder α) : Decoder (NameMap α) := fun dialect d => do
  let entries ← (← d.entries?).mapM fun e => (f dialect e.2).map fun v => (e.1, v)
  return NameMap.ofList entries

/-- What the fields of a record are read from. -/
inductive Fields where
  /-- Entries in any order; those that no field asks for do not matter. -/
  | named (entries : List (String × Document))
  /-- One item per field, in the order of the fields. -/
  | positional (items : List Document)

/-- A reader of some fields of a record. -/
abbrev Reading (α : Type) := Dialect → StateT Fields Option α

instance : Monad Reading where
  pure a := fun _ => pure a
  bind x f := fun dialect => do
    let a ← x dialect
    f a dialect

/-- The document of the next field, if it is there. -/
def nextField (name : String) : Reading (Option Document) := fun _ fields =>
  match fields with
  | .named entries => some (Document.lookup? name entries, .named entries)
  | .positional (d :: items) => some (some d, .positional items)
  | .positional [] => some (none, .positional [])

def isPositional : Reading Bool := fun _ fields =>
  match fields with
  | .named _ => some (false, fields)
  | .positional _ => some (true, fields)

def refuse {α : Type} : Reading α := fun _ _ => none

def reading {α : Type} (f : Decoder α) (d : Document) : Reading α := fun dialect fields =>
  (f dialect d).map fun a => (a, fields)

/-- A field that may be left out. -/
def withDefault {α : Type} (name : String) (f : Decoder α) (default : α) : Reading α := do
  match ← nextField name with
  | some d => reading f d
  | none => return default

/-- A field that must be there. -/
def required {α : Type} (name : String) (f : Decoder α) : Reading α := do
  match ← nextField name with
  | some d => reading f d
  | none => refuse

/-- A field that may be null; in an object it may be left out too. -/
def nullable {α : Type} (name : String) (f : Decoder α) : Reading (Option α) := do
  match ← nextField name with
  | some d => reading (option f) d
  | none => if ← isPositional then refuse else return none

/-- A field that may be null and may be left out. -/
def optional {α : Type} (name : String) (f : Decoder α) : Reading (Option α) :=
  withDefault name (option f) none

/-- Reads all fields from the items of an array. None may be left over, except in TOML. -/
def fromItems {α : Type} (r : Reading α) (dialect : Dialect) (items : List Document) : Option α :=
  match r dialect (.positional items) with
  | some (a, .positional []) => some a
  | some (a, _) => if dialect = .toml then some a else none
  | none => none

/-- Reads all fields from the entries of an object. -/
def fromEntries {α : Type} (r : Reading α) (dialect : Dialect)
    (entries : List (String × Document)) : Option α :=
  (r dialect (.named entries)).map (·.1)

/-- A record. -/
def record {α : Type} (r : Reading α) : Decoder α
  | dialect, .array items => fromItems r dialect items
  | dialect, d => d.entries?.bind (fromEntries r dialect)

/-- A record that is the data of a choice and has no name of its own. It is an object in JSON; in
TOML an object must have no other entries. -/
def innerRecord {α : Type} (names : List String) (r : Reading α) : Decoder α
  | .json, .array _ => none
  | .toml, d =>
    if (d.entries?.getD []).all (names.contains ·.1) then record r .toml d else none
  | dialect, d => record r dialect d

/-- Whether the document stands for no data, where a choice without data is an object. -/
def isVoid : Dialect → Document → Bool
  | .json, .null => true
  | .tagged, .null => true
  | .toml, .array [] => true
  | .json, _ => false
  | _, d => d.entries?.any List.isEmpty

/-- The name of a choice, and its data if it comes with some. -/
def choiceParts : Document → Option (String × Option Document)
  | .string name => some (name, none)
  | .object [(name, d)] => some (name, some d)
  | _ => none

/-- A choice among names without data. -/
def choice {α : Type} (ofName? : String → Option α) : Decoder α := fun dialect d => do
  let (name, data) ← choiceParts d
  let a ← ofName? name
  if data.all (isVoid dialect) then return a else none

/-- A choice among kinds of data; a kind without data has no decoder. -/
def variant {α : Type} (ofName? : String → Option (α ⊕ Decoder α)) : Decoder α :=
  fun dialect d => do
  let (name, data) ← choiceParts d
  match ← ofName? name, data with
  | .inl a, data => if data.all (isVoid dialect) then return a else none
  | .inr f, some d => f dialect d
  | .inr _, none => none

/-- A record whose kind stands in one of its own fields. As an array it starts with the kind. -/
def taggedRecord {α : Type} (tag : String) (ofName? : String → Option (Reading α)) : Decoder α
  | _, .array (.string name :: items) => do fromItems (← ofName? name) .tagged items
  | _, d => do
    let entries ← d.entries?
    match Document.lookup? tag entries with
    | some (.string name) => fromEntries (← ofName? name) .tagged entries
    | _ => none

end Decode

end Tabletop
