import Tabletop.Number.Double
/-!
# Documents

The data that a JSON or a TOML text stands for. Integers and numbers with a fraction or an exponent
are kept apart, because a field that asks for an integer takes the former only.
-/

namespace Tabletop

inductive Document where
  | null
  | bool (b : Bool)
  | integer (n : Int)
  | float (x : Double)
  | string (s : String)
  | array (items : List Document)
  /-- Entries with different names. -/
  | object (fields : List (String × Document))

namespace Document

instance : Inhabited Document := ⟨null⟩

/-- Binds a name in an object; a name that is there already keeps its place. -/
def setField (name : String) (value : Document) :
    List (String × Document) → List (String × Document)
  | [] => [(name, value)]
  | (n, v) :: fields =>
    if n = name then (n, value) :: fields else (n, v) :: setField name value fields

/-- The entry with a name. -/
def lookup? (name : String) : List (String × Document) → Option Document
  | [] => none
  | (n, v) :: fields => if n = name then some v else lookup? name fields

theorem lookup?_setField_self (name : String) (value : Document)
    (fields : List (String × Document)) : lookup? name (setField name value fields) = some value := by
  induction fields with
  | nil => exact if_pos rfl
  | cons field fields ih =>
    obtain ⟨n, v⟩ := field
    rw [setField]
    split
    · rename_i h
      rw [lookup?, if_pos h]
    · rename_i h
      rw [lookup?, if_neg h, ih]

/-- The entries of an object. -/
def entries? : Document → Option (List (String × Document))
  | object fields => some fields
  | _ => none

/-- The entry of an object with a name. -/
def field? (d : Document) (name : String) : Option Document := d.entries?.bind (lookup? name)

/-- A text, or null. -/
def ofOption {α : Type} (f : α → Document) : Option α → Document
  | some a => f a
  | none => null

def ofList {α : Type} (f : α → Document) (as : List α) : Document := array (as.map f)

def ofNat (n : Nat) : Document := integer n

/-- The object with more entries behind its own. -/
def extend (d : Document) (more : List (String × Document)) : Document :=
  match d with
  | object fields => object (fields ++ more)
  | d => d

end Document

end Tabletop
