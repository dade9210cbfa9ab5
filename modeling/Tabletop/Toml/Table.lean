import Tabletop.Document.Basic
/-!
# Tables of TOML

How the headers and the keys of a text build up one tree of tables. A table may be opened by one
header only. Tables that a header or a dotted key mentions on the way are implicit: a header may
still open those of headers, and dotted keys may go on with those of dotted keys.
-/

namespace Tabletop.Toml

/-- What a key is bound to. -/
inductive Node where
  /-- A value, which nothing can be added to. -/
  | value (d : Document)
  | table (isImplicit isDotted : Bool) (entries : List (String × Node))
  /-- An array of tables, which headers in double brackets add to. -/
  | tables (elements : List (List (String × Node)))

structure Table where
  /-- Whether it is mentioned, but not opened by a header. -/
  isImplicit : Bool := false
  /-- Whether a dotted key mentions it. -/
  isDotted : Bool := false
  entries : List (String × Node) := []

mutual

/-- A node as a document; tables become objects. -/
def Node.toDocument : Node → Document
  | .value d => d
  | .table _ _ entries => .object (entryDocuments entries)
  | .tables elements => .array (elementDocuments elements)

def entryDocuments : List (String × Node) → List (String × Document)
  | [] => []
  | (name, node) :: entries => (name, node.toDocument) :: entryDocuments entries

def elementDocuments : List (List (String × Node)) → List Document
  | [] => []
  | entries :: elements => .object (entryDocuments entries) :: elementDocuments elements

end

/-- A table as an object. -/
def Table.toDocument (t : Table) : Document := .object (entryDocuments t.entries)

namespace Table

def find? (t : Table) (key : String) : Option Node := (t.entries.find? (·.1 == key)).map (·.2)

/-- Binds a key, in the place of what it was bound to. -/
def put (t : Table) (key : String) (node : Node) : Table :=
  if t.entries.any (·.1 == key) then
    { t with entries := t.entries.map fun e => if e.1 = key then (key, node) else e }
  else { t with entries := t.entries ++ [(key, node)] }

def erase (t : Table) (key : String) : Table :=
  { t with entries := t.entries.filter (·.1 ≠ key) }

/-- Changes the table at the end of a path. Of an array of tables the last one is meant. A dotted
key must not go through a table that a header opened. -/
def updateAt {α : Type} (dotted : Bool) (f : Table → Option (α × Table)) :
    (path : List String) → Table → Option (α × Table)
  | [], t => f t
  | key :: path, t =>
    match t.find? key with
    | none => do
      let (a, child) ← updateAt dotted f path { isImplicit := true, isDotted := dotted }
      return (a, t.put key (.table child.isImplicit child.isDotted child.entries))
    | some (.value _) => none
    | some (.table isImplicit isDotted entries) =>
      if dotted && !isImplicit then none
      else do
        let (a, child) ← updateAt dotted f path { isImplicit, isDotted, entries }
        return (a, t.put key (.table child.isImplicit child.isDotted child.entries))
    | some (.tables elements) =>
      match elements.getLast? with
      | none => none
      | some entries => do
        let (a, child) ← updateAt dotted f path { entries }
        return (a, t.put key (.tables (elements.dropLast ++ [child.entries])))

/-- Binds a dotted key, which must be new. The tables on its way belong to dotted keys, and a table
that a dotted key mentions takes dotted keys only. -/
def bind? (t : Table) (path : List String) (key : String) (value : Document) : Option Table :=
  (t.updateAt true (fun t =>
    if t.isDotted = path.isEmpty || (t.find? key).isSome then none
    else some ((), t.put key (.value value))) path).map (·.2)

/-- The object of an inline table with the given dotted keys. -/
def inlineObject? (bindings : List (List String × String × Document)) : Option Document :=
  (bindings.foldlM (fun t b => Table.bind? t b.1 b.2.1 b.2.2) {}).map Table.toDocument

end Table

/-- The tree so far, without the table that is open, and that table with its place. -/
structure Tree where
  root : Table := {}
  current : Table := {}
  path : List String := []
  key : Option String := none
  isElement : Bool := false

namespace Tree

/-- Puts the open table into its place. -/
def close? (t : Tree) : Option Table :=
  match t.key with
  | none => some t.current
  | some key =>
    (t.root.updateAt false (fun parent =>
      if t.isElement then
        match parent.find? key with
        | some (.tables elements) =>
          some ((), parent.put key (.tables (elements ++ [t.current.entries])))
        | _ => none
      else some ((), parent.put key
        (.table t.current.isImplicit t.current.isDotted t.current.entries))) t.path).map (·.2)

/-- Opens the table of a header, which may be there already if it is implicit. -/
def openTable? (t : Tree) (path : List String) (key : String) : Option Tree := do
  let root ← t.close?
  let (entries, root) ← root.updateAt false (fun parent =>
    match parent.find? key with
    | none => some ([], parent)
    | some (.table true false entries) => some (entries, parent.erase key)
    | some _ => none) path
  return { root, current := { entries }, path, key := some key }

/-- Opens a new table of an array of tables. -/
def openElement? (t : Tree) (path : List String) (key : String) : Option Tree := do
  let root ← t.close?
  let (_, root) ← root.updateAt false (fun parent =>
    match parent.find? key with
    | none => some ((), parent.put key (.tables []))
    | some (.tables _) => some ((), parent)
    | some _ => none) path
  return { root, path, key := some key, isElement := true }

/-- Binds a dotted key in the open table. -/
def bind? (t : Tree) (path : List String) (key : String) (value : Document) : Option Tree := do
  return { t with current := ← t.current.bind? path key value }

end Tree

end Tabletop.Toml
