import Tabletop.Formula.Parser
import Tabletop.Sheet.Actor
/-!
# Catalogues

Actors and a library of items, put together from any number of files. A file lists actors and
items; an item that names an owner goes into the inventory of that actor, whichever file the actor
is in, and the others make up the library.
-/

namespace Tabletop

/-- An item of a file. -/
structure CatalogItem where
  /-- The actor whose inventory it goes into. -/
  owner : Option String := none
  item : Item
deriving DecidableEq

/-- The contents of one file. -/
structure CatalogFile where
  actors : List Actor := []
  items : List CatalogItem := []
deriving DecidableEq

/-- What is wrong with the contents of a file. -/
inductive CatalogProblem where
  | badFormula (item formula : String) (error : FormulaError)
  | extraDamageOutOfRange (item : String) (index lines : Nat)
  | duplicateActor (id : String)
  | duplicateItem (id : String)
  | unknownOwner (item owner : String)
  | alreadyOwned (owner item : String)
deriving DecidableEq

def CatalogProblem.message : CatalogProblem → String
  | badFormula item formula error =>
    "item '" ++ item ++ "' has a bad formula '" ++ formula ++ "': " ++ error.message
  | extraDamageOutOfRange item index lines =>
    "item '" ++ item ++ "' crit extra damage line " ++ toString index ++ " is out of range (" ++
      toString lines ++ " lines)"
  | duplicateActor id => "duplicate actor '" ++ id ++ "'"
  | duplicateItem id => "duplicate item '" ++ id ++ "'"
  | unknownOwner item owner => "item '" ++ item ++ "' names unknown owner '" ++ owner ++ "'"
  | alreadyOwned owner item => "actor '" ++ owner ++ "' already owns item '" ++ item ++ "'"

/-- Why a catalogue cannot be loaded, and the path of the file or directory that is to blame. -/
inductive LoadError where
  | unreadable (path : String)
  | malformed (path : String)
  | invalid (problem : CatalogProblem) (path : String)
deriving DecidableEq

/-- What a catalogue is asked for and does not have. -/
inductive CatalogError where
  | unknownActor (id : String)
  | unknownItem (id : String)
deriving DecidableEq

def CatalogError.message : CatalogError → String
  | unknownActor id => "Unknown actor: " ++ id
  | unknownItem id => "Unknown item: " ++ id

/-- All formulas of an item that are rolled by themselves. -/
def Item.formulas (item : Item) : List String :=
  item.damage.parts.map (·.formula) ++ item.damage.versatile.toList ++ item.formula.toList ++
    item.crit.bonusDice.toList

/-- Refuses formulas that cannot be read; blank ones are left alone. -/
def Item.validateFormulas (item : Item) : List String → Except CatalogProblem Unit
  | [] => .ok ()
  | text :: texts =>
    if Text.blank text then item.validateFormulas texts
    else
      match Formula.parse text with
      | .ok _ => item.validateFormulas texts
      | .error e => .error (.badFormula item.id text e)

/-- Refuses an item that can never be rolled. -/
def Item.validate (item : Item) : Except CatalogProblem Unit := do
  item.validateFormulas item.formulas
  match item.crit.extraDamage with
  | some index =>
    if index < item.damage.parts.length then return ()
    else throw (.extraDamageOutOfRange item.id index item.damage.parts.length)
  | none => return ()

/-- An item that waits for its owner. -/
structure PendingItem where
  path : String
  owner : String
  item : Item
deriving DecidableEq

structure Catalog where
  actors : NameMap Actor := ∅
  /-- The library. -/
  items : NameMap Item := ∅
  /-- The path of the file of each actor. -/
  sources : NameMap String := ∅

namespace Catalog

def actor (c : Catalog) (id : String) : Except CatalogError Actor :=
  match c.actors.get? id with
  | some actor => .ok actor
  | none => .error (.unknownActor id)

def item (c : Catalog) (id : String) : Except CatalogError Item :=
  match c.items.get? id with
  | some item => .ok item
  | none => .error (.unknownItem id)

/-- Puts an actor in the place of the one with its id. -/
def setActor (c : Catalog) (id : String) (actor : Actor) : Catalog :=
  { c with actors := c.actors.modify id fun _ => actor }

/-- Copies an item of the library into an inventory, unless it is there already. -/
def handOut (actorId itemId : String) : ExceptT CatalogError (StateM Catalog) Unit := do
  let item ← (← get).item itemId
  let actor ← (← get).actor actorId
  if (actor.item? itemId).isNone then
    modify (·.setActor actorId (actor.withItem item))

/-- Hands an item out; what comes back is the catalogue after it. -/
def give (c : Catalog) (actorId itemId : String) : Except CatalogError Catalog :=
  let (result, after) := (handOut actorId itemId).run.run c
  result.map fun _ => after

/-- Adds the actors of a file. -/
def addActors (path : String) : List Actor → Catalog → Except CatalogProblem Catalog
  | [], c => .ok c
  | actor :: actors, c => do
    actor.items.forM Item.validate
    if c.actors.contains actor.id then throw (.duplicateActor actor.id)
    addActors path actors
      { c with
        actors := c.actors.insert actor.id actor
        sources := c.sources.insert actor.id path }

/-- Adds the items of a file. Those that have an owner are handed back, to wait for it. -/
def addItems (path : String) : List CatalogItem → Catalog →
    Except CatalogProblem (Catalog × List PendingItem)
  | [], c => .ok (c, [])
  | entry :: entries, c => do
    entry.item.validate
    match entry.owner with
    | some owner =>
      let (c, pending) ← addItems path entries c
      return (c, ⟨path, owner, entry.item⟩ :: pending)
    | none =>
      if c.items.contains entry.item.id then throw (.duplicateItem entry.item.id)
      addItems path entries { c with items := c.items.insert entry.item.id entry.item }

/-- Adds a file. -/
def addFile (path : String) (file : CatalogFile) (c : Catalog) :
    Except LoadError (Catalog × List PendingItem) :=
  (do addItems path file.items (← addActors path file.actors c)).mapError (.invalid · path)

/-- Puts items into the inventories of their owners. -/
def assign : List PendingItem → Catalog → Except LoadError Catalog
  | [], c => .ok c
  | p :: pending, c =>
    match c.actors.get? p.owner with
    | none => .error (.invalid (.unknownOwner p.item.id p.owner) p.path)
    | some actor =>
      if (actor.item? p.item.id).isSome then
        .error (.invalid (.alreadyOwned p.owner p.item.id) p.path)
      else assign pending (c.setActor p.owner (actor.withItem p.item))

/-- Adds files in order; what a file holds is asked for only when it is its turn. -/
def addFiles : List (String × Except LoadError CatalogFile) → Catalog →
    Except LoadError (Catalog × List PendingItem)
  | [], c => .ok (c, [])
  | (path, file) :: files, c => do
    let (c, pending) ← addFile path (← file) c
    let (c, more) ← addFiles files c
    return (c, pending ++ more)

/-- The catalogue of files that are given in order. -/
def ofFiles (files : List (String × Except LoadError CatalogFile)) : Except LoadError Catalog := do
  let (c, pending) ← addFiles files {}
  assign pending c

end Catalog

end Tabletop
