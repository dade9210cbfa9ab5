import Tabletop.Catalog.Basic
import Tabletop.Proofs.Computation
import Tabletop.Proofs.NameMap
/-!
# Reading the files of a catalogue

Files are added one after the other, and items that have an owner wait until all files are read.
Adding files succeeds exactly if the catalogue admits them, whatever was added before, and the
catalogue that it builds is a function of what the files declare.
-/

namespace Tabletop

/-! ## Validation -/

/-- What can be rolled: each formula that is not blank can be read, and the extra damage is a line
of the item. -/
structure Item.Valid (item : Item) : Prop where
  formulas : ∀ text ∈ item.formulas, Text.blank text = false → ∃ f, Formula.parse text = .ok f
  extraDamage : ∀ index ∈ item.crit.extraDamage, index < item.damage.parts.length

namespace Item

variable {item : Item}

theorem validateFormulas_eq_ok_iff {texts : List String} :
    item.validateFormulas texts = .ok () ↔
      ∀ text ∈ texts, Text.blank text = false → ∃ f, Formula.parse text = .ok f := by
  induction texts with
  | nil => simp [validateFormulas]
  | cons text texts ih =>
    rw [List.forall_mem_cons, ← ih, validateFormulas]
    cases blank : Text.blank text with
    | true => simp
    | false =>
      cases Formula.parse text with
      | error e => simp
      | ok f => simp

theorem validate_eq_ok_iff : item.validate = .ok () ↔ item.Valid := by
  unfold validate
  rw [bind_check_eq_ok_iff]
  constructor
  · rintro ⟨read, h⟩
    refine ⟨validateFormulas_eq_ok_iff.1 read, fun index extra => ?_⟩
    rw [Option.mem_def.1 extra] at h
    by_contra outside
    simp only [if_neg outside] at h
    cases h
  · rintro ⟨formulas, extraDamage⟩
    refine ⟨validateFormulas_eq_ok_iff.2 formulas, ?_⟩
    cases extra : item.crit.extraDamage with
    | none => rfl
    | some index => exact if_pos (extraDamage index extra)

theorem forM_validate_eq_ok_iff {items : List Item} :
    items.forM validate = .ok () ↔ ∀ item ∈ items, item.Valid := by
  induction items with
  | nil => simp; rfl
  | cons item items ih =>
    rw [List.forall_mem_cons, ← ih, ← validate_eq_ok_iff]
    exact bind_check_eq_ok_iff

end Item

/-! ## Declarations -/

/-- The items without an owner. -/
def unowned (entries : List CatalogItem) : List Item :=
  (entries.filter (·.owner.isNone)).map (·.item)

/-- The items of an owner. -/
def ownedBy (owner : String) (entries : List CatalogItem) : List Item :=
  (entries.filter (·.owner == some owner)).map (·.item)

/-- The items that wait for their owners. -/
def waiting (path : String) (entries : List CatalogItem) : List PendingItem :=
  entries.filterMap fun entry => entry.owner.map fun owner => ⟨path, owner, entry.item⟩

namespace Catalog

/-- The actors that files declare. -/
def actorsOf (files : List (String × CatalogFile)) : List Actor := files.flatMap (·.2.actors)

/-- The items that files declare outside of actors. -/
def entriesOf (files : List (String × CatalogFile)) : List CatalogItem := files.flatMap (·.2.items)

/-- The items that files declare without an owner. -/
def libraryOf (files : List (String × CatalogFile)) : List Item := unowned (entriesOf files)

/-- The items that files declare for an owner, in the order of the files. -/
def belongings (files : List (String × CatalogFile)) (owner : String) : List Item :=
  ownedBy owner (entriesOf files)

/-- All items that files declare, in inventories or outside of them. -/
def itemsOf (files : List (String × CatalogFile)) : List Item :=
  (actorsOf files).flatMap (·.items) ++ (entriesOf files).map (·.item)

/-- Where actors are declared. -/
def sourcesOf (files : List (String × CatalogFile)) : List (String × String) :=
  files.flatMap fun f => f.2.actors.map fun a => (a.id, f.1)

/-- The items that wait for their owners once all files are read. -/
def waitingOf (files : List (String × CatalogFile)) : List PendingItem :=
  files.flatMap fun f => waiting f.1 f.2.items

/-- The catalogue with all that files declare, but for the items that wait. -/
def withFiles (c : Catalog) (files : List (String × CatalogFile)) : Catalog where
  actors := c.actors.insertAll (NameMap.keyed Actor.id (actorsOf files))
  items := c.items.insertAll (NameMap.keyed Item.id (libraryOf files))
  sources := c.sources.insertAll (sourcesOf files)

/-! ## Reading files -/

variable {c c' : Catalog} {path : String}

/-- What is refused for names that are taken goes on exactly if the name is new. -/
theorem unless_contains_eq_ok_iff {ε α β : Type} {m : NameMap β} {name : String} {e : ε}
    {rest : Except ε α} {a : α} :
    (do
      if m.contains name then throw e
      rest) = .ok a ↔ m.get? name = none ∧ rest = .ok a := by
  unfold NameMap.contains
  cases m.get? name with
  | none => exact ⟨fun h => ⟨rfl, h⟩, fun h => h.2⟩
  | some value =>
    constructor
    · rintro ⟨⟩
    · rintro ⟨⟨⟩, -⟩

theorem addActors_eq_ok_iff {actors : List Actor} :
    addActors path actors c = .ok c' ↔
      (∀ actor ∈ actors, ∀ item ∈ actor.items, item.Valid) ∧
        c.actors.Fresh (actors.map (·.id)) ∧
        c' = { c with
          actors := c.actors.insertAll (NameMap.keyed Actor.id actors)
          sources := c.sources.insertAll (actors.map fun a => (a.id, path)) } := by
  induction actors generalizing c with
  | nil =>
    constructor
    · rintro ⟨⟩
      exact ⟨List.forall_mem_nil _, NameMap.fresh_nil _, rfl⟩
    · rintro ⟨-, -, rfl⟩
      rfl
  | cons actor actors ih =>
    rw [addActors, bind_check_eq_ok_iff, Item.forM_validate_eq_ok_iff, List.forall_mem_cons,
      List.map_cons, NameMap.fresh_cons_iff actor]
    refine (and_congr_right fun _ => unless_contains_eq_ok_iff).trans ?_
    rw [ih]
    constructor
    · rintro ⟨first, free, rest, fresh, rfl⟩
      exact ⟨⟨first, rest⟩, ⟨free, fresh⟩, rfl⟩
    · rintro ⟨⟨first, rest⟩, ⟨free, fresh⟩, rfl⟩
      exact ⟨first, free, rest, fresh, rfl⟩

theorem addItems_eq_ok_iff {entries : List CatalogItem} {pending : List PendingItem} :
    addItems path entries c = .ok (c', pending) ↔
      (∀ entry ∈ entries, entry.item.Valid) ∧ c.items.Fresh ((unowned entries).map (·.id)) ∧
        c' = { c with items := c.items.insertAll (NameMap.keyed Item.id (unowned entries)) } ∧
        pending = waiting path entries := by
  induction entries generalizing c c' pending with
  | nil =>
    constructor
    · rintro ⟨⟩
      exact ⟨List.forall_mem_nil _, NameMap.fresh_nil _, rfl, rfl⟩
    · rintro ⟨-, -, rfl, rfl⟩
      rfl
  | cons entry entries ih =>
    obtain ⟨owner, item⟩ := entry
    rw [addItems, bind_check_eq_ok_iff, Item.validate_eq_ok_iff, List.forall_mem_cons]
    cases owner with
    | some owner =>
      -- the item waits, and leaves the library as it was
      simp only
      rw [bind_eq_ok_iff]
      constructor
      · rintro ⟨first, ⟨d, later⟩, added, made⟩
        obtain ⟨rest, fresh, rfl, rfl⟩ := ih.1 added
        cases made
        exact ⟨⟨first, rest⟩, fresh, rfl, rfl⟩
      · rintro ⟨⟨first, rest⟩, fresh, rfl, rfl⟩
        exact ⟨first, _, ih.2 ⟨rest, fresh, rfl, rfl⟩, rfl⟩
    | none =>
      have listed : (unowned (⟨none, item⟩ :: entries)).map (·.id) =
          item.id :: (unowned entries).map (·.id) := rfl
      rw [listed, NameMap.fresh_cons_iff item]
      refine (and_congr_right fun _ => unless_contains_eq_ok_iff).trans ?_
      rw [ih]
      constructor
      · rintro ⟨first, free, rest, fresh, rfl, rfl⟩
        exact ⟨⟨first, rest⟩, ⟨free, fresh⟩, rfl, rfl⟩
      · rintro ⟨⟨first, rest⟩, ⟨free, fresh⟩, rfl, rfl⟩
        exact ⟨first, free, rest, fresh, rfl, rfl⟩

/-- What has to hold of files so that they can be added to a catalogue. -/
@[mk_iff]
structure Admits (c : Catalog) (files : List (String × CatalogFile)) : Prop where
  inventories : ∀ actor ∈ actorsOf files, ∀ item ∈ actor.items, item.Valid
  entries : ∀ entry ∈ entriesOf files, entry.item.Valid
  actors : c.actors.Fresh ((actorsOf files).map (·.id))
  library : c.items.Fresh ((libraryOf files).map (·.id))

variable {file : String × CatalogFile} {files : List (String × CatalogFile)}

theorem actorsOf_cons : actorsOf (file :: files) = file.2.actors ++ actorsOf files :=
  List.flatMap_cons

theorem entriesOf_cons : entriesOf (file :: files) = file.2.items ++ entriesOf files :=
  List.flatMap_cons

theorem libraryOf_cons : libraryOf (file :: files) = unowned file.2.items ++ libraryOf files := by
  unfold libraryOf unowned
  rw [entriesOf_cons, List.filter_append, List.map_append]

theorem actorsOf_singleton : actorsOf [file] = file.2.actors := List.flatMap_singleton _ _

theorem entriesOf_singleton : entriesOf [file] = file.2.items := List.flatMap_singleton _ _

theorem libraryOf_singleton : libraryOf [file] = unowned file.2.items := by
  unfold libraryOf
  rw [entriesOf_singleton]

theorem withFiles_singleton (c : Catalog) (file : String × CatalogFile) :
    c.withFiles [file] =
      { actors := c.actors.insertAll (NameMap.keyed Actor.id file.2.actors)
        items := c.items.insertAll (NameMap.keyed Item.id (unowned file.2.items))
        sources := c.sources.insertAll (file.2.actors.map fun a => (a.id, file.1)) } := by
  unfold withFiles sourcesOf
  rw [actorsOf_singleton, libraryOf_singleton, List.flatMap_singleton]

/-- Files are added one after the other. -/
theorem withFiles_cons (c : Catalog) (file : String × CatalogFile)
    (files : List (String × CatalogFile)) :
    c.withFiles (file :: files) = (c.withFiles [file]).withFiles files := by
  rw [withFiles_singleton]
  unfold withFiles sourcesOf
  simp only [actorsOf_cons, libraryOf_cons, NameMap.keyed_append, List.flatMap_cons,
    NameMap.insertAll_append]

theorem admits_singleton_iff : c.Admits [file] ↔
    (∀ actor ∈ file.2.actors, ∀ item ∈ actor.items, item.Valid) ∧
      (∀ entry ∈ file.2.items, entry.item.Valid) ∧
      c.actors.Fresh (file.2.actors.map (·.id)) ∧
      c.items.Fresh ((unowned file.2.items).map (·.id)) := by
  rw [admits_iff, actorsOf_singleton, entriesOf_singleton, libraryOf_singleton]

/-- Files are admitted if the first one is, and the others once it was added. -/
theorem admits_cons_iff :
    c.Admits (file :: files) ↔ c.Admits [file] ∧ (c.withFiles [file]).Admits files := by
  rw [admits_singleton_iff, withFiles_singleton, admits_iff, admits_iff, actorsOf_cons,
    entriesOf_cons, libraryOf_cons, List.forall_mem_append, List.forall_mem_append,
    NameMap.fresh_keyed_append_iff, NameMap.fresh_keyed_append_iff]
  constructor
  · rintro ⟨⟨inventory, inventories⟩, ⟨entry, entries⟩, ⟨actor, actors⟩, item, items⟩
    exact ⟨⟨inventory, entry, actor, item⟩, inventories, entries, actors, items⟩
  · rintro ⟨⟨inventory, entry, actor, item⟩, inventories, entries, actors, items⟩
    exact ⟨⟨inventory, inventories⟩, ⟨entry, entries⟩, ⟨actor, actors⟩, item, items⟩

theorem addFile_eq_ok_iff {pending : List PendingItem} :
    addFile file.1 file.2 c = .ok (c', pending) ↔
      c.Admits [file] ∧ c' = c.withFiles [file] ∧ pending = waitingOf [file] := by
  have waits : waitingOf [file] = waiting file.1 file.2.items := List.flatMap_singleton _ _
  unfold addFile
  rw [mapError_eq_ok_iff, bind_eq_ok_iff, admits_singleton_iff, withFiles_singleton, waits]
  constructor
  · rintro ⟨d, actors, items⟩
    obtain ⟨inventories, fresh, rfl⟩ := addActors_eq_ok_iff.1 actors
    obtain ⟨entries, free, rfl, rfl⟩ := addItems_eq_ok_iff.1 items
    exact ⟨⟨inventories, entries, fresh, free⟩, rfl, rfl⟩
  · rintro ⟨⟨inventories, entries, fresh, free⟩, rfl, rfl⟩
    exact ⟨_, addActors_eq_ok_iff.2 ⟨inventories, fresh, rfl⟩,
      addItems_eq_ok_iff.2 ⟨entries, free, rfl, rfl⟩⟩

/-- Files that can be read. -/
def decoded (files : List (String × CatalogFile)) :
    List (String × Except LoadError CatalogFile) := files.map fun f => (f.1, .ok f.2)

/-- Reading succeeds exactly for files that are admitted, and adds all that they declare. -/
theorem addFiles_eq_ok_iff {pending : List PendingItem} :
    addFiles (decoded files) c = .ok (c', pending) ↔
      c.Admits files ∧ c' = c.withFiles files ∧ pending = waitingOf files := by
  induction files generalizing c c' pending with
  | nil =>
    constructor
    · rintro ⟨⟩
      exact ⟨⟨List.forall_mem_nil _, List.forall_mem_nil _, NameMap.fresh_nil _,
        NameMap.fresh_nil _⟩, rfl, rfl⟩
    · rintro ⟨-, rfl, rfl⟩
      rfl
  | cons file files ih =>
    have first : addFiles (decoded (file :: files)) c = (addFile file.1 file.2 c >>= fun r =>
        addFiles (decoded files) r.1 >>= fun rest => pure (rest.1, r.2 ++ rest.2)) := rfl
    have waits : waitingOf (file :: files) = waitingOf [file] ++ waitingOf files := by
      unfold waitingOf
      rw [List.flatMap_cons, List.flatMap_singleton]
    rw [first, bind_eq_ok_iff, withFiles_cons c file files, admits_cons_iff, waits]
    constructor
    · rintro ⟨⟨d, pending⟩, added, h⟩
      obtain ⟨admitted, rfl, rfl⟩ := addFile_eq_ok_iff.1 added
      obtain ⟨⟨d, more⟩, others, h⟩ := bind_eq_ok_iff.1 h
      obtain ⟨rest, rfl, rfl⟩ := ih.1 others
      cases h
      exact ⟨⟨admitted, rest⟩, rfl, rfl⟩
    · rintro ⟨⟨admitted, rest⟩, rfl, rfl⟩
      exact ⟨_, addFile_eq_ok_iff.2 ⟨admitted, rfl, rfl⟩,
        bind_eq_ok_iff.2 ⟨_, ih.2 ⟨rest, rfl, rfl⟩, rfl⟩⟩

end Catalog

end Tabletop
