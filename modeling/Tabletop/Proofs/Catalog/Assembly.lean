import Mathlib
import Tabletop.Proofs.Catalog.Loading
import Tabletop.Proofs.Catalog.Ownership
/-!
# What becomes of the files of a catalogue

Files are checked while they are added, and owners are looked for once all of them were. Whether
that succeeds is a matter of what the files declare, wherever they declare it, and so is what the
catalogue holds then, but for the order of the items that were assigned.
-/

namespace Tabletop.Catalog

/-- Files whose declarations go together. -/
structure Consistent (files : List (String × CatalogFile)) : Prop where
  /-- All items can be rolled. -/
  valid : ∀ item ∈ itemsOf files, item.Valid
  actors : ((actorsOf files).map (·.id)).Nodup
  library : ((libraryOf files).map (·.id)).Nodup
  /-- Owners are declared, in whatever file. -/
  owners : ∀ entry ∈ entriesOf files, ∀ owner ∈ entry.owner, owner ∈ (actorsOf files).map (·.id)
  /-- No item of an owner has the id of another one, or of one that the owner has already. -/
  inventories : ∀ actor ∈ actorsOf files, actor.Accepts (belongings files actor.id)

/-- The catalogue that holds what files declare, and nothing else. -/
structure Assembled (files : List (String × CatalogFile)) (c : Catalog) : Prop where
  /-- Each actor has its own items first, and then those that name it as their owner. -/
  actors : ∀ id actor, c.actors.get? id = some actor ↔
    ∃ declared ∈ actorsOf files, declared.id = id ∧
      actor = declared.withItems (belongings files id)
  /-- Each actor is traced back to its file. -/
  sources : ∀ id path, c.sources.get? id = some path ↔
    ∃ file ∈ files, file.1 = path ∧ id ∈ file.2.actors.map (·.id)
  /-- The library holds the items without an owner. -/
  library : ∀ id item, c.items.get? id = some item ↔ item ∈ libraryOf files ∧ item.id = id
  /-- Each item is in one place. -/
  places : (c.actors.entries.flatMap (·.2.items) ++ c.items.entries.map (·.2)).Perm (itemsOf files)

/-- Two catalogues of the same files, in whatever order: they differ at most in the order of the
items that were assigned. -/
structure Reordered (files : List (String × CatalogFile)) (c c' : Catalog) : Prop where
  library : c'.items = c.items
  sources : c'.sources = c.sources
  actors : ∀ id, Option.Rel
    (fun actor actor' => ∃ declared ∈ actorsOf files, ∃ owned owned', declared.id = id ∧
      actor = declared.withItems owned ∧ actor' = declared.withItems owned' ∧ owned.Perm owned')
    (c.actors.get? id) (c'.actors.get? id)

variable {files files' : List (String × CatalogFile)}

/-! ## What waits -/

theorem ownedBy_cons (owner : String) (entry : CatalogItem) (entries : List CatalogItem) :
    ownedBy owner (entry :: entries) =
      if entry.owner = some owner then entry.item :: ownedBy owner entries
      else ownedBy owner entries := by
  unfold ownedBy
  by_cases same : entry.owner = some owner
  · rw [if_pos same, List.filter_cons_of_pos (by simpa using same), List.map_cons]
  · rw [if_neg same, List.filter_cons_of_neg (by simpa using same)]

theorem waitingFor_waiting (owner path : String) (entries : List CatalogItem) :
    waitingFor owner (waiting path entries) = ownedBy owner entries := by
  induction entries with
  | nil => rfl
  | cons entry entries ih =>
    obtain ⟨other, item⟩ := entry
    cases other with
    | none => exact ih
    | some other =>
      have listed : waiting path (⟨some other, item⟩ :: entries) =
          ⟨path, other, item⟩ :: waiting path entries := rfl
      rw [listed, waitingFor_cons, ownedBy_cons, ih]
      simp only [Option.some.injEq]

/-- What waits for an owner are its belongings, in the same order. -/
theorem waitingFor_waitingOf (owner : String) :
    waitingFor owner (waitingOf files) = belongings files owner := by
  induction files with
  | nil => rfl
  | cons file files ih =>
    have first := waitingFor_waiting owner file.1 file.2.items
    unfold waitingFor at first ih ⊢
    unfold belongings ownedBy at ih ⊢
    unfold waitingOf at ih ⊢
    rw [List.flatMap_cons, List.filter_append, List.map_append, ih, first, entriesOf_cons,
      List.filter_append, List.map_append]
    rfl

theorem forall_mem_waitingOf_iff {P : String → Prop} :
    (∀ p ∈ waitingOf files, P p.owner) ↔
      ∀ entry ∈ entriesOf files, ∀ owner ∈ entry.owner, P owner := by
  unfold waitingOf waiting entriesOf
  simp only [List.mem_flatMap, List.mem_filterMap, Option.map_eq_some_iff, Option.mem_def]
  constructor
  · rintro h entry ⟨file, listed, mem⟩ owner named
    exact h ⟨file.1, owner, entry.item⟩ ⟨file, listed, entry, mem, owner, named, rfl⟩
  · rintro h p ⟨file, listed, entry, mem, owner, named, rfl⟩
    exact h entry ⟨file, listed, mem⟩ owner named

theorem forall_mem_itemsOf_iff {P : Item → Prop} :
    (∀ item ∈ itemsOf files, P item) ↔
      (∀ actor ∈ actorsOf files, ∀ item ∈ actor.items, P item) ∧
        ∀ entry ∈ entriesOf files, P entry.item := by
  unfold itemsOf
  rw [List.forall_mem_append, List.forall_mem_flatMap, List.forall_mem_map]

/-! ## When files can be loaded -/

/-- The catalogue once all files are read, before any item is assigned. -/
abbrev read (files : List (String × CatalogFile)) : Catalog := ({} : Catalog).withFiles files

theorem get?_read_actors (apart : ((actorsOf files).map (·.id)).Nodup) {id : String}
    {actor : Actor} :
    (read files).actors.get? id = some actor ↔ actor ∈ actorsOf files ∧ actor.id = id := by
  have fresh : (∅ : NameMap Actor).Fresh ((NameMap.keyed Actor.id (actorsOf files)).map (·.1)) := by
    rw [NameMap.names_keyed, NameMap.fresh_empty_iff]
    exact apart
  refine (NameMap.get?_insertAll_eq_some_iff fresh).trans ?_
  rw [NameMap.mem_keyed_iff, NameMap.get?_empty]
  simp

theorem isSome_get?_read_actors (apart : ((actorsOf files).map (·.id)).Nodup) {id : String} :
    ((read files).actors.get? id).isSome ↔ id ∈ (actorsOf files).map (·.id) := by
  rw [Option.isSome_iff_exists, List.mem_map]
  simp only [get?_read_actors apart]

theorem admits_empty_iff : ({} : Catalog).Admits files ↔
    (∀ item ∈ itemsOf files, item.Valid) ∧ ((actorsOf files).map (·.id)).Nodup ∧
      ((libraryOf files).map (·.id)).Nodup := by
  rw [forall_mem_itemsOf_iff]
  constructor
  · rintro ⟨inventories, entries, actors, library⟩
    exact ⟨⟨inventories, entries⟩, actors.apart, library.apart⟩
  · rintro ⟨⟨inventories, entries⟩, actors, library⟩
    exact ⟨inventories, entries, NameMap.fresh_empty_iff.2 actors,
      NameMap.fresh_empty_iff.2 library⟩

theorem assignable_read_iff (apart : ((actorsOf files).map (·.id)).Nodup) :
    Assignable (read files).actors (waitingOf files) ↔
      (∀ entry ∈ entriesOf files, ∀ owner ∈ entry.owner, owner ∈ (actorsOf files).map (·.id)) ∧
        ∀ actor ∈ actorsOf files, actor.Accepts (belongings files actor.id) := by
  constructor
  · rintro ⟨owned, accepted⟩
    constructor
    · exact forall_mem_waitingOf_iff.1 fun p mem => (isSome_get?_read_actors apart).1 (owned p mem)
    · intro actor mem
      have accepts := accepted actor.id actor ((get?_read_actors apart).2 ⟨mem, rfl⟩)
      rw [waitingFor_waitingOf] at accepts
      exact accepts
  · rintro ⟨owners, inventories⟩
    constructor
    · intro p mem
      exact (isSome_get?_read_actors apart).2 (forall_mem_waitingOf_iff.2 owners p mem)
    · intro id actor found
      obtain ⟨mem, rfl⟩ := (get?_read_actors apart).1 found
      rw [waitingFor_waitingOf]
      exact inventories actor mem

theorem consistent_iff : Consistent files ↔
    ({} : Catalog).Admits files ∧ Assignable (read files).actors (waitingOf files) := by
  constructor
  · rintro ⟨valid, actors, library, owners, inventories⟩
    exact ⟨admits_empty_iff.2 ⟨valid, actors, library⟩,
      (assignable_read_iff actors).2 ⟨owners, inventories⟩⟩
  · rintro ⟨admitted, assignable⟩
    obtain ⟨valid, actors, library⟩ := admits_empty_iff.1 admitted
    obtain ⟨owners, inventories⟩ := (assignable_read_iff actors).1 assignable
    exact ⟨valid, actors, library, owners, inventories⟩

theorem ofFiles_eq_ok_iff {c : Catalog} : ofFiles (decoded files) = .ok c ↔
    ({} : Catalog).Admits files ∧ assign (waitingOf files) (read files) = .ok c := by
  unfold ofFiles
  rw [bind_eq_ok_iff]
  constructor
  · rintro ⟨⟨d, pending⟩, added, assigned⟩
    obtain ⟨admitted, rfl, rfl⟩ := addFiles_eq_ok_iff.1 added
    exact ⟨admitted, assigned⟩
  · rintro ⟨admitted, assigned⟩
    exact ⟨_, addFiles_eq_ok_iff.2 ⟨admitted, rfl, rfl⟩, assigned⟩

/-- Files can be loaded exactly if their declarations go together. -/
theorem exists_ofFiles_iff : (∃ c, ofFiles (decoded files) = .ok c) ↔ Consistent files := by
  rw [consistent_iff]
  constructor
  · rintro ⟨c, loaded⟩
    obtain ⟨admitted, assigned⟩ := ofFiles_eq_ok_iff.1 loaded
    exact ⟨admitted, (assign_ok assigned).1⟩
  · rintro ⟨admitted, assignable⟩
    obtain ⟨c, assigned⟩ := exists_assign assignable
    exact ⟨c, ofFiles_eq_ok_iff.2 ⟨admitted, assigned⟩⟩

/-! ## What is loaded -/

/-- An entry of an owner goes to that one of them. -/
theorem flatMap_ownedBy_cons_perm {names : List String} (apart : names.Nodup) {owner : String}
    (known : owner ∈ names) (item : Item) (entries : List CatalogItem) :
    (names.flatMap (ownedBy · (⟨some owner, item⟩ :: entries))).Perm
      (item :: names.flatMap (ownedBy · entries)) := by
  obtain ⟨before, after, rfl⟩ := List.append_of_mem known
  have others : ∀ name ∈ before ++ after,
      ownedBy name (⟨some owner, item⟩ :: entries) = ownedBy name entries := by
    intro name mem
    rw [ownedBy_cons, if_neg]
    rintro ⟨⟩
    exact (List.nodup_middle.1 apart).notMem mem
  rw [List.forall_mem_append] at others
  rw [List.flatMap_append, List.flatMap_append, List.flatMap_cons, List.flatMap_cons,
    List.flatMap_congr others.1, List.flatMap_congr others.2, ownedBy_cons, if_pos rfl,
    List.cons_append]
  exact List.perm_middle

/-- The belongings of all owners and the library are all entries. -/
theorem flatMap_ownedBy_perm {names : List String} (apart : names.Nodup)
    {entries : List CatalogItem}
    (known : ∀ entry ∈ entries, ∀ owner ∈ entry.owner, owner ∈ names) :
    (names.flatMap (ownedBy · entries) ++ unowned entries).Perm (entries.map (·.item)) := by
  induction entries with
  | nil => simp [ownedBy, unowned]
  | cons entry entries ih =>
    obtain ⟨first, rest⟩ := List.forall_mem_cons.1 known
    obtain ⟨owner, item⟩ := entry
    cases owner with
    | none =>
      have same : names.flatMap (ownedBy · (⟨none, item⟩ :: entries)) =
          names.flatMap (ownedBy · entries) := rfl
      rw [same]
      exact List.perm_middle.trans ((ih rest).cons item)
    | some owner =>
      have goes := flatMap_ownedBy_cons_perm apart (first owner rfl) item entries
      exact (goes.append_right _).trans ((ih rest).cons item)

theorem mem_sourcesOf_iff {id path : String} :
    (id, path) ∈ sourcesOf files ↔
      ∃ file ∈ files, file.1 = path ∧ id ∈ file.2.actors.map (·.id) := by
  unfold sourcesOf
  simp only [List.mem_flatMap, List.mem_map, Prod.mk.injEq]
  constructor
  · rintro ⟨file, listed, actor, mem, named, rfl⟩
    exact ⟨file, listed, rfl, actor, mem, named⟩
  · rintro ⟨file, listed, rfl, actor, mem, named⟩
    exact ⟨file, listed, actor, mem, named, rfl⟩

theorem names_sourcesOf : (sourcesOf files).map (·.1) = (actorsOf files).map (·.id) := by
  unfold sourcesOf actorsOf
  rw [List.map_flatMap, List.map_flatMap]
  exact List.flatMap_congr fun file _ => List.map_map

/-- The inventories hold what their actors declare and what waits for them. -/
theorem get?_actors_of_ofFiles {c : Catalog} (h : ofFiles (decoded files) = .ok c) (id : String)
    (actor : Actor) :
    c.actors.get? id = some actor ↔
      ∃ declared ∈ actorsOf files, declared.id = id ∧
        actor = declared.withItems (belongings files id) := by
  have apart := (exists_ofFiles_iff.1 ⟨c, h⟩).actors
  obtain ⟨-, assigned⟩ := ofFiles_eq_ok_iff.1 h
  rw [(assign_ok assigned).2.actors, waitingFor_waitingOf, Option.map_eq_some_iff]
  constructor
  · rintro ⟨declared, found, rfl⟩
    obtain ⟨mem, named⟩ := (get?_read_actors apart).1 found
    exact ⟨declared, mem, named, rfl⟩
  · rintro ⟨declared, mem, named, rfl⟩
    exact ⟨declared, (get?_read_actors apart).2 ⟨mem, named⟩, rfl⟩

theorem get?_sources_of_ofFiles {c : Catalog} (h : ofFiles (decoded files) = .ok c)
    (id path : String) :
    c.sources.get? id = some path ↔
      ∃ file ∈ files, file.1 = path ∧ id ∈ file.2.actors.map (·.id) := by
  have apart := (exists_ofFiles_iff.1 ⟨c, h⟩).actors
  obtain ⟨-, assigned⟩ := ofFiles_eq_ok_iff.1 h
  have fresh : (∅ : NameMap String).Fresh ((sourcesOf files).map (·.1)) := by
    rw [names_sourcesOf, NameMap.fresh_empty_iff]
    exact apart
  rw [(assign_ok assigned).2.sources, ← mem_sourcesOf_iff]
  refine (NameMap.get?_insertAll_eq_some_iff fresh).trans ?_
  simp

theorem get?_items_of_ofFiles {c : Catalog} (h : ofFiles (decoded files) = .ok c) (id : String)
    (item : Item) :
    c.items.get? id = some item ↔ item ∈ libraryOf files ∧ item.id = id := by
  have apart := (exists_ofFiles_iff.1 ⟨c, h⟩).library
  obtain ⟨-, assigned⟩ := ofFiles_eq_ok_iff.1 h
  have fresh : (∅ : NameMap Item).Fresh ((NameMap.keyed Item.id (libraryOf files)).map (·.1)) := by
    rw [NameMap.names_keyed, NameMap.fresh_empty_iff]
    exact apart
  rw [(assign_ok assigned).2.items]
  refine (NameMap.get?_insertAll_eq_some_iff fresh).trans ?_
  rw [NameMap.mem_keyed_iff, NameMap.get?_empty]
  simp

/-- Inventories and library together are all items of the files. -/
theorem places_of_ofFiles {c : Catalog} (h : ofFiles (decoded files) = .ok c) :
    (c.actors.entries.flatMap (·.2.items) ++ c.items.entries.map (·.2)).Perm (itemsOf files) := by
  obtain ⟨-, apart, library, owners, -⟩ := exists_ofFiles_iff.1 ⟨c, h⟩
  let inventories := (actorsOf files).map fun a => (a.id, a.withItems (belongings files a.id))
  have named : inventories.map (·.1) = (actorsOf files).map (·.id) := List.map_map
  have actors : c.actors.entries.Perm inventories := by
    refine NameMap.entries_perm (by rw [named]; exact apart) fun id actor => ?_
    rw [get?_actors_of_ofFiles h, List.mem_map]
    constructor
    · rintro ⟨declared, mem, rfl, rfl⟩
      exact ⟨declared, mem, rfl⟩
    · rintro ⟨declared, mem, ⟨⟩⟩
      exact ⟨declared, mem, rfl, rfl⟩
  have items : c.items.entries.Perm (NameMap.keyed Item.id (libraryOf files)) := by
    refine NameMap.entries_perm (by rw [NameMap.names_keyed]; exact library) fun id item => ?_
    rw [get?_items_of_ofFiles h, NameMap.mem_keyed_iff]
  have shelved : (c.items.entries.map (·.2)).Perm (libraryOf files) := by
    have valued := items.map (·.2)
    rw [NameMap.values_keyed] at valued
    exact valued
  have carried : (c.actors.entries.flatMap (·.2.items)).Perm
      ((actorsOf files).flatMap (·.items) ++
        ((actorsOf files).map (·.id)).flatMap (belongings files)) := by
    refine (actors.flatMap_right _).trans ?_
    rw [List.flatMap_map, List.flatMap_map]
    exact (List.flatMap_append_perm _ _ _).symm
  refine (carried.append shelved).trans ?_
  rw [List.append_assoc]
  exact (flatMap_ownedBy_perm apart owners).append_left _

/-- What is loaded is what the files declare. -/
theorem assembled_of_ofFiles {c : Catalog} (h : ofFiles (decoded files) = .ok c) :
    Assembled files c :=
  ⟨get?_actors_of_ofFiles h, get?_sources_of_ofFiles h, get?_items_of_ofFiles h,
    places_of_ofFiles h⟩

/-! ## Other orders of the files -/

section Perm

variable (same : files.Perm files')
include same

theorem actorsOf_perm : (actorsOf files).Perm (actorsOf files') := same.flatMap_right _

theorem entriesOf_perm : (entriesOf files).Perm (entriesOf files') := same.flatMap_right _

theorem libraryOf_perm : (libraryOf files).Perm (libraryOf files') :=
  ((entriesOf_perm same).filter _).map _

theorem belongings_perm (owner : String) :
    (belongings files owner).Perm (belongings files' owner) :=
  ((entriesOf_perm same).filter _).map _

theorem itemsOf_perm : (itemsOf files).Perm (itemsOf files') :=
  ((actorsOf_perm same).flatMap_right _).append ((entriesOf_perm same).map _)

/-- Whether declarations go together does not depend on the order of the files. -/
theorem Consistent.perm (h : Consistent files) : Consistent files' where
  valid item mem := h.valid item ((itemsOf_perm same).mem_iff.2 mem)
  actors := ((actorsOf_perm same).map _).nodup_iff.1 h.actors
  library := ((libraryOf_perm same).map _).nodup_iff.1 h.library
  owners entry mem owner named :=
    ((actorsOf_perm same).map _).mem_iff.1
      (h.owners entry ((entriesOf_perm same).mem_iff.2 mem) owner named)
  inventories actor mem := by
    obtain ⟨apart, new⟩ := h.inventories actor ((actorsOf_perm same).mem_iff.2 mem)
    have owned := belongings_perm same actor.id
    exact ⟨(owned.map _).nodup_iff.1 apart, fun item mem => new item (owned.mem_iff.2 mem)⟩

/-- Catalogues of the same files differ at most in the order of the items that were assigned. -/
theorem Assembled.reordered {c c' : Catalog} (h : Assembled files c) (h' : Assembled files' c') :
    Reordered files c c' := by
  refine ⟨NameMap.ext_get? fun id => ?_, NameMap.ext_get? fun id => ?_, fun id => ?_⟩
  · refine Option.ext fun item => ?_
    rw [h.library, h'.library, (libraryOf_perm same).mem_iff]
  · refine Option.ext fun path => ?_
    rw [h.sources, h'.sources]
    simp only [same.mem_iff]
  · -- an id that one catalogue knows is declared, and so the other one knows it too
    have held : ∀ declared ∈ actorsOf files, declared.id = id →
        c.actors.get? id = some (declared.withItems (belongings files id)) ∧
          c'.actors.get? id = some (declared.withItems (belongings files' id)) := by
      intro declared mem named
      exact ⟨(h.actors _ _).2 ⟨declared, mem, named, rfl⟩,
        (h'.actors _ _).2 ⟨declared, (actorsOf_perm same).mem_iff.1 mem, named, rfl⟩⟩
    by_cases known : ∃ declared ∈ actorsOf files, declared.id = id
    · obtain ⟨declared, mem, named⟩ := known
      rw [(held declared mem named).1, (held declared mem named).2]
      exact .some ⟨declared, mem, _, _, named, rfl, rfl, belongings_perm same id⟩
    · have absent : c.actors.get? id = none := by
        refine Option.eq_none_iff_forall_ne_some.2 fun actor found => known ?_
        obtain ⟨declared, mem, named, -⟩ := (h.actors _ _).1 found
        exact ⟨declared, mem, named⟩
      have absent' : c'.actors.get? id = none := by
        refine Option.eq_none_iff_forall_ne_some.2 fun actor found => known ?_
        obtain ⟨declared, mem, named, -⟩ := (h'.actors _ _).1 found
        exact ⟨declared, (actorsOf_perm same).mem_iff.2 mem, named⟩
      rw [absent, absent']
      exact .none

end Perm

/-- Loading files succeeds exactly if their declarations go together. It leaves each item in one
place, its owner's inventory or the library, and another order of the files changes nothing but the
order of the items that were assigned. -/
theorem ofFiles_assembles (files : List (String × CatalogFile)) :
    ((∃ c, ofFiles (decoded files) = .ok c) ↔ Consistent files) ∧
      ∀ c, ofFiles (decoded files) = .ok c → Assembled files c ∧
        ∀ files', files.Perm files' →
          ∃ c', ofFiles (decoded files') = .ok c' ∧ Reordered files c c' := by
  refine ⟨exists_ofFiles_iff, fun c loaded => ⟨assembled_of_ofFiles loaded, fun files' same => ?_⟩⟩
  have consistent := (exists_ofFiles_iff.1 ⟨c, loaded⟩).perm same
  obtain ⟨c', loaded'⟩ := exists_ofFiles_iff.2 consistent
  exact ⟨c', loaded', (assembled_of_ofFiles loaded).reordered same (assembled_of_ofFiles loaded')⟩

def sword : Item where
  id := "sword"
  name := "Sword"
  kind := .weapon
  damage := { parts := [⟨"1d6", none⟩] }
  crit := { extraDamage := some 0 }

def ring : Item := { id := "ring", name := "Ring", kind := .loot }

def cloak : Item := { id := "cloak", name := "Cloak", kind := .loot }

def rope : Item := { id := "rope", name := "Rope", kind := .loot }

def hero : Actor := { id := "hero", name := "Hero", items := [sword] }

/-- An owner between two files with its items. -/
def shelves : List (String × CatalogFile) :=
  [("a.toml", { items := [⟨some "hero", ring⟩, ⟨none, rope⟩] }),
    ("b.toml", { actors := [hero] }),
    ("c.toml", { items := [⟨some "hero", cloak⟩] })]

theorem parse_d6 : Formula.parse "1d6" = .ok [.dice ⟨1, 6, []⟩] := by cbv

theorem sword_valid : sword.Valid where
  formulas text mem _ := by
    obtain rfl : text = "1d6" := List.mem_singleton.1 mem
    exact ⟨_, parse_d6⟩
  extraDamage index mem := by
    obtain rfl := Option.some.inj mem
    decide

/-- What has neither formulas nor extra damage can always be rolled. -/
theorem valid_of_bare {item : Item} (formulas : item.formulas = [])
    (extra : item.crit.extraDamage = none) : item.Valid where
  formulas text mem _ := by
    rw [formulas] at mem
    cases mem
  extraDamage index mem := by
    rw [extra] at mem
    cases mem

theorem shelves_consistent : Consistent shelves where
  valid := by
    have listed : itemsOf shelves = [sword, ring, rope, cloak] := rfl
    rw [listed]
    simp only [List.forall_mem_cons]
    exact ⟨sword_valid, valid_of_bare rfl rfl, valid_of_bare rfl rfl, valid_of_bare rfl rfl,
      List.forall_mem_nil _⟩
  actors := by decide
  library := by decide
  owners := by decide
  inventories := by
    have listed : actorsOf shelves = [hero] := rfl
    rw [listed, List.forall_mem_singleton]
    exact ⟨by decide, by decide⟩

/-- Both items find their owner, in the order of their files, and in the other order if the files
come the other way round. -/
theorem shelves_assembled :
    ∃ c, ofFiles (decoded shelves) = .ok c ∧
      c.actors.get? "hero" = some (hero.withItems [ring, cloak]) ∧
      c.sources.get? "hero" = some "b.toml" ∧ c.items.get? "rope" = some rope ∧
      ∃ c', ofFiles (decoded shelves.reverse) = .ok c' ∧ Reordered shelves c c' ∧
        c'.actors.get? "hero" = some (hero.withItems [cloak, ring]) := by
  obtain ⟨c, loaded⟩ := (ofFiles_assembles shelves).1.2 shelves_consistent
  obtain ⟨assembled, orders⟩ := (ofFiles_assembles shelves).2 c loaded
  obtain ⟨c', loaded', reordered⟩ := orders shelves.reverse shelves.reverse_perm.symm
  have assembled' := ((ofFiles_assembles shelves.reverse).2 c' loaded').1
  refine ⟨c, loaded, ?_, ?_, ?_, c', loaded', reordered, ?_⟩
  · exact (assembled.actors _ _).2 ⟨hero, List.mem_singleton_self _, rfl, rfl⟩
  · exact (assembled.sources _ _).2 ⟨("b.toml", { actors := [hero] }), by decide, rfl, by decide⟩
  · exact (assembled.library _ _).2 ⟨List.mem_singleton_self _, rfl⟩
  · exact (assembled'.actors _ _).2 ⟨hero, List.mem_singleton_self _, rfl, rfl⟩

end Tabletop.Catalog
