import Tabletop.Catalog.Basic
import Tabletop.Proofs.NameMap
/-!
# Assigning items to their owners

Once all files are read, the items that wait for an owner go into its inventory, one after the
other. Whether an owner accepts an item depends on what it has got before; over all items that comes
down to a condition on the ids that does not speak of any order.
-/

namespace Tabletop

/-- Adds items at the end of the inventory. -/
def Actor.withItems (actor : Actor) (items : List Item) : Actor :=
  { actor with items := actor.items ++ items }

/-- The items that wait for an owner. -/
def waitingFor (owner : String) (pending : List PendingItem) : List Item :=
  (pending.filter (·.owner == owner)).map (·.item)

theorem waitingFor_cons (owner : String) (p : PendingItem) (pending : List PendingItem) :
    waitingFor owner (p :: pending) =
      if p.owner = owner then p.item :: waitingFor owner pending else waitingFor owner pending := by
  unfold waitingFor
  by_cases same : p.owner = owner
  · rw [if_pos same, List.filter_cons_of_pos (by simpa using same), List.map_cons]
  · rw [if_neg same, List.filter_cons_of_neg (by simpa using same)]

theorem Actor.item?_eq_none_iff {actor : Actor} {id : String} :
    actor.item? id = none ↔ id ∉ actor.items.map (·.id) := by
  simp [Actor.item?]

/-- Whether items can be added to an inventory: their ids differ from each other and from those
that are there. -/
structure Actor.Accepts (actor : Actor) (items : List Item) : Prop where
  apart : (items.map (·.id)).Nodup
  new : ∀ item ∈ items, item.id ∉ actor.items.map (·.id)

theorem Actor.accepts_cons_iff {actor : Actor} {item : Item} {items : List Item} :
    actor.Accepts (item :: items) ↔
      item.id ∉ actor.items.map (·.id) ∧ (actor.withItem item).Accepts items := by
  have inventory : (actor.withItem item).items.map (·.id) =
      actor.items.map (·.id) ++ [item.id] := List.map_append
  constructor
  · rintro ⟨apart, new⟩
    rw [List.map_cons, List.nodup_cons] at apart
    refine ⟨new item List.mem_cons_self, apart.2, fun other mem => ?_⟩
    rw [inventory, List.mem_append, List.mem_singleton, not_or]
    exact ⟨new other (List.mem_cons_of_mem _ mem),
      ne_of_mem_of_not_mem (List.mem_map_of_mem mem) apart.1⟩
  · rintro ⟨first, apart, new⟩
    rw [inventory] at new
    constructor
    · rw [List.map_cons, List.nodup_cons]
      refine ⟨fun mem => ?_, apart⟩
      obtain ⟨other, mem, same⟩ := List.mem_map.1 mem
      exact new other mem (by simp [same])
    · rw [List.forall_mem_cons]
      exact ⟨first, fun other mem found => new other mem (List.mem_append_left _ found)⟩

namespace Catalog

/-- Whether waiting items can be assigned: all owners are there, and accept their items. -/
structure Assignable (actors : NameMap Actor) (pending : List PendingItem) : Prop where
  owned : ∀ p ∈ pending, (actors.get? p.owner).isSome
  accepted : ∀ id actor, actors.get? id = some actor → actor.Accepts (waitingFor id pending)

theorem assignable_cons_iff {actors : NameMap Actor} {p : PendingItem}
    {pending : List PendingItem} :
    Assignable actors (p :: pending) ↔
      ∃ actor, actors.get? p.owner = some actor ∧ p.item.id ∉ actor.items.map (·.id) ∧
        Assignable (actors.insert p.owner (actor.withItem p.item)) pending := by
  constructor
  · rintro ⟨owned, accepted⟩
    obtain ⟨actor, found⟩ := Option.isSome_iff_exists.1 (owned p List.mem_cons_self)
    have accepts := accepted p.owner actor found
    rw [waitingFor_cons, if_pos rfl, Actor.accepts_cons_iff] at accepts
    refine ⟨actor, found, accepts.1, fun q mem => ?_, fun id other bound => ?_⟩
    · by_cases same : q.owner = p.owner
      · rw [same, NameMap.get?_insert_self]
        rfl
      · rw [NameMap.get?_insert_of_ne _ same]
        exact owned q (List.mem_cons_of_mem _ mem)
    · by_cases same : id = p.owner
      · subst same
        rw [NameMap.get?_insert_self] at bound
        cases bound
        exact accepts.2
      · rw [NameMap.get?_insert_of_ne _ same] at bound
        have others := accepted id other bound
        rw [waitingFor_cons, if_neg (Ne.symm same)] at others
        exact others
  · rintro ⟨actor, found, new, owned, accepted⟩
    constructor
    · rw [List.forall_mem_cons]
      refine ⟨Option.isSome_iff_exists.2 ⟨actor, found⟩, fun q mem => ?_⟩
      by_cases same : q.owner = p.owner
      · rw [same, found]
        rfl
      · have later := owned q mem
        rw [NameMap.get?_insert_of_ne _ same] at later
        exact later
    · intro id other bound
      rw [waitingFor_cons]
      by_cases same : p.owner = id
      · subst same
        cases found.symm.trans bound
        rw [if_pos rfl, Actor.accepts_cons_iff]
        exact ⟨new, accepted _ _ (NameMap.get?_insert_self _ _ _)⟩
      · rw [if_neg same]
        refine accepted id other ?_
        rw [NameMap.get?_insert_of_ne _ (Ne.symm same)]
        exact bound

/-- The catalogue in which every actor has the items that waited for it. -/
structure Assigned (c : Catalog) (pending : List PendingItem) (c' : Catalog) : Prop where
  actors : ∀ id, c'.actors.get? id =
    (c.actors.get? id).map (·.withItems (waitingFor id pending))
  items : c'.items = c.items
  sources : c'.sources = c.sources

variable {c c' : Catalog}

theorem assign_cons (p : PendingItem) (pending : List PendingItem) {actor : Actor}
    (found : c.actors.get? p.owner = some actor)
    (new : p.item.id ∉ actor.items.map (·.id)) :
    assign (p :: pending) c =
      assign pending { c with actors := c.actors.insert p.owner (actor.withItem p.item) } := by
  have free : actor.item? p.item.id = none := Actor.item?_eq_none_iff.2 new
  have set : c.setActor p.owner (actor.withItem p.item) =
      { c with actors := c.actors.insert p.owner (actor.withItem p.item) } := by
    unfold setActor NameMap.modify
    rw [found]
  rw [assign]
  simp only [found, free, Option.isSome_none, set]
  rfl

/-- The first item that waits finds its owner, who does not have it yet. -/
theorem of_assign_cons {p : PendingItem} {pending : List PendingItem}
    (h : assign (p :: pending) c = .ok c') :
    ∃ actor, c.actors.get? p.owner = some actor ∧ p.item.id ∉ actor.items.map (·.id) := by
  rw [assign] at h
  cases found : c.actors.get? p.owner with
  | none =>
    rw [found] at h
    cases h
  | some actor =>
    refine ⟨actor, rfl, Actor.item?_eq_none_iff.1 ?_⟩
    by_contra held
    simp only [found, if_pos (Option.isSome_iff_ne_none.2 held)] at h
    cases h

theorem assign_ok {pending : List PendingItem} (h : assign pending c = .ok c') :
    Assignable c.actors pending ∧ Assigned c pending c' := by
  induction pending generalizing c with
  | nil =>
    cases h
    have same : ∀ actor : Actor, actor.withItems [] = actor := fun actor => by
      simp [Actor.withItems]
    refine ⟨⟨List.forall_mem_nil _, fun _ _ _ => ⟨List.nodup_nil, List.forall_mem_nil _⟩⟩,
      fun id => ?_, rfl, rfl⟩
    cases c'.actors.get? id with
    | none => rfl
    | some actor => exact congrArg some (same actor).symm
  | cons p pending ih =>
    obtain ⟨actor, found, new⟩ := of_assign_cons h
    rw [assign_cons p pending found new] at h
    obtain ⟨assignable, actors, items, sources⟩ := ih h
    refine ⟨assignable_cons_iff.2 ⟨actor, found, new, assignable⟩, fun id => ?_, items, sources⟩
    rw [actors, waitingFor_cons]
    by_cases same : p.owner = id
    · subst same
      rw [if_pos rfl, NameMap.get?_insert_self, found, Option.map_some, Option.map_some]
      simp [Actor.withItems, Actor.withItem]
    · rw [if_neg same, NameMap.get?_insert_of_ne _ (Ne.symm same)]

theorem exists_assign {pending : List PendingItem} (h : Assignable c.actors pending) :
    ∃ c', assign pending c = .ok c' := by
  induction pending generalizing c with
  | nil => exact ⟨c, rfl⟩
  | cons p pending ih =>
    obtain ⟨actor, found, new, rest⟩ := assignable_cons_iff.1 h
    rw [assign_cons p pending found new]
    exact ih rest

end Catalog

end Tabletop
