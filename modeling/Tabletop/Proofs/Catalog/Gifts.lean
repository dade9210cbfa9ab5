import Tabletop.Proofs.Catalog.Assembly
import Tabletop.Proofs.Sheet.Actor
/-!
# Ids in inventories

An inventory grows on three ways: items are declared in it, assigned to it, or copied into it from
the library. The last two check for the id, and declarations in one actor do not. So the ids of an
inventory differ, after any number of gifts, exactly if they differ where the actor is declared; and
if they do, an id means one item for looking up, for changing and for removing.
-/

namespace Tabletop

namespace Actor

/-- No two items of the inventory have the same id. -/
def IdsApart (actor : Actor) : Prop := (actor.items.map (·.id)).Nodup

instance (actor : Actor) : Decidable actor.IdsApart := inferInstanceAs (Decidable (List.Nodup _))

/-- The id of an item means this item alone: it is found by the id, and nothing else is changed or
removed by it. -/
structure Means (actor : Actor) (item : Item) : Prop where
  found : actor.item? item.id = some item
  changed : ∀ f, (actor.modifyItem item.id f).items =
    actor.items.map fun other => if other = item then f item else other
  removed : (actor.removeItem item.id).items = actor.items.filter (· ≠ item)

variable {actor : Actor} {item : Item} {items : List Item}

theorem ids_withItems (actor : Actor) (items : List Item) :
    (actor.withItems items).items.map (·.id) = actor.items.map (·.id) ++ items.map (·.id) :=
  List.map_append

theorem withItem_withItems (actor : Actor) (items : List Item) (item : Item) :
    (actor.withItems items).withItem item = actor.withItems (items ++ [item]) := by
  simp [withItems, withItem]

/-- Items that are accepted do not bring an id that is there. -/
theorem Accepts.idsApart_iff (h : actor.Accepts items) :
    (actor.withItems items).IdsApart ↔ actor.IdsApart := by
  unfold IdsApart
  rw [ids_withItems, List.nodup_append]
  constructor
  · exact fun apart => apart.1
  · intro apart
    refine ⟨apart, h.apart, fun id held other listed => ?_⟩
    obtain ⟨item, mem, rfl⟩ := List.mem_map.1 listed
    exact ne_of_mem_of_not_mem held (h.new item mem)

theorem Accepts.snoc (h : actor.Accepts items)
    (new : item.id ∉ (actor.withItems items).items.map (·.id)) :
    actor.Accepts (items ++ [item]) := by
  rw [ids_withItems, List.mem_append, not_or] at new
  constructor
  · rw [List.map_append, List.nodup_append]
    refine ⟨h.apart, List.nodup_singleton _, fun id held other listed => ?_⟩
    obtain rfl := List.mem_singleton.1 listed
    exact ne_of_mem_of_not_mem held new.2
  · intro other mem
    rcases List.mem_append.1 mem with mem | mem
    · exact h.new other mem
    · obtain rfl := List.mem_singleton.1 mem
      exact new.1

theorem eq_of_id_eq (apart : actor.IdsApart) {other : Item} (held : item ∈ actor.items)
    (mem : other ∈ actor.items) (same : other.id = item.id) : other = item :=
  List.inj_on_of_nodup_map apart mem held same

theorem means_of_idsApart (apart : actor.IdsApart) (held : item ∈ actor.items) :
    actor.Means item := by
  have found : actor.item? item.id = some item := by
    cases looked : actor.item? item.id with
    | none => exact absurd (List.mem_map_of_mem held) (item?_eq_none_iff.1 looked)
    | some other =>
      have mem := List.mem_of_find?_eq_some looked
      have named : (other.id == item.id) = true := by
        unfold item? at looked
        simpa using List.find?_some looked
      exact congrArg some (eq_of_id_eq apart held mem (eq_of_beq named))
  obtain ⟨before, after, around⟩ := holds_of_item? found
  -- the item stands between others with other ids
  have others : ∀ other ∈ before ++ after, other ≠ item := by
    rintro _ mem rfl
    unfold IdsApart at apart
    rw [around.items, List.map_append, List.map_cons, List.nodup_middle, List.nodup_cons,
      ← List.map_append] at apart
    exact apart.1 (List.mem_map_of_mem mem)
  obtain ⟨earlier, later⟩ := List.forall_mem_append.1 others
  have kept (f : Item → Item) {others : List Item} (apart : ∀ other ∈ others, other ≠ item) :
      others.map (fun other => if other = item then f item else other) = others := by
    refine (List.map_congr_left fun other mem => if_neg (apart other mem)).trans ?_
    exact List.map_id' others
  have stay {others : List Item} (apart : ∀ other ∈ others, other ≠ item) :
      others.filter (· ≠ item) = others :=
    List.filter_eq_self.2 fun other mem => decide_eq_true (apart other mem)
  refine ⟨found, fun f => ?_, ?_⟩
  · rw [around.modifyItem, around.items, List.map_append, List.map_cons, if_pos rfl,
      kept f earlier, kept f later]
  · rw [around.removeItem, around.items, List.filter_append,
      List.filter_cons_of_neg (by simp), stay earlier, stay later]

end Actor

namespace Catalog

/-! ## One gift -/

variable {c : Catalog} {actorId itemId : String}

/-- A gift that has nothing to do: a name in it is unknown, or the item is there. -/
inductive Settled (c : Catalog) (actorId itemId : String) : Prop
  | unknownItem (missing : c.items.get? itemId = none)
  | unknownActor (missing : c.actors.get? actorId = none)
  | held {actor : Actor} (known : c.actors.get? actorId = some actor)
      (held : itemId ∈ actor.items.map (·.id))

/-- A gift that puts an item at the end of an inventory. -/
structure Copies (c : Catalog) (actorId itemId : String) (item : Item) (actor : Actor) : Prop where
  stocked : c.items.get? itemId = some item
  known : c.actors.get? actorId = some actor
  new : itemId ∉ actor.items.map (·.id)

/-- The catalogue after an actor got one more item. -/
def withGift (c : Catalog) (actorId : String) (actor : Actor) (item : Item) : Catalog :=
  { c with actors := c.actors.insert actorId (actor.withItem item) }

/-- The catalogue that a gift leaves behind, whether it could be made or not. -/
def afterGift (c : Catalog) (gift : String × String) : Catalog :=
  (perform (handOut gift.1 gift.2) c).2

/-- The catalogue after gifts were asked for, one after the other. -/
def afterGifts (c : Catalog) (gifts : List (String × String)) : Catalog := gifts.foldl afterGift c

/-- Both names are looked up before anything is written. -/
theorem perform_handOut (c : Catalog) (actorId itemId : String) :
    perform (handOut actorId itemId) c =
      match c.item itemId, c.actor actorId with
      | .error e, _ => (.error e, c)
      | .ok _, .error e => (.error e, c)
      | .ok item, .ok actor =>
        (.ok (),
          if (actor.item? itemId).isNone then c.setActor actorId (actor.withItem item) else c) := by
  unfold handOut
  simp only [perform_bind, perform_get, perform_lift]
  cases c.item itemId with
  | error e => rfl
  | ok item =>
    dsimp only
    cases c.actor actorId with
    | error e => rfl
    | ok actor =>
      dsimp only
      cases (actor.item? itemId).isNone with
      | false => rfl
      | true => rfl

theorem give_eq (c : Catalog) (actorId itemId : String) :
    c.give actorId itemId =
      (perform (handOut actorId itemId) c).1.map fun _ => c.afterGift (actorId, itemId) := rfl

/-- Where a gift fails, nothing was written before. -/
theorem afterGift_of_error {gift : String × String} {e : CatalogError}
    (failed : c.give gift.1 gift.2 = .error e) : c.afterGift gift = c := by
  rw [give_eq, perform_handOut] at failed
  rw [afterGift, perform_handOut]
  cases stocked : c.item gift.2 with
  | error e => rfl
  | ok item =>
    cases known : c.actor gift.1 with
    | error e => rfl
    | ok actor =>
      rw [stocked, known] at failed
      cases failed

theorem Settled.afterGift_eq (h : c.Settled actorId itemId) :
    c.afterGift (actorId, itemId) = c := by
  rw [afterGift, perform_handOut]
  cases h with
  | unknownItem missing =>
    rw [item, missing]
  | unknownActor missing =>
    rw [actor, missing]
    cases c.item itemId with
    | error e => rfl
    | ok item => rfl
  | @held owner known held =>
    rw [actor, known]
    cases c.item itemId with
    | error e => rfl
    | ok item =>
      refine if_neg fun new => ?_
      exact Actor.item?_eq_none_iff.1 (Option.isNone_iff_eq_none.1 new) held

theorem Copies.afterGift {item : Item} {actor : Actor} (h : c.Copies actorId itemId item actor) :
    c.afterGift (actorId, itemId) = c.withGift actorId actor item := by
  have set : c.setActor actorId (actor.withItem item) = c.withGift actorId actor item := by
    unfold setActor NameMap.modify
    rw [h.known]
    rfl
  rw [Catalog.afterGift, perform_handOut, Catalog.item, Catalog.actor, h.stocked, h.known, ← set]
  exact if_pos (Option.isNone_iff_eq_none.2 (Actor.item?_eq_none_iff.2 h.new))

theorem give_of_unknownItem (missing : c.items.get? itemId = none) :
    c.give actorId itemId = .error (.unknownItem itemId) := by
  rw [give_eq, perform_handOut, item, missing]
  rfl

/-- There is no third kind of gift. -/
theorem settled_or_copies (c : Catalog) (actorId itemId : String) :
    c.Settled actorId itemId ∨ ∃ item actor, c.Copies actorId itemId item actor := by
  cases stocked : c.items.get? itemId with
  | none => exact Or.inl (.unknownItem stocked)
  | some item =>
    cases known : c.actors.get? actorId with
    | none => exact Or.inl (.unknownActor known)
    | some actor =>
      by_cases held : itemId ∈ actor.items.map (·.id)
      · exact Or.inl (.held known held)
      · exact Or.inr ⟨item, actor, stocked, known, held⟩

theorem get?_withGift (c : Catalog) (receiver id : String) (actor : Actor) (item : Item) :
    (c.withGift receiver actor item).actors.get? id =
      if id = receiver then some (actor.withItem item) else c.actors.get? id := by
  by_cases same : id = receiver
  · subst same
    rw [if_pos rfl]
    exact NameMap.get?_insert_self _ _ _
  · rw [if_neg same]
    exact NameMap.get?_insert_of_ne _ same _

/-- What one gift has to do is not changed by another one. -/
theorem Settled.afterGift (h : c.Settled actorId itemId) (gift : String × String) :
    (c.afterGift gift).Settled actorId itemId := by
  obtain ⟨actorId', itemId'⟩ := gift
  rcases c.settled_or_copies actorId' itemId' with settled | ⟨item, actor, copies⟩
  · rw [settled.afterGift_eq]
    exact h
  rw [copies.afterGift]
  have looked := c.get?_withGift actorId' actorId actor item
  cases h with
  | unknownItem missing => exact .unknownItem missing
  | unknownActor missing =>
    refine .unknownActor (looked.trans ((if_neg ?_).trans missing))
    rintro rfl
    rw [copies.known] at missing
    cases missing
  | @held other known held =>
    by_cases same : actorId = actorId'
    · subst same
      rw [copies.known] at known
      cases known
      refine .held (looked.trans (if_pos rfl)) ?_
      rw [Actor.withItem, List.map_append]
      exact List.mem_append_left _ held
    · exact .held (looked.trans ((if_neg same).trans known)) held

/-! ## All gifts -/

variable {files : List (String × CatalogFile)}

/-- What a catalogue of files keeps: each inventory is the declared one with items behind it that
are new to it and differ in their ids, and the library finds items by their ids. -/
structure Stocked (files : List (String × CatalogFile)) (c : Catalog) : Prop where
  actors : ∀ id actor, c.actors.get? id = some actor →
    ∃ declared ∈ actorsOf files, declared.id = id ∧
      ∃ more, actor = declared.withItems more ∧ declared.Accepts more
  library : ∀ id item, c.items.get? id = some item → item.id = id

theorem stocked_of_ofFiles (loaded : ofFiles (decoded files) = .ok c) : Stocked files c where
  actors id actor known := by
    obtain ⟨declared, mem, rfl, made⟩ := (get?_actors_of_ofFiles loaded id actor).1 known
    have accepts := (exists_ofFiles_iff.1 ⟨c, loaded⟩).inventories declared mem
    exact ⟨declared, mem, rfl, _, made, accepts⟩
  library id item found := ((get?_items_of_ofFiles loaded id item).1 found).2

/-- One gift keeps the ids that it adds apart. -/
theorem Stocked.afterGift (h : Stocked files c) (gift : String × String) :
    Stocked files (c.afterGift gift) := by
  obtain ⟨actorId, itemId⟩ := gift
  rcases c.settled_or_copies actorId itemId with settled | ⟨item, actor, copies⟩
  · rw [settled.afterGift_eq]
    exact h
  rw [copies.afterGift]
  refine ⟨fun id other found => ?_, h.library⟩
  rw [get?_withGift] at found
  split at found
  · rename_i same
    cases found
    obtain ⟨declared, mem, named, more, rfl, accepts⟩ := h.actors actorId actor copies.known
    obtain rfl := h.library itemId item copies.stocked
    exact ⟨declared, mem, named.trans same.symm, more ++ [item], Actor.withItem_withItems _ _ _,
      accepts.snoc copies.new⟩
  · exact h.actors id other found

theorem Stocked.afterGifts (h : Stocked files c) (gifts : List (String × String)) :
    Stocked files (c.afterGifts gifts) := by
  induction gifts generalizing c with
  | nil => exact h
  | cons gift gifts ih => exact ih (h.afterGift gift)

/-- A gift that was asked for has nothing left to do. -/
theorem Stocked.settled (h : Stocked files c) (gift : String × String) :
    (c.afterGift gift).Settled gift.1 gift.2 := by
  obtain ⟨actorId, itemId⟩ := gift
  rcases c.settled_or_copies actorId itemId with settled | ⟨item, actor, copies⟩
  · exact settled.afterGift _
  · rw [copies.afterGift]
    obtain rfl := h.library itemId item copies.stocked
    refine .held ((c.get?_withGift _ _ actor item).trans (if_pos rfl)) ?_
    simp [Actor.withItem]

theorem Settled.afterGifts (h : c.Settled actorId itemId) (gifts : List (String × String)) :
    (c.afterGifts gifts).Settled actorId itemId := by
  induction gifts generalizing c with
  | nil => exact h
  | cons gift gifts ih => exact ih (h.afterGift gift)

/-- A gift that was asked for at any time has nothing left to do. -/
theorem Stocked.settled_of_mem (h : Stocked files c) {gifts : List (String × String)}
    {gift : String × String} (asked : gift ∈ gifts) :
    (c.afterGifts gifts).Settled gift.1 gift.2 := by
  induction gifts generalizing c with
  | nil => cases asked
  | cons first gifts ih =>
    rcases List.mem_cons.1 asked with rfl | asked
    · exact (h.settled gift).afterGifts gifts
    · exact ih (h.afterGift first) asked

/-- However items come into the inventories of a catalogue that was loaded, those that are assigned
or given bring no id twice: the ids of an inventory differ exactly if those that its actor is
declared with do, and then each id means one item. A gift that fails changes nothing, and neither
does one that was asked for before, however long ago. -/
theorem gifts_keep_ids_apart (loaded : ofFiles (decoded files) = .ok c)
    (gifts : List (String × String)) :
    (∀ id actor, (c.afterGifts gifts).actors.get? id = some actor →
      (∃ declared ∈ actorsOf files, declared.id = id ∧ (actor.IdsApart ↔ declared.IdsApart)) ∧
        (actor.IdsApart → ∀ item ∈ actor.items, actor.Means item)) ∧
      (∀ gift e, (c.afterGifts gifts).give gift.1 gift.2 = .error e →
        (c.afterGifts gifts).afterGift gift = c.afterGifts gifts) ∧
      ∀ gift ∈ gifts, (c.afterGifts gifts).afterGift gift = c.afterGifts gifts := by
  have stocked := stocked_of_ofFiles loaded
  refine ⟨fun id actor known => ⟨?_, fun apart item held => ?_⟩, ?_, ?_⟩
  · obtain ⟨declared, mem, named, more, rfl, accepts⟩ :=
      (stocked.afterGifts gifts).actors id actor known
    exact ⟨declared, mem, named, accepts.idsApart_iff⟩
  · exact Actor.means_of_idsApart apart held
  · exact fun gift e failed => afterGift_of_error failed
  · exact fun gift asked => (stocked.settled_of_mem asked).afterGift_eq

/-- The hero of the shelves gets a rope, and gets it once; there is no lamp. Each of the four items
is meant by its id. -/
theorem shelves_keep_ids_apart :
    ∃ c, ofFiles (decoded shelves) = .ok c ∧
      ∃ c', c' = c.afterGifts [("hero", "rope")] ∧
        (∃ actor, c'.actors.get? "hero" = some actor ∧
          actor.items.map (·.id) = ["sword", "ring", "cloak", "rope"] ∧
          ∀ item ∈ actor.items, actor.Means item) ∧
        c'.give "hero" "lamp" = .error (.unknownItem "lamp") ∧
        c'.afterGift ("hero", "lamp") = c' ∧ c'.afterGift ("hero", "rope") = c' := by
  obtain ⟨c, loaded⟩ := exists_ofFiles_iff.2 shelves_consistent
  obtain ⟨inventories, failing, repeated⟩ := gifts_keep_ids_apart loaded [("hero", "rope")]
  have assembled := assembled_of_ofFiles loaded
  have copies : c.Copies "hero" "rope" rope (hero.withItems [ring, cloak]) :=
    ⟨(assembled.library _ _).2 ⟨List.mem_singleton_self _, rfl⟩,
      (assembled.actors _ _).2 ⟨hero, List.mem_singleton_self _, rfl, rfl⟩, by decide⟩
  have given : c.afterGifts [("hero", "rope")] =
      c.withGift "hero" (hero.withItems [ring, cloak]) rope := copies.afterGift
  have known : (c.afterGifts [("hero", "rope")]).actors.get? "hero" =
      some ((hero.withItems [ring, cloak]).withItem rope) := by
    rw [given, get?_withGift, if_pos rfl]
  have noLamp : (c.afterGifts [("hero", "rope")]).give "hero" "lamp" =
      .error (.unknownItem "lamp") := by
    have missing : c.items.get? "lamp" = none := by
      refine Option.eq_none_iff_forall_ne_some.2 fun item found => ?_
      obtain ⟨mem, named⟩ := (assembled.library _ _).1 found
      obtain rfl := List.mem_singleton.1 mem
      exact absurd named (by decide)
    rw [given]
    exact give_of_unknownItem missing
  refine ⟨c, loaded, _, rfl, ⟨_, known, by decide, ?_⟩, noLamp, failing _ _ noLamp,
    repeated _ List.mem_cons_self⟩
  exact (inventories "hero" _ known).2 (by decide)

def cursedRing : Item := { ring with name := "Cursed Ring" }

/-- An actor that is declared with two rings of the same id. -/
def bearer : Actor := { hero with items := [ring, cursedRing] }

def rings : List (String × CatalogFile) := [("a.toml", { actors := [bearer] })]

/-- Declarations in one actor are not checked: the catalogue is loaded, and holds both rings. -/
theorem rings_share_an_id :
    ∃ c actor, ofFiles (decoded rings) = .ok c ∧ c.actors.get? "hero" = some actor ∧
      actor.items.map (·.id) = ["ring", "ring"] ∧ ¬actor.IdsApart := by
  have consistent : Consistent rings := by
    refine ⟨?_, by decide, by decide, by decide, ?_⟩
    · have listed : itemsOf rings = [ring, cursedRing] := rfl
      rw [listed]
      simp only [List.forall_mem_cons]
      exact ⟨valid_of_bare rfl rfl, valid_of_bare rfl rfl, List.forall_mem_nil _⟩
    · intro actor mem
      obtain rfl : actor = bearer := List.mem_singleton.1 mem
      exact ⟨by decide, by decide⟩
  obtain ⟨c, loaded⟩ := exists_ofFiles_iff.2 consistent
  have known : c.actors.get? "hero" = some (bearer.withItems []) :=
    ((assembled_of_ofFiles loaded).actors "hero" _).2 ⟨bearer, List.mem_singleton_self _, rfl, rfl⟩
  exact ⟨c, _, loaded, known, by decide, by decide⟩

end Catalog

end Tabletop
