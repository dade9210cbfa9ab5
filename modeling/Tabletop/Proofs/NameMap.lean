import Mathlib.Data.List.Perm.Basic
import Mathlib.Data.List.Nodup
import Mathlib.Data.String.Basic
import Tabletop.NameMap
/-!
# Maps by what they hold

The entries of a map are in the order of their names, so that a map is known by its lookups. Entries
with new names are all found after they were added, in whatever order that was done.
-/

namespace Tabletop.NameMap

variable {β : Type} {m : NameMap β} {entries : List (String × β)} {key : String} {value : β}

theorem mem_of_get? (h : m.get? key = some value) : (key, value) ∈ m.entries := by
  obtain ⟨e, found, rfl⟩ := Option.map_eq_some_iff.1 h
  have named := List.find?_some found
  rw [← eq_of_beq named]
  exact List.mem_of_find?_eq_some found

theorem find?_of_mem (sorted : entries.Pairwise (·.1 < ·.1)) (mem : (key, value) ∈ entries) :
    entries.find? (·.1 == key) = some (key, value) := by
  induction entries with
  | nil => cases mem
  | cons e entries ih =>
    obtain ⟨first, rest⟩ := List.pairwise_cons.1 sorted
    rcases List.mem_cons.1 mem with rfl | mem
    · exact List.find?_cons_of_pos (beq_self_eq_true key)
    · have other : e.1 ≠ key := (first _ mem).ne
      rw [List.find?_cons_of_neg (by simpa using other)]
      exact ih rest mem

/-- The entries are what is found. -/
theorem mem_entries_iff : (key, value) ∈ m.entries ↔ m.get? key = some value := by
  constructor
  · intro mem
    unfold get?
    rw [find?_of_mem m.sorted mem]
    rfl
  · exact mem_of_get?

theorem nodup_names (m : NameMap β) : (m.entries.map (·.1)).Nodup :=
  (List.pairwise_map.2 m.sorted).imp ne_of_lt

theorem nodup_entries (m : NameMap β) : m.entries.Nodup := .of_map _ m.nodup_names

/-- Entries with names of their own that are what is found are those of the map, but for the
order. -/
theorem entries_perm (apart : (entries.map (·.1)).Nodup)
    (found : ∀ key value, m.get? key = some value ↔ (key, value) ∈ entries) :
    m.entries.Perm entries := by
  refine (List.perm_ext_iff_of_nodup m.nodup_entries (.of_map _ apart)).2 fun e => ?_
  rw [← found, mem_entries_iff]

/-- Maps with the same lookups are the same. -/
theorem ext_get? {m' : NameMap β} (h : ∀ key, m.get? key = m'.get? key) : m = m' := by
  have same : m.entries.Perm m'.entries :=
    entries_perm m'.nodup_names fun key value => by rw [h, mem_entries_iff]
  have listed : m.entries = m'.entries :=
    same.eq_of_pairwise (fun _ _ _ _ before after => absurd after before.not_gt) m.sorted m'.sorted
  cases m
  cases m'
  cases listed
  rfl

/-- Adds entries one after the other. -/
def insertAll (m : NameMap β) (entries : List (String × β)) : NameMap β :=
  entries.foldl (fun m e => m.insert e.1 e.2) m

@[simp]
theorem insertAll_nil (m : NameMap β) : m.insertAll [] = m := rfl

@[simp]
theorem insertAll_cons (m : NameMap β) (e : String × β) (entries : List (String × β)) :
    m.insertAll (e :: entries) = (m.insert e.1 e.2).insertAll entries := rfl

theorem insertAll_append (m : NameMap β) (first second : List (String × β)) :
    m.insertAll (first ++ second) = (m.insertAll first).insertAll second := List.foldl_append

theorem get?_insertAll_of_notMem (absent : key ∉ entries.map (·.1)) :
    (m.insertAll entries).get? key = m.get? key := by
  induction entries generalizing m with
  | nil => rfl
  | cons e entries ih =>
    rw [List.map_cons, List.mem_cons, not_or] at absent
    rw [insertAll_cons, ih absent.2, get?_insert_of_ne _ absent.1]

theorem get?_insertAll_of_mem (apart : (entries.map (·.1)).Nodup) (mem : (key, value) ∈ entries) :
    (m.insertAll entries).get? key = some value := by
  induction entries generalizing m with
  | nil => cases mem
  | cons e entries ih =>
    obtain ⟨absent, apart⟩ := List.nodup_cons.1 apart
    rw [insertAll_cons]
    rcases List.mem_cons.1 mem with rfl | mem
    · rw [get?_insertAll_of_notMem absent, get?_insert_self]
    · exact ih apart mem

/-- Names that differ from each other and from those that are bound. -/
structure Fresh (m : NameMap β) (names : List String) : Prop where
  apart : names.Nodup
  unbound : ∀ name ∈ names, m.get? name = none

theorem fresh_nil (m : NameMap β) : m.Fresh [] := ⟨List.nodup_nil, fun _ h => nomatch h⟩

theorem fresh_empty_iff {names : List String} : (∅ : NameMap β).Fresh names ↔ names.Nodup :=
  ⟨Fresh.apart, fun apart => ⟨apart, fun _ _ => rfl⟩⟩

theorem fresh_cons_iff (value : β) {names : List String} :
    m.Fresh (key :: names) ↔ m.get? key = none ∧ (m.insert key value).Fresh names := by
  constructor
  · rintro ⟨apart, unbound⟩
    obtain ⟨absent, apart⟩ := List.nodup_cons.1 apart
    refine ⟨unbound key List.mem_cons_self, apart, fun name mem => ?_⟩
    rw [get?_insert_of_ne _ (ne_of_mem_of_not_mem mem absent)]
    exact unbound name (List.mem_cons_of_mem _ mem)
  · rintro ⟨free, apart, unbound⟩
    have absent : key ∉ names := fun mem => by
      have bound := unbound key mem
      rw [get?_insert_self] at bound
      cases bound
    refine ⟨List.nodup_cons.2 ⟨absent, apart⟩, fun name mem => ?_⟩
    rcases List.mem_cons.1 mem with rfl | mem
    · exact free
    · rw [← unbound name mem, get?_insert_of_ne _ (ne_of_mem_of_not_mem mem absent)]

/-- Names are fresh in a row if the first ones are, and the others once the first are bound. -/
theorem fresh_append_iff {names : List String} :
    m.Fresh (entries.map (·.1) ++ names) ↔
      m.Fresh (entries.map (·.1)) ∧ (m.insertAll entries).Fresh names := by
  induction entries generalizing m with
  | nil => simp [fresh_nil]
  | cons e entries ih =>
    rw [List.map_cons, List.cons_append, fresh_cons_iff e.2, fresh_cons_iff e.2, ih,
      and_assoc, insertAll_cons]

/-- Values, each with its name. -/
def keyed (name : β → String) (values : List β) : List (String × β) :=
  values.map fun value => (name value, value)

@[simp]
theorem names_keyed (name : β → String) (values : List β) :
    (keyed name values).map (·.1) = values.map name := List.map_map

@[simp]
theorem values_keyed (name : β → String) (values : List β) :
    (keyed name values).map (·.2) = values := List.map_map.trans (List.map_id _)

@[simp]
theorem keyed_append (name : β → String) (first second : List β) :
    keyed name (first ++ second) = keyed name first ++ keyed name second := List.map_append

theorem mem_keyed_iff {name : β → String} {values : List β} :
    (key, value) ∈ keyed name values ↔ value ∈ values ∧ name value = key := by
  simp [keyed, and_comm]

theorem fresh_keyed_append_iff {name : β → String} {first second : List β} :
    m.Fresh ((first ++ second).map name) ↔
      m.Fresh (first.map name) ∧ (m.insertAll (keyed name first)).Fresh (second.map name) := by
  rw [List.map_append, ← names_keyed name first, fresh_append_iff]

/-- After fresh entries were added, they are found, and so is what was there before. -/
theorem get?_insertAll_eq_some_iff (fresh : m.Fresh (entries.map (·.1))) :
    (m.insertAll entries).get? key = some value ↔
      (key, value) ∈ entries ∨ m.get? key = some value := by
  by_cases named : key ∈ entries.map (·.1)
  · obtain ⟨⟨name, bound⟩, mem, rfl⟩ := List.mem_map.1 named
    rw [get?_insertAll_of_mem fresh.apart mem, fresh.unbound _ named]
    constructor
    · intro same
      cases same
      exact Or.inl mem
    · rintro (other | found)
      · exact congrArg some (Prod.mk.inj (List.inj_on_of_nodup_map fresh.apart mem other rfl)).2
      · cases found
  · rw [get?_insertAll_of_notMem named]
    constructor
    · exact Or.inr
    · rintro (mem | found)
      · exact absurd (List.mem_map_of_mem mem) named
      · exact found

end Tabletop.NameMap
