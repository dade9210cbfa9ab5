/-!
# Maps from names

A finite map whose keys are strings, kept in the order of the keys, so that two maps with the same
entries are equal and listing one needs no sorting.
-/

namespace Tabletop

/-- Puts an entry at its place, in the stead of an entry with the same key. -/
def insertEntry {β : Type} (key : String) (value : β) : List (String × β) → List (String × β)
  | [] => [(key, value)]
  | (k, v) :: entries =>
    if key < k then (key, value) :: (k, v) :: entries
    else if key = k then (key, value) :: entries
    else (k, v) :: insertEntry key value entries

theorem mem_insertEntry {β : Type} {key : String} {value : β} {entries : List (String × β)}
    {e : String × β} (h : e ∈ insertEntry key value entries) : e = (key, value) ∨ e ∈ entries := by
  induction entries with
  | nil => exact Or.inl (List.mem_singleton.1 h)
  | cons head entries ih =>
    obtain ⟨k, v⟩ := head
    simp only [insertEntry] at h
    split at h
    · rcases List.mem_cons.1 h with h | h
      · exact Or.inl h
      · exact Or.inr h
    · split at h
      · rcases List.mem_cons.1 h with h | h
        · exact Or.inl h
        · exact Or.inr (List.mem_cons_of_mem _ h)
      · rcases List.mem_cons.1 h with h | h
        · exact Or.inr (h ▸ List.mem_cons_self)
        · rcases ih h with h | h
          · exact Or.inl h
          · exact Or.inr (List.mem_cons_of_mem _ h)

theorem pairwise_insertEntry {β : Type} (key : String) (value : β) {entries : List (String × β)}
    (h : entries.Pairwise (·.1 < ·.1)) : (insertEntry key value entries).Pairwise (·.1 < ·.1) := by
  induction entries with
  | nil => exact List.pairwise_singleton _ _
  | cons head entries ih =>
    obtain ⟨k, v⟩ := head
    obtain ⟨hk, hrest⟩ := List.pairwise_cons.1 h
    simp only [insertEntry]
    split
    · rename_i hlt
      refine List.pairwise_cons.2 ⟨?_, h⟩
      intro e he
      rcases List.mem_cons.1 he with he | he
      · exact he ▸ hlt
      · exact String.lt_trans hlt (hk e he)
    · split
      · rename_i heq
        exact List.pairwise_cons.2 ⟨fun e he => heq ▸ hk e he, hrest⟩
      · rename_i hnot hne
        refine List.pairwise_cons.2 ⟨?_, ih hrest⟩
        intro e he
        rcases mem_insertEntry he with he | he
        · subst he
          exact Std.lt_of_le_of_ne (String.not_lt.1 hnot) (fun h => hne h.symm)
        · exact hk e he

theorem find?_insertEntry_self {β : Type} (key : String) (value : β) (entries : List (String × β)) :
    (insertEntry key value entries).find? (·.1 == key) = some (key, value) := by
  induction entries with
  | nil => exact List.find?_cons_of_pos (beq_self_eq_true key)
  | cons head entries ih =>
    obtain ⟨k, v⟩ := head
    simp only [insertEntry]
    split
    · exact List.find?_cons_of_pos (beq_self_eq_true key)
    · split
      · exact List.find?_cons_of_pos (beq_self_eq_true key)
      · rename_i hne
        have hk : (k == key) = false := beq_eq_false_iff_ne.2 fun h => hne h.symm
        rw [List.find?_cons, hk]
        exact ih

theorem find?_insertEntry_of_ne {β : Type} {key name : String} (h : name ≠ key) (value : β)
    (entries : List (String × β)) :
    (insertEntry key value entries).find? (·.1 == name) = entries.find? (·.1 == name) := by
  have hkey : (key == name) = false := beq_eq_false_iff_ne.2 fun e => h e.symm
  induction entries with
  | nil => rw [insertEntry, List.find?_cons, hkey]
  | cons head entries ih =>
    obtain ⟨k, v⟩ := head
    simp only [insertEntry]
    split
    · rw [List.find?_cons, hkey]
    · split
      · rename_i heq
        rw [List.find?_cons, List.find?_cons, ← heq, hkey]
      · rw [List.find?_cons, List.find?_cons, ih]

/-- A map from names to values; the entries are in the order of the names. -/
structure NameMap (β : Type) where
  entries : List (String × β)
  sorted : entries.Pairwise (·.1 < ·.1)

namespace NameMap

variable {β : Type}

instance [DecidableEq β] : DecidableEq (NameMap β) := fun a b =>
  if h : a.entries = b.entries then
    isTrue (by cases a; cases b; cases h; rfl)
  else isFalse (fun e => h (congrArg entries e))

def empty : NameMap β := ⟨[], List.Pairwise.nil⟩

instance : Inhabited (NameMap β) := ⟨empty⟩
instance : EmptyCollection (NameMap β) := ⟨empty⟩

/-- Binds a name, in the stead of what it was bound to. -/
def insert (m : NameMap β) (key : String) (value : β) : NameMap β :=
  ⟨insertEntry key value m.entries, pairwise_insertEntry key value m.sorted⟩

def get? (m : NameMap β) (key : String) : Option β :=
  (m.entries.find? (·.1 == key)).map (·.2)

def contains (m : NameMap β) (key : String) : Bool := (m.get? key).isSome

def size (m : NameMap β) : Nat := m.entries.length

def isEmpty (m : NameMap β) : Bool := m.entries.isEmpty

def keys (m : NameMap β) : List String := m.entries.map (·.1)

/-- Later entries win over earlier ones with the same name. -/
def ofList (entries : List (String × β)) : NameMap β :=
  entries.foldl (fun m e => m.insert e.1 e.2) empty

@[simp]
theorem get?_empty (name : String) : (∅ : NameMap β).get? name = none := rfl

@[simp]
theorem get?_insert_self (m : NameMap β) (key : String) (value : β) :
    (m.insert key value).get? key = some value := by
  rw [get?, insert, find?_insertEntry_self]
  rfl

/-- Binding a name leaves all other names alone. -/
theorem get?_insert_of_ne (m : NameMap β) {key name : String} (h : name ≠ key) (value : β) :
    (m.insert key value).get? name = m.get? name := by
  rw [get?, get?, insert, find?_insertEntry_of_ne h]

/-- Replaces the value of a name that is bound, and changes nothing else. -/
def modify (m : NameMap β) (key : String) (f : β → β) : NameMap β :=
  match m.get? key with
  | some value => m.insert key (f value)
  | none => m

/-- All entries of `other` go in, and win over those that are there. -/
def merge (m other : NameMap β) : NameMap β :=
  other.entries.foldl (fun m e => m.insert e.1 e.2) m

end NameMap

end Tabletop
