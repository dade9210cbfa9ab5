/-!
# Scanned values

Readers of text work on lists of characters. A step that succeeds gives a value and the text that
is left, with a proof that the text became shorter, which is what makes readers total.
-/

namespace Tabletop.Text

/-- A value from the front of a text, and what is left of it, which has less than `bound`
characters. -/
structure Scanned (α : Type) (bound : Nat) where
  value : α
  rest : List Char
  shorter : rest.length < bound

namespace Scanned

/-- What is scanned, with a greater bound. -/
def weaken {α : Type} {m n : Nat} (s : Scanned α m) (h : m ≤ n) : Scanned α n :=
  ⟨s.value, s.rest, Nat.lt_of_lt_of_le s.shorter h⟩

/-- Another value in the stead of the one that is scanned. -/
def map {α β : Type} {n : Nat} (f : α → β) (s : Scanned α n) : Scanned β n :=
  ⟨f s.value, s.rest, s.shorter⟩

end Scanned

theorem length_le_succ (cs : List Char) : cs.length ≤ cs.length + 1 := Nat.le_succ _

theorem length_lt_succ (cs : List Char) : cs.length < cs.length + 1 := Nat.lt_succ_self _

theorem length_lt_add (n : Nat) (cs : List Char) : cs.length < cs.length + (n + 1) :=
  Nat.lt_add_of_pos_right (Nat.succ_pos n)

theorem length_lt_add_five (cs : List Char) : cs.length < cs.length + 5 := length_lt_add 4 cs

theorem length_dropWhile_le (p : Char → Bool) (cs : List Char) :
    (cs.dropWhile p).length ≤ cs.length :=
  (List.dropWhile_sublist p).length_le

end Tabletop.Text
