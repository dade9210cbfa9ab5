import Mathlib
import Tabletop.Formula.Scaling
import Tabletop.Proofs.Dice.Splicing
import Tabletop.Proofs.Formula.Rereading
/-!
# The dice of a formula

Taking the constants away from a formula, or putting more dice into its terms, leaves a formula that
can be read, as long as no term has more dice than can be rolled. So can what is added behind it.
Neither brings in a division.
-/

namespace Tabletop

namespace Formula

/-! ## Without constants -/

theorem diceOnly_operand {t : Term} (operand : t.isOperand = true) (ts : List Term) :
    diceOnly (t :: ts) = t :: diceOnly ts := by
  cases ts with
  | nil => rfl
  | cons u us =>
    have kept : t.isAdditive = false := by
      cases t with
      | operator op => cases operand
      | _ => rfl
    rw [diceOnly, kept, Bool.false_and, if_neg Bool.false_ne_true]

theorem continues_diceOnly (ts : List Term) (h : continues ts = true) :
    continues (diceOnly ts) = true := by
  match ts with
  | [] => rfl
  | .operator op :: t :: ts =>
    obtain ⟨operand, more⟩ := Bool.and_eq_true_iff.1 h
    rw [diceOnly, diceOnly_operand operand]
    split
    · exact continues_diceOnly ts more
    · rw [continues, operand, continues_diceOnly ts more]
      rfl

theorem alternates_diceOnly {f : Formula} (h : alternates f = true) :
    alternates (diceOnly f) = true := by
  cases f with
  | nil => cases h
  | cons t ts =>
    obtain ⟨operand, more⟩ := Bool.and_eq_true_iff.1 h
    rw [diceOnly_operand operand, alternates, operand, continues_diceOnly ts more]
    rfl

/-- What is left was there before. -/
theorem mem_nested_of_diceOnly (f : Formula) {u : Term} (h : u ∈ nested (diceOnly f)) :
    u ∈ nested f := by
  induction f using diceOnly.induct with
  | case1 => exact h
  | case2 t => exact h
  | case3 t v ts dropped ih =>
    rw [diceOnly, if_pos dropped] at h
    exact List.mem_append_right _ (List.mem_append_right _ (ih h))
  | case4 t v ts kept ih =>
    rw [diceOnly, if_neg kept] at h
    rcases List.mem_append.1 h with first | behind
    · exact List.mem_append_left _ first
    · exact List.mem_append_right _ (ih behind)

end Formula

/-! ## With more dice -/

section

variable {multiply add : Nat} {numeric : Bool}

theorem Term.isOperand_alter (t : Term) :
    (t.alter multiply add numeric).isOperand = t.isOperand := by
  cases t with
  | _ => rfl

theorem Formula.continues_alter (ts : List Term) :
    continues (alter multiply add numeric ts) = continues ts := by
  match ts with
  | [] => rfl
  | [.operator op] => rfl
  | .operator op :: t :: ts =>
    change ((t.alter multiply add numeric).isOperand && continues (alter multiply add numeric ts)) =
      (t.isOperand && continues ts)
    rw [Term.isOperand_alter, Formula.continues_alter ts]
  | .dice _ :: _ | .number _ :: _ | .variable _ :: _ | .group _ :: _ | .call _ _ :: _ => rfl

theorem Formula.alternates_alter (f : Formula) :
    alternates (alter multiply add numeric f) = alternates f := by
  cases f with
  | nil => rfl
  | cons t ts =>
    change ((t.alter multiply add numeric).isOperand && continues (alter multiply add numeric ts)) =
      (t.isOperand && continues ts)
    rw [Term.isOperand_alter, continues_alter]

mutual

theorem Term.origin_of_alter (t : Term) {u : Term}
    (h : u ∈ (t.alter multiply add numeric).nested) :
    ∃ v ∈ t.nested, u = v ∨ u = v.alter multiply add numeric := by
  match t with
  | .group inner =>
    rcases List.mem_cons.1 h with rfl | deeper
    · exact ⟨.group inner, List.mem_cons_self, Or.inr rfl⟩
    · obtain ⟨v, mem, same⟩ := Formula.origin_of_alter inner deeper
      exact ⟨v, List.mem_cons_of_mem _ mem, same⟩
  | .call function argument => exact ⟨u, h, Or.inl rfl⟩
  | .dice d => exact ⟨.dice d, List.mem_cons_self, Or.inr (List.mem_singleton.1 h)⟩
  | .number n => exact ⟨.number n, List.mem_cons_self, Or.inr (List.mem_singleton.1 h)⟩
  | .variable path => exact ⟨u, h, Or.inl rfl⟩
  | .operator op => exact ⟨u, h, Or.inl rfl⟩

/-- A term of an altered formula is a term of the formula, or it is one that was altered. -/
theorem Formula.origin_of_alter (ts : List Term) {u : Term}
    (h : u ∈ Formula.nested (Formula.alter multiply add numeric ts)) :
    ∃ v ∈ Formula.nested ts, u = v ∨ u = v.alter multiply add numeric := by
  match ts with
  | [] => cases h
  | t :: ts =>
    rcases List.mem_append.1 h with first | behind
    · obtain ⟨v, mem, same⟩ := t.origin_of_alter first
      exact ⟨v, List.mem_append_left _ mem, same⟩
    · obtain ⟨v, mem, same⟩ := Formula.origin_of_alter ts behind
      exact ⟨v, List.mem_append_right _ mem, same⟩

end

/-- More dice in a term leave it readable, unless they are too many. -/
theorem Term.sound_alter {t : Term} (h : t.Sound ∧ t.InRange)
    (few : ∀ d, t.alter multiply add false = .dice d → d.number ≤ maxDice) :
    (t.alter multiply add false).Sound ∧ (t.alter multiply add false).InRange := by
  match t with
  | .dice d =>
    obtain ⟨⟨-, faces⟩, -, inside⟩ := h
    exact ⟨⟨few _ rfl, faces⟩, Nat.min_le_left _ _, inside⟩
  | .group inner => exact ⟨(Formula.alternates_alter inner).trans h.1, trivial⟩
  | .number _ | .variable _ | .call _ _ | .operator _ => exact h

theorem Formula.sound_alter {f : Formula} (sound : ∀ t ∈ nested f, t.Sound ∧ t.InRange)
    (few : ∀ d, .dice d ∈ nested (alter multiply add false f) → d.number ≤ maxDice) :
    ∀ t ∈ nested (alter multiply add false f), t.Sound ∧ t.InRange := by
  intro t mem
  obtain ⟨v, origin, rfl | rfl⟩ := origin_of_alter f mem
  · exact sound _ origin
  · exact Term.sound_alter (sound v origin) fun d same => few d (same ▸ mem)

theorem Formula.divide_mem_of_alter {f : Formula}
    (h : .operator .divide ∈ nested (alter multiply add numeric f)) :
    .operator .divide ∈ nested f := by
  obtain ⟨v, origin, same | same⟩ := origin_of_alter f h
  · exact same ▸ origin
  · cases v with
    | operator op => exact same ▸ origin
    | _ => cases same

end

/-! ## With something behind it -/

namespace Formula

theorem parse_compose_pair {first second : String} {f g : Formula} (parsed : parse first = .ok f)
    (parsed' : parse second = .ok g) :
    parse (compose [first, second]) = .ok (f ++ .operator .add :: g) := by
  have whole := parse_compose (.cons parsed (.cons parsed' .nil)) (List.cons_ne_nil _ _)
  rwa [sum_cons_cons, sum_singleton] at whole

/-- Blank texts are left out. -/
theorem parse_compose_blank {first second : String} {f : Formula} (parsed : parse first = .ok f)
    (blank : Text.trim second = "") : parse (compose [first, second]) = .ok f := by
  have whole := parse_compose (.cons parsed .nil) (List.cons_ne_nil _ _)
  rw [sum_singleton] at whole
  have empty : Text.trimChars second.toList = [] := String.ofList_eq_empty_iff.1 blank
  have same : compose [first, second] = compose [first] := by
    simp only [compose, List.map_cons, List.map_nil, empty, List.filter_cons, List.filter_nil,
      List.isEmpty_nil, Bool.not_true, Bool.false_eq_true, if_false]
  exact (congrArg parse same).trans whole

theorem divide_mem_of_sum {f g : Formula}
    (h : .operator .divide ∈ nested (f ++ .operator .add :: g)) :
    .operator .divide ∈ nested f ∨ .operator .divide ∈ nested g := by
  rw [nested_append] at h
  rcases List.mem_append.1 h with first | behind
  · exact Or.inl first
  · rcases List.mem_append.1 behind with plus | second
    · cases List.mem_singleton.1 plus
    · exact Or.inr second

theorem parse_toString {n : Int} (nonneg : 0 ≤ n) (range : n ≤ maxConstant) :
    parse (toString n) = .ok [.number n] := by
  obtain ⟨k, rfl⟩ := Int.eq_ofNat_of_zero_le nonneg
  have sound := sound_natCast (Int.ofNat_le.1 range)
  have digits : integerChars k = Nat.toDigits 10 k := if_neg (Int.not_lt.2 nonneg)
  have text : toString (k : Int) = render [.number k] := by
    rw [render, chars, chars, Term.chars, digits, List.append_nil]
    rfl
  rw [text]
  exact parse_render_of_sound rfl (List.forall_mem_singleton.2 sound)

end Formula

end Tabletop
