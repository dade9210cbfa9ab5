import Mathlib
import Tabletop.Formula.Scaling
import Tabletop.Proofs.Dice.Evaluation
import Tabletop.Proofs.Formula.Rereading
/-!
# More dice in a formula

The dice of a formula are counted at any depth, in groups and in arguments of functions alike, and
all of them are rolled. Altering a formula goes into its groups only. It multiplies the counts and
adds to them outside of arguments, and leaves the dice in an argument as many as they are.
-/

namespace Tabletop

/-- The dice of a term multiplied, and more of them added; the count stops at the greatest one. -/
def DiceTerm.altered (multiply add : Nat) (d : DiceTerm) : DiceTerm :=
  { d with number := min maxCount (min maxCount (d.number * multiply) + add) }

theorem DiceTerm.number_altered {multiply add : Nat} {d : DiceTerm}
    (h : d.number * multiply + add ≤ maxCount) :
    (d.altered multiply add).number = d.number * multiply + add := by
  simp only [altered]
  omega

mutual

/-- The dice terms at any depth, in written order, each with whether it is in an argument of a
function; `held` says whether all of the term is in one. -/
def Term.placedDice (held : Bool) : Term → List (Bool × DiceTerm)
  | .dice d => [(held, d)]
  | .group inner => Formula.placedDice held inner
  | .call _ argument => Formula.placedDice true argument
  | _ => []

def Formula.placedDice (held : Bool) : List Term → List (Bool × DiceTerm)
  | [] => []
  | t :: ts => t.placedDice held ++ Formula.placedDice held ts

end

mutual

/-- The term without its dice counts and, if `numeric` is set, without its constants. -/
def Term.uncounted (numeric : Bool) : Term → Term
  | .dice d => .dice { d with number := 0 }
  | .number n => .number (if numeric then 0 else n)
  | .group inner => .group (Formula.uncounted numeric inner)
  | .call function argument => .call function (Formula.uncounted numeric argument)
  | t => t

def Formula.uncounted (numeric : Bool) : List Term → List Term
  | [] => []
  | t :: ts => t.uncounted numeric :: Formula.uncounted numeric ts

end

namespace Formula

/-- The dice terms in arguments of functions. -/
def heldDice (f : Formula) : List DiceTerm := ((placedDice false f).filter (·.1)).map (·.2)

/-- The number of dice in arguments of functions. -/
def heldCount (f : Formula) : Nat := sumOf ((heldDice f).map (·.number))

/-- The dice terms that are in no argument of a function. -/
def freeDice (f : Formula) : List DiceTerm := ((placedDice false f).filter (!·.1)).map (·.2)

end Formula

/-! ## All dice of a formula -/

mutual

theorem Term.map_placedDice (held : Bool) (t : Term) :
    (t.placedDice held).map (·.2) = t.diceTerms := by
  match t with
  | .group inner => exact Formula.map_placedDice held inner
  | .call function argument => exact Formula.map_placedDice true argument
  | .dice _ | .number _ | .variable _ | .operator _ => rfl

theorem Formula.map_placedDice (held : Bool) (ts : List Term) :
    (Formula.placedDice held ts).map (·.2) = Formula.diceTerms ts := by
  match ts with
  | [] => rfl
  | t :: ts =>
    rw [Formula.placedDice, Formula.diceTerms, List.map_append, t.map_placedDice held,
      Formula.map_placedDice held ts]

end

mutual

theorem Term.diceCount_eq (t : Term) : t.diceCount = sumOf (t.diceTerms.map (·.number)) := by
  match t with
  | .dice d => rfl
  | .group inner => exact Formula.diceCount_eq inner
  | .call function argument => exact Formula.diceCount_eq argument
  | .number _ | .variable _ | .operator _ => rfl

/-- The dice are counted at any depth. -/
theorem Formula.diceCount_eq (ts : List Term) :
    Formula.diceCount ts = sumOf ((Formula.diceTerms ts).map (·.number)) := by
  match ts with
  | [] => rfl
  | t :: ts =>
    rw [Formula.diceCount, Formula.diceTerms, List.map_append, sumOf_append, t.diceCount_eq,
      Formula.diceCount_eq ts]

end

mutual

theorem Term.hasDice_eq (t : Term) : t.hasDice = !t.diceTerms.isEmpty := by
  match t with
  | .group inner => exact Formula.hasDice_eq inner
  | .call function argument => exact Formula.hasDice_eq argument
  | .dice _ | .number _ | .variable _ | .operator _ => rfl

theorem Formula.hasDice_eq (ts : List Term) :
    Formula.hasDice ts = !(Formula.diceTerms ts).isEmpty := by
  match ts with
  | [] => rfl
  | t :: ts =>
    rw [Formula.hasDice, Formula.diceTerms, t.hasDice_eq, Formula.hasDice_eq ts]
    cases t.diceTerms with
    | nil => rfl
    | cons d dice => rfl

end

mutual

theorem Term.firstDieFaces?_eq (t : Term) :
    t.firstDieFaces? = t.diceTerms.head?.map (·.faces) := by
  match t with
  | .group inner => exact Formula.firstDieFaces?_eq inner
  | .call function argument => exact Formula.firstDieFaces?_eq argument
  | .dice _ | .number _ | .variable _ | .operator _ => rfl

theorem Formula.firstDieFaces?_eq (ts : List Term) :
    Formula.firstDieFaces? ts = (Formula.diceTerms ts).head?.map (·.faces) := by
  match ts with
  | [] => rfl
  | t :: ts =>
    rw [Formula.firstDieFaces?, Formula.diceTerms, List.head?_append, t.firstDieFaces?_eq,
      Formula.firstDieFaces?_eq ts]
    cases t.diceTerms.head? with
    | none => rfl
    | some d => rfl

end

/-! ## Altered formulas -/

section

variable {multiply add : Nat} {numeric : Bool}

mutual

theorem Term.held_of_placedDice (t : Term) : ∀ p ∈ t.placedDice true, p.1 = true := by
  match t with
  | .dice d => exact List.forall_mem_singleton.2 rfl
  | .group inner => exact Formula.held_of_placedDice inner
  | .call function argument => exact Formula.held_of_placedDice argument
  | .number _ | .variable _ | .operator _ => exact List.forall_mem_nil _

theorem Formula.held_of_placedDice (ts : List Term) :
    ∀ p ∈ Formula.placedDice true ts, p.1 = true := by
  match ts with
  | [] => exact List.forall_mem_nil _
  | t :: ts =>
    exact List.forall_mem_append.2 ⟨t.held_of_placedDice, Formula.held_of_placedDice ts⟩

end

/-- What becomes of a dice term at its place. -/
def alteredAt (multiply add : Nat) (p : Bool × DiceTerm) : DiceTerm :=
  if p.1 then p.2 else p.2.altered multiply add

mutual

theorem Term.diceTerms_alter (t : Term) :
    (t.alter multiply add numeric).diceTerms =
      (t.placedDice false).map (alteredAt multiply add) := by
  match t with
  | .group inner => exact Formula.diceTerms_alter inner
  | .call function argument =>
    -- the argument is left as it is, and all of its dice are held
    have spared : (Formula.placedDice true argument).map (alteredAt multiply add) =
        (Formula.placedDice true argument).map (·.2) :=
      List.map_congr_left fun p mem => if_pos (Formula.held_of_placedDice argument p mem)
    exact ((Formula.map_placedDice true argument).symm.trans spared.symm)
  | .dice _ | .number _ | .variable _ | .operator _ => rfl

/-- The dice terms of an altered formula are those of the formula, altered where no argument holds
them. -/
theorem Formula.diceTerms_alter (ts : List Term) :
    Formula.diceTerms (Formula.alter multiply add numeric ts) =
      (Formula.placedDice false ts).map (alteredAt multiply add) := by
  match ts with
  | [] => rfl
  | t :: ts =>
    rw [Formula.alter, Formula.diceTerms, Formula.placedDice, List.map_append, t.diceTerms_alter,
      Formula.diceTerms_alter ts]

end

mutual

theorem Term.uncounted_alter (t : Term) :
    (t.alter multiply add numeric).uncounted numeric = t.uncounted numeric := by
  match t with
  | .group inner =>
    rw [Term.alter, Term.uncounted, Term.uncounted, Formula.uncounted_alter inner]
  | .number n =>
    cases numeric with
    | true => rfl
    | false => rfl
  | .dice _ | .variable _ | .call _ _ | .operator _ => rfl

/-- Nothing but counts and constants is altered. -/
theorem Formula.uncounted_alter (ts : List Term) :
    Formula.uncounted numeric (Formula.alter multiply add numeric ts) =
      Formula.uncounted numeric ts := by
  match ts with
  | [] => rfl
  | t :: ts =>
    rw [Formula.alter, Formula.uncounted, Formula.uncounted, t.uncounted_alter,
      Formula.uncounted_alter ts]

end

/-- The dice of altered terms, with what those in arguments would have become on the left. -/
theorem sumOf_alteredAt (placed : List (Bool × DiceTerm))
    (fits : ∀ d ∈ (placed.filter (!·.1)).map (·.2), d.number * multiply + add ≤ maxCount) :
    sumOf ((placed.map (alteredAt multiply add)).map (·.number)) +
        (multiply * sumOf (((placed.filter (·.1)).map (·.2)).map (·.number)) +
          add * (placed.filter (·.1)).length) =
      multiply * sumOf ((placed.map (·.2)).map (·.number)) + add * placed.length +
        sumOf (((placed.filter (·.1)).map (·.2)).map (·.number)) := by
  induction placed with
  | nil => simp [sumOf]
  | cons p placed ih =>
    obtain ⟨held, d⟩ := p
    cases held with
    | true =>
      have rest := ih fits
      simp only [List.map_cons, List.filter_cons_of_pos, List.length_cons, sumOf, alteredAt,
        if_true, Nat.mul_add, Nat.mul_one] at rest ⊢
      omega
    | false =>
      obtain ⟨first, others⟩ := List.forall_mem_cons.1 fits
      have rest := ih others
      have free : (alteredAt multiply add (false, d)).number = d.number * multiply + add :=
        DiceTerm.number_altered first
      simp only [List.map_cons, List.filter_cons, List.length_cons, sumOf, free, Bool.false_eq_true,
        if_false, Nat.mul_add, Nat.mul_one, Nat.mul_comm multiply d.number] at rest ⊢
      omega

end

namespace Formula

/-- What altering a formula reaches. All dice terms of the formula are rolled, and the numbers and
the first faces are read off them at any depth. Those that no argument of a function holds are
altered, and nothing else is, in a formula that is put together as before. So, while the counts
stay in their range, the dice that are counted are the former ones multiplied and as many more as
there are terms, but for those in arguments; and they are so without exception exactly if the dice
in arguments would have stayed as many anyway. -/
theorem alter_spares_arguments (f : Formula) (multiply add : Nat) (numeric : Bool) :
    (diceCount f = sumOf ((diceTerms f).map (·.number)) ∧ hasDice f = !(diceTerms f).isEmpty ∧
      firstDieFaces? f = (diceTerms f).head?.map (·.faces)) ∧
    diceTerms (alter multiply add numeric f) = (placedDice false f).map (alteredAt multiply add) ∧
    uncounted numeric (alter multiply add numeric f) = uncounted numeric f ∧
    ((∀ d ∈ freeDice f, d.number * multiply + add ≤ maxCount) →
      diceCount (alter multiply add numeric f) +
            (multiply * heldCount f + add * (heldDice f).length) =
          multiply * diceCount f + add * (diceTerms f).length + heldCount f ∧
        (diceCount (alter multiply add numeric f) =
            multiply * diceCount f + add * (diceTerms f).length ↔
          heldCount f = multiply * heldCount f + add * (heldDice f).length)) := by
  refine ⟨⟨diceCount_eq f, hasDice_eq f, firstDieFaces?_eq f⟩, diceTerms_alter f,
    uncounted_alter f, ?_⟩
  intro fits
  have counted := sumOf_alteredAt (placedDice false f) fits
  have terms : (diceTerms f).length = (placedDice false f).length := by
    rw [← map_placedDice false f, List.length_map]
  have spared : (heldDice f).length = ((placedDice false f).filter (·.1)).length :=
    List.length_map _
  rw [map_placedDice, ← @diceTerms_alter multiply add numeric, ← diceCount_eq, ← diceCount_eq,
    ← terms, ← spared] at counted
  change _ + (multiply * heldCount f + _) = _ + heldCount f at counted
  exact ⟨counted, by omega⟩

/-- `2d6 + floor(1d8 / 2) + (1d4)` -/
def halvedDie : Formula :=
  [.dice ⟨2, 6, []⟩, .operator .add, .call .floor [.dice ⟨1, 8, []⟩, .operator .divide, .number 2],
    .operator .add, .group [.dice ⟨1, 4, []⟩]]

/-- Twice the dice and one more in each term: nine dice, and not eleven, as the one in the argument
stays alone. -/
theorem halvedDie_spares_argument :
    (∀ d ∈ freeDice halvedDie, d.number * 2 + 1 ≤ maxCount) ∧
      diceTerms (alter 2 1 false halvedDie) = [⟨5, 6, []⟩, ⟨1, 8, []⟩, ⟨3, 4, []⟩] ∧
      diceCount (alter 2 1 false halvedDie) + (2 * heldCount halvedDie + 1) =
        2 * diceCount halvedDie + 1 * (diceTerms halvedDie).length + heldCount halvedDie ∧
      diceCount (alter 2 1 false halvedDie) ≠
        2 * diceCount halvedDie + 1 * (diceTerms halvedDie).length := by
  have fits : ∀ d ∈ freeDice halvedDie, d.number * 2 + 1 ≤ maxCount := by decide
  obtain ⟨-, terms, -, counted⟩ := alter_spares_arguments halvedDie 2 1 false
  obtain ⟨sum, all⟩ := counted fits
  refine ⟨fits, terms.trans (by decide), sum, ?_⟩
  rw [Ne, all]
  decide

/-- Not all dice are multiplied: `floor(1d6)` twice is still one die, which a spell that grows by
twice that formula adds. -/
theorem argument_keeps_its_die :
    (¬∀ (f : Formula) (multiply add : Nat) (numeric : Bool),
      (∀ d ∈ diceTerms f, d.number * multiply + add ≤ maxCount) →
        diceCount (alter multiply add numeric f) =
          multiply * diceCount f + add * (diceTerms f).length) ∧
    parse "floor(1d6)" = .ok [.call .floor [.dice ⟨1, 6, []⟩]] ∧
    diceCount (alter 2 0 true [.call .floor [.dice ⟨1, 6, []⟩]]) = 1 ∧
    Scaling.scale "1d8" "floor(1d6)" 2 ∅ = .ok "1d8 + floor(1d6)" := by
  have argument : parse "floor(1d6)" = .ok [.call .floor [.dice ⟨1, 6, []⟩]] :=
    parse_render_of_sound (f := [.call .floor [.dice ⟨1, 6, []⟩]]) rfl (by decide)
  have grown : parse "1d8" = .ok [.dice ⟨1, 8, []⟩] :=
    parse_render_of_sound (f := [.dice ⟨1, 8, []⟩]) rfl (by decide)
  refine ⟨fun all => ?_, argument, rfl, ?_⟩
  · have twice := all [.call .floor [.dice ⟨1, 6, []⟩]] 2 0 false (by decide)
    exact absurd twice (by decide)
  · have written : Text.blank "floor(1d6)" = false := by decide
    rw [Scaling.scale, if_neg (by decide), written, if_neg Bool.false_ne_true]
    simp only [argument, grown]
    rfl

end Formula

end Tabletop
