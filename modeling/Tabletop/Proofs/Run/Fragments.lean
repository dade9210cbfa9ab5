import Mathlib
import Tabletop.Proofs.Formula.Scaling
import Tabletop.Proofs.Run.Maxima
import Tabletop.Proofs.Dice.Splicing
/-!
# Formulas from fragments

A run puts its formulas together from texts that it has not read: the terms of a roll, the dice of
a higher level, a damage bonus, the bonus dice of a critical hit. Blank texts are left out. Every
other text is read as it is read alone, and what is read is added. So a fragment cannot change what
its neighbours mean, and the value of the whole is the sum of the values.
-/
namespace Tabletop

open Text (isBlank skipBlank trimChars)

namespace Formula

open Grammar

/-! ## Blank fragments -/

theorem trimChars_eq_nil_iff {w : List Char} : trimChars w = [] ↔ Blanks w := by
  obtain ⟨b, blanks, whole⟩ := exists_blanks w
  rw [trimChars, List.reverse_eq_nil_iff, skipBlank_eq_nil_iff]
  constructor
  · intro h
    rw [whole]
    exact List.forall_mem_append.2 ⟨blanks, fun c mem => h c (List.mem_reverse.2 mem)⟩
  · intro h
    rw [skipBlank_eq_nil_iff.2 h]
    exact List.forall_mem_nil _

/-- The texts that are not blank. -/
def visibleParts (parts : List String) : List String := parts.filter (!Text.blank ·)

/-- Blank texts leave no trace. -/
theorem compose_visibleParts (parts : List String) :
    compose (visibleParts parts) = compose parts := by
  have shown (part : String) : (!(trimChars part.toList).isEmpty) = !Text.blank part := by
    rw [Bool.not_inj_iff, Bool.eq_iff_iff, List.isEmpty_iff, trimChars_eq_nil_iff, Text.blank,
      List.all_eq_true]
    rfl
  unfold compose visibleParts
  rw [List.filter_map, List.filter_map, List.filter_filter]
  simp only [Function.comp_def, shown, Bool.and_self]

theorem parse_compose_of_visibleParts {parts : List String} {fs : List Formula}
    (parsed : List.Forall₂ (fun part f => parse part = .ok f) (visibleParts parts) fs)
    (some : ∃ part ∈ parts, Text.blank part = false) : parse (compose parts) = .ok (sum fs) := by
  obtain ⟨part, mem, visible⟩ := some
  have kept : part ∈ visibleParts parts := List.mem_filter.2 ⟨mem, by rw [visible]; rfl⟩
  rw [← compose_visibleParts]
  exact parse_compose parsed (List.ne_nil_of_mem kept)

/-! ## What a sum is worth -/

section

variable {σ : Type} [Roller σ]

/-- The exact values of formulas, added up, with the dice of all of them. -/
def exactSum : List Formula → Exactly σ (ℚ × List DieOutcome)
  | [] => return (0, [])
  | f :: fs => do
    let (value, dice) ← exactly anyNumber f
    let (others, more) ← exactSum fs
    return (value + others, dice ++ more)

/-- Formulas with a plus between each two are worth the sum of what they are worth. -/
theorem exactly_sum {fs : List Formula} (alternating : ∀ f ∈ fs, alternates f = true) :
    (exactly anyNumber (sum fs) : Exactly σ _) = exactSum fs := by
  match fs with
  | [] => rfl
  | [f] =>
    simp only [sum_singleton, exactSum, pure_bind, add_zero, List.append_nil, Prod.mk.eta,
      bind_pure]
  | f :: g :: fs =>
    obtain ⟨first, others⟩ := List.forall_mem_cons.1 alternating
    rw [sum_cons_cons, exactly_add first, exactly_sum others]
    rfl

theorem alternates_of_forall₂ {parts : List String} {fs : List Formula}
    (parsed : List.Forall₂ (fun part f => parse part = .ok f) parts fs) :
    ∀ f ∈ fs, alternates f = true := by
  induction parsed with
  | nil => exact List.forall_mem_nil _
  | cons first _ ih => exact List.forall_mem_cons.2 ⟨(evaluable_of_readAll first).alternating, ih⟩

end

end Formula

/-! ## Where texts are put together -/

open Formula

/-- Where formulas are put together: the texts they are made of, and the text that is made. -/
inductive PutTogether : List String → String → Prop
  | fragments (parts : List String) : PutTogether parts (compose parts)
  /-- The terms of a multiple roll. -/
  | rolls (m : MultiRoll) : PutTogether (m.formula :: m.terms) m.composed
  /-- The dice by which a formula grows, where they do not go into its first term. -/
  | scaled {base scaling text : String} {steps : Nat} {b : Bindings} {f source e : Formula}
      (positive : 0 < steps) (grown : Scaling.scale base scaling steps b = .ok text)
      (read : parse base = .ok f)
      (read' : parse (if Text.blank scaling then base else scaling) = .ok source)
      (resolved : substitute b source = .ok e) (apart : Scaling.merged? steps f e = none) :
      PutTogether [base, render (alter steps 0 true e)] text
  /-- The damage bonus of an action. -/
  | damageBonus {c : RunContext} {formula grown bonus text : String} {b : Bindings}
      {action : ActionType}
      (scaled : Scaling.scale formula c.item.scaling.formula c.scalingSteps b = .ok grown)
      (given : actionBonus? c.actor c.item.actionType true = some (action, bonus))
      (line : c.firstLineFormula formula b = .ok text) : PutTogether [grown, bonus] text
  /-- The bonus dice of a critical hit. -/
  | critBonus {c : RunContext} {item : Item} {base bonus text : String} {f : Formula}
      (read : parse base = .ok f) (given : item.crit.bonusDice = some bonus)
      (critical : c.critFormula? item base = .ok (some text)) :
      PutTogether [render (c.critTerms item f), bonus] text
  /-- What base dice fell short of their maximum. -/
  | shortfall {formula : String} {base : EvaluatedRoll} {maxBase : Int}
      (short : 0 < maxBase - base.total) :
      PutTogether [formula, toString (maxBase - base.total)]
        (RunContext.critText .maximizeBoth formula base maxBase)

theorem PutTogether.eq_compose {parts : List String} {text : String} (h : PutTogether parts text) :
    text = compose parts := by
  cases h with
  | fragments => rfl
  | rolls m => rfl
  | @scaled base scaling text steps b f source e positive grown read read' resolved apart =>
    obtain ⟨f', source', e', parsed, found, replaced, merged | ⟨-, rfl⟩⟩ :=
      Scaling.scale_cases positive grown
    · cases read.symm.trans parsed
      cases read'.symm.trans found
      cases resolved.symm.trans replaced
      obtain ⟨first, terms, extra, rfl, rfl, same, -⟩ := merged
      cases apart.symm.trans
        (Scaling.merged?_eq_some_iff.2 ⟨first, terms, extra, rfl, rfl, same, rfl⟩)
    · cases read'.symm.trans found
      cases resolved.symm.trans replaced
      rfl
  | damageBonus scaled given line =>
    unfold RunContext.firstLineFormula at line
    rw [scaled, given] at line
    cases line
    rfl
  | critBonus read given critical =>
    rw [RunContext.critFormula?_eq read] at critical
    have made := Except.ok.inj critical
    split at made
    · rw [given] at made
      exact (Option.some.inj made).symm
    · cases made
  | shortfall short => exact if_pos ⟨rfl, short⟩

/-- Wherever a run puts texts together, each text that is not blank is read as it is read alone, and
the formulas that are read are added, one behind the other. -/
theorem fragments_are_added {parts : List String} {text : String} {fs : List Formula}
    (made : PutTogether parts text)
    (parsed : List.Forall₂ (fun part f => parse part = .ok f) (visibleParts parts) fs)
    (some : ∃ part ∈ parts, Text.blank part = false) :
    parse text = .ok (sum fs) ∧
      ∀ (σ : Type) [Roller σ], (exactly anyNumber (sum fs) : Exactly σ _) = exactSum fs := by
  constructor
  · rw [made.eq_compose]
    exact parse_compose_of_visibleParts parsed some
  · intro σ _
    exact exactly_sum (alternates_of_forall₂ parsed)

/-- A roll whose terms bring signs and blanks of their own. -/
def signedRoll : MultiRoll where
  formula := "\u00a01d20 "
  terms := ["\u2003", " - 2", "--@mod\t"]

theorem signedRoll_is_added :
    PutTogether (signedRoll.formula :: signedRoll.terms) "1d20 + - 2 + --@mod" ∧
      List.Forall₂ (fun part f => parse part = .ok f)
        (visibleParts (signedRoll.formula :: signedRoll.terms))
        [[.dice ⟨1, 20, []⟩], [.number (-2)], [.variable "mod"]] ∧
      parse "1d20 + - 2 + --@mod" = .ok [.dice ⟨1, 20, []⟩, .operator .add, .number (-2),
        .operator .add, .variable "mod"] := by
  have made : PutTogether (signedRoll.formula :: signedRoll.terms) signedRoll.composed :=
    .rolls signedRoll
  have text : signedRoll.composed = "1d20 + - 2 + --@mod" := by cbv
  rw [text] at made
  have dice : parse "\u00a01d20 " = .ok [.dice ⟨1, 20, []⟩] := by cbv
  have constant : parse " - 2" = .ok [.number (-2)] := by cbv
  have path : parse "--@mod\t" = .ok [.variable "mod"] := by cbv
  have parsed : List.Forall₂ (fun part f => parse part = .ok f)
      (visibleParts (signedRoll.formula :: signedRoll.terms))
      [[.dice ⟨1, 20, []⟩], [.number (-2)], [.variable "mod"]] :=
    .cons dice (.cons constant (.cons path .nil))
  exact ⟨made, parsed, (fragments_are_added made parsed ⟨" - 2", by decide, by decide⟩).1⟩

end Tabletop
