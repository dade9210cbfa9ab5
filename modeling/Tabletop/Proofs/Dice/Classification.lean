import Mathlib
import Tabletop.Proofs.Dice.Selection
/-!
# High and low dice

The classification of a multiple roll counts the high and the low dice of the rolls that it keeps.
Whether a die is counted is settled by this die alone. So the counts of several rolls add up, and
neither the order of the dice nor that of the rolls matters.
-/

namespace Tabletop

/-- The single dice of some outcomes, each with the number of its faces. -/
def singleDice (dice : List DieOutcome) : List (Nat × DieResult) :=
  dice.flatMap fun d => d.results.map (d.faces, ·)

theorem singleDice_append (dice more : List DieOutcome) :
    singleDice (dice ++ more) = singleDice dice ++ singleDice more := List.flatMap_append

/-- Whether a die is judged: it is active, and it has more than one face, and the number of faces
that is asked for, if there is one. -/
def isJudged (faces? : Option Nat) (die : Nat × DieResult) : Bool :=
  die.2.active && (1 < die.1 && faces?.all (die.1 == ·))

/-- Whether a die shows the threshold, or its highest face where there is none. -/
def reaches (threshold : Option Nat) (die : Nat × DieResult) : Bool :=
  threshold.getD die.1 ≤ die.2.value

section

variable (faces? threshold : Option Nat)

/-- The number of judged dice that reach the threshold. -/
def highDice (dice : List DieOutcome) : Nat :=
  (singleDice dice).countP fun die => isJudged faces? die && reaches threshold die

/-- The number of judged dice that show a one below the threshold. -/
def lowDice (dice : List DieOutcome) : Nat :=
  (singleDice dice).countP fun die =>
    isJudged faces? die && (!reaches threshold die && die.2.value == 1)

theorem highDice_append (dice more : List DieOutcome) :
    highDice faces? threshold (dice ++ more) =
      highDice faces? threshold dice + highDice faces? threshold more := by
  rw [highDice, singleDice_append, List.countP_append, highDice, highDice]

theorem lowDice_append (dice more : List DieOutcome) :
    lowDice faces? threshold (dice ++ more) =
      lowDice faces? threshold dice + lowDice faces? threshold more := by
  rw [lowDice, singleDice_append, List.countP_append, lowDice, lowDice]

variable {dice more : List DieOutcome} (h : (singleDice dice).Perm (singleDice more))
include h

theorem highDice_of_perm : highDice faces? threshold dice = highDice faces? threshold more :=
  h.countP_eq _

theorem lowDice_of_perm : lowDice faces? threshold dice = lowDice faces? threshold more :=
  h.countP_eq _

end

/-! ## Counts of a classification -/

/-- What is counted outcome by outcome is counted die by die. -/
theorem sumOf_countP (accepts : Nat → Bool) (p : Nat → Nat → Bool) (dice : List DieOutcome) :
    sumOf ((dice.filter fun d => accepts d.faces).map fun d => d.activeValues.countP (p d.faces)) =
      (singleDice dice).countP fun die =>
        (die.2.active && accepts die.1) && p die.1 die.2.value := by
  induction dice with
  | nil => rfl
  | cons d ds ih =>
    have split : singleDice (d :: ds) = d.results.map (d.faces, ·) ++ singleDice ds := rfl
    rw [split, List.countP_append, ← ih, List.countP_map]
    by_cases accepted : accepts d.faces = true
    · have one : d.activeValues.countP (p d.faces) = d.results.countP
          ((fun die => (die.2.active && accepts die.1) && p die.1 die.2.value) ∘ (d.faces, ·)) := by
        rw [DieOutcome.activeValues, List.countP_map, List.countP_filter]
        exact congrArg (d.results.countP ·) (funext fun die => by simp [accepted, Bool.and_comm])
      rw [List.filter_cons, if_pos accepted, List.map_cons, sumOf, one]
    · have none : d.results.countP
          ((fun die => (die.2.active && accepts die.1) && p die.1 die.2.value) ∘ (d.faces, ·)) =
            0 :=
        List.countP_eq_zero.2 fun die _ => by simp [accepted]
      rw [List.filter_cons, if_neg accepted, none, Nat.zero_add]

theorem MultiRoll.filterOf_accepts (f : Formula) (n : Nat) :
    (filterOf f).accepts n = (Formula.firstDieFaces? f).all (n == ·) := by
  unfold filterOf
  cases Formula.firstDieFaces? f with
  | none => rfl
  | some faces =>
    change [faces].contains n = (n == faces)
    rw [List.contains_cons, List.contains_nil, Bool.or_false]

theorem CritClassification.ofDice_eq (dice : List DieOutcome) (threshold : Option Nat)
    (f : Formula) :
    ofDice dice threshold (MultiRoll.filterOf f) =
      ofCounts (highDice (Formula.firstDieFaces? f) threshold dice)
        (lowDice (Formula.firstDieFaces? f) threshold dice) := by
  have counted (p : Nat → Nat → Bool) := sumOf_countP
    (fun n => 1 < n && (MultiRoll.filterOf f).accepts n) p dice
  have high := counted fun faces value => threshold.getD faces ≤ value
  have low := counted fun faces value => !decide (threshold.getD faces ≤ value) && value == 1
  simp only [MultiRoll.filterOf_accepts] at high low
  unfold ofDice
  simp only [MultiRoll.filterOf_accepts, high, low]
  rfl

/-! ## Entries that are kept -/

theorem classified_of_markEntries {chosen : Option Nat}
    {classify : EvaluatedRoll → CritClassification} {place : Nat} {rolls : List EvaluatedRoll} :
    ∀ e ∈ markEntries chosen classify place rolls, e.classification = classify e.roll := by
  induction rolls generalizing place with
  | nil => exact List.forall_mem_nil _
  | cons r rs ih => exact List.forall_mem_cons.2 ⟨rfl, ih⟩

/-- The dice of the entries that are not ignored. -/
def keptDice (entries : List MultiRollEntry) : List DieOutcome :=
  (entries.filter (!·.ignored)).flatMap (·.roll.dice)

/-- The same roll with its single dice in another order, possibly split otherwise among the dice
terms. -/
structure EvaluatedRoll.Rearranged (r r' : EvaluatedRoll) : Prop where
  total : r.total = r'.total
  dice : (singleDice r.dice).Perm (singleDice r'.dice)

theorem keptDice_of_rearranged {chosen : Option Nat} {classify : EvaluatedRoll → CritClassification}
    {place : Nat} {rolls rolls' : List EvaluatedRoll}
    (h : List.Forall₂ EvaluatedRoll.Rearranged rolls rolls') :
    (singleDice (keptDice (markEntries chosen classify place rolls))).Perm
      (singleDice (keptDice (markEntries chosen classify place rolls'))) := by
  induction h generalizing place with
  | nil => exact .refl _
  | @cons r r' rs rs' same rest ih =>
    have step (r : EvaluatedRoll) (rs : List EvaluatedRoll) :
        singleDice (keptDice (markEntries chosen classify place (r :: rs))) =
          (if chosen.any (· != place) then [] else singleDice r.dice) ++
            singleDice (keptDice (markEntries chosen classify (place + 1) rs)) := by
      unfold keptDice
      rw [markEntries]
      cases dropped : chosen.any (· != place) with
      | true => rfl
      | false => exact singleDice_append _ _
    rw [step, step]
    refine List.Perm.append ?_ ih
    cases chosen.any (· != place) with
    | true => exact .refl _
    | false => exact same.dice

theorem keptDice_none (classify : EvaluatedRoll → CritClassification) (place : Nat)
    (rolls : List EvaluatedRoll) :
    keptDice (markEntries none classify place rolls) = rolls.flatMap (·.dice) := by
  have all : (markEntries none classify place rolls).filter (!·.ignored) =
      markEntries none classify place rolls :=
    List.filter_eq_self.2 fun e mem => by simp [kept_of_markEntries_none classify e mem]
  rw [keptDice, all]
  conv => rhs; rw [← map_roll_markEntries none classify place rolls, List.flatMap_map]

/-! ## Outcomes -/

/-- The verdict on an outcome with so many high and so many low dice. -/
structure MultiRollOutcome.Verdict (o : MultiRollOutcome) (high low : Nat) : Prop where
  crit : o.isCrit = decide (2 ≤ high)
  mixed : o.critType = .mixed ↔ 0 < high ∧ 0 < low
  success : o.critType = .success ↔ 0 < high ∧ low = 0
  failure : o.critType = .failure ↔ high = 0 ∧ 0 < low
  none : o.critType = .none ↔ high = 0 ∧ low = 0

/-- Two outcomes get the same verdict. -/
def MultiRollOutcome.SameVerdict (o o' : MultiRollOutcome) : Prop :=
  o.critType = o'.critType ∧ o.isCrit = o'.isCrit

namespace MultiRoll

variable (m : MultiRoll) (f : Formula) (rolls : List EvaluatedRoll)

/-- The verdict follows from the counts of the dice that are kept. -/
theorem critType_outcomeOf :
    let kept := keptDice (m.outcomeOf (filterOf f) rolls).entries
    let counted := CritClassification.ofCounts
      (highDice (Formula.firstDieFaces? f) m.critThreshold kept)
      (lowDice (Formula.firstDieFaces? f) m.critThreshold kept)
    (m.outcomeOf (filterOf f) rolls).critType = counted.critType ∧
      (m.outcomeOf (filterOf f) rolls).isCrit = counted.isCrit := by
  intro kept counted
  have eq : counted = .ofDice kept m.critThreshold (filterOf f) :=
    (CritClassification.ofDice_eq kept m.critThreshold f).symm
  rw [eq]
  exact ⟨rfl, rfl⟩

theorem verdict_outcomeOf :
    (m.outcomeOf (filterOf f) rolls).Verdict
      (highDice (Formula.firstDieFaces? f) m.critThreshold
        (keptDice (m.outcomeOf (filterOf f) rolls).entries))
      (lowDice (Formula.firstDieFaces? f) m.critThreshold
        (keptDice (m.outcomeOf (filterOf f) rolls).entries)) := by
  obtain ⟨critType, isCrit⟩ := m.critType_outcomeOf f rolls
  generalize highDice _ _ _ = high at critType isCrit ⊢
  generalize lowDice _ _ _ = low at critType isCrit ⊢
  constructor
  · exact isCrit
  all_goals
    rw [critType]
    unfold CritClassification.ofCounts
    split_ifs <;> simp <;> omega

variable {m f rolls}

theorem sameVerdict_of_kept {rolls' : List EvaluatedRoll}
    (h : (singleDice (keptDice (m.outcomeOf (filterOf f) rolls').entries)).Perm
      (singleDice (keptDice (m.outcomeOf (filterOf f) rolls).entries))) :
    (m.outcomeOf (filterOf f) rolls').SameVerdict (m.outcomeOf (filterOf f) rolls) := by
  obtain ⟨critType, isCrit⟩ := m.critType_outcomeOf f rolls
  obtain ⟨critType', isCrit'⟩ := m.critType_outcomeOf f rolls'
  rw [highDice_of_perm _ _ h, lowDice_of_perm _ _ h] at critType' isCrit'
  exact ⟨critType'.trans critType.symm, isCrit'.trans isCrit.symm⟩

theorem sameVerdict_of_rearranged {rolls' : List EvaluatedRoll}
    (h : List.Forall₂ EvaluatedRoll.Rearranged rolls' rolls) :
    (m.outcomeOf (filterOf f) rolls').SameVerdict (m.outcomeOf (filterOf f) rolls) := by
  have totals : rolls'.map (·.total) = rolls.map (·.total) := by
    induction h with
    | nil => rfl
    | cons same rest ih => rw [List.map_cons, List.map_cons, same.total, ih]
  refine sameVerdict_of_kept ?_
  change (singleDice (keptDice (markEntries (selectedPlace? _ _) _ 0 rolls'))).Perm _
  rw [totals]
  exact keptDice_of_rearranged h

theorem sameVerdict_of_perm (all : m.selection = .none) {rolls' : List EvaluatedRoll}
    (h : rolls'.Perm rolls) :
    (m.outcomeOf (filterOf f) rolls').SameVerdict (m.outcomeOf (filterOf f) rolls) := by
  have kept (rolls : List EvaluatedRoll) :
      keptDice (m.outcomeOf (filterOf f) rolls).entries = rolls.flatMap (·.dice) := by
    change keptDice (markEntries (selectedPlace? m.selection _) _ 0 rolls) = _
    rw [all, selectedPlace?_none]
    exact keptDice_none _ 0 rolls
  refine sameVerdict_of_kept ?_
  rw [kept, kept]
  exact (h.flatMap_right _).flatMap_right _

end MultiRoll

/-- The counts of entries that are classified one by one add up to those of their dice. -/
theorem sumOf_classified {threshold : Option Nat} {f : Formula} {entries : List MultiRollEntry}
    (h : ∀ e ∈ entries, e.classification = e.roll.classify threshold (MultiRoll.filterOf f)) :
    sumOf (entries.map (·.classification.high)) =
        highDice (Formula.firstDieFaces? f) threshold (entries.flatMap (·.roll.dice)) ∧
      sumOf (entries.map (·.classification.low)) =
        lowDice (Formula.firstDieFaces? f) threshold (entries.flatMap (·.roll.dice)) := by
  induction entries with
  | nil => exact ⟨rfl, rfl⟩
  | cons e es ih =>
    obtain ⟨classified, others⟩ := List.forall_mem_cons.1 h
    rw [EvaluatedRoll.classify, CritClassification.ofDice_eq] at classified
    obtain ⟨high, low⟩ := ih others
    rw [List.flatMap_cons, highDice_append, lowDice_append, List.map_cons, List.map_cons, sumOf,
      sumOf, high, low, classified]
    exact ⟨rfl, rfl⟩

/-- The verdict on a multiple roll goes by the high and the low dice of the rolls that it keeps,
among those with as many faces as the first die of its formula. These counts are the sums of those
of the entries, and of one entry that is kept alone the verdict is that of the outcome. It does not
change when the dice of a roll are rearranged, nor when all rolls are kept and their order
changes. -/
theorem resolve_classifies {σ : Type} [RandomSource σ] {m : MultiRoll} {b : Bindings} {s s' : σ}
    {o : MultiRollOutcome} (h : perform (m.resolve b) s = (.ok o, s')) :
    ∃ f, Formula.parse m.composed = .ok f ∧
      (let faces? := Formula.firstDieFaces? f
       let high := highDice faces? m.critThreshold (o.chosen.flatMap (·.roll.dice))
       let low := lowDice faces? m.critThreshold (o.chosen.flatMap (·.roll.dice))
       o.Verdict high low ∧ sumOf (o.chosen.map (·.classification.high)) = high ∧
         sumOf (o.chosen.map (·.classification.low)) = low) ∧
      (m.selection ≠ .none → ∃ kept, o.chosen = [kept] ∧
        o.critType = kept.classification.critType ∧ o.isCrit = kept.classification.isCrit) ∧
      o = m.outcomeOf (MultiRoll.filterOf f) o.rolls ∧
      (∀ rolls, List.Forall₂ EvaluatedRoll.Rearranged rolls o.rolls →
        (m.outcomeOf (MultiRoll.filterOf f) rolls).SameVerdict o) ∧
      (m.selection = .none → ∀ rolls, rolls.Perm o.rolls →
        (m.outcomeOf (MultiRoll.filterOf f) rolls).SameVerdict o) := by
  obtain ⟨f, rolls, parsed, rolled, rfl⟩ := perform_resolve_ok_iff.1 h
  have made := m.rolls_outcomeOf (MultiRoll.filterOf f) rolls
  have classified : ∀ e ∈ (m.outcomeOf (MultiRoll.filterOf f) rolls).chosen,
      e.classification = e.roll.classify m.critThreshold (MultiRoll.filterOf f) := fun e mem =>
    classified_of_markEntries e (List.mem_of_mem_filter mem)
  refine ⟨f, parsed, ⟨m.verdict_outcomeOf f rolls, sumOf_classified classified⟩, fun selects => ?_,
    by rw [made], fun others same => ?_, fun all others same => ?_⟩
  · have some : rolls ≠ [] := by
      have length := length_of_evaluateTimes rolled
      have positive : 1 ≤ m.rollCount := Nat.le_max_left 1 _
      exact List.length_pos_iff.1 (by omega)
    obtain ⟨_, kept, _, -, -, -, -, chosen, -⟩ :=
      MultiRoll.keepsFirst_outcomeOf selects (MultiRoll.filterOf f) some
    obtain ⟨critType, isCrit⟩ := m.critType_outcomeOf f rolls
    have alone : keptDice (m.outcomeOf (MultiRoll.filterOf f) rolls).entries = kept.roll.dice := by
      change (m.outcomeOf (MultiRoll.filterOf f) rolls).chosen.flatMap (·.roll.dice) = _
      rw [chosen, List.flatMap_singleton]
    have own := classified kept (by rw [chosen]; exact List.mem_singleton_self _)
    rw [EvaluatedRoll.classify, CritClassification.ofDice_eq, ← alone] at own
    exact ⟨kept, chosen, by rw [own, critType], by rw [own, isCrit]⟩
  · rw [made] at same
    exact MultiRoll.sameVerdict_of_rearranged same
  · rw [made] at same
    exact MultiRoll.sameVerdict_of_perm all same

/-- Two dice rolled twice, of which the higher sum counts, and where a `19` is high as well. -/
def twoPairs : MultiRoll :=
  { formula := "2d20 + 1d4", count := 2, critThreshold := some 19, selection := .highest }

/-- A pair with a high and a low die is dropped for one with two high dice. The die with four faces
is not judged, though it shows a one. -/
theorem twoPairs_resolve : ∃ o : MultiRollOutcome,
    perform (twoPairs.resolve ∅) (ScriptedSource.ofFaces [1, 20, 4, 19, 20, 1]) =
        (.ok o, ⟨⟨[]⟩, 2⟩) ∧
      o.entries.map (fun e => (e.roll.total, e.ignored, e.classification.critType)) =
        [(25, true, .mixed), (40, false, .success)] ∧
      o.isCrit = true ∧ o.critType = .success ∧ o.Verdict 2 0 ∧
      sumOf (o.chosen.map (·.classification.high)) = 2 ∧
      ∃ kept, o.chosen = [kept] ∧ o.critType = kept.classification.critType ∧
        o.isCrit = kept.classification.isCrit := by
  let pair : Formula := [.dice ⟨2, 20, []⟩, .operator .add, .dice ⟨1, 4, []⟩]
  have parsed : Formula.parse twoPairs.composed = .ok pair := by cbv
  have rolled : perform (evaluateTimes twoPairs.composed ∅ twoPairs.rollCount)
      (ScriptedSource.ofFaces [1, 20, 4, 19, 20, 1]) =
      (.ok [⟨"2d20 + 1d4", 25, [⟨20, [⟨1, true⟩, ⟨20, true⟩]⟩, ⟨4, [⟨4, true⟩]⟩]⟩,
        ⟨"2d20 + 1d4", 40, [⟨20, [⟨19, true⟩, ⟨20, true⟩]⟩, ⟨4, [⟨1, true⟩]⟩]⟩], ⟨⟨[]⟩, 2⟩) := by
    refine perform_evaluateTimes_succ_ok_iff.2 ⟨_, ⟨⟨[19, 20, 1]⟩, 1⟩, _, ?_, ?_, rfl⟩
    · exact perform_evaluate_scripted_ok parsed (by decide +kernel) rfl
    refine perform_evaluateTimes_succ_ok_iff.2 ⟨_, ⟨⟨[]⟩, 2⟩, [], ?_, rfl, rfl⟩
    exact perform_evaluate_scripted_ok parsed (by decide +kernel) rfl
  have resolved := perform_resolve_ok_iff.2 ⟨pair, _, parsed, rolled, rfl⟩
  obtain ⟨f, parsed', ⟨verdict, high, -⟩, alone, -⟩ := resolve_classifies resolved
  cases parsed.symm.trans parsed'
  exact ⟨_, resolved, by decide +kernel, by decide +kernel, by decide +kernel, verdict, high,
    alone (by decide)⟩

end Tabletop
