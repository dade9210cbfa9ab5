import Tabletop.Proofs.Dice.Replay
import Tabletop.Proofs.Dice.Sources
/-!
# Which of several rolls counts

A multiple roll evaluates its formula so many times in a row. Of all these rolls the selection keeps
the first one that no other one beats, or all of them. The running best of the search is the best of
the totals that it has seen, which each further total either leaves as it is or replaces.
-/

namespace Tabletop

/-! ## The search for the best total -/

/-- The best total and its place: it beats all totals before it, and none behind it beats it. -/
def FirstBest (mode : SelectionMode) (totals : List Int) (place : Nat) (best : Int) : Prop :=
  ∃ before after, totals = before ++ best :: after ∧ before.length = place ∧
    (∀ t ∈ before, mode.better best t = true) ∧ ∀ t ∈ after, mode.better t best = false

namespace SelectionMode

variable {mode : SelectionMode} {a b c : Int}

theorem better_trans (h : mode.better a b = true) (h' : mode.better b c = true) :
    mode.better a c = true := by
  cases mode with
  | none => cases h
  | highest =>
    simp only [better, decide_eq_true_eq] at *
    omega
  | lowest =>
    simp only [better, decide_eq_true_eq] at *
    omega

/-- What beats a total beats all that do not beat it. -/
theorem better_of_not_better (h : mode.better a b = true) (h' : mode.better c b = false) :
    mode.better a c = true := by
  cases mode with
  | none => cases h
  | highest =>
    simp only [better, decide_eq_true_eq, decide_eq_false_iff_not] at *
    omega
  | lowest =>
    simp only [better, decide_eq_true_eq, decide_eq_false_iff_not] at *
    omega

end SelectionMode

namespace FirstBest

variable {mode : SelectionMode} {seen : List Int} {place : Nat} {best total : Int}

theorem singleton (total : Int) : FirstBest mode [total] 0 total :=
  ⟨[], [], rfl, rfl, List.forall_mem_nil _, List.forall_mem_nil _⟩

theorem keep (h : FirstBest mode seen place best) (worse : mode.better total best = false) :
    FirstBest mode (seen ++ [total]) place best := by
  obtain ⟨before, after, rfl, rfl, beaten, unbeaten⟩ := h
  refine ⟨before, after ++ [total], by simp, rfl, beaten, ?_⟩
  exact List.forall_mem_append.2 ⟨unbeaten, List.forall_mem_singleton.2 worse⟩

theorem replace (h : FirstBest mode seen place best) (better : mode.better total best = true) :
    FirstBest mode (seen ++ [total]) seen.length total := by
  obtain ⟨before, after, rfl, -, beaten, unbeaten⟩ := h
  refine ⟨before ++ best :: after, [], rfl, rfl, ?_, List.forall_mem_nil _⟩
  refine List.forall_mem_append.2 ⟨fun t mem => ?_, List.forall_mem_cons.2 ⟨better, ?_⟩⟩
  · exact SelectionMode.better_trans better (beaten t mem)
  · exact fun t mem => SelectionMode.better_of_not_better better (unbeaten t mem)

/-- From the best of the totals seen so far the search finds the best of all. -/
theorem bestPlace (h : FirstBest mode seen place best) (totals : List Int) :
    ∃ best', FirstBest mode (seen ++ totals)
      (Tabletop.bestPlace mode place best seen.length totals) best' := by
  induction totals generalizing seen place best with
  | nil => exact ⟨best, by rwa [List.append_nil]⟩
  | cons total totals ih =>
    have step : (seen ++ [total]).length = seen.length + 1 := List.length_append
    rw [List.append_cons seen, Tabletop.bestPlace, ← step]
    by_cases better : mode.better total best = true
    · rw [if_pos better]
      exact ih (h.replace better)
    · rw [if_neg better]
      exact ih (h.keep (Bool.eq_false_iff.2 better))

end FirstBest

theorem exists_selectedPlace {mode : SelectionMode} (selects : mode ≠ .none) {totals : List Int}
    (some : totals ≠ []) :
    ∃ place best, selectedPlace? mode totals = Option.some place ∧
      FirstBest mode totals place best := by
  obtain ⟨total, totals, rfl⟩ := List.exists_cons_of_ne_nil some
  have alone : FirstBest mode [total] 0 total := .singleton total
  obtain ⟨best, first⟩ := alone.bestPlace totals
  exact ⟨_, best, if_neg selects, first⟩

theorem selectedPlace?_none (totals : List Int) : selectedPlace? .none totals = none := by
  cases totals with
  | nil => rfl
  | cons total totals => rfl

/-! ## The marks of the entries -/

section

variable (chosen : Option Nat) (classify : EvaluatedRoll → CritClassification)

theorem map_roll_markEntries (place : Nat) (rolls : List EvaluatedRoll) :
    (markEntries chosen classify place rolls).map (·.roll) = rolls := by
  induction rolls generalizing place with
  | nil => rfl
  | cons r rs ih => rw [markEntries, List.map_cons, ih]

theorem roll_mem_of_markEntries {place : Nat} {rolls : List EvaluatedRoll} {e : MultiRollEntry}
    (h : e ∈ markEntries chosen classify place rolls) : e.roll ∈ rolls := by
  rw [← map_roll_markEntries chosen classify place rolls]
  exact List.mem_map_of_mem h

theorem markEntries_append (place : Nat) (rolls rolls' : List EvaluatedRoll) :
    markEntries chosen classify place (rolls ++ rolls') =
      markEntries chosen classify place rolls ++
        markEntries chosen classify (place + rolls.length) rolls' := by
  induction rolls generalizing place with
  | nil => rfl
  | cons r rs ih =>
    rw [List.cons_append, markEntries, markEntries, ih, List.cons_append, List.length_cons,
      Nat.add_assoc, Nat.add_comm 1]

/-- Without a choice no roll is dropped. -/
theorem kept_of_markEntries_none {place : Nat} {rolls : List EvaluatedRoll} :
    ∀ e ∈ markEntries none classify place rolls, e.ignored = false := by
  induction rolls generalizing place with
  | nil => exact List.forall_mem_nil _
  | cons r rs ih => exact List.forall_mem_cons.2 ⟨rfl, ih⟩

/-- All rolls are dropped that are not at the place that was chosen. -/
theorem dropped_of_markEntries_some {k place : Nat} {rolls : List EvaluatedRoll}
    (outside : k < place ∨ place + rolls.length ≤ k) :
    ∀ e ∈ markEntries (some k) classify place rolls, e.ignored = true := by
  induction rolls generalizing place with
  | nil => exact List.forall_mem_nil _
  | cons r rs ih =>
    rw [List.length_cons] at outside
    have other : k ≠ place := by omega
    refine List.forall_mem_cons.2 ⟨bne_iff_ne.2 other, ih ?_⟩
    omega

/-- The roll at the place that was chosen is the one that is kept. -/
theorem markEntries_some (before after : List EvaluatedRoll) (r : EvaluatedRoll) :
    ∃ dropped others,
      markEntries (some before.length) classify 0 (before ++ r :: after) =
        dropped ++ ⟨r, false, classify r⟩ :: others ∧
      (∀ e ∈ dropped, e.ignored = true ∧ e.roll ∈ before) ∧
      ∀ e ∈ others, e.ignored = true ∧ e.roll ∈ after := by
  refine ⟨markEntries (some before.length) classify 0 before,
    markEntries (some before.length) classify (before.length + 1) after, ?_, ?_, ?_⟩
  · have kept : (some before.length).any (· != before.length) = false := bne_self_eq_false _
    rw [markEntries_append, Nat.zero_add, markEntries, kept]
  · intro e mem
    exact ⟨dropped_of_markEntries_some classify (by omega) e mem, roll_mem_of_markEntries _ _ mem⟩
  · intro e mem
    exact ⟨dropped_of_markEntries_some classify (by omega) e mem, roll_mem_of_markEntries _ _ mem⟩

end

/-! ## Rolls in a row -/

theorem evaluateEach_of_evaluateTimes {σ : Type} [RandomSource σ] {text : String} {b : Bindings}
    {n : Nat} {s s' : σ} {rolls : List EvaluatedRoll}
    (h : perform (evaluateTimes text b n) s = (.ok rolls, s')) :
    evaluateEach RandomSource.evaluate (List.replicate n (text, b)) s = (rolls.map .ok, s') := by
  induction n generalizing s rolls with
  | zero =>
    cases h
    rfl
  | succ n ih =>
    obtain ⟨roll, u, rest, rolled, others, rfl⟩ := perform_evaluateTimes_succ_ok_iff.1 h
    rw [List.replicate_succ, evaluateEach, rolled]
    simp only [ih others, List.map_cons]

theorem length_of_evaluateTimes {σ : Type} [RandomSource σ] {text : String} {b : Bindings}
    {n : Nat} {s s' : σ} {rolls : List EvaluatedRoll}
    (h : perform (evaluateTimes text b n) s = (.ok rolls, s')) : rolls.length = n := by
  induction n generalizing s rolls with
  | zero =>
    cases h
    rfl
  | succ n ih =>
    obtain ⟨roll, u, rest, -, others, rfl⟩ := perform_evaluateTimes_succ_ok_iff.1 h
    exact congrArg (· + 1) (ih others)

theorem rolledFrom_of_evaluateTimes {σ : Type} [RandomSource σ] [DiceSource σ] {text : String}
    {b : Bindings} {n : Nat} {s s' : σ} {rolls : List EvaluatedRoll}
    (h : perform (evaluateTimes text b n) s = (.ok rolls, s')) :
    ∀ r ∈ rolls, RolledFrom text b r := by
  induction n generalizing s rolls with
  | zero =>
    cases h
    exact List.forall_mem_nil _
  | succ n ih =>
    obtain ⟨roll, u, rest, rolled, others, rfl⟩ := perform_evaluateTimes_succ_ok_iff.1 h
    exact List.forall_mem_cons.2 ⟨DiceSource.rolledFrom rolled, ih others⟩

/-! ## Outcomes -/

namespace MultiRollOutcome

/-- One roll is kept: its total beats those before it, none behind it beats it, and it is the total
of the outcome. -/
def KeepsFirst (o : MultiRollOutcome) (beats : Int → Int → Prop) : Prop :=
  ∃ before kept after, o.entries = before ++ kept :: after ∧ kept.ignored = false ∧
    (∀ e ∈ before, e.ignored = true ∧ beats kept.roll.total e.roll.total) ∧
    (∀ e ∈ after, e.ignored = true ∧ ¬beats e.roll.total kept.roll.total) ∧
    o.chosen = [kept] ∧ o.total? = some kept.roll.total

theorem chosen_eq {o : MultiRollOutcome} {before after : List MultiRollEntry}
    {kept : MultiRollEntry} (entries : o.entries = before ++ kept :: after)
    (alone : kept.ignored = false) (dropped : ∀ e ∈ before, e.ignored = true)
    (dropped' : ∀ e ∈ after, e.ignored = true) : o.chosen = [kept] := by
  have none_left {es : List MultiRollEntry} (all : ∀ e ∈ es, e.ignored = true) :
      es.filter (!·.ignored) = [] :=
    List.filter_eq_nil_iff.2 fun e mem => by simp [all e mem]
  rw [chosen, entries, List.filter_append, none_left dropped, List.nil_append,
    List.filter_cons_of_pos (by simp [alone]), none_left dropped']

end MultiRollOutcome

namespace MultiRoll

/-- The rolls of an outcome are those that were made. -/
theorem rolls_outcomeOf (m : MultiRoll) (filter : DiceFilter) (rolls : List EvaluatedRoll) :
    (m.outcomeOf filter rolls).rolls = rolls := map_roll_markEntries _ _ 0 rolls

theorem keepsFirst_outcomeOf {m : MultiRoll} (selects : m.selection ≠ .none) (filter : DiceFilter)
    {rolls : List EvaluatedRoll} (some : rolls ≠ []) :
    (m.outcomeOf filter rolls).KeepsFirst fun a b => m.selection.better a b = true := by
  have totals : rolls.map (·.total) ≠ [] := mt List.map_eq_nil_iff.1 some
  obtain ⟨place, best, selected, lower, rest, split, rfl, beaten, unbeaten⟩ :=
    exists_selectedPlace selects totals
  obtain ⟨before, behind, rfl, rfl, behind_totals⟩ := List.map_eq_append_iff.1 split
  obtain ⟨kept, after, rfl, rfl, rfl⟩ := List.map_eq_cons_iff.1 behind_totals
  rw [List.length_map] at selected
  obtain ⟨dropped, others, marked, first, second⟩ :=
    markEntries_some (·.classify m.critThreshold filter) before after kept
  have entries : (m.outcomeOf filter (before ++ kept :: after)).entries =
      dropped ++ ⟨kept, false, kept.classify m.critThreshold filter⟩ :: others := by
    change markEntries (selectedPlace? _ _) _ 0 _ = _
    rw [selected, marked]
  have chosen := MultiRollOutcome.chosen_eq entries rfl (fun e mem => (first e mem).1)
    fun e mem => (second e mem).1
  refine ⟨dropped, _, others, entries, rfl, fun e mem => ?_, fun e mem => ?_, chosen, ?_⟩
  · exact ⟨(first e mem).1, beaten _ (List.mem_map_of_mem (first e mem).2)⟩
  · exact ⟨(second e mem).1, Bool.not_eq_true _ ▸ unbeaten _ (List.mem_map_of_mem (second e mem).2)⟩
  · rw [MultiRollOutcome.total?, chosen]
    rfl

theorem kept_outcomeOf_none {m : MultiRoll} (all : m.selection = .none) (filter : DiceFilter)
    (rolls : List EvaluatedRoll) :
    ∀ e ∈ (m.outcomeOf filter rolls).entries, e.ignored = false := by
  change ∀ e ∈ markEntries (selectedPlace? m.selection _) _ 0 rolls, _
  rw [all, selectedPlace?_none]
  exact kept_of_markEntries_none _

theorem formula_outcomeOf {m : MultiRoll} {filter : DiceFilter} {r : EvaluatedRoll}
    {rolls : List EvaluatedRoll} : (m.outcomeOf filter (r :: rolls)).formula = r.formula := rfl

end MultiRoll

/-- A multiple roll that succeeds has evaluated its composed formula as often as it asks for, and at
least once, all evaluations reporting one text. With advantage it keeps the first of the highest
totals, with disadvantage the first of the lowest ones, and otherwise all rolls; its total is that
of the first roll that it keeps. -/
theorem resolve_selects {σ : Type} [RandomSource σ] [DiceSource σ] {m : MultiRoll} {b : Bindings}
    {s s' : σ} {o : MultiRollOutcome} (h : perform (m.resolve b) s = (.ok o, s')) :
    o.entries.length = max m.count 1 ∧
    evaluateEach RandomSource.evaluate (List.replicate (max m.count 1) (m.composed, b)) s =
      (o.rolls.map .ok, s') ∧
    (∀ e ∈ o.entries, e.roll.formula = o.formula) ∧
    (m.selection = .highest → o.KeepsFirst (· > ·)) ∧
    (m.selection = .lowest → o.KeepsFirst (· < ·)) ∧
    (m.selection = .none → (∀ e ∈ o.entries, e.ignored = false) ∧
      ∃ first ∈ o.entries.head?, o.total? = some first.roll.total) := by
  obtain ⟨f, rolls, parsed, rolled, rfl⟩ := perform_resolve_ok_iff.1 h
  have count : m.rollCount = max m.count 1 := Nat.max_comm _ _
  have length : rolls.length = max m.count 1 := (length_of_evaluateTimes rolled).trans count
  have texts := rolledFrom_of_evaluateTimes rolled
  have kept := m.rolls_outcomeOf (MultiRoll.filterOf f) rolls
  have some : rolls ≠ [] := List.length_pos_iff.1 (by omega)
  have best (selects : m.selection ≠ .none) :=
    MultiRoll.keepsFirst_outcomeOf selects (MultiRoll.filterOf f) some
  refine ⟨?_, ?_, ?_, fun highest => ?_, fun lowest => ?_, fun all => ?_⟩
  · rw [← length, ← congrArg List.length kept, MultiRollOutcome.rolls, List.length_map]
  · rw [← count, kept]
    exact evaluateEach_of_evaluateTimes rolled
  · obtain ⟨first, others, rfl⟩ := List.exists_cons_of_ne_nil some
    intro e mem
    rw [MultiRoll.formula_outcomeOf]
    have made : e.roll ∈ first :: others := kept ▸ List.mem_map_of_mem mem
    exact (texts _ made).formula_eq (texts _ List.mem_cons_self)
  · simpa [highest, SelectionMode.better] using best (by simp [highest])
  · simpa [lowest, SelectionMode.better] using best (by simp [lowest])
  · have dropped_none := MultiRoll.kept_outcomeOf_none all (MultiRoll.filterOf f) rolls
    refine ⟨dropped_none, ?_⟩
    obtain ⟨first, others, rfl⟩ := List.exists_cons_of_ne_nil some
    exact ⟨_, rfl, by rw [MultiRollOutcome.total?, MultiRollOutcome.chosen,
      List.filter_eq_self.2 fun e mem => by simp [dropped_none e mem]]; rfl⟩

/-- Three tries with a bonus, of which the highest counts. -/
def threeTries : MultiRoll where
  formula := "1d20"
  terms := ["2"]
  count := 3
  selection := .highest

/-- The second and the third try are equal, and the second one is kept. -/
theorem threeTries_resolve : ∃ o : MultiRollOutcome,
    perform (threeTries.resolve ∅) (ScriptedSource.ofFaces [5, 17, 17]) = (.ok o, ⟨⟨[]⟩, 3⟩) ∧
      o.entries.map (fun e => (e.roll.total, e.ignored)) =
        [(7, true), (19, false), (19, true)] ∧
      o.entries.length = max threeTries.count 1 ∧
      evaluateEach RandomSource.evaluate
        (List.replicate (max threeTries.count 1) (threeTries.composed, ∅))
        (ScriptedSource.ofFaces [5, 17, 17]) = (o.rolls.map .ok, ⟨⟨[]⟩, 3⟩) ∧
      (∀ e ∈ o.entries, e.roll.formula = o.formula) ∧ o.KeepsFirst (· > ·) := by
  let dice : Formula := [.dice ⟨1, 20, []⟩, .operator .add, .number 2]
  have parsed : Formula.parse threeTries.composed = .ok dice := by cbv
  have rolled : perform (evaluateTimes threeTries.composed ∅ threeTries.rollCount)
      (ScriptedSource.ofFaces [5, 17, 17]) =
      (.ok [⟨"1d20 + 2", 7, [⟨20, [⟨5, true⟩]⟩]⟩, ⟨"1d20 + 2", 19, [⟨20, [⟨17, true⟩]⟩]⟩,
        ⟨"1d20 + 2", 19, [⟨20, [⟨17, true⟩]⟩]⟩], ⟨⟨[]⟩, 3⟩) := by
    refine perform_evaluateTimes_succ_ok_iff.2 ⟨_, ⟨⟨[17, 17]⟩, 1⟩, _, ?_, ?_, rfl⟩
    · exact perform_evaluate_scripted_ok parsed (by decide +kernel) rfl
    refine perform_evaluateTimes_succ_ok_iff.2 ⟨_, ⟨⟨[17]⟩, 2⟩, _, ?_, ?_, rfl⟩
    · exact perform_evaluate_scripted_ok parsed (by decide +kernel) rfl
    refine perform_evaluateTimes_succ_ok_iff.2 ⟨_, ⟨⟨[]⟩, 3⟩, [], ?_, rfl, rfl⟩
    exact perform_evaluate_scripted_ok parsed (by decide +kernel) rfl
  have resolved := perform_resolve_ok_iff.2 ⟨dice, _, parsed, rolled, rfl⟩
  obtain ⟨count, inOrder, texts, highest, -⟩ := resolve_selects resolved
  exact ⟨_, resolved, by decide +kernel, count, inOrder, texts, highest rfl⟩

end Tabletop
