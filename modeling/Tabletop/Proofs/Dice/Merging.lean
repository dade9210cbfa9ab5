import Mathlib
import Tabletop.Proofs.Dice.Highest
import Tabletop.Proofs.Dice.Rolls
import Tabletop.Proofs.Dice.Settled
import Tabletop.Proofs.Formula.Scaling
/-!
# Dice that are merged

Scaling a text puts dice that are of the kind of its first term into that term, where a second term
behind the text would roll them apart. Both come to the same total if the first term is a summand of
its own and if its modifiers do not drop dice for being more. Modifiers that keep dice see those of
their term only, so of dice that are merged they may keep fewer.
-/

namespace Tabletop

/-! ## The highest dice of a term -/

/-- What dice show after a modifier that all showed the same, new ones showing all their faces. -/
def DieModifier.highest (faces shown : Nat) : DieModifier → Nat
  | .rerollBelow bound => if shown < bound then faces else shown
  | .minimum least => max least shown
  | _ => shown

/-- How many of so many dice a modifier lets count. -/
def DieModifier.kept (count : Nat) : DieModifier → Nat
  | .keepHighest most => min most count
  | .keepLowest most => min most count
  | _ => count

/-- What dice show after modifiers that all showed the same. -/
def highestBy (faces shown : Nat) : List DieModifier → Nat
  | [] => shown
  | m :: ms => highestBy faces (m.highest faces shown) ms

/-- How many of so many dice modifiers let count. -/
def keptBy (count : Nat) : List DieModifier → Nat
  | [] => count
  | m :: ms => keptBy (m.kept count) ms

namespace DiceTerm

/-- What every die of a term comes to at its highest. -/
def highest (d : DiceTerm) : Nat := highestBy d.faces d.faces d.modifiers

/-- How many dice of a term count. -/
def kept (d : DiceTerm) : Nat := keptBy d.number d.modifiers

/-- As many dice of the term count together with more of their kind as apart from them. -/
def Pools (d : DiceTerm) (more : Nat) : Prop :=
  ({ d with number := d.number + more } : DiceTerm).kept =
    d.kept + ({ d with number := more } : DiceTerm).kept

end DiceTerm

/-- Modifiers let all dice count, or at most so many. -/
theorem keptBy_eq_self_or_min (ms : List DieModifier) :
    (∀ count, keptBy count ms = count) ∨ ∃ most, ∀ count, keptBy count ms = min most count := by
  induction ms with
  | nil => exact .inl fun _ => rfl
  | cons m ms ih =>
    have limited (most : Nat) (h : ∀ count, m.kept count = min most count) :
        ∃ least, ∀ count, keptBy count (m :: ms) = min least count := by
      rcases ih with all | ⟨others, some⟩
      · exact ⟨most, fun count => (all _).trans (h count)⟩
      · refine ⟨min others most, fun count => ?_⟩
        rw [keptBy, some, h, min_assoc]
    cases m with
    | rerollBelow _ => exact ih
    | minimum _ => exact ih
    | keepHighest most => exact .inr (limited most fun _ => rfl)
    | keepLowest most => exact .inr (limited most fun _ => rfl)

/-- Dice pool with more of their kind if all of them count, or none. -/
theorem DiceTerm.pools_iff {d : DiceTerm} {more : Nat} : d.Pools more ↔
    d.number = 0 ∨ more = 0 ∨ ({ d with number := d.number + more } : DiceTerm).kept = 0 ∨
      ({ d with number := d.number + more } : DiceTerm).kept = d.number + more := by
  unfold Pools kept
  rcases keptBy_eq_self_or_min d.modifiers with all | ⟨most, some⟩
  · simp only [all, or_true]
  · simp only [some]
    omega

theorem DieModifier.apply_highest {faces shown : Nat} {dice : List DieResult}
    (h : ActiveAll (· = shown) dice) (m : DieModifier) (s : Maximizer) :
    ActiveAll (· = m.highest faces shown) (m.apply faces dice s).1 ∧
      activeCount (m.apply faces dice s).1 = m.kept (activeCount dice) := by
  cases m with
  | rerollBelow bound =>
    refine ⟨h.rerollBelow (fun value same high => ?_) (fun value same low _ => ?_) s,
      activeCount_rerollBelow faces bound dice s⟩
    · rw [highest, if_neg (Nat.not_lt.2 (same ▸ high)), same]
    · exact (if_pos (same ▸ low)).symm
  | keepHighest most =>
    exact ⟨h.keepFirst (fun a b => a > b) most, activeCount_keepFirst (fun a b => a > b) most dice⟩
  | keepLowest most =>
    exact ⟨h.keepFirst (fun a b => a < b) most, activeCount_keepFirst (fun a b => a < b) most dice⟩
  | minimum least =>
    exact ⟨h.raiseTo fun value same => congrArg (max least) same, activeCount_raiseTo least dice⟩

theorem applyModifiers_highest {faces shown : Nat} {dice : List DieResult}
    (h : ActiveAll (· = shown) dice) (ms : List DieModifier) (s : Maximizer) :
    ActiveAll (· = highestBy faces shown ms) (applyModifiers faces ms dice s).1 ∧
      activeCount (applyModifiers faces ms dice s).1 = keptBy (activeCount dice) ms := by
  induction ms generalizing dice shown s with
  | nil => exact ⟨h, rfl⟩
  | cons m ms ih =>
    obtain ⟨shows, count⟩ := m.apply_highest h s
    rw [keptBy, ← count]
    exact ih shows (m.apply faces dice s).2

/-- At its highest a term comes to the same for every die of it that counts. -/
theorem DiceTerm.roll_highest {d : DiceTerm} (few : d.number ≤ maxDice) (s : Maximizer) :
    ∃ o, perform d.roll s = (.ok o, s) ∧ o.total = d.kept * d.highest := by
  have rolled : ActiveAll (· = d.faces) (rollMany d.faces d.number s).1 :=
    activeAll_rollMany (fun _ => rfl) d.number s
  obtain ⟨shows, count⟩ :=
    applyModifiers_highest rolled d.modifiers (rollMany d.faces d.number s).2
  rw [activeCount_rollMany] at count
  exact ⟨⟨d.faces, _⟩, perform_roll_ok_iff.2 ⟨few, _, rfl, rfl⟩,
    (DieOutcome.total_eq_mul shows).trans (congrArg (· * d.highest) count)⟩

/-! ## Dice without modifiers -/

theorem active_of_rollMany {σ : Type} [Roller σ] (faces number : Nat) (s : σ) :
    ∀ die ∈ (rollMany faces number s).1, die.active = true := by
  induction number generalizing s with
  | zero => exact List.forall_mem_nil _
  | succ number ih => exact List.forall_mem_cons.2 ⟨rfl, ih _⟩

/-- The faces that are shown. -/
def DieOutcome.shown (o : DieOutcome) : List Nat := o.results.map (·.value)

/-- Without modifiers all faces count that are shown. -/
theorem DiceTerm.total_of_plain {σ : Type} [Roller σ] {d : DiceTerm} {s s' : σ} {o : DieOutcome}
    (rolled : perform d.roll s = (.ok o, s')) (plain : d.modifiers = []) :
    o.total = sumOf o.shown := by
  obtain ⟨-, dice, applied, rfl⟩ := perform_roll_ok_iff.1 rolled
  rw [plain] at applied
  cases applied
  have all := List.filter_eq_self.2 (active_of_rollMany d.faces d.number s)
  exact congrArg (fun dice : List DieResult => sumOf (dice.map (·.value))) all

theorem sumOf_perm {as bs : List Nat} (h : as.Perm bs) : sumOf as = sumOf bs := by
  induction h with
  | nil => rfl
  | cons a _ ih => exact congrArg (a + ·) ih
  | swap a b as => exact Nat.add_left_comm b a (sumOf as)
  | trans _ _ ih ih' => exact ih.trans ih'

/-! ## A term that is a summand -/

namespace Formula

/-- No factor stands first. -/
def leavesAlone : List Term → Bool
  | .operator .multiply :: _ => false
  | .operator .divide :: _ => false
  | _ => true

theorem leavesAlone_of_substitute {b : Bindings} {ts us : List Term}
    (h : substitute b ts = .ok us) (continuing : continues ts = true) :
    leavesAlone us = leavesAlone ts := by
  match ts with
  | [] =>
    cases h
    rfl
  | .operator op :: t :: ts =>
    obtain ⟨u, us, first, -, rfl⟩ := substitute_cons h
    cases first
    cases op with
    | _ => rfl

theorem perform_adapt_ok_iff {σ α : Type} {x : Rolling σ α} {a : α} {s s' : σ} :
    perform (ExceptT.adapt ExactError.formula x) s = (.ok a, s') ↔ perform x s = (.ok a, s') := by
  have adapted : perform (ExceptT.adapt ExactError.formula x) s =
      ((perform x s).1.mapError ExactError.formula, (perform x s).2) := rfl
  rw [adapted, Prod.ext_iff, Prod.ext_iff, mapError_eq_ok_iff]

section

variable {σ : Type} [Roller σ] {ts : List Term}

theorem exactSplit_of_leavesAlone (admits : ℚ → Bool) (alone : leavesAlone ts = true) :
    (exactSplit admits ts : _ × List (Product (Exactly σ _))).1 = [] := by
  match ts with
  | .operator op :: t :: ts =>
    cases op with
    | add => rfl
    | subtract => rfl
    | multiply => cases alone
    | divide => cases alone
  | [] => rfl
  | [.operator op] => cases op <;> rfl
  | .dice _ :: _ | .number _ :: _ | .variable _ :: _ | .group _ :: _ | .call _ _ :: _ => rfl

/-- Dice that are a summand are rolled first, and added to what stands behind. -/
theorem exactly_dice_cons (d : DiceTerm) (alone : leavesAlone ts = true) :
    (exactly anyNumber (.dice d :: ts) : Exactly σ _) = do
      let outcome ← ExceptT.adapt ExactError.formula d.roll
      let (value, dice) ← exactlyBehind ts
      return (outcome.total + value, outcome :: dice) := by
  have admitted (q : ℚ) : (require anyNumber q : Exactly σ ℚ) = pure q := rfl
  simp only [exactly, exactProducts, addExactly, Product.exactly, exactSplit_of_leavesAlone _ alone,
    multiplyExactly, Term.exactly, admitted, bind_assoc, pure_bind, List.append_nil,
    Bool.false_eq_true, if_false, zero_add, List.singleton_append]
  refine bind_congr fun outcome => ?_
  have shifted := addExactly_shift (outcome.total : ℚ) 0
    (exactSplit anyNumber ts : _ × List (Product (Exactly σ _))).2
  rw [add_zero] at shifted
  simp only [shifted, exactlyBehind, bind_assoc, pure_bind]

/-- More dice behind them are rolled last. -/
theorem exactly_dice_pair (d e : DiceTerm) (continuing : continues ts = true)
    (alone : leavesAlone ts = true) :
    (exactly anyNumber (.dice d :: ts ++ [.operator .add, .dice e]) : Exactly σ _) = do
      let outcome ← ExceptT.adapt ExactError.formula d.roll
      let (value, dice) ← exactlyBehind ts
      let outcome' ← ExceptT.adapt ExactError.formula e.roll
      return (outcome.total + value + outcome'.total, outcome :: (dice ++ [outcome'])) := by
  have last : leavesAlone [] = true := rfl
  rw [exactly_add (f := .dice d :: ts) continuing [.dice e], exactly_dice_cons d alone,
    exactly_dice_cons e last]
  simp only [exactlyBehind, exactSplit, addExactly, bind_assoc, pure_bind, add_zero,
    List.cons_append]

theorem outcomes_of_dice_cons {d : DiceTerm} (alone : leavesAlone ts = true) {s s' : σ}
    {v : ℚ × List DieOutcome}
    (h : perform (exactly anyNumber (.dice d :: ts)) s = (.ok v, s')) :
    ∃ o t w, perform d.roll s = (.ok o, t) ∧ perform (exactlyBehind ts) t = (.ok w, s') ∧
      v = (o.total + w.1, o :: w.2) := by
  rw [exactly_dice_cons d alone] at h
  obtain ⟨o, t, rolled, h⟩ := perform_bind_ok_iff.1 h
  obtain ⟨w, t', went, made⟩ := perform_bind_ok_iff.1 h
  cases made
  exact ⟨o, t, w, perform_adapt_ok_iff.1 rolled, went, rfl⟩

theorem outcomes_of_dice_pair {d e : DiceTerm} (continuing : continues ts = true)
    (alone : leavesAlone ts = true) {s s' : σ} {v : ℚ × List DieOutcome}
    (h : perform (exactly anyNumber (.dice d :: ts ++ [.operator .add, .dice e])) s =
      (.ok v, s')) :
    ∃ o t w t' o', perform d.roll s = (.ok o, t) ∧
      perform (exactlyBehind ts) t = (.ok w, t') ∧ perform e.roll t' = (.ok o', s') ∧
      v = (o.total + w.1 + o'.total, o :: (w.2 ++ [o'])) := by
  rw [exactly_dice_pair d e continuing alone] at h
  obtain ⟨o, t, rolled, h⟩ := perform_bind_ok_iff.1 h
  obtain ⟨w, t', went, h⟩ := perform_bind_ok_iff.1 h
  obtain ⟨o', t'', rolled', made⟩ := perform_bind_ok_iff.1 h
  cases made
  exact ⟨o, t, w, t', o', perform_adapt_ok_iff.1 rolled, went, perform_adapt_ok_iff.1 rolled', rfl⟩

end

/-- At its highest the merged term comes to as much as both apart, if no die is dropped. -/
theorem highest_merged {d : DiceTerm} {more : Nat} {ts : List Term} (pools : d.Pools more)
    (few : d.number + more ≤ maxDice) (continuing : continues ts = true)
    (alone : leavesAlone ts = true) (s : Maximizer) :
    (perform (exactly anyNumber (.dice { d with number := d.number + more } :: ts)) s).1.map
        (·.1) =
      (perform (exactly anyNumber
        (.dice d :: ts ++ [.operator .add, .dice { d with number := more }])) s).1.map (·.1) := by
  obtain ⟨o, rolled, total⟩ :=
    DiceTerm.roll_highest (d := { d with number := d.number + more }) few s
  obtain ⟨o₁, rolled₁, total₁⟩ := d.roll_highest (Nat.le_of_add_right_le few) s
  obtain ⟨o₂, rolled₂, total₂⟩ :=
    DiceTerm.roll_highest (d := { d with number := more }) (Nat.le_of_add_left_le few) s
  have sum : o.total = o₁.total + o₂.total := by
    rw [total, total₁, total₂, pools, Nat.add_mul]
    rfl
  rw [exactly_dice_cons _ alone, exactly_dice_pair _ _ continuing alone,
    perform_bind_of_ok (perform_adapt_ok_iff.2 rolled),
    perform_bind_of_ok (perform_adapt_ok_iff.2 rolled₁)]
  rcases behind : perform (exactlyBehind ts) s with ⟨e | ⟨value, dice⟩, u⟩
  · rw [perform_bind_of_error behind, perform_bind_of_error behind]
  · rw [perform_bind_of_ok behind, perform_bind_of_ok behind,
      perform_bind_of_ok (perform_adapt_ok_iff.2 rolled₂)]
    simp only [perform_pure, Except.map, sum]
    push_cast
    rw [add_right_comm]

/-- What the merged term and the terms behind it come to is settled by the faces that it shows. -/
theorem shown_merged {σ : Type} [Roller σ] {d : DiceTerm} {more : Nat} {ts : List Term}
    (plain : d.modifiers = []) (continuing : continues ts = true) (alone : leavesAlone ts = true)
    {s s' u u' : σ} {v w : ℚ × List DieOutcome} {o o₁ o₂ : DieOutcome} {dice : List DieOutcome}
    (merged : perform (exactly anyNumber
      (.dice { d with number := d.number + more } :: ts)) s = (.ok v, s'))
    (apart : perform (exactly anyNumber
      (.dice d :: ts ++ [.operator .add, .dice { d with number := more }])) u = (.ok w, u'))
    (recorded : v.2 = o :: dice) (recorded' : w.2 = o₁ :: (dice ++ [o₂]))
    (shown : o.shown.Perm (o₁.shown ++ o₂.shown)) : v.1 = w.1 := by
  obtain ⟨p, t, x, rolled, went, rfl⟩ := outcomes_of_dice_cons alone merged
  obtain ⟨p₁, t₁, y, t₂, p₂, rolled₁, went', rolled₂, rfl⟩ :=
    outcomes_of_dice_pair continuing alone apart
  obtain ⟨rfl, rfl⟩ := List.cons.inj recorded
  obtain ⟨rfl, rest⟩ := List.cons.inj recorded'
  obtain ⟨others, last⟩ := List.append_inj' rest rfl
  obtain ⟨rfl, -⟩ := List.cons.inj last
  have behind : y.1 = x.1 := eq_of_recorded ts went went' others
  have sum : p.total = p₁.total + p₂.total := by
    rw [DiceTerm.total_of_plain rolled plain, DiceTerm.total_of_plain rolled₁ plain,
      DiceTerm.total_of_plain rolled₂ plain, sumOf_perm shown, sumOf_append]
  simp only [sum, behind]
  push_cast
  exact add_right_comm _ _ _

/-! ## Texts that are rolled exactly -/

/-- Every number that comes up where the text is evaluated from the state is a double. -/
def EvaluatesExactly {σ : Type} [Roller σ] (text : String) (b : Bindings) (s : σ) : Prop :=
  ∀ f, parse text = .ok f →
    (perform (evaluateExactly Double.isDouble f b) s).1 ≠ .error .notAdmitted

section

variable {σ : Type} [Roller σ] {text : String} {f g : Formula} {b : Bindings} {s : σ}

theorem evaluatesExactly_of_parse (parsed : parse text = .ok f)
    (exact : (perform (evaluateExactly Double.isDouble f b) s).1 ≠ .error .notAdmitted) :
    EvaluatesExactly text b s := by
  intro g parsed'
  cases parsed.symm.trans parsed'
  exact exact

theorem evaluable_of_substituted (parsed : parse text = .ok f) (h : substitute b f = .ok g) :
    Evaluable g := by
  obtain ⟨alternating, inside⟩ := replaced_of_parse parsed h
  refine ⟨alternating, fun t mem => ?_⟩
  obtain ⟨-, sound | ⟨rfl, -⟩⟩ := inside t mem
  · exact Term.evaluable_of_sound sound
  · trivial

/-- A text that is rolled exactly comes to what its exact value is rounded down to. -/
theorem matches_exactly (parsed : parse text = .ok f) (exact : EvaluatesExactly text b s) :
    Matches .formula (fun r v => r.bare = floored v) (perform (evaluateText text b) s).1
      (perform (evaluateExactly anyNumber f b) s).1 := by
  have admitted := exact f parsed
  obtain ⟨results, -⟩ := tracks_evaluate (σ := σ)
    (fun g h => tracks_exactly (evaluable_of_substituted parsed h)) s admitted
  have wider : Refines (evaluateExactly anyNumber f b : Exactly σ _)
      (evaluateExactly Double.isDouble f b) := refines_evaluateExactly (fun _ _ => rfl) f b
  rw [perform_evaluateText parsed, wider.perform_eq admitted]
  exact results

theorem total_congr {x y : Except FormulaError EvaluatedRoll}
    {v w : Except ExactError (ℚ × List DieOutcome)}
    (h : Matches .formula (fun r v => r.bare = floored v) x v)
    (h' : Matches .formula (fun r v => r.bare = floored v) y w)
    (same : v.map (·.1) = w.map (·.1)) : x.map (·.total) = y.map (·.total) := by
  have total {r : EvaluatedRoll} {v : ℚ × List DieOutcome} (h : r.bare = floored v) :
      r.total = clampInteger v.1.floor := congrArg (·.total) h
  cases h with
  | ok here =>
    cases h' with
    | ok there =>
      have value := congrArg (fun q : ℚ => clampInteger q.floor) (Except.ok.inj same)
      exact congrArg Except.ok ((total here).trans (value.trans (total there).symm))
    | error e => cases same
  | error e =>
    cases h' with
    | ok there => cases same
    | error e' =>
      cases same
      rfl

theorem exists_exact (parsed : parse text = .ok f) (exact : EvaluatesExactly text b s)
    {r : EvaluatedRoll} {s' : σ} (rolled : perform (evaluateText text b) s = (.ok r, s')) :
    ∃ g v t, substitute b f = .ok g ∧ perform (exactly anyNumber g) s = (.ok v, t) ∧
      r.dice = v.2 ∧ r.total = clampInteger v.1.floor := by
  have results := matches_exactly parsed exact
  rw [rolled] at results
  cases substituted : substitute b f with
  | error e =>
    have failed : (perform (evaluateExactly anyNumber f b) s).1 = .error (.formula e) := by
      rw [evaluateExactly, substituted]
      rfl
    rw [failed] at results
    cases results
  | ok g =>
    have reached : perform (evaluateExactly anyNumber f b) s = perform (exactly anyNumber g) s := by
      rw [evaluateExactly, substituted]
      rfl
    rw [reached] at results
    rcases value : perform (exactly anyNumber g) s with ⟨x, t⟩
    rw [value] at results
    cases results with
    | ok same => exact ⟨g, _, t, rfl, value, congrArg (·.dice) same, congrArg (·.total) same⟩

end

theorem substitute_dice_cons (b : Bindings) (d : DiceTerm) (ts : List Term) :
    substitute b (.dice d :: ts) = do
      let us ← substitute b ts
      return .dice d :: us := rfl

theorem substitute_dice_pair (b : Bindings) (d e : DiceTerm) (ts : List Term) :
    substitute b (.dice d :: ts ++ [.operator .add, .dice e]) = do
      let us ← substitute b ts
      return .dice d :: us ++ [.operator .add, .dice e] := by
  rw [substitute_add b (.dice d :: ts) [.dice e], substitute_dice_cons, bind_assoc]
  rfl

section

variable {σ : Type} [Roller σ] {combined added : String} {d : DiceTerm} {more : Nat}
  {ts : List Term} {b : Bindings}

/-- Where no die is dropped, the merged dice have the same maximum as those behind the text. -/
theorem maximum_merged
    (parsed : parse combined = .ok (.dice { d with number := d.number + more } :: ts))
    (parsed' : parse added =
      .ok (.dice d :: ts ++ [.operator .add, .dice { d with number := more }]))
    (few : d.number + more ≤ maxDice) (alone : leavesAlone ts = true) (pools : d.Pools more)
    (exact : EvaluatesExactly combined b Maximizer.mk)
    (exact' : EvaluatesExactly added b Maximizer.mk) :
    (maximize combined b).map (·.total) = (maximize added b).map (·.total) := by
  have continuing : continues ts = true := (evaluable_of_readAll parsed).alternating
  have merged := matches_exactly parsed exact
  have apart := matches_exactly parsed' exact'
  refine total_congr merged apart ?_
  rw [evaluateExactly, evaluateExactly, substitute_dice_cons, substitute_dice_pair]
  cases substituted : substitute b ts with
  | error e => rfl
  | ok us =>
    have continuing' := continues_of_substitute ts substituted continuing
    have alone' := (leavesAlone_of_substitute substituted continuing).trans alone
    exact highest_merged pools few continuing' alone' Maximizer.mk

/-- Without modifiers, merged dice that show the same faces come to the same total as those behind
the text. -/
theorem total_merged
    (parsed : parse combined = .ok (.dice { d with number := d.number + more } :: ts))
    (parsed' : parse added =
      .ok (.dice d :: ts ++ [.operator .add, .dice { d with number := more }]))
    (alone : leavesAlone ts = true) (plain : d.modifiers = []) {s s' u u' : σ}
    {r r' : EvaluatedRoll} (rolled : perform (evaluateText combined b) s = (.ok r, s'))
    (rolled' : perform (evaluateText added b) u = (.ok r', u'))
    (exact : EvaluatesExactly combined b s) (exact' : EvaluatesExactly added b u)
    {o o₁ o₂ : DieOutcome} {dice : List DieOutcome} (recorded : r.dice = o :: dice)
    (recorded' : r'.dice = o₁ :: (dice ++ [o₂])) (shown : o.shown.Perm (o₁.shown ++ o₂.shown)) :
    r.total = r'.total := by
  have continuing : continues ts = true := (evaluable_of_readAll parsed).alternating
  obtain ⟨g, v, t, written, value, dice_eq, total⟩ := exists_exact parsed exact rolled
  obtain ⟨g', w, t', written', value', dice_eq', total'⟩ := exists_exact parsed' exact' rolled'
  rw [substitute_dice_cons] at written
  rw [substitute_dice_pair] at written'
  obtain ⟨us, substituted, made⟩ := bind_eq_ok_iff.1 written
  cases made
  obtain ⟨us', substituted', made⟩ := bind_eq_ok_iff.1 written'
  cases made
  cases substituted.symm.trans substituted'
  have continuing' := continues_of_substitute ts substituted continuing
  have alone' := (leavesAlone_of_substitute substituted continuing).trans alone
  have same := shown_merged plain continuing' alone' value value' (dice_eq.symm.trans recorded)
    (dice_eq'.symm.trans recorded') shown
  rw [total, total', same]

end

end Formula

/-! ## Scaled texts -/

namespace Scaling

open Formula

variable {base scaling : String} {steps : Nat} {b : Bindings} {first extra : DiceTerm}
  {terms : List Term} {source : Formula}

/-- As many dice as can be rolled are not cut off at the greatest count. -/
theorem altered_eq (same : first.sameKind extra = true)
    (few : steps * extra.number ≤ maxDice) :
    extra.altered steps 0 = { first with number := steps * extra.number } := by
  obtain ⟨faces, modifiers⟩ := Bool.and_eq_true_iff.1 same
  have count : min maxCount (min maxCount (extra.number * steps) + 0) = steps * extra.number := by
    rw [Nat.mul_comm extra.number]
    unfold maxCount maxDice at *
    omega
  rw [DiceTerm.altered, count, eq_of_beq faces, eq_of_beq modifiers]

/-- The texts of merged dice and of dice that are added are read as such. -/
theorem parse_merged (parsed : parse base = .ok (.dice first :: terms))
    (same : first.sameKind extra = true) (few : first.number + steps * extra.number ≤ maxDice) :
    parse (render (.dice { first with number := first.number + steps * extra.number } :: terms)) =
        .ok (.dice { first with number := first.number + steps * extra.number } :: terms) ∧
      parse (compose [base, render (alter steps 0 true [.dice extra])]) =
        .ok (.dice first :: terms ++
          [.operator .add, .dice { first with number := steps * extra.number }]) := by
  obtain ⟨alternating, sound⟩ := sound_of_parse parsed
  obtain ⟨⟨⟨-, sided⟩, -, inside⟩, others⟩ := List.forall_mem_cons.1 sound
  have some {count : Nat} (few : count ≤ maxDice) :
      (Term.dice { first with number := count }).Sound ∧
        (Term.dice { first with number := count }).InRange :=
    ⟨⟨few, sided⟩, few.trans (by decide), inside⟩
  constructor
  · exact parse_render_of_sound alternating (List.forall_mem_cons.2 ⟨some few, others⟩)
  · refine parse_compose_pair parsed ?_
    have more : steps * extra.number ≤ maxDice := Nat.le_of_add_left_le few
    have altered : alter steps 0 true [.dice extra] =
        [.dice { first with number := steps * extra.number }] :=
      congrArg (fun d => [Term.dice d]) (altered_eq same more)
    rw [altered]
    exact parse_render_of_sound rfl (List.forall_mem_singleton.2 (some more))

theorem scale_of_sameKind (positive : 0 < steps)
    (parsed : parse base = .ok (.dice first :: terms))
    (read : parse (if Text.blank scaling then base else scaling) = .ok source)
    (resolved : substitute b source = .ok [.dice extra]) (same : first.sameKind extra = true)
    (few : first.number + steps * extra.number ≤ maxDice) :
    scale base scaling steps b = .ok
      (render (.dice { first with number := first.number + steps * extra.number } :: terms)) := by
  have altered := altered_eq same (Nat.le_of_add_left_le few)
  have combined : combine? (.dice first :: terms) (extra.altered steps 0) =
      some (.dice { first with number := first.number + steps * extra.number } :: terms) := by
    have kind : first.sameKind { first with number := steps * extra.number } = true :=
      Bool.and_eq_true_iff.2 ⟨beq_self_eq_true _, beq_self_eq_true _⟩
    have count : min maxCount (first.number + steps * extra.number) =
        first.number + steps * extra.number := Nat.min_eq_right (few.trans (by decide))
    rw [altered, combine?, if_pos kind, count]
  rw [scale, if_neg (Nat.ne_of_gt positive)]
  refine bind_eq_ok_iff.2 ⟨source, read, bind_eq_ok_iff.2 ⟨_, resolved,
    bind_eq_ok_iff.2 ⟨_, parsed, ?_⟩⟩⟩
  split
  · next dice single =>
    obtain ⟨_, equal, rfl⟩ := eq_of_alter_dice single
    cases equal
    rw [combined]
    rfl
  · next other => exact absurd rfl (other _)

/-- Dice that scaling puts into the first term of the base might as well stand behind the base, if
no factor follows that term. The text with the merged dice and the one with a plus can both be
rolled. They have the same maximum if no modifier drops a die of the merged ones that counts apart;
and of dice without modifiers they come to the same total whenever these show the same faces, in
any order, and all others the same. -/
theorem merged_total_eq_added {σ : Type} [Roller σ] (positive : 0 < steps)
    (parsed : parse base = .ok (.dice first :: terms))
    (read : parse (if Text.blank scaling then base else scaling) = .ok source)
    (resolved : substitute b source = .ok [.dice extra]) (same : first.sameKind extra = true)
    (few : first.number + steps * extra.number ≤ maxDice) (alone : leavesAlone terms = true)
    (b' : Bindings) :
    ∃ combined added, scale base scaling steps b = .ok combined ∧
      added = compose [base, render (alter steps 0 true [.dice extra])] ∧
      (∃ f g, parse combined = .ok f ∧ parse added = .ok g) ∧
      (first.Pools (steps * extra.number) → EvaluatesExactly combined b' Maximizer.mk →
        EvaluatesExactly added b' Maximizer.mk →
        (maximize combined b').map (·.total) = (maximize added b').map (·.total)) ∧
      (first.modifiers = [] → ∀ (s s' u u' : σ) (r r' : EvaluatedRoll) (o o₁ o₂ : DieOutcome)
        (dice : List DieOutcome), EvaluatesExactly combined b' s → EvaluatesExactly added b' u →
        perform (evaluateText combined b') s = (.ok r, s') →
        perform (evaluateText added b') u = (.ok r', u') →
        r.dice = o :: dice → r'.dice = o₁ :: (dice ++ [o₂]) →
        o.shown.Perm (o₁.shown ++ o₂.shown) → r.total = r'.total) := by
  obtain ⟨merged, apart⟩ := parse_merged parsed same few
  refine ⟨_, _, scale_of_sameKind positive parsed read resolved same few, rfl,
    ⟨_, _, merged, apart⟩,
    fun pools exact exact' => maximum_merged merged apart few alone pools exact exact', ?_⟩
  intro plain s s' u u' r r' o o₁ o₂ dice exact exact' rolled rolled' recorded recorded' shown
  exact total_merged merged apart alone plain rolled rolled' exact exact' recorded recorded' shown

/-- `1d10 + @mod` -/
def bolt : Formula := [.dice ⟨1, 10, []⟩, .operator .add, .variable "mod"]

def trained : Bindings := (∅ : Bindings).insert "mod" "3"

/-- Three dice of a bolt have the same maximum merged or not, and the same total where they show the
same. -/
theorem bolt_merges :
    scale "1d10 + @mod" "1d10" 2 ∅ = .ok "3d10 + @mod" ∧
    (maximize "3d10 + @mod" trained).map (·.total) =
      (maximize "1d10 + @mod + 2d10" trained).map (·.total) ∧
    ∃ r r', perform (evaluateText "3d10 + @mod" trained) (⟨[4, 7, 2]⟩ : Script) = (.ok r, ⟨[]⟩) ∧
      perform (evaluateText "1d10 + @mod + 2d10" trained) (⟨[7, 2, 4]⟩ : Script) =
        (.ok r', ⟨[]⟩) ∧ r.total = r'.total := by
  have base : parse "1d10 + @mod" = .ok bolt := by cbv
  have scaling : parse "1d10" = .ok [.dice ⟨1, 10, []⟩] := by cbv
  have parsed : parse "3d10 + @mod" = .ok (.dice ⟨3, 10, []⟩ :: bolt.tail) := by cbv
  have parsed' : parse "1d10 + @mod + 2d10" =
      .ok (bolt ++ [.operator .add, .dice ⟨2, 10, []⟩]) := by cbv
  have written : Text.blank "1d10" = false := by decide
  have source : parse (if Text.blank "1d10" then "1d10 + @mod" else "1d10") =
      .ok [.dice ⟨1, 10, []⟩] := by rw [written, if_neg Bool.false_ne_true, scaling]
  have text : scale "1d10 + @mod" "1d10" 2 ∅ = .ok "3d10 + @mod" :=
    scale_of_sameKind (by decide) base source rfl (by decide) (by decide)
  obtain ⟨combined, added, scaled, sum, -, top, shown⟩ := merged_total_eq_added (σ := Script)
    (b := ∅) (by decide : 0 < 2) base source rfl (by decide) (by decide) rfl trained
  cases scaled.symm.trans text
  have text' : added = "1d10 + @mod + 2d10" := by
    rw [sum]
    decide
  subst text'
  have rolled : perform (evaluateText "3d10 + @mod" trained) (⟨[4, 7, 2]⟩ : Script) =
      (.ok ⟨"3d10 + 3", 16, [⟨10, [⟨4, true⟩, ⟨7, true⟩, ⟨2, true⟩]⟩]⟩, ⟨[]⟩) := by
    rw [perform_evaluateText parsed]
    exact Prod.ext (eq_ok_of_toOption (by decide +kernel)) rfl
  have rolled' : perform (evaluateText "1d10 + @mod + 2d10" trained) (⟨[7, 2, 4]⟩ : Script) =
      (.ok ⟨"1d10 + 3 + 2d10", 16, [⟨10, [⟨7, true⟩]⟩, ⟨10, [⟨2, true⟩, ⟨4, true⟩]⟩]⟩, ⟨[]⟩) := by
    rw [perform_evaluateText parsed']
    exact Prod.ext (eq_ok_of_toOption (by decide +kernel)) rfl
  -- without modifiers all dice of the merged term count
  have pools : DiceTerm.Pools ⟨1, 10, []⟩ 2 := DiceTerm.pools_iff.2 (.inr (.inr (.inr rfl)))
  refine ⟨text, top pools (evaluatesExactly_of_parse parsed (by decide +kernel))
    (evaluatesExactly_of_parse parsed' (by decide +kernel)), _, _, rolled, rolled', ?_⟩
  exact shown rfl _ _ _ _ _ _ _ _ _ [] (evaluatesExactly_of_parse parsed (by decide +kernel))
    (evaluatesExactly_of_parse parsed' (by decide +kernel)) rolled rolled' rfl rfl (by decide)

/-- The higher one of two dice. -/
def pair : DiceTerm := ⟨2, 6, [.keepHighest 1]⟩

theorem pair_roll : (pair.roll : Rolling Maximizer _) = pure ⟨6, [⟨6, true⟩, ⟨6, false⟩]⟩ := by
  funext s
  cbv

theorem pairs_roll : (DiceTerm.roll { pair with number := 4 } : Rolling Maximizer _) =
    pure ⟨6, [⟨6, true⟩, ⟨6, false⟩, ⟨6, false⟩, ⟨6, false⟩]⟩ := by
  funext s
  cbv

/-- Of two pairs that are merged only one die counts, and where a factor follows the first term it
is taken of the added die as well. -/
theorem merged_pair_falls_short :
    scale "2d6kh" "2d6kh" 1 ∅ = .ok "4d6kh" ∧
    compose ["2d6kh", render (alter 1 0 true [.dice pair])] = "2d6kh + 2d6kh" ∧
    EvaluatesExactly "4d6kh" ∅ Maximizer.mk ∧ EvaluatesExactly "2d6kh + 2d6kh" ∅ Maximizer.mk ∧
    (maximize "4d6kh" ∅).map (·.total) = .ok 6 ∧
    (maximize "2d6kh + 2d6kh" ∅).map (·.total) = .ok 12 ∧
    scale "1d6 * 2" "1d6" 1 ∅ = .ok "2d6 * 2" ∧
    compose ["1d6 * 2", render (alter 1 0 true [.dice ⟨1, 6, []⟩])] = "1d6 * 2 + 1d6" ∧
    EvaluatesExactly "2d6 * 2" ∅ Maximizer.mk ∧ EvaluatesExactly "1d6 * 2 + 1d6" ∅ Maximizer.mk ∧
    (maximize "2d6 * 2" ∅).map (·.total) = .ok 24 ∧
    (maximize "1d6 * 2 + 1d6" ∅).map (·.total) = .ok 18 := by
  have base : parse "2d6kh" = .ok [.dice pair] := by cbv
  have parsed : parse "4d6kh" = .ok [.dice { pair with number := 4 }] := by cbv
  have parsed' : parse "2d6kh + 2d6kh" = .ok [.dice pair, .operator .add, .dice pair] := by cbv
  have source : parse (if Text.blank "2d6kh" then "2d6kh" else "2d6kh") = .ok [.dice pair] :=
    (congrArg parse (ite_self _)).trans base
  have factor : parse "1d6 * 2" =
      .ok [.dice ⟨1, 6, []⟩, .operator .multiply, .number 2] := by cbv
  have die : parse "1d6" = .ok [.dice ⟨1, 6, []⟩] := by cbv
  have written : Text.blank "1d6" = false := by decide
  have source' : parse (if Text.blank "1d6" then "1d6 * 2" else "1d6") =
      .ok [.dice ⟨1, 6, []⟩] := by rw [written, if_neg Bool.false_ne_true, die]
  have product : parse "2d6 * 2" =
      .ok [.dice ⟨2, 6, []⟩, .operator .multiply, .number 2] := by cbv
  have sum : parse "1d6 * 2 + 1d6" = .ok [.dice ⟨1, 6, []⟩, .operator .multiply, .number 2,
      .operator .add, .dice ⟨1, 6, []⟩] := by cbv
  refine ⟨scale_of_sameKind (by decide) base source rfl (by decide) (by decide), by decide,
    evaluatesExactly_of_parse parsed ?_, evaluatesExactly_of_parse parsed' ?_, ?_, ?_,
    scale_of_sameKind (by decide) factor source' rfl (by decide) (by decide), by decide,
    evaluatesExactly_of_parse product (by decide +kernel),
    evaluatesExactly_of_parse sum (by decide +kernel), ?_, ?_⟩
  · change (perform (exactly Double.isDouble [.dice { pair with number := 4 }]) _).1 ≠ _
    simp only [exactly, exactProducts, exactSplit, Term.exactly, pairs_roll]
    decide +kernel
  · change (perform (exactly Double.isDouble [.dice pair, .operator .add, .dice pair]) _).1 ≠ _
    simp only [exactly, exactProducts, exactSplit, Term.exactly, pair_roll]
    decide +kernel
  · rw [maximize_eq parsed, perform_evaluate_of_ok (by rfl)]
    simp only [evaluateFrom, Term.evaluate, pairs_roll, pure_bind]
    exact eq_ok_of_toOption (by decide +kernel)
  · rw [maximize_eq parsed', perform_evaluate_of_ok (by rfl)]
    simp only [evaluateFrom, Term.evaluate, pair_roll, pure_bind]
    exact eq_ok_of_toOption (by decide +kernel)
  · rw [maximize_eq product]
    exact eq_ok_of_toOption (by decide +kernel)
  · rw [maximize_eq sum]
    exact eq_ok_of_toOption (by decide +kernel)

end Scaling

end Tabletop
