import Mathlib
import Tabletop.Proofs.Dice.Splicing
import Tabletop.Proofs.Formula.CritDice
import Tabletop.Proofs.Run.MaximizedCrits
/-!
# What base dice fall short of

Where the base dice are made up to their maximum, what they fell short of it is a constant behind
the formula of the critical dice. It adds to their maximum and nothing else, as long as that formula
can be read without it, so the damage is the same whatever the base dice showed. Bonus dice whose
text goes on with the constant are the exception.
-/

namespace Tabletop

open Playing

/-! ## A constant behind a formula -/

namespace Formula

/-- Nothing comes up but integers that doubles hold when the highest faces of a formula are added
up. -/
def MaximizesSafely (f : Formula) : Prop :=
  (perform (exactly Double.isSafeInteger f) Maximizer.mk).1 ≠ .error .notAdmitted

instance (f : Formula) : Decidable f.MaximizesSafely := inferInstanceAs (Decidable (_ ≠ _))

variable {σ : Type} [Roller σ] {text : String} {f : Formula} {n : Int}

theorem tracks_safely (h : Evaluable f) :
    OperandTracks (evaluateFrom Partial.start f : Rolling σ _)
      (exactly Double.isSafeInteger f) := by
  rw [evaluateFrom_start_eq f h]
  have doubles (q : ℚ) (safe : Double.isSafeInteger q = true) : Double.Fits q :=
    Double.isDouble_iff.1 (Double.isDouble_of_isSafeInteger q safe)
  exact tracks_add doubles (tracks_exactProducts doubles f) ⟨.refl _, Double.fits_zero⟩

/-- The maximum of a text is the exact one. -/
theorem matches_maximize (parsed : parse text = .ok f) (safe : f.MaximizesSafely) :
    Matches .formula (fun r v => r.total = clampInteger v.1.floor) (maximize text ∅)
      (perform (exactly Double.isSafeInteger f) Maximizer.mk).1 := by
  obtain ⟨g, replaced⟩ := exists_substitute_empty f
  rw [maximize_eq parsed, perform_evaluate_of_ok replaced,
    ← evaluateFrom_of_substitute_empty f replaced]
  obtain ⟨results, -⟩ := tracks_safely (evaluable_of_readAll parsed) Maximizer.mk safe
  generalize (perform (evaluateFrom Partial.start f) Maximizer.mk).1 = passed,
    (perform (exactly Double.isSafeInteger f) Maximizer.mk).1 = exact at results ⊢
  cases results with
  | ok same => exact .ok same.1.toInteger_floor
  | error e => exact .error e

theorem exactly_add_constant (admits : ℚ → Bool) (alternating : alternates f = true) :
    (exactly admits (f ++ [.operator .add, .number n]) : Exactly σ _) = do
      let v ← exactly admits f
      let constant ← require admits n
      let sum ← require admits (v.1 + constant)
      return (sum, v.2) := by
  rw [exactly, exactProducts_add alternating, addExactly_append]
  refine bind_congr fun v => ?_
  simp only [exactProducts, exactSplit, addExactly, Product.exactly, multiplyExactly, Term.exactly,
    bind_assoc, pure_bind, List.append_nil, Bool.false_eq_true, if_false]

/-- Safe integers are far from the ends of the range. -/
theorem clampInteger_floor_add {v : ℚ} (safe : Double.isSafeInteger n = true)
    (safe' : Double.isSafeInteger (v + n) = true) :
    clampInteger (v + n).floor = clampInteger v.floor + n := by
  obtain ⟨-, bound⟩ := of_decide_eq_true safe
  obtain ⟨whole, bound'⟩ := of_decide_eq_true safe'
  rw [Rat.num_intCast] at bound
  obtain ⟨z, same⟩ : ∃ z : Int, v + n = z := ⟨_, ((Rat.den_eq_one_iff _).1 whole).symm⟩
  have value : v = (z - n : Int) := by
    push_cast
    linarith
  rw [same, Rat.num_intCast, abs_le] at bound'
  rw [abs_le] at bound
  rw [same, value, Rat.floor_intCast, Rat.floor_intCast]
  simp only [clampInteger, maxConstant]
  omega

/-- A constant behind a formula adds to its maximum. -/
theorem maximum_add_constant {both : String} {r : EvaluatedRoll} (parsed : parse text = .ok f)
    (parsed' : parse both = .ok (f ++ [.operator .add, .number n]))
    (safe : MaximizesSafely (f ++ [.operator .add, .number n]))
    (shown : maximize both ∅ = .ok r) :
    ∃ top, maximize text ∅ = .ok top ∧ r.total = top.total + n := by
  have sum := matches_maximize parsed' safe
  have alternating := (evaluable_of_readAll parsed).alternating
  rw [MaximizesSafely, exactly_add_constant _ alternating] at safe
  rw [shown, exactly_add_constant _ alternating] at sum
  rcases exact : perform (exactly Double.isSafeInteger f) Maximizer.mk with ⟨e | ⟨v, dice⟩, u⟩
  · -- the formula has no exact maximum, so neither has the sum
    rw [perform_bind_of_error exact] at sum safe
    cases sum
  · rw [perform_bind_of_ok exact] at sum safe
    have first := matches_maximize parsed (by rw [MaximizesSafely, exact]; exact nofun)
    rw [exact] at first
    generalize maximize text ∅ = top at first ⊢
    by_cases constant : Double.isSafeInteger n = true
    · by_cases total : Double.isSafeInteger (v + n) = true
      · simp only [require, if_pos constant, if_pos total, pure_bind, perform_pure] at sum
        cases first with
        | ok same =>
          cases sum with
          | ok same' => exact ⟨_, rfl, by rw [same', same, clampInteger_floor_add constant total]⟩
      · simp only [require, if_pos constant, if_neg total, pure_bind] at safe
        exact absurd rfl safe
    · simp only [require, if_neg constant] at safe
      exact absurd rfl safe

/-- The text that a maximum is reported with meets the same numbers. -/
theorem maximizesSafely_of_reported {r : EvaluatedRoll} (parsed : parse text = .ok f)
    (shown : maximize text ∅ = .ok r)
    (safe : ∀ g, parse r.formula = .ok g → MaximizesSafely g) : f.MaximizesSafely := by
  obtain ⟨parsed', replaced, -⟩ := rolledFrom_of_maximize shown
  cases parsed.symm.trans parsed'
  have reported := safe _ (parse_substituted parsed replaced Bindings.empty_avoidsLeast)
  rwa [MaximizesSafely, exactly, exactProducts_of_substitute_empty f replaced] at reported

end Formula

/-! ## Damage rolls -/

/-- The totals of an entry are integers that doubles hold, and so is everything that comes up in the
maximum of its critical dice. -/
structure DamageEntry.Safe (d : DamageEntry) : Prop where
  base : |d.base.total| ≤ 2 ^ 53
  maxBase : |d.maxBase| ≤ 2 ^ 53
  crit : ∀ crit ∈ d.crit, ∀ f, Formula.parse crit.formula = .ok f → f.MaximizesSafely

theorem DamageEntry.Safe.inRange {d : DamageEntry} (h : d.Safe) :
    d.maxBase - d.base.total ≤ maxConstant := by
  have base := abs_le.1 h.base
  have top := abs_le.1 h.maxBase
  simp only [maxConstant]
  omega

namespace RunContext

variable {c : RunContext}

/-- Base dice and critical dice together are the maximum of the base dice and that of the critical
ones alone. -/
theorem total_of_critText {formula : String} {base crit : EvaluatedRoll} {maxBase : Int}
    {f : Formula} (parsed : Formula.parse formula = .ok f)
    (shown : maximize (critText .maximizeBoth formula base maxBase) ∅ = .ok crit)
    (range : maxBase - base.total ≤ maxConstant)
    (safe : ∀ g, Formula.parse crit.formula = .ok g → g.MaximizesSafely)
    (short : base.total ≤ maxBase) :
    ∃ top, maximize formula ∅ = .ok top ∧ base.total + crit.total = maxBase + top.total := by
  unfold critText at shown
  split at shown
  · next falls =>
    have number := Formula.parse_toString (Int.le_of_lt falls.2) range
    have both := Formula.parse_compose_pair parsed number
    have safe := Formula.maximizesSafely_of_reported both shown safe
    obtain ⟨top, highest, total⟩ := Formula.maximum_add_constant parsed both safe shown
    exact ⟨top, highest, by omega⟩
  · next reached =>
    have reached : ¬0 < maxBase - base.total := fun falls => reached ⟨rfl, falls⟩
    exact ⟨crit, shown, by omega⟩

variable {σ : Type} [RandomSource σ]

theorem RolledDamage.crit_total {roll : DamageRoll} {p p' : Progress} {s u s' : σ}
    {d : DamageEntry} (h : c.RolledDamage roll p s u d p' s')
    (both : c.critBehavior = .maximizeBoth) {crit : EvaluatedRoll} (made : crit ∈ d.crit) :
    ∃ formula, c.critFormula? roll.item d.base.formula = .ok (some formula) ∧
      ∀ f, Formula.parse formula = .ok f → d.Safe → d.base.total ≤ d.maxBase →
        ∃ top, maximize formula ∅ = .ok top ∧
          d.base.total + crit.total = d.maxBase + top.total := by
  have rolled := h.crit
  rw [Option.mem_def.1 made] at rolled
  obtain ⟨formula, written, rolled⟩ := rollCrit_of_critDice rolled
  rw [both] at rolled
  obtain ⟨shown, -⟩ := maximize_of_rollCrit rfl rolled
  refine ⟨formula, written, fun f parsed safe short => ?_⟩
  exact total_of_critText parsed shown safe.inRange (safe.crit crit made) short

/-- The total of a damage roll with critical dice does not depend on what its base dice show. -/
theorem RolledDamage.total_eq [DiceSource σ] {roll : DamageRoll} {p₁ p₁' p₂ p₂' : Progress}
    {s₁ u₁ s₁' s₂ u₂ s₂' : σ} {d₁ d₂ : DamageEntry}
    (h₁ : c.RolledDamage roll p₁ s₁ u₁ d₁ p₁' s₁') (h₂ : c.RolledDamage roll p₂ s₂ u₂ d₂ p₂' s₂')
    (both : c.critBehavior = .maximizeBoth) (crit₁ : d₁.crit.isSome = true)
    (crit₂ : d₂.crit.isSome = true) :
    d₂.maxBase = d₁.maxBase ∧ ∀ formula f,
      c.critFormula? roll.item d₁.base.formula = .ok (some formula) →
      Formula.parse formula = .ok f → d₁.Safe → d₁.base.total ≤ d₁.maxBase →
      d₂.Safe → d₂.base.total ≤ d₂.maxBase → d₂.total = d₁.total := by
  have text := (DiceSource.rolledFrom h₁.base).formula_eq (DiceSource.rolledFrom h₂.base)
  have maxBase : d₂.maxBase = d₁.maxBase := by
    obtain ⟨top₁, shown₁, same₁⟩ := h₁.maxBase
    obtain ⟨top₂, shown₂, same₂⟩ := h₂.maxBase
    rw [← text] at shown₂
    cases shown₁.symm.trans shown₂
    rw [same₁, same₂]
  refine ⟨maxBase, fun formula f written parsed safe₁ short₁ safe₂ short₂ => ?_⟩
  obtain ⟨first, made₁⟩ := Option.isSome_iff_exists.1 crit₁
  obtain ⟨second, made₂⟩ := Option.isSome_iff_exists.1 crit₂
  obtain ⟨formula₁, written₁, sum₁⟩ := h₁.crit_total both made₁
  obtain ⟨formula₂, written₂, sum₂⟩ := h₂.crit_total both made₂
  rw [← text] at written₂
  cases written.symm.trans written₁
  cases written.symm.trans written₂
  obtain ⟨top₁, shown₁, total₁⟩ := sum₁ f parsed safe₁ short₁
  obtain ⟨top₂, shown₂, total₂⟩ := sum₂ f parsed safe₂ short₂
  cases shown₁.symm.trans shown₂
  rw [DamageEntry.total, DamageEntry.total, made₁, made₂, Option.elim_some, Option.elim_some,
    total₁, total₂, maxBase]

end RunContext

/-! ## Two runs of one plan -/

/-- Whether the work of a task leads to an entry, if it succeeds. -/
def Task.speaks : Task → Bool
  | .quiet entry => entry.isSome
  | .rolls _ _ _ _ => true
  | .line (.ok (some _)) => true
  | .line _ => false
  | .other roll => roll.isSome

namespace RunContext

variable {c : RunContext} {σ : Type} [RandomSource σ]

theorem Worked.isSome_entry {task : Task} {p p' : Progress} {entry : Option ResultEntry}
    {s s' : σ} (h : c.Worked p s task entry p' s') : entry.isSome = task.speaks := by
  cases h with
  | _ => rfl

/-- How many entries a trace has is up to its steps. -/
theorem Resolves.length_entries {p p' : Progress} {s s' : σ} {visits : List Visit}
    (h : c.Resolves p s visits p' s') :
    (visits.filterMap (·.entry)).length =
      (visits.map (·.step)).countP fun step => (c.task step).speaks := by
  induction h with
  | nil p s => rfl
  | @cons step p q p' s u s' entry visits visited rest ih =>
    have here := ((perform_resolveStep_ok_iff c).1 visited).isSome_entry
    rw [List.map_cons, List.countP_cons, ← here, ← ih]
    cases entry with
    | none => rfl
    | some e => rfl

/-- A step that is visited in both of two traces, behind the same steps, has the same place among
the entries of both. -/
theorem Resolves.place_eq {p₁ p₁' p₂ p₂' : Progress} {s₁ s₁' s₂ s₂' : σ}
    {first second : List Visit} (h₁ : c.Resolves p₁ s₁ first p₁' s₁')
    (h₂ : c.Resolves p₂ s₂ second p₂' s₂')
    (same : second.map (·.step) = first.map (·.step)) :
    (second.filterMap (·.entry)).length = (first.filterMap (·.entry)).length := by
  rw [h₁.length_entries, h₂.length_entries, same]

/-- Critical dice are rolled only for the plan. -/
theorem declared_of_crit {s s' : σ} {q : Progress} {declared added earlier later : List Visit}
    {v : Visit} {d : DamageEntry} (resolves : c.Resolves {} s (declared ++ added) q s')
    (extra : ∀ v ∈ added, v.step = .request (.critExtra none))
    (split_at : declared ++ added = earlier ++ v :: later) (rolled : v.Rolled d)
    (crit : d.crit.isSome = true) : ∃ rest, declared = earlier ++ v :: rest := by
  have unadded : v ∉ added := by
    intro mem
    rw [split_at] at resolves
    have never : v.step.critOverride = .never := by
      rw [extra v mem]
      rfl
    rw [resolves.critRules.never never d rolled] at crit
    cases crit
  rcases List.append_eq_append_iff.1 split_at with ⟨more, -, behind⟩ | ⟨more, before, behind⟩
  · exact absurd (behind ▸ List.mem_append_right more List.mem_cons_self) unadded
  · cases more with
    | nil =>
      rw [List.nil_append] at behind
      rw [← behind] at unadded
      exact absurd List.mem_cons_self unadded
    | cons v' rest =>
      obtain ⟨rfl, -⟩ := List.cons.inj behind
      exact ⟨rest, before⟩

/-- What a run visits behind the same steps as another run of the same plan. -/
theorem exists_counterpart {s s' : σ} {q : Progress} {declared added earlier rest : List Visit}
    {v : Visit} (resolves : c.Resolves {} s (declared ++ added) q s')
    (same : declared.map (·.step) = (earlier ++ v :: rest).map (·.step)) :
    ∃ earlier' v' later', declared ++ added = earlier' ++ v' :: later' ∧
      c.Resolves {} s (earlier' ++ v' :: later') q s' ∧ v'.step = v.step ∧
      earlier'.map (·.step) = earlier.map (·.step) := by
  rw [List.map_append, List.map_cons] at same
  obtain ⟨earlier', behind, rfl, before, tail⟩ := List.map_eq_append_iff.1 same
  obtain ⟨v', later', rfl, step, -⟩ := List.map_eq_cons_iff.1 tail
  have shape : earlier' ++ v' :: later' ++ added = earlier' ++ v' :: (later' ++ added) :=
    List.append_assoc _ _ _
  exact ⟨earlier', v', later' ++ added, shape, shape ▸ resolves, step, before⟩

/-- A step that asks for damage and is visited comes to damage. -/
theorem exists_damage_of_task {v v' : Visit} {s s' : σ} {roll : DamageRoll} {d : DamageEntry}
    (asked : v.RolledBy c roll d) (step : v'.step = v.step)
    (visited : perform (c.resolveStep v'.step v'.before) s = (.ok (v'.entry, v'.after), s')) :
    ∃ d' p u, c.RolledDamage roll p s u d' v'.after s' ∧
      (v.entry = some (.damage d) ∧ v'.entry = some (.damage d') ∨
        v.entry = some (.other d) ∧ v'.entry = some (.other d')) := by
  have worked := (perform_resolveStep_ok_iff c).1 visited
  rw [step] at worked
  generalize v'.entry = entry, v'.after = after at worked ⊢
  rcases asked with ⟨task, entry⟩ | ⟨task, entry⟩
  · rw [task] at worked
    cases worked with
    | line rolled => exact ⟨_, _, _, rolled, Or.inl ⟨entry, rfl⟩⟩
  · rw [task] at worked
    cases worked with
    | other rolled => exact ⟨_, _, _, rolled, Or.inr ⟨entry, rfl⟩⟩

/-- One step of two runs that became critical in the same places: if it rolls critical dice in the
one run, it does so in the other, and the damage is the same. -/
theorem exists_same_total [DiceSource σ] {earlier later earlier' later' : List Visit}
    {v v' : Visit} {p q q' : Progress} {s s₁ s' s₁' u w u' : σ} {roll : DamageRoll}
    {d : DamageEntry} (resolves : c.Resolves {} s (earlier ++ v :: later) q s₁)
    (resolves' : c.Resolves {} s' (earlier' ++ v' :: later') q' s₁') (step : v'.step = v.step)
    (flags : earlier'.any (·.flipsCrit) = earlier.any (·.flipsCrit)) (asked : v.RolledBy c roll d)
    (rolled : c.RolledDamage roll p u w d v.after u') (both : c.critBehavior = .maximizeBoth)
    (critical : d.crit.isSome = true) :
    ∃ d', (v.entry = some (.damage d) ∧ v'.entry = some (.damage d') ∨
        v.entry = some (.other d) ∧ v'.entry = some (.other d')) ∧
      d'.maxBase = d.maxBase ∧ ∀ formula f,
        c.critFormula? roll.item d.base.formula = .ok (some formula) →
        Formula.parse formula = .ok f → d.Safe → d.base.total ≤ d.maxBase →
        d'.Safe → d'.base.total ≤ d'.maxBase → d'.total = d.total := by
  obtain ⟨x, x', -, visited', -⟩ := resolves'.around
  obtain ⟨d', p', w', rolled', kind⟩ := exists_damage_of_task asked step visited'
  have text :=
    (DiceSource.rolledFrom rolled.base).formula_eq (DiceSource.rolledFrom rolled'.base)
  have critical' : d'.crit.isSome = true := by
    rw [resolves'.critRules.damage d' (kind.imp And.right And.right), step, flags,
      EvaluatedRoll.HasCritDice, ← text]
    exact (resolves.critRules.damage d (asked.imp And.right And.right)).1 critical
  exact ⟨d', kind, rolled.total_eq rolled' both critical critical'⟩

end RunContext

/-- The flags of entries in front are those of the visits in front. -/
theorem any_flipsCrit_take {earlier later : List Visit} {entries : List ResultEntry} {place : Nat}
    (made : entries = (earlier ++ later).filterMap (·.entry))
    (length : place = (earlier.filterMap (·.entry)).length) :
    (entries.take place).any (·.flipsCrit) = earlier.any (·.flipsCrit) := by
  rw [made, length, List.filterMap_append, List.take_left, Bool.eq_iff_iff, any_flipsCrit,
    List.any_eq_true]

theorem getElem?_of_visit {earlier later : List Visit} {v : Visit} {entries : List ResultEntry}
    {place : Nat} {e : ResultEntry} (made : entries = (earlier ++ v :: later).filterMap (·.entry))
    (length : place = (earlier.filterMap (·.entry)).length) (entry : v.entry = some e) :
    entries[place]? = some e := by
  rw [made, length, List.filterMap_append, List.filterMap_cons_some entry,
    List.getElem?_append_right (Nat.le_refl _), Nat.sub_self]
  rfl

/-- Damage that is made up to its maximum. Wherever a run rolls critical dice, its base dice and they
come to the maximum of the base dice and that of the formula of the critical dice, without what the
base dice fell short of, if this formula can be read and all numbers are integers that doubles hold.
Another run of the same plan, in which the entries before make the same of the run, has the same
total at this place, whatever its dice show. -/
theorem run_crit_totals {σ η : Type} [RandomSource σ] [DiceSource σ] [RollHost η]
    (config : PipelineConfig) (itemId : String) (requests : List RollRequest) (params : RollParams)
    (t t' : Table σ η) (r : CompositeResult)
    (both : params.critBehavior.getD config.critBehavior = .maximizeBoth)
    (h : perform (run config itemId requests params) t = (.ok r, t')) :
    ∃ p host visits q,
      Prepared itemId requests params t.actor t.host p host ∧
      (p.context config params t.actor).Resolves {} t.source visits q t'.source ∧
      r.entries = visits.filterMap (·.entry) ∧
      ∀ earlier v later, visits = earlier ++ v :: later → ∀ d, v.Rolled d → ∀ crit ∈ d.crit,
        ∃ roll formula, v.RolledBy (p.context config params t.actor) roll d ∧
          (p.context config params t.actor).critFormula? roll.item d.base.formula =
            .ok (some formula) ∧
          ∀ f, Formula.parse formula = .ok f → d.Safe → d.base.total ≤ d.maxBase →
            (∃ top, maximize formula ∅ = .ok top ∧
              d.base.total + crit.total = d.maxBase + top.total) ∧
            ∀ (u u' : Table σ η) (r' : CompositeResult), u.actor = t.actor → u.host = t.host →
              perform (run config itemId requests params) u = (.ok r', u') →
              let place := (earlier.filterMap (·.entry)).length
              (r'.entries.take place).any (·.flipsCrit) =
                (r.entries.take place).any (·.flipsCrit) →
              ∃ d', (v.entry = some (.damage d) ∧ r'.entries[place]? = some (.damage d') ∨
                  v.entry = some (.other d) ∧ r'.entries[place]? = some (.other d')) ∧
                d'.maxBase = d.maxBase ∧
                (d'.Safe → d'.base.total ≤ d'.maxBase → d'.total = d.total) := by
  obtain ⟨p, host, declared, added, q, prepared, resolves, steps, extra, entries⟩ :=
    visits_of_run h
  refine ⟨p, host, declared ++ added, q, prepared, resolves, entries, ?_⟩
  intro earlier v later split_at d made crit some
  have critical : d.crit.isSome = true := Option.isSome_iff_exists.2 ⟨crit, some⟩
  obtain ⟨rest, plan⟩ := RunContext.declared_of_crit resolves extra split_at made critical
  rw [split_at] at resolves entries
  obtain ⟨s, s', before, visited, -⟩ := resolves.around
  obtain ⟨roll, p₁, w, asked, rolled⟩ := RunContext.exists_rolledDamage visited made
  obtain ⟨formula, written, sum⟩ := rolled.crit_total both some
  refine ⟨roll, formula, asked, written, fun f parsed safe short => ⟨sum f parsed safe short, ?_⟩⟩
  intro u u' r' sameActor sameHost h' place flags
  obtain ⟨p', host', declared', added', q', prepared', resolves', steps', -, entries'⟩ :=
    visits_of_run h'
  -- the preparation of a run does not look at its source
  rw [sameActor, sameHost, ← prepare_eq_ok_iff, prepare_eq_ok_iff.2 prepared] at prepared'
  cases prepared'
  rw [sameActor] at resolves'
  have same : declared'.map (·.step) = (earlier ++ v :: rest).map (·.step) := by
    rw [steps', ← steps, plan]
  obtain ⟨earlier', v', later', shape, resolves', step, steps_before⟩ :=
    RunContext.exists_counterpart resolves' same
  rw [shape] at entries'
  obtain ⟨x, x', before', -, -⟩ := resolves'.around
  have there : place = (earlier'.filterMap (·.entry)).length :=
    (before.place_eq before' steps_before).symm
  rw [any_flipsCrit_take entries rfl, any_flipsCrit_take entries' there] at flags
  obtain ⟨d', kind, maxBase, total⟩ :=
    RunContext.exists_same_total resolves resolves' step flags asked rolled both critical
  have at_place {e : ResultEntry} (entry : v'.entry = .some e) : r'.entries[place]? = .some e :=
    getElem?_of_visit entries' there entry
  exact ⟨d', kind.imp (And.imp_right at_place) (And.imp_right at_place), maxBase,
    total formula f written parsed safe short⟩

/-! ## Duels -/

theorem chopped_safe {bonus : String} {face : Nat} {crit : EvaluatedRoll} {f : Formula}
    (parsed : Formula.parse crit.formula = .ok f) (safe : f.MaximizesSafely) (low : face ≤ 6) :
    (chopped bonus face crit).Safe where
  base := by
    show |(face : Int) + 2| ≤ 2 ^ 53
    rw [abs_le]
    omega
  maxBase := by
    show |(8 : Int)| ≤ 2 ^ 53
    decide
  crit := by
    rintro _ ⟨⟩ g parsed'
    cases parsed.symm.trans parsed'
    exact safe

/-- No line of the axe is rolled for another item. -/
theorem item_of_rolledBy {bonus : String} {v : Visit} {roll : DamageRoll} {d : DamageEntry}
    (h : v.RolledBy (chopper bonus) roll d) (made : v.entry = some (.damage d)) :
    roll.item = axe bonus := by
  rcases h with ⟨task, -⟩ | ⟨-, entry⟩
  · obtain ⟨line, found, -⟩ := RunContext.task_eq_line task
    obtain ⟨item, part, formula, owner, -, -, -, rfl⟩ := RunContext.damageRoll?_eq_some_iff.1 found
    cases whose : line.target with
    | primary =>
      rw [whose] at owner
      exact (Option.some.inj owner).symm
    | ammo =>
      rw [whose] at owner
      cases owner
  · cases made.symm.trans entry

/-- The same critical dice when nothing is missing. -/
def sixCrit : EvaluatedRoll := ⟨"1d6 + 1d4 + 0", 10, [⟨6, [⟨6, true⟩]⟩, ⟨4, [⟨4, true⟩]⟩]⟩

theorem six_rolled :
    perform (Formula.evaluate axeTerms ∅) (⟨[6]⟩ : Script) = (.ok (chop 6), ⟨[]⟩) :=
  Prod.ext (eq_ok_of_toOption (by decide +kernel)) rfl

theorem parse_chop : Formula.parse "1d6 + 1d4 + @mod" =
    .ok [.dice ⟨1, 6, []⟩, .operator .add, .dice ⟨1, 4, []⟩, .operator .add, .variable "mod"] := by
  cbv

theorem maximize_six : maximize (chopText "1d4 + @mod" 6) ∅ = .ok sixCrit := by
  have written : chopText "1d4 + @mod" 6 = "1d6 + 1d4 + @mod" := by decide
  rw [written, maximize_eq parse_chop]
  exact eq_ok_of_toOption (by decide +kernel)

/-- A four and a six: the axe does eighteen points of damage with either. -/
theorem duel_totals_agree :
    ∃ r t' r' u' d d',
      perform (run { critBehavior := .maximizeBoth } "axe" [.damage { crit := .always }] {})
          (duel "1d4 + @mod" 4) = (.ok r, t') ∧
      perform (run { critBehavior := .maximizeBoth } "axe" [.damage { crit := .always }] {})
          (duel "1d4 + @mod" 6) = (.ok r', u') ∧
      r.entries = [.damage d] ∧ r'.entries = [.damage d'] ∧ d.base.total = 6 ∧ d'.base.total = 8 ∧
      (∃ top, maximize "1d6 + 1d4 + @mod" ∅ = .ok top ∧ d.total = 8 + top.total) ∧
      d'.total = d.total := by
  obtain ⟨r, t', done, entries, -⟩ := chop_completed four_rolled maximize_four
  obtain ⟨r', u', done', entries', -⟩ := chop_completed six_rolled maximize_six
  obtain ⟨p, host, visits, q, prepared, -, made, totals⟩ :=
    run_crit_totals { critBehavior := .maximizeBoth } "axe" [.damage { crit := .always }] {}
      (duel "1d4 + @mod" 4) t' r rfl done
  have known : Prepared "axe" [.damage { crit := .always }] {} (duel "1d4 + @mod" 4).actor
      (duel "1d4 + @mod" 4).host (chopping "1d4 + @mod") (duel "1d4 + @mod" 4).host :=
    ⟨rfl, rfl, rfl, rfl⟩
  rw [← prepare_eq_ok_iff, prepare_eq_ok_iff.2 known] at prepared
  cases prepared
  have entry : .damage (chopped "1d4 + @mod" 4 fourCrit) ∈ visits.filterMap (·.entry) := by
    rw [← made, entries]
    exact List.mem_singleton_self _
  obtain ⟨v, mem, rolled⟩ := List.mem_filterMap.1 entry
  obtain ⟨earlier, later, split_at⟩ := List.append_of_mem mem
  obtain ⟨roll, formula, asked, written, sum⟩ :=
    totals earlier v later split_at _ (Or.inl rolled) fourCrit rfl
  rw [item_of_rolledBy asked rolled] at written
  cases written.symm.trans (chop_critFormula _)
  have text : Formula.compose ["1d6", "1d4 + @mod"] = "1d6 + 1d4 + @mod" := by decide
  rw [text] at sum
  have four : Formula.parse fourCrit.formula = .ok [.dice ⟨1, 6, []⟩, .operator .add,
      .dice ⟨1, 4, []⟩, .operator .add, .number 0, .operator .add, .number 2] :=
    Formula.parse_render_of_sound (f := [.dice ⟨1, 6, []⟩, .operator .add,
      .dice ⟨1, 4, []⟩, .operator .add, .number 0, .operator .add, .number 2]) rfl (by decide)
  have six : Formula.parse sixCrit.formula = .ok [.dice ⟨1, 6, []⟩, .operator .add,
      .dice ⟨1, 4, []⟩, .operator .add, .number 0] :=
    Formula.parse_render_of_sound (f := [.dice ⟨1, 6, []⟩, .operator .add,
      .dice ⟨1, 4, []⟩, .operator .add, .number 0]) rfl (by decide)
  obtain ⟨⟨top, highest, total⟩, others⟩ :=
    sum _ parse_chop (chopped_safe four (by decide +kernel) (by decide)) (by decide)
  have calm (d : DamageEntry) (k : Nat) :
      ([ResultEntry.damage d].take k).any (·.flipsCrit) = false := by
    cases k with
    | zero => rfl
    | succ k => simp [ResultEntry.flipsCrit]
  obtain ⟨d', place, -, same⟩ := others (duel "1d4 + @mod" 6) u' r' rfl rfl done'
    (by rw [entries, entries', calm, calm])
  rcases place with ⟨-, place⟩ | ⟨other, -⟩
  · have mem' := List.mem_of_getElem? place
    rw [entries'] at mem'
    cases List.mem_singleton.1 mem'
    exact ⟨r, t', r', u', _, _, done, done', entries, entries', rfl, rfl, ⟨top, highest, total⟩,
      same (chopped_safe six (by decide +kernel) (by decide)) (by decide)⟩
  · cases rolled.symm.trans other

/-- Critical dice whose bonus dice are multiplied by what the base dice fell short of. -/
def multiplied (missing : Nat) (text : String) : EvaluatedRoll :=
  ⟨text, 6 + 6 * missing, [⟨6, [⟨6, true⟩]⟩, ⟨6, [⟨6, true⟩]⟩]⟩

def multipliedTerms (missing : Nat) : Formula :=
  [.dice ⟨1, 6, []⟩, .operator .add, .dice ⟨1, 6, []⟩, .operator .multiply, .number missing]

/-- Bonus dice that end with a sign are read only with a constant behind them, and multiply it. A
one leads to more damage than a two then, and there is no maximum without the constant. -/
theorem unfinished_bonus_totals_differ :
    ∃ r t' r' u' d d',
      perform (run { critBehavior := .maximizeBoth } "axe" [.damage { crit := .always }] {})
          (duel "1d6 *" 1) = (.ok r, t') ∧
      perform (run { critBehavior := .maximizeBoth } "axe" [.damage { crit := .always }] {})
          (duel "1d6 *" 2) = (.ok r', u') ∧
      r.entries = [.damage d] ∧ r'.entries = [.damage d'] ∧ d.Safe ∧ d'.Safe ∧
      d.base.total = 3 ∧ d'.base.total = 4 ∧ d.maxBase = 8 ∧ d'.maxBase = 8 ∧
      d.total = 39 ∧ d'.total = 34 ∧
      Formula.parse (Formula.compose ["1d6", "1d6 *"]) = .error .unexpectedEnd := by
  have one : Formula.parse "1d6 + 1d6 * + 5" = .ok (multipliedTerms 5) := by cbv
  have two : Formula.parse "1d6 + 1d6 * + 4" = .ok (multipliedTerms 4) := by cbv
  have shown : maximize (chopText "1d6 *" 1) ∅ = .ok (multiplied 5 "1d6 + 1d6 * 5") := by
    rw [show chopText "1d6 *" 1 = "1d6 + 1d6 * + 5" by decide, maximize_eq one]
    exact eq_ok_of_toOption (by decide +kernel)
  have shown' : maximize (chopText "1d6 *" 2) ∅ = .ok (multiplied 4 "1d6 + 1d6 * 4") := by
    rw [show chopText "1d6 *" 2 = "1d6 + 1d6 * + 4" by decide, maximize_eq two]
    exact eq_ok_of_toOption (by decide +kernel)
  obtain ⟨r, t', done, entries, -⟩ :=
    chop_completed (Prod.ext (eq_ok_of_toOption (by decide +kernel)) rfl) shown
  obtain ⟨r', u', done', entries', -⟩ :=
    chop_completed (Prod.ext (eq_ok_of_toOption (by decide +kernel)) rfl) shown'
  have reread : Formula.parse "1d6 + 1d6 * 5" = .ok (multipliedTerms 5) :=
    Formula.parse_render_of_sound (f := multipliedTerms 5) rfl (by decide)
  have reread' : Formula.parse "1d6 + 1d6 * 4" = .ok (multipliedTerms 4) :=
    Formula.parse_render_of_sound (f := multipliedTerms 4) rfl (by decide)
  refine ⟨r, t', r', u', _, _, done, done', entries, entries', ?_, ?_, rfl, rfl, rfl, rfl, rfl, rfl,
    ?_⟩
  · exact chopped_safe reread (by decide +kernel) (by decide)
  · exact chopped_safe reread' (by decide +kernel) (by decide)
  · rw [show Formula.compose ["1d6", "1d6 *"] = "1d6 + 1d6 *" by decide]
    cbv

end Tabletop
