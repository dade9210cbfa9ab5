import Tabletop.Proofs.Run.Resolution
/-!
# The trace of a resolution

A resolution that succeeds visits its steps one after the other, and each step finds what the one
before it left behind. What holds of a whole run is shown for one visit, and carried through the
trace by induction.
-/

namespace Tabletop

/-- One step of a resolution: what it found, its entry, and what it left behind. -/
structure Visit where
  step : Step
  before : Progress
  entry : Option ResultEntry
  after : Progress

namespace RunContext

variable (c : RunContext) {σ : Type} [RandomSource σ]

/-- The visits of a resolution that succeeded, from one state to another. -/
inductive Resolves : Progress → σ → List Visit → Progress → σ → Prop
  | nil (p : Progress) (s : σ) : Resolves p s [] p s
  | cons {step : Step} {p q p' : Progress} {s u s' : σ} {entry : Option ResultEntry}
      {visits : List Visit} (visited : perform (c.resolveStep step p) s = (.ok (entry, q), u))
      (rest : Resolves q u visits p' s') : Resolves p s (⟨step, p, entry, q⟩ :: visits) p' s'

variable {c} {p q p' : Progress} {s u s' : σ} {visits earlier later : List Visit}

theorem Resolves.append (h : c.Resolves p s earlier q u) (h' : c.Resolves q u later p' s') :
    c.Resolves p s (earlier ++ later) p' s' := by
  induction h with
  | nil p s => exact h'
  | cons visited rest ih => exact .cons visited (ih h')

theorem Resolves.of_append (h : c.Resolves p s (earlier ++ later) p' s') :
    ∃ q u, c.Resolves p s earlier q u ∧ c.Resolves q u later p' s' := by
  induction earlier generalizing p s with
  | nil => exact ⟨p, s, .nil p s, h⟩
  | cons v earlier ih =>
    cases h with
    | cons visited rest =>
      obtain ⟨q, u, first, second⟩ := ih rest
      exact ⟨q, u, .cons visited first, second⟩

/-- A visit in the middle of a trace goes on from the earlier ones, and the later ones from it. -/
theorem Resolves.around {v : Visit} (h : c.Resolves p s (earlier ++ v :: later) p' s') :
    ∃ u u', c.Resolves p s earlier v.before u ∧
      perform (c.resolveStep v.step v.before) u = (.ok (v.entry, v.after), u') ∧
      c.Resolves v.after u' later p' s' := by
  obtain ⟨q, u, first, second⟩ := h.of_append
  cases second with
  | cons visited rest => exact ⟨u, _, first, visited, rest⟩

/-- What a visit in the middle of a trace found is what the earlier ones left behind. -/
theorem Resolves.before_eq {v : Visit} (h : c.Resolves p s (earlier ++ v :: later) p' s') :
    ∃ u u', c.Resolves p s earlier v.before u ∧
      perform (c.resolveStep v.step v.before) u = (.ok (v.entry, v.after), u') := by
  obtain ⟨u, u', first, visited, -⟩ := h.around
  exact ⟨u, u', first, visited⟩

theorem perform_resolveSteps_ok_iff {steps : List Step} {entries : List ResultEntry} :
    perform (c.resolveSteps steps p) s = (.ok (entries, p'), s') ↔
      ∃ visits, c.Resolves p s visits p' s' ∧ visits.map (·.step) = steps ∧
        entries = visits.filterMap (·.entry) := by
  constructor
  · intro h
    induction steps generalizing p s entries with
    | nil =>
      cases h
      exact ⟨[], .nil _ _, rfl, rfl⟩
    | cons step steps ih =>
      obtain ⟨⟨entry, q⟩, u, visited, h⟩ := perform_bind_ok_iff.1 h
      obtain ⟨⟨rest, q'⟩, u', resolved, h⟩ := perform_bind_ok_iff.1 h
      cases h
      obtain ⟨visits, resolves, rfl, rfl⟩ := ih resolved
      refine ⟨⟨step, p, entry, q⟩ :: visits, .cons visited resolves, rfl, ?_⟩
      cases entry with
      | none => rfl
      | some entry => rfl
  · rintro ⟨visits, resolves, rfl, rfl⟩
    induction resolves with
    | nil p s => rfl
    | @cons step p q p' s u s' entry visits visited rest ih =>
      refine perform_bind_ok_iff.2 ⟨(entry, q), u, visited, ?_⟩
      refine perform_bind_ok_iff.2 ⟨(visits.filterMap (·.entry), p'), s', ih, ?_⟩
      cases entry with
      | none => rfl
      | some entry => rfl

/-- The step that a run adds behind those of its plan, if it adds one. -/
def addedSteps (c : RunContext) (p : Progress) : List Step :=
  if c.addsCritExtra p then [.request (.critExtra none)] else []

/-- A plan is resolved by visiting its steps, and then the step that is added to them. -/
theorem perform_resolvePlan_ok_iff {steps : List Step} {entries : List ResultEntry} :
    perform (c.resolvePlan steps) s = (.ok (entries, p'), s') ↔
      ∃ declared added q u, c.Resolves {} s declared q u ∧ c.Resolves q u added p' s' ∧
        declared.map (·.step) = steps ∧ added.map (·.step) = c.addedSteps q ∧
        entries = (declared ++ added).filterMap (·.entry) := by
  unfold resolvePlan addedSteps
  rw [perform_bind_ok_iff]
  constructor
  · rintro ⟨⟨first, q⟩, u, resolved, h⟩
    obtain ⟨declared, resolves, rfl, rfl⟩ := perform_resolveSteps_ok_iff.1 resolved
    by_cases adds : c.addsCritExtra q = true
    · simp only [if_pos adds] at h
      obtain ⟨⟨entry, q'⟩, u', visited, h⟩ := perform_bind_ok_iff.1 h
      cases h
      refine ⟨declared, [⟨.request (.critExtra none), q, entry, q'⟩], q, u, resolves,
        .cons visited (.nil _ _), rfl, (if_pos adds).symm, ?_⟩
      cases entry with
      | none => simp
      | some entry => simp
    · simp only [if_neg adds] at h
      cases h
      exact ⟨declared, [], _, _, resolves, .nil _ _, rfl, (if_neg adds).symm, by simp⟩
  · rintro ⟨declared, added, q, u, resolves, resolves', rfl, same, rfl⟩
    refine ⟨(declared.filterMap (·.entry), q), u,
      perform_resolveSteps_ok_iff.2 ⟨declared, resolves, rfl, rfl⟩, ?_⟩
    by_cases adds : c.addsCritExtra q = true
    · rw [if_pos adds] at same
      simp only [if_pos adds]
      cases resolves' with
      | nil => cases same
      | @cons step _ q' _ _ u' _ entry _ visited rest =>
        obtain ⟨rfl, none_left⟩ := List.cons.inj same
        obtain rfl := List.map_eq_nil_iff.1 none_left
        cases rest
        refine perform_bind_ok_iff.2 ⟨(entry, p'), s', visited, ?_⟩
        cases entry with
        | none => simp
        | some entry => simp
    · rw [if_neg adds] at same
      obtain rfl := List.map_eq_nil_iff.1 same
      cases resolves'
      simp [if_neg adds]

/-! ### Resolutions that are given up -/

/-- Steps that are given up were visited up to the one that fails. -/
theorem perform_resolveSteps_error {steps : List Step} {e : RollError}
    (h : perform (c.resolveSteps steps p) s = (.error e, s')) :
    ∃ earlier step later q u, steps = earlier.map (·.step) ++ step :: later ∧
      c.Resolves p s earlier q u ∧ perform (c.resolveStep step q) u = (.error e, s') := by
  induction steps generalizing p s with
  | nil => cases h
  | cons step steps ih =>
    rcases perform_bind_error_iff.1 h with failed | ⟨⟨entry, q⟩, u, visited, h⟩
    · exact ⟨[], step, steps, p, s, rfl, .nil p s, failed⟩
    · rcases perform_bind_error_iff.1 h with failed | ⟨_, _, -, made⟩
      · obtain ⟨earlier, step', later, q', u', rfl, resolves, failed⟩ := ih failed
        exact ⟨⟨step, p, entry, q⟩ :: earlier, step', later, q', u', rfl,
          .cons visited resolves, failed⟩
      · cases made

/-- A plan that is given up was visited up to a step of its own, or up to the added one. -/
theorem perform_resolvePlan_error {steps : List Step} {e : RollError}
    (h : perform (c.resolvePlan steps) s = (.error e, s')) :
    ∃ earlier step q u, earlier.map (·.step) ++ [step] <+: steps ++ [.request (.critExtra none)] ∧
      c.Resolves {} s earlier q u ∧ perform (c.resolveStep step q) u = (.error e, s') := by
  unfold resolvePlan at h
  rcases perform_bind_error_iff.1 h with failed | ⟨⟨first, q⟩, u, resolved, added⟩
  · obtain ⟨earlier, step, later, q, u, rfl, resolves, failed⟩ := perform_resolveSteps_error failed
    exact ⟨earlier, step, q, u, ⟨later ++ [.request (.critExtra none)], by simp⟩, resolves, failed⟩
  · obtain ⟨declared, resolves, same, -⟩ := perform_resolveSteps_ok_iff.1 resolved
    by_cases adds : c.addsCritExtra q = true
    · simp only [if_pos adds] at added
      rcases perform_bind_error_iff.1 added with failed | ⟨_, _, -, made⟩
      · exact ⟨declared, .request (.critExtra none), q, u, same ▸ List.prefix_rfl, resolves, failed⟩
      · cases made
    · simp only [if_neg adds] at added
      cases added

end RunContext

end Tabletop
