import Tabletop.Proofs.Run.Validation
/-!
# Requests that need no dice

Texts, flavor, descriptions and difficulties of saving throws can be left out of a run, and put into
it, without a trace in anything else. A quiet request neither changes the plan of the others nor
what they find, so that a run without the quiet requests is the run with them, less their entries.
-/

namespace Tabletop

open Playing

/-- Whether a request asks for a text or a difficulty. -/
def RollRequest.isQuiet : RollRequest → Bool
  | .text _ => true
  | .flavor _ => true
  | .description => true
  | .saveDc _ => true
  | _ => false

/-- Whether a step is that of a quiet request. -/
def Step.isQuiet : Step → Bool
  | .request r => r.isQuiet
  | .damage _ => false

instance : DecidablePred ResultEntry.IsQuiet
  | .saveDc _ => isTrue trivial
  | .text _ => isTrue trivial
  | .flavor _ => isTrue trivial
  | .attack _ => isFalse id
  | .check _ => isFalse id
  | .custom _ => isFalse id
  | .damage _ => isFalse id
  | .other _ => isFalse id

/-- The requests that are not quiet. -/
def loudRequests (requests : List RollRequest) : List RollRequest := requests.filter (!·.isQuiet)

/-- The steps that are not quiet. -/
def loudSteps (steps : List Step) : List Step := steps.filter (!·.isQuiet)

/-- The entries that needed dice. -/
def loudEntries (entries : List ResultEntry) : List ResultEntry := entries.filter (¬·.IsQuiet)

/-- A result without the entries that needed no dice. -/
def CompositeResult.loud (r : CompositeResult) : CompositeResult :=
  { r with entries := loudEntries r.entries }

theorem loudEntries_append (first second : List ResultEntry) :
    loudEntries (first ++ second) = loudEntries first ++ loudEntries second :=
  List.filter_append first second

theorem loudEntries_quiet {entry : Option ResultEntry} (h : ∀ e ∈ entry, e.IsQuiet) :
    loudEntries entry.toList = [] := by
  cases entry with
  | none => rfl
  | some e => simp [loudEntries, h e rfl]

theorem loudEntries_loud {entry : Option ResultEntry} (h : ∀ e ∈ entry, ¬e.IsQuiet) :
    loudEntries entry.toList = entry.toList := by
  cases entry with
  | none => rfl
  | some e => simp [loudEntries, h e rfl]

theorem loudSteps_append (first second : List Step) :
    loudSteps (first ++ second) = loudSteps first ++ loudSteps second :=
  List.filter_append first second

/-! ## Plans -/

namespace Plan

variable {item : Item}

theorem loudSteps_primarySteps {args : DamageArgs} {versatile first : Bool} {indices : List Nat}
    {steps : List Step} (h : primarySteps item args versatile first indices = .ok steps) :
    loudSteps steps = steps := by
  induction indices generalizing first steps with
  | nil =>
    cases h
    rfl
  | cons index indices ih =>
    obtain ⟨u, -, h⟩ := bind_eq_ok_iff.1 h
    obtain ⟨rest, later, h⟩ := bind_eq_ok_iff.1 h
    cases h
    exact congrArg (List.cons _) (ih later)

theorem loudSteps_ammoSteps (ammo : Option Item) (args : DamageArgs) :
    loudSteps (ammo.elim [] (ammoSteps · args)) = ammo.elim [] (ammoSteps · args) := by
  cases ammo with
  | none => rfl
  | some fired => simp [loudSteps, ammoSteps, Step.isQuiet]

/-- Quiet requests are planned as they are, and the ammunition passes them by. -/
theorem requestSteps_loud (versatile : Bool) (ammo : Option Item) (requests : List RollRequest) :
    requestSteps item versatile ammo (loudRequests requests) =
      (requestSteps item versatile ammo requests).map loudSteps := by
  fun_induction requestSteps item versatile ammo requests with
  | case1 ammo => rfl
  | case2 ammo args requests ih =>
    change requestSteps item versatile ammo (.damage args :: loudRequests requests) = _
    rw [requestSteps, ih]
    cases primary : primarySteps item args versatile true
      (selected item.damage.parts.length args.index) with
    | error e => rfl
    | ok steps =>
      cases requestSteps item versatile none requests with
      | error e => rfl
      | ok rest =>
        change Except.ok (_ ++ _ ++ loudSteps rest) = Except.ok (loudSteps (_ ++ _ ++ rest))
        rw [loudSteps_append, loudSteps_append, loudSteps_primarySteps primary,
          loudSteps_ammoSteps]
  | case3 ammo index requests ih =>
    change requestSteps item versatile ammo (.critExtra (some index) :: loudRequests requests) = _
    rw [requestSteps, ih]
    cases checkIndex item index.toNat with
    | error e => rfl
    | ok u =>
      cases requestSteps item versatile ammo requests with
      | error e => rfl
      | ok rest => rfl
  | case4 ammo request requests notDamage notIndexed ih =>
    by_cases quiet : request.isQuiet = true
    · have dropped : loudRequests (request :: requests) = loudRequests requests :=
        List.filter_cons_of_neg (by simp [quiet])
      rw [dropped, ih]
      cases requestSteps item versatile ammo requests with
      | error e => rfl
      | ok rest =>
        have unheard : loudSteps (.request request :: rest) = loudSteps rest :=
          List.filter_cons_of_neg (by simp [Step.isQuiet, quiet])
        exact congrArg Except.ok unheard.symm
    · have kept : loudRequests (request :: requests) = request :: loudRequests requests :=
        List.filter_cons_of_pos (by simp [quiet])
      rw [kept, requestSteps, ih]
      · cases requestSteps item versatile ammo requests with
        | error e => rfl
        | ok rest =>
          have heard : loudSteps (.request request :: rest) = .request request :: loudSteps rest :=
            List.filter_cons_of_pos (by simp [Step.isQuiet, quiet])
          exact congrArg Except.ok heard.symm
      · exact notDamage
      · exact notIndexed

theorem expand_loud (requests : List RollRequest) (ammo : Option Item) (versatile : Bool) :
    expand (loudRequests requests) item ammo versatile =
      (expand requests item ammo versatile).map loudSteps := by
  unfold expand
  rw [requestSteps_loud]
  cases item.crit.extraDamage with
  | none => rfl
  | some index =>
    change (checkIndex item index >>= fun _ => _) = (checkIndex item index >>= fun _ => _).map _
    cases checkIndex item index with
    | error e => rfl
    | ok u => rfl

end Plan

/-! ## Resolution -/

namespace RunContext

variable (c : RunContext)

/-- A quiet step needs no dice, and its entry is quiet. -/
theorem task_of_isQuiet {step : Step} (h : step.isQuiet = true) :
    ∃ entry, c.task step = .quiet entry ∧ ∀ e ∈ entry, e.IsQuiet := by
  have quiet : ∃ entry, c.task step = .quiet entry := by
    cases step with
    | damage step => cases h
    | request request =>
      cases request with
      | text text => exact ⟨_, rfl⟩
      | flavor text => exact ⟨_, rfl⟩
      | description => exact ⟨_, rfl⟩
      | saveDc args => exact ⟨_, rfl⟩
      | _ => cases h
  obtain ⟨entry, made⟩ := quiet
  refine ⟨entry, made, fun e given => ?_⟩
  rw [Option.mem_def.1 given] at made
  exact task_eq_quiet made

variable {c}

/-- Any other step has an entry that needed dice, if it has one. -/
theorem loud_of_task {step : Step} (loud : ¬step.isQuiet = true) {entry : ResultEntry}
    (h : c.task step = .quiet (some entry)) : False := by
  cases step with
  | damage step => cases h
  | request request =>
    cases request with
    | critExtra index =>
      rcases c.task_critExtra_cases index with same | ⟨i, same⟩ <;> cases same.symm.trans h
    | damage args => cases h
    | attack args => cases h
    | check args => cases h
    | custom args => cases h
    | other => cases h
    | _ => exact loud rfl

variable {σ : Type} [RandomSource σ]

theorem Worked.loud {step : Step} {p p' : Progress} {s s' : σ} {entry : Option ResultEntry}
    (loud : ¬step.isQuiet = true) (h : c.Worked p s (c.task step) entry p' s') :
    ∀ e ∈ entry, ¬e.IsQuiet := by
  generalize asked : c.task step = task at h
  intro e given
  cases h with
  | quiet entry =>
    rw [Option.mem_def.1 given] at asked
    exact absurd asked (loud_of_task loud)
  | @rolls kind title m b o s' rolled =>
    cases given
    cases kind <;> exact id
  | noLine => cases given
  | line rolled =>
    cases given
    exact id
  | noOther => cases given
  | other rolled =>
    cases given
    exact id

/-- Without its quiet steps a plan takes the same dice and leaves the same behind. -/
theorem resolveSteps_loud (steps : List Step) (p : Progress) (s : σ) :
    perform (c.resolveSteps (loudSteps steps) p) s =
      ((perform (c.resolveSteps steps p) s).1.map (Prod.map loudEntries id),
        (perform (c.resolveSteps steps p) s).2) := by
  induction steps generalizing p s with
  | nil => rfl
  | cons step steps ih =>
    have first : c.resolveSteps (σ := σ) (step :: steps) p =
        c.resolveStep step p >>= fun x => c.resolveSteps steps x.2 >>= fun y =>
          pure (x.1.toList ++ y.1, y.2) := rfl
    rw [first]
    by_cases quiet : step.isQuiet = true
    · have dropped : loudSteps (step :: steps) = loudSteps steps :=
        List.filter_cons_of_neg (by simp [quiet])
      obtain ⟨entry, task, quiets⟩ := c.task_of_isQuiet quiet
      have visited : perform (c.resolveStep step p) s = (.ok (entry, p), s) :=
        (perform_resolveStep_ok_iff c).2 (task ▸ .quiet entry)
      rw [dropped, ih, perform_bind_of_ok visited, perform_bind]
      rcases perform (c.resolveSteps steps p) s with ⟨e | ⟨entries, q⟩, u⟩
      · rfl
      · have unheard : loudEntries (entry.toList ++ entries) = loudEntries entries := by
          rw [loudEntries_append, loudEntries_quiet quiets, List.nil_append]
        simp [Except.map, unheard]
    · have kept : loudSteps (step :: steps) = step :: loudSteps steps :=
        List.filter_cons_of_pos (by simp [quiet])
      have second : c.resolveSteps (σ := σ) (step :: loudSteps steps) p =
          c.resolveStep step p >>= fun x => c.resolveSteps (loudSteps steps) x.2 >>= fun y =>
            pure (x.1.toList ++ y.1, y.2) := rfl
      rw [kept, second, perform_bind, perform_bind]
      rcases visited : perform (c.resolveStep step p) s with ⟨e | ⟨entry, q⟩, u⟩
      · rfl
      · have louds := ((perform_resolveStep_ok_iff c).1 visited).loud quiet
        simp only
        rw [perform_bind, perform_bind, ih]
        rcases perform (c.resolveSteps steps q) u with ⟨e | ⟨entries, q'⟩, u'⟩
        · rfl
        · have heard : loudEntries (entry.toList ++ entries) =
              entry.toList ++ loudEntries entries := by
            rw [loudEntries_append, loudEntries_loud louds]
          simp [Except.map, heard]

/-- The step that may be added is not quiet, and whether it is added does not hang on quiet ones. -/
theorem resolvePlan_loud (steps : List Step) (s : σ) :
    perform (c.resolvePlan (loudSteps steps)) s =
      ((perform (c.resolvePlan steps) s).1.map (Prod.map loudEntries id),
        (perform (c.resolvePlan steps) s).2) := by
  unfold resolvePlan
  rw [perform_bind, perform_bind, resolveSteps_loud]
  rcases perform (c.resolveSteps steps {}) s with ⟨e | ⟨entries, q⟩, u⟩
  · rfl
  · simp only [Except.map, Prod.map, id_eq]
    by_cases adds : c.addsCritExtra q = true
    · rw [if_pos adds, if_pos adds, perform_bind, perform_bind]
      rcases visited : perform (c.resolveCritExtra none q) u with ⟨e | ⟨entry, q'⟩, u'⟩
      · rfl
      · have added : perform (c.resolveStep (.request (.critExtra none)) q) u =
            (.ok (entry, q'), u') := visited
        have louds : ∀ e ∈ entry, ¬e.IsQuiet :=
          ((perform_resolveStep_ok_iff c).1 added).loud (by decide)
        simp [loudEntries_append, loudEntries_loud louds]
    · rw [if_neg adds, if_neg adds]
      rfl

end RunContext

/-! ## Runs -/

section

variable {σ η : Type} [RandomSource σ] [RollHost η]

theorem prepare_loud (itemId : String) (requests : List RollRequest) (params : RollParams)
    (actor : Actor) (host : η) :
    prepare itemId (loudRequests requests) params actor host =
      ((prepare itemId requests params actor host).1.map fun p =>
          { p with steps := loudSteps p.steps },
        (prepare itemId requests params actor host).2) := by
  unfold prepare
  cases actor.item? itemId with
  | none => rfl
  | some item =>
    simp only [Plan.expand_loud]
    refine Prod.ext ?_ rfl
    cases (castWith item params actor host).1 with
    | error e => rfl
    | ok cast =>
      cases Ledger.preflight item params.consume with
      | error e => rfl
      | ok u =>
        cases Plan.expand requests item (item.ammo? actor params) params.versatile with
        | error e => rfl
        | ok steps => rfl

/-- Quiet requests do not interfere. Without them a run fails with the same error, or succeeds with
the same result less their entries, and it leaves the same source, actor and host behind. -/
theorem run_without_quiet (config : PipelineConfig) (itemId : String)
    (requests : List RollRequest) (params : RollParams) (t : Table σ η) :
    perform (run config itemId (requests.filter (!·.isQuiet)) params) t =
      ((perform (run config itemId requests params) t).1.map CompositeResult.loud,
        (perform (run config itemId requests params) t).2) := by
  change perform (run config itemId (loudRequests requests) params) t = _
  rw [perform_run, perform_run, prepare_loud]
  rcases prepare itemId requests params t.actor t.host with ⟨e | p, host⟩
  · rfl
  have context : Preparation.context { p with steps := loudSteps p.steps } config params t.actor =
      p.context config params t.actor := rfl
  simp only [Except.map, context, RunContext.resolvePlan_loud]
  rcases perform ((p.context config params t.actor).resolvePlan p.steps) t.source with
    ⟨e | ⟨entries, q⟩, source⟩
  · rfl
  have settles : Preparation.settle { p with steps := loudSteps p.steps } params t.actor host =
      p.settle params t.actor host := rfl
  simp only [Prod.map, id_eq, settles]
  rcases p.settle params t.actor host with ⟨e | ⟨outcome, actor⟩, host'⟩
  · rfl
  · rfl

end

end Tabletop
