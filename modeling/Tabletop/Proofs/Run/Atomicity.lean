import Tabletop.Proofs.Run.Phases
/-!
# Runs that fail change nothing

A host is given a record of what it is asked to do. The record changes nothing in a run, and so it
shows what the run does to any host: one that fails has at most asked for a slot, and for a linked
resource that was refused. The actor is then as it was.
-/

namespace Tabletop

open Playing

/-- What a run can do to its host. -/
inductive HostEvent where
  /-- The host was asked for the slot of an item. -/
  | asked (item : Item)
  /-- The linked resource of an item was spent. -/
  | spent (item : Item)
  /-- The linked resource of an item was asked for and refused. -/
  | refused (item : Item)
  /-- The template of an item was placed. -/
  | placed (item : Item)

/-- A host with the record of what it was asked to do, in order. -/
structure Recorded (η : Type) where
  host : η
  events : List HostEvent

section

variable {σ η : Type} [RollHost η]

instance : RollHost (Recorded η) where
  consume item r :=
    let (granted, host) := ResourceConsumer.consume item r.host
    (granted, ⟨host, r.events ++ [if granted then .spent item else .refused item]⟩)
  choose item r :=
    let (choice, host) := RollHost.choose item r.host
    (choice, ⟨host, r.events ++ [.asked item]⟩)
  place item r := ⟨RollHost.place item r.host, r.events ++ [.placed item]⟩

/-- The same table, with a host that keeps a record. -/
def Table.recorded (t : Table σ η) (events : List HostEvent) : Table σ (Recorded η) :=
  ⟨t.actor, t.source, ⟨t.host, events⟩⟩

/-- What the preparation of a run asks of the host. -/
def slotEvents (itemId : String) (params : RollParams) (actor : Actor) : List HostEvent :=
  match actor.item? itemId with
  | none => []
  | some item => if item.asksSlot params then [.asked item] else []

/-- What is asked of the consumer of linked resources. -/
def consumerEvents (item : Item) (r : ConsumptionRequest) (host : η) : List HostEvent :=
  if Ledger.asksConsumer item r then
    [if (askConsumer item r host).1 then .spent item else .refused item]
  else []

/-- What the settlement of a run asks of the host. -/
def Preparation.settlementEvents (p : Preparation) (params : RollParams) (host : η) :
    List HostEvent :=
  consumerEvents p.item params.consume host ++
    if (askConsumer p.item params.consume host).1 && p.item.placesTemplate params p.cast then
      [.placed p.item]
    else []

variable (itemId : String) (requests : List RollRequest) (params : RollParams) (actor : Actor)
  (host : η) (events : List HostEvent)

theorem castWith_recorded (item : Item) :
    castWith item params actor (⟨host, events⟩ : Recorded η) =
      ((castWith item params actor host).1,
        ⟨(castWith item params actor host).2,
          events ++ if item.asksSlot params then [.asked item] else []⟩) := by
  unfold castWith
  by_cases asks : item.asksSlot params = true
  · simp only [if_pos asks]
    rfl
  · simp only [if_neg asks, List.append_nil]

theorem prepare_recorded :
    prepare itemId requests params actor (⟨host, events⟩ : Recorded η) =
      ((prepare itemId requests params actor host).1,
        ⟨(prepare itemId requests params actor host).2,
          events ++ slotEvents itemId params actor⟩) := by
  unfold prepare slotEvents
  cases actor.item? itemId with
  | none => simp only [List.append_nil]
  | some item => simp only [castWith_recorded]

theorem askConsumer_recorded (item : Item) (r : ConsumptionRequest) :
    askConsumer item r (⟨host, events⟩ : Recorded η) =
      ((askConsumer item r host).1,
        ⟨(askConsumer item r host).2, events ++ consumerEvents item r host⟩) := by
  unfold askConsumer consumerEvents
  by_cases asks : Ledger.asksConsumer item r = true
  · simp only [askConsumer, if_pos asks]
    rfl
  · simp only [if_neg asks, List.append_nil]

theorem settle_recorded (p : Preparation) :
    p.settle params actor (⟨host, events⟩ : Recorded η) =
      ((p.settle params actor host).1,
        ⟨(p.settle params actor host).2, events ++ p.settlementEvents params host⟩) := by
  unfold Preparation.settle Preparation.settlementEvents
  rw [askConsumer_recorded]
  rcases askConsumer p.item params.consume host with ⟨granted, host₁⟩
  cases granted with
  | false => simp
  | true =>
    cases p.item.placesTemplate params p.cast with
    | false => simp
    | true => simp [RollHost.place]

/-- What a whole run asks of the host. -/
def runEvents [RandomSource σ] (config : PipelineConfig) (t : Table σ η) : List HostEvent :=
  slotEvents itemId params t.actor ++
    match prepare itemId requests params t.actor t.host with
    | (.error _, _) => []
    | (.ok p, host) =>
      match (perform ((p.context config params t.actor).resolvePlan p.steps) t.source).1 with
      | .error _ => []
      | .ok _ => p.settlementEvents params host

/-- A record changes nothing in a run, and contains what the run asked of the host. -/
theorem perform_run_recorded [RandomSource σ] (config : PipelineConfig) (t : Table σ η) :
    perform (run config itemId requests params) (t.recorded events) =
      ((perform (run config itemId requests params) t).1,
        (perform (run config itemId requests params) t).2.recorded
          (events ++ runEvents itemId requests params config t)) := by
  rw [perform_run, perform_run]
  unfold runEvents Table.recorded
  rw [prepare_recorded]
  rcases prepare itemId requests params t.actor t.host with ⟨e | p, host⟩
  · simp only [List.append_nil]
  simp only
  rcases perform ((p.context config params t.actor).resolvePlan p.steps) t.source with
    ⟨e | ⟨entries, q⟩, source⟩
  · simp only [List.append_nil]
  simp only [settle_recorded, List.append_assoc]
  rcases p.settle params t.actor host with ⟨e | ⟨outcome, actor⟩, host'⟩
  · rfl
  · rfl

variable {itemId requests params}

theorem asked_of_mem_slotEvents {event : HostEvent} (h : event ∈ slotEvents itemId params actor) :
    ∃ item, event = .asked item := by
  unfold slotEvents at h
  cases found : actor.item? itemId with
  | none =>
    rw [found] at h
    cases h
  | some item =>
    simp only [found] at h
    split at h
    · exact ⟨item, List.mem_singleton.1 h⟩
    · cases h

theorem refused_of_mem_settlementEvents {p : Preparation} {host host' : η} {e : RollError}
    (unsettled : p.settle params actor host = (.error e, host')) {event : HostEvent}
    (h : event ∈ p.settlementEvents params host) : event = .refused p.item := by
  obtain ⟨asked, -⟩ := settle_eq_error_iff.1 unsettled
  simp only [Preparation.settlementEvents, consumerEvents, asked, Bool.false_and,
    Bool.false_eq_true, if_false, List.append_nil] at h
  split at h
  · exact List.mem_singleton.1 h
  · cases h

/-- A run that is given up has at most asked questions. -/
theorem mem_runEvents_of_givenUp [RandomSource σ] {config : PipelineConfig} {t t' : Table σ η}
    {e : RollError} (h : GivenUp config itemId requests params t e t') {event : HostEvent}
    (mem : event ∈ runEvents itemId requests params config t) :
    (∃ item, event = .asked item) ∨ ∃ item, event = .refused item := by
  rcases List.mem_append.1 mem with mem | mem
  · exact Or.inl (asked_of_mem_slotEvents _ mem)
  cases h with
  | preparing unprepared =>
    rw [unprepared] at mem
    cases mem
  | resolving prepared unresolved =>
    simp only [prepare_eq_ok_iff.2 prepared, unresolved] at mem
    cases mem
  | settling prepared resolved unsettled =>
    simp only [prepare_eq_ok_iff.2 prepared, resolved] at mem
    exact Or.inr ⟨_, refused_of_mem_settlementEvents _ unsettled mem⟩

/-- A run that is given up leaves the actor alone. -/
theorem GivenUp.actor_eq [RandomSource σ] {config : PipelineConfig} {t t' : Table σ η}
    {e : RollError} (h : GivenUp config itemId requests params t e t') : t'.actor = t.actor := by
  cases h with
  | preparing unprepared => rfl
  | resolving prepared unresolved => rfl
  | settling prepared resolved unsettled => rfl

end

/-- A host with fixed answers has at most counted a question when a run is given up. -/
theorem GivenUp.static_host {σ : Type} [RandomSource σ] {config : PipelineConfig}
    {itemId : String} {requests : List RollRequest} {params : RollParams}
    {t t' : Table σ StaticHost} {e : RollError}
    (h : GivenUp config itemId requests params t e t') :
    t'.host = { t.host with dialogs := t'.host.dialogs } := by
  cases h with
  | preparing unprepared =>
    obtain rfl := static_of_prepare unprepared
    rfl
  | resolving prepared unresolved =>
    obtain rfl := static_of_prepare (prepare_eq_ok_iff.2 prepared)
    rfl
  | settling prepared resolved unsettled =>
    obtain ⟨refused, -⟩ := settle_eq_error_iff.1 unsettled
    obtain rfl := static_of_refused refused
    obtain rfl := static_of_prepare (prepare_eq_ok_iff.2 prepared)
    rfl

/-- A run that fails leaves the actor as it was, places no template and spends no linked resource;
of a host with fixed answers it changes the number of questions only. -/
theorem run_error_atomic {σ : Type} [RandomSource σ] (config : PipelineConfig) (itemId : String)
    (requests : List RollRequest) (params : RollParams) :
    (∀ (η : Type) [RollHost η] (t t' : Table σ η) (e : RollError),
      perform (run config itemId requests params) t = (.error e, t') →
      t'.actor = t.actor ∧
      ∃ events,
        perform (run config itemId requests params) (t.recorded []) =
          (.error e, t'.recorded events) ∧
        ∀ item, .spent item ∉ events ∧ .placed item ∉ events) ∧
    ∀ (t t' : Table σ StaticHost) (e : RollError),
      perform (run config itemId requests params) t = (.error e, t') →
      t'.actor = t.actor ∧ t'.host = { t.host with dialogs := t'.host.dialogs } := by
  constructor
  · intro η _ t t' e h
    have given := perform_run_eq_error_iff.1 h
    refine ⟨given.actor_eq, runEvents itemId requests params config t, ?_, ?_⟩
    · rw [perform_run_recorded, h, List.nil_append]
    · intro item
      constructor
      · intro mem
        rcases mem_runEvents_of_givenUp given mem with ⟨_, h⟩ | ⟨_, h⟩
        · cases h
        · cases h
      · intro mem
        rcases mem_runEvents_of_givenUp given mem with ⟨_, h⟩ | ⟨_, h⟩
        · cases h
        · cases h
  · intro t t' e h
    have given := perform_run_eq_error_iff.1 h
    exact ⟨given.actor_eq, given.static_host⟩

/-- A table where a slot is chosen for a spell with an area, and its incense is refused. -/
def emptyAltar : Table ScriptedSource StaticHost where
  actor := {
    id := "priest"
    name := "Priest"
    spells := { levels := .replicate 9 ⟨1, 2⟩ }
    items := [{
      id := "rite"
      name := "Rite"
      kind := .spell
      level := 1
      consume := some ⟨.material, "incense", 1⟩
      areaTarget := true }] }
  source := .ofFaces []
  host := { slotChoice := some ⟨.level 1, true, true⟩, allowConsumption := false }

/-- The refusal comes last, and still neither the slot nor the template is used. -/
theorem emptyAltar_atomic :
    ∃ t', perform (run {} "rite" [.text "Rise"] { consume := { useLinkedResource := true } })
        emptyAltar = (.error (.resourceConsumptionRefused "Rite"), t') ∧
      t'.actor = emptyAltar.actor ∧ t'.host = { emptyAltar.host with dialogs := 1 } ∧
      ∃ events,
        perform (run {} "rite" [.text "Rise"] { consume := { useLinkedResource := true } })
          (emptyAltar.recorded []) =
            (.error (.resourceConsumptionRefused "Rite"), t'.recorded events) ∧
        ∀ item, .spent item ∉ events ∧ .placed item ∉ events := by
  have failed : perform (run {} "rite" [.text "Rise"] { consume := { useLinkedResource := true } })
      emptyAltar = (.error (.resourceConsumptionRefused "Rite"),
        { emptyAltar with host := { emptyAltar.host with dialogs := 1 } }) := rfl
  obtain ⟨hosts, static⟩ := run_error_atomic (σ := ScriptedSource) {} "rite" [.text "Rise"]
    { consume := { useLinkedResource := true } }
  obtain ⟨-, recorded⟩ := hosts StaticHost _ _ _ failed
  obtain ⟨actor, host⟩ := static _ _ _ failed
  exact ⟨_, failed, actor, host, recorded⟩

end Tabletop
