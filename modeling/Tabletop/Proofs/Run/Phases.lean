import Tabletop.Proofs.Computation
import Tabletop.Proofs.Sheet.Actor
import Tabletop.Run.Basic
/-!
# The three phases of a run

A run is the preparation, which uses the host but no dice, then the resolution of the steps, which
uses dice but no host, and then the settlement, which spends. The first and the last phase are given
here as functions of the actor and the host, and `perform_run` says that a run is the three of them
in a row. What follows about runs is read off that equation.
-/

namespace Tabletop

open Playing

/-- What a run has settled before its first step. -/
structure Preparation where
  item : Item
  cast : Option SpellCast
  steps : List Step

namespace Preparation

/-- What the steps of the run read. -/
def context (p : Preparation) (config : PipelineConfig) (params : RollParams) (actor : Actor) :
    RunContext :=
  .ofRun config params actor p.item p.cast

end Preparation

/-- Whether the linked resource is granted, as far as it is asked for, and the consumer after it. -/
def askConsumer {η : Type} [ResourceConsumer η] (item : Item) (r : ConsumptionRequest)
    (consumer : η) : Bool × η :=
  if Ledger.asksConsumer item r then ResourceConsumer.consume item consumer else (true, consumer)

section Phases

variable {η : Type} [RollHost η]

/-- How an item is cast, and the host after it was asked for a slot, if it was. -/
def castWith (item : Item) (params : RollParams) (actor : Actor) (host : η) :
    Except RollError (Option SpellCast) × η :=
  if item.asksSlot params then
    (match (RollHost.choose item host).1 with
      | none => .error (.slotSelectionCancelled item.name)
      | some choice => (item.castChosen actor choice).map some,
      (RollHost.choose item host).2)
  else (.ok (item.castUnasked? params), host)

/-- The first phase: everything that can fail without a die. -/
def prepare (itemId : String) (requests : List RollRequest) (params : RollParams) (actor : Actor)
    (host : η) : Except RollError Preparation × η :=
  match actor.item? itemId with
  | none => (.error (.unknownItem itemId), host)
  | some item =>
    (do
      let cast ← (castWith item params actor host).1
      Ledger.preflight item params.consume
      let steps ← Plan.expand requests item (item.ammo? actor params) params.versatile
      return ⟨item, cast, steps⟩,
      (castWith item params actor host).2)

/-- An actor after an item was used: the first item with its id is what was left of it, or gone if
nothing was, and a slot is spent. -/
def Actor.afterUse (actor : Actor) (left : Item) (slot : Option SlotLevel)
    (outcome : ConsumeOutcome) : Actor :=
  let kept := { actor.modifyItem left.id fun _ => left with
    spells := slot.elim actor.spells fun slot =>
      (actor.spells.spend? slot).elim actor.spells (·.2) }
  if outcome = .destroy then kept.removeItem left.id else kept

/-- The last phase: what a run costs, once all of its steps succeeded. -/
def Preparation.settle (p : Preparation) (params : RollParams) (actor : Actor) (host : η) :
    Except RollError (ConsumeOutcome × Actor) × η :=
  let (granted, host) := askConsumer p.item params.consume host
  if granted then
    let (left, outcome) := Ledger.spend p.item params.consume
    (.ok (outcome, actor.afterUse left (p.cast.bind (·.spend)) outcome),
      if p.item.placesTemplate params p.cast then RollHost.place p.item host else host)
  else (.error (.resourceConsumptionRefused p.item.name), host)

end Phases

section Equations

variable {σ η : Type}

theorem perform_onSource {α : Type} (x : Resolving σ α) (t : Table σ η) :
    perform (onSource x) t =
      ((perform x t.source).1, { t with source := (perform x t.source).2 }) := rfl

theorem perform_onHost {α : Type} (x : ExceptT RollError (StateM η) α) (t : Table σ η) :
    perform (onHost x) t =
      ((perform x t.host).1, { t with host := (perform x t.host).2 }) := rfl

theorem perform_onItem {α : Type} (owned : Item)
    (x : ExceptT RollError (StateM (Ledger.Account η)) α) (t : Table σ η) :
    perform (onItem owned x) t =
      let (result, account) := perform x ⟨owned, t.host⟩
      (result, { t with
        actor := t.actor.modifyItem owned.id fun _ => account.item
        host := account.consumer }) := rfl

theorem perform_modifyActor (f : Actor → Actor) (t : Table σ η) :
    perform (modifyActor f) t = (.ok (), { t with actor := f t.actor }) := rfl

/-- The checks come first, then the consumer is asked, and only what passes both changes an item. -/
theorem perform_pay [ResourceConsumer η] (r : ConsumptionRequest) (a : Ledger.Account η) :
    perform (Ledger.pay r) a =
      match Ledger.preflight a.item r with
      | .error e => (.error e, a)
      | .ok () =>
        let (granted, consumer) := askConsumer a.item r a.consumer
        if granted then
          (.ok (Ledger.spend a.item r).2, ⟨(Ledger.spend a.item r).1, consumer⟩)
        else (.error (.resourceConsumptionRefused a.item.name), ⟨a.item, consumer⟩) := by
  unfold Ledger.pay askConsumer
  rw [perform_bind, perform_get]
  simp only [perform_bind, perform_lift]
  cases Ledger.preflight a.item r with
  | error e => rfl
  | ok u =>
    by_cases asks : Ledger.asksConsumer a.item r = true
    · simp only [asks, if_true, perform_bind, perform_modifyGet, Ledger.Account.ask]
      cases (ResourceConsumer.consume a.item a.consumer).1 with
      | false => rfl
      | true => rfl
    · simp only [asks]
      rfl

variable [RollHost η]

theorem perform_configureSpell (item : Item) (params : RollParams) (t : Table σ η) :
    perform (configureSpell item params) t =
      ((castWith item params t.actor t.host).1,
        { t with host := (castWith item params t.actor t.host).2 }) := by
  unfold configureSpell castWith
  by_cases asks : item.asksSlot params = true
  · rw [if_pos asks, if_pos asks, perform_bind, perform_onHost, perform_modifyGet]
    cases (RollHost.choose item t.host).1 with
    | none => rfl
    | some choice =>
      simp only [perform_bind, perform_get, perform_lift]
      cases item.castChosen t.actor choice with
      | error e => rfl
      | ok cast => rfl
  · rw [if_neg asks, if_neg asks]
    rfl

/-- The ledger leaves the id of the item alone, so that it is found again in the inventory. -/
theorem spend_id (item : Item) (r : ConsumptionRequest) :
    (Ledger.spend item r).1.id = item.id := rfl

/-- With the item still in the inventory and its counters checked, only the consumer of the linked
resource can refuse. -/
theorem perform_commit {p : Preparation} {params : RollParams} (t : Table σ η)
    (found : t.actor.item? p.item.id = some p.item)
    (affordable : Ledger.preflight p.item params.consume = .ok ()) :
    perform (commit p.item params p.cast) t =
      match p.settle params t.actor t.host with
      | (.error e, host) => (.error e, { t with host })
      | (.ok (outcome, actor), host) => (.ok outcome, ⟨actor, t.source, host⟩) := by
  unfold commit Preparation.settle
  rw [perform_bind, perform_get]
  simp only [found]
  rw [perform_bind, perform_onItem, perform_pay]
  simp only [affordable]
  rcases askConsumer p.item params.consume t.host with ⟨granted, host⟩
  cases granted with
  | false =>
    have kept := Actor.modifyItem_self found
    simp [kept]
  | true =>
    simp only [if_true, perform_bind, perform_modifyActor, Actor.afterUse, spend_id]
    -- every later write is made or left out, and none of them can fail
    cases p.cast.bind (·.spend) <;> cases p.item.placesTemplate params p.cast <;>
      cases (Ledger.spend p.item params.consume).2 <;> rfl

end Equations

section Preparation

variable {η : Type} [RollHost η]

/-- What a preparation that succeeded has found out. -/
structure Prepared (itemId : String) (requests : List RollRequest) (params : RollParams)
    (actor : Actor) (host : η) (p : Preparation) (host' : η) : Prop where
  found : actor.item? itemId = some p.item
  configured : castWith p.item params actor host = (.ok p.cast, host')
  affordable : Ledger.preflight p.item params.consume = .ok ()
  planned : Plan.expand requests p.item (p.item.ammo? actor params) params.versatile = .ok p.steps

variable {itemId : String} {requests : List RollRequest} {params : RollParams} {actor : Actor}
  {host host' : η} {p : Preparation}

theorem prepare_eq_ok_iff :
    prepare itemId requests params actor host = (.ok p, host') ↔
      Prepared itemId requests params actor host p host' := by
  unfold prepare
  constructor
  · intro h
    cases found : actor.item? itemId with
    | none =>
      rw [found] at h
      cases h
    | some item =>
      rw [found] at h
      obtain ⟨hp, rfl⟩ := Prod.mk.inj h
      obtain ⟨cast, configured, hp⟩ := bind_eq_ok_iff.1 hp
      obtain ⟨⟨⟩, affordable, hp⟩ := bind_eq_ok_iff.1 hp
      obtain ⟨steps, planned, hp⟩ := bind_eq_ok_iff.1 hp
      cases hp
      exact ⟨found, Prod.ext configured rfl, affordable, planned⟩
  · rintro ⟨found, configured, affordable, planned⟩
    rw [found]
    simp only [configured, affordable, planned]
    rfl

theorem Actor.id_of_item? {id : String} {item : Item} (h : actor.item? id = some item) :
    item.id = id := by
  have h := List.find?_some h
  exact eq_of_beq h

/-- The item that is prepared is the one that its own id stands for. -/
theorem Prepared.item?_id (h : Prepared itemId requests params actor host p host') :
    actor.item? p.item.id = some p.item := by
  rw [Actor.id_of_item? h.found]
  exact h.found

/-- The settlement fails only where the linked resource is refused. -/
theorem settle_eq_error_iff {e : RollError} :
    p.settle params actor host = (.error e, host') ↔
      askConsumer p.item params.consume host = (false, host') ∧
        e = .resourceConsumptionRefused p.item.name := by
  unfold Preparation.settle
  rcases askConsumer p.item params.consume host with ⟨granted, host₁⟩
  cases granted with
  | false => simp [eq_comm, and_comm]
  | true => simp

theorem settle_eq_ok_iff {outcome : ConsumeOutcome} {actor' : Actor} :
    p.settle params actor host = (.ok (outcome, actor'), host') ↔
      ∃ host₁, askConsumer p.item params.consume host = (true, host₁) ∧
        outcome = (Ledger.spend p.item params.consume).2 ∧
        actor' = actor.afterUse (Ledger.spend p.item params.consume).1 (p.cast.bind (·.spend))
          outcome ∧
        host' = if p.item.placesTemplate params p.cast then RollHost.place p.item host₁
          else host₁ := by
  unfold Preparation.settle
  rcases askConsumer p.item params.consume host with ⟨granted, host₁⟩
  cases granted with
  | false => simp
  | true =>
    simp only [if_true]
    constructor
    · intro h
      cases h
      exact ⟨host₁, rfl, rfl, rfl, rfl⟩
    · rintro ⟨host₂, h, rfl, rfl, rfl⟩
      cases h
      rfl

end Preparation

section Run

variable {σ η : Type} [RandomSource σ] [RollHost η]
variable (config : PipelineConfig) (itemId : String) (requests : List RollRequest)
  (params : RollParams) (t : Table σ η)

/-- A run is preparation, resolution and settlement; the first of them that fails ends it. -/
theorem perform_run :
    perform (run config itemId requests params) t =
      match prepare itemId requests params t.actor t.host with
      | (.error e, host) => (.error e, { t with host })
      | (.ok p, host) =>
        match perform ((p.context config params t.actor).resolvePlan p.steps) t.source with
        | (.error e, source) => (.error e, { t with source, host })
        | (.ok (entries, q), source) =>
          match p.settle params t.actor host with
          | (.error e, host) => (.error e, { t with source, host })
          | (.ok (outcome, actor), host) =>
            (.ok ((p.context config params t.actor).result p.cast entries q outcome),
              ⟨actor, source, host⟩) := by
  unfold run
  rw [perform_bind, perform_get]
  cases found : t.actor.item? itemId with
  | none => simp only [prepare, found, perform_throw]
  | some item =>
    simp only [found]
    rw [perform_bind, perform_configureSpell]
    rcases configured : castWith item params t.actor t.host with ⟨e | cast, host⟩
    · simp only [prepare, found, configured]
      rfl
    simp only
    rw [perform_bind, perform_lift]
    cases affordable : Ledger.preflight item params.consume with
    | error e =>
      simp only [prepare, found, configured, affordable]
      rfl
    | ok u =>
      simp only
      rw [perform_bind, perform_lift]
      cases planned : Plan.expand requests item (item.ammo? t.actor params) params.versatile with
      | error e =>
        simp only [prepare, found, configured, affordable, planned]
        rfl
      | ok steps =>
        have prepared : Prepared itemId requests params t.actor t.host ⟨item, cast, steps⟩ host :=
          ⟨found, configured, affordable, planned⟩
        simp only [prepare_eq_ok_iff.2 prepared]
        rw [perform_bind, perform_onSource]
        rcases resolved : perform ((RunContext.ofRun config params t.actor item cast).resolvePlan
          steps) t.source with ⟨e | ⟨entries, q⟩, source⟩
        · simp only [Preparation.context, resolved]
        simp only [Preparation.context, resolved]
        rw [perform_bind]
        have committed := perform_commit ⟨t.actor, source, host⟩ prepared.item?_id affordable
        simp only at committed
        rw [committed]
        rcases Preparation.settle _ params t.actor host with ⟨e | ⟨outcome, actor⟩, host⟩
        · rfl
        · rfl

/-- The three places at which a run can be given up. -/
inductive GivenUp (e : RollError) : Table σ η → Prop
  | preparing {host : η}
      (unprepared : prepare itemId requests params t.actor t.host = (.error e, host)) :
      GivenUp e { t with host }
  | resolving {p : Preparation} {host : η} {source : σ}
      (prepared : Prepared itemId requests params t.actor t.host p host)
      (unresolved : perform ((p.context config params t.actor).resolvePlan p.steps) t.source =
        (.error e, source)) :
      GivenUp e { t with source, host }
  | settling {p : Preparation} {host host' : η} {source : σ} {entries : List ResultEntry}
      {q : Progress} (prepared : Prepared itemId requests params t.actor t.host p host)
      (resolved : perform ((p.context config params t.actor).resolvePlan p.steps) t.source =
        (.ok (entries, q), source))
      (unsettled : p.settle params t.actor host = (.error e, host')) :
      GivenUp e { t with source, host := host' }

/-- All three phases of a run succeeded. -/
inductive Completed : CompositeResult → Table σ η → Prop
  | intro {p : Preparation} {host host' : η} {source : σ} {entries : List ResultEntry}
      {q : Progress} {outcome : ConsumeOutcome} {actor : Actor}
      (prepared : Prepared itemId requests params t.actor t.host p host)
      (resolved : perform ((p.context config params t.actor).resolvePlan p.steps) t.source =
        (.ok (entries, q), source))
      (settled : p.settle params t.actor host = (.ok (outcome, actor), host')) :
      Completed ((p.context config params t.actor).result p.cast entries q outcome)
        ⟨actor, source, host'⟩

variable {config itemId requests params t} {t' : Table σ η}

theorem perform_run_eq_error_iff {e : RollError} :
    perform (run config itemId requests params) t = (.error e, t') ↔
      GivenUp config itemId requests params t e t' := by
  rw [perform_run]
  constructor
  · intro h
    rcases hp : prepare itemId requests params t.actor t.host with ⟨e' | p, host⟩
    · rw [hp] at h
      cases h
      exact .preparing hp
    have prepared := prepare_eq_ok_iff.1 hp
    simp only [hp] at h
    rcases hr : perform ((p.context config params t.actor).resolvePlan p.steps) t.source with
      ⟨e' | ⟨entries, q⟩, source⟩
    · rw [hr] at h
      cases h
      exact .resolving prepared hr
    simp only [hr] at h
    rcases hs : p.settle params t.actor host with ⟨e' | ⟨outcome, actor⟩, host'⟩
    · rw [hs] at h
      cases h
      exact .settling prepared hr hs
    · rw [hs] at h
      cases h
  · intro h
    cases h with
    | preparing unprepared => rw [unprepared]
    | resolving prepared unresolved =>
      rw [prepare_eq_ok_iff.2 prepared]
      simp only [unresolved]
    | settling prepared resolved unsettled =>
      rw [prepare_eq_ok_iff.2 prepared]
      simp only [resolved, unsettled]

theorem perform_run_eq_ok_iff {r : CompositeResult} :
    perform (run config itemId requests params) t = (.ok r, t') ↔
      Completed config itemId requests params t r t' := by
  rw [perform_run]
  constructor
  · intro h
    rcases hp : prepare itemId requests params t.actor t.host with ⟨e | p, host⟩
    · rw [hp] at h
      cases h
    have prepared := prepare_eq_ok_iff.1 hp
    simp only [hp] at h
    rcases hr : perform ((p.context config params t.actor).resolvePlan p.steps) t.source with
      ⟨e | ⟨entries, q⟩, source⟩
    · rw [hr] at h
      cases h
    simp only [hr] at h
    rcases hs : p.settle params t.actor host with ⟨e | ⟨outcome, actor⟩, host'⟩
    · rw [hs] at h
      cases h
    · rw [hs] at h
      cases h
      exact .intro prepared hr hs
  · rintro ⟨prepared, resolved, settled⟩
    rw [prepare_eq_ok_iff.2 prepared]
    simp only [resolved, settled]

end Run

/-! ## Hosts with fixed answers -/

section Static

variable {itemId : String} {requests : List RollRequest} {params : RollParams}
  {actor : Actor} {host host' : StaticHost}

theorem castWith_static (item : Item) :
    (castWith item params actor host).2 =
      { host with dialogs := host.dialogs + if item.asksSlot params then 1 else 0 } := by
  unfold castWith
  split
  · rfl
  · rfl

/-- The preparation asks one question for a spell that needs a slot, and none otherwise. -/
theorem static_of_prepare {r : Except RollError Preparation}
    (h : prepare itemId requests params actor host = (r, host')) :
    host' = { host with
      dialogs := host.dialogs +
        if (actor.item? itemId).any (·.asksSlot params) then 1 else 0 } := by
  unfold prepare at h
  cases found : actor.item? itemId with
  | none =>
    simp only [found] at h
    obtain ⟨-, rfl⟩ := Prod.mk.inj h
    rfl
  | some item =>
    simp only [found] at h
    obtain ⟨-, rfl⟩ := Prod.mk.inj h
    exact castWith_static item

/-- The consumer is asked if the request needs it, and its answer does not change. -/
theorem askConsumer_static (item : Item) (r : ConsumptionRequest) :
    askConsumer item r host =
      (!Ledger.asksConsumer item r || host.allowConsumption,
        { host with
          consumed := host.consumed ++
            if Ledger.asksConsumer item r && host.allowConsumption then [item.id] else [] }) := by
  unfold askConsumer
  cases Ledger.asksConsumer item r with
  | false => simp
  | true =>
    change StaticHost.consume item host = _
    unfold StaticHost.consume
    obtain ⟨choice, allows, dialogs, consumed, placed⟩ := host
    cases allows with
    | false => simp
    | true => rfl

theorem static_of_refused {item : Item} {r : ConsumptionRequest}
    (h : askConsumer item r host = (false, host')) : host' = host := by
  rw [askConsumer_static] at h
  obtain ⟨answer, rfl⟩ := Prod.mk.inj h
  have refuses := (Bool.or_eq_false_iff.1 answer).2
  simp only [refuses, Bool.and_false, Bool.false_eq_true, if_false, List.append_nil]
  rw [← refuses]

end Static

end Tabletop
