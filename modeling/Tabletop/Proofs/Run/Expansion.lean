import Mathlib
import Tabletop.Proofs.Run.CritExtra
/-!
# Plans in full

The plan of a run is either refused, for the first damage line that the item does not have, or it
holds what each request becomes, request by request. That the ammunition goes off once is a matter
of place: its lines stand behind the first request for damage. So a plan can be made in pieces, and
all that a piece has to know of the ones before it is whether the ammunition is gone.
-/

namespace Tabletop

/-- The damage lines of the item that a request asks for by number, in the order of the plan. -/
def RollRequest.askedLines (item : Item) : RollRequest → List Nat
  | .damage args => Plan.selected item.damage.parts.length args.index
  | .critExtra (some index) => [index.toNat]
  | _ => []

/-- The steps of a request by itself. The lines of a request for damage are numbered by place, as
the first of them is versatile if the request says so. -/
def RollRequest.ownSteps (item : Item) (versatile : Bool) : RollRequest → List Step
  | .damage args =>
    (Plan.selected item.damage.parts.length args.index).zipIdx.map fun (line, place) =>
      .damage ⟨line, (args.versatile && place == 0) || (versatile && line == 0), args.crit,
        args.context, .primary⟩
  | request => [.request request]

/-- The steps of the ammunition, if the request fires it. -/
def RollRequest.firedSteps (ammo : Option Item) : RollRequest → List Step
  | .damage args => ammo.elim [] (Plan.ammoSteps · args)
  | _ => []

namespace Plan

variable {item : Item}

/-- The damage lines that are looked up before the first die, in the order of the lookups. -/
def checkedLines (item : Item) (requests : List RollRequest) : List Nat :=
  item.crit.extraDamage.toList ++ requests.flatMap (·.askedLines item)

/-- What becomes of the requests, each with its place: only one with no request for damage before it
fires the ammunition. -/
def planned (item : Item) (ammo : Option Item) (versatile : Bool) (requests : List RollRequest) :
    List Step :=
  requests.zipIdx.flatMap fun (request, place) =>
    request.ownSteps item versatile ++
      if (requests.take place).any (·.isDamage) then [] else request.firedSteps ammo

/-- Nothing if the item has all of the lines, else a refusal of the first one that it has not. -/
def checkLines (item : Item) (lines : List Nat) : Except RollError Unit :=
  match lines.find? (item.damage.parts.length ≤ ·) with
  | some line => .error (.damageIndexOutOfRange item.name line item.damage.parts.length)
  | none => .ok ()

/-! ## Checks in a row -/

theorem checkLines_cons (line : Nat) (lines : List Nat) :
    checkLines item (line :: lines) =
      (checkIndex item line >>= fun _ => checkLines item lines) := by
  unfold checkLines checkIndex
  by_cases inRange : line < item.damage.parts.length
  · rw [if_pos inRange, List.find?_cons_of_neg (by simpa using inRange)]
    rfl
  · rw [if_neg inRange, List.find?_cons_of_pos (by simpa using inRange)]
    rfl

theorem checkLines_append (lines more : List Nat) :
    checkLines item (lines ++ more) =
      (checkLines item lines >>= fun _ => checkLines item more) := by
  induction lines with
  | nil => rfl
  | cons line lines ih => rw [List.cons_append, checkLines_cons, checkLines_cons, ih, bind_assoc]

/-! ## Requests one by one -/

/-- The place of a line counts from the first one of the request. -/
theorem primarySteps_eq (item : Item) (args : DamageArgs) (versatile : Bool) (place : Nat)
    (lines : List Nat) :
    primarySteps item args versatile (place == 0) lines = do
      checkLines item lines
      return (lines.zipIdx place).map fun (line, place) =>
        .damage ⟨line, (args.versatile && place == 0) || (versatile && line == 0), args.crit,
          args.context, .primary⟩ := by
  induction lines generalizing place with
  | nil => rfl
  | cons line lines ih =>
    have later : (place + 1 == 0) = false := rfl
    rw [primarySteps, checkLines_cons, ← later, ih]
    simp only [bind_assoc, pure_bind, List.zipIdx_cons, List.map_cons]

theorem planned_cons (ammo : Option Item) (versatile : Bool) (request : RollRequest)
    (requests : List RollRequest) :
    planned item ammo versatile (request :: requests) =
      request.ownSteps item versatile ++ request.firedSteps ammo ++
        planned item (if request.isDamage then none else ammo) versatile requests := by
  have unfired (later : RollRequest) : later.firedSteps none = [] := by
    cases later with
    | _ => rfl
  unfold planned
  rw [List.zipIdx_cons, Nat.zero_add, List.zipIdx_succ, List.flatMap_cons, List.flatMap_map]
  simp only [List.take_zero, List.any_nil, Bool.false_eq_true, if_false, List.take_succ_cons,
    List.any_cons]
  congr 1
  refine List.flatMap_congr fun (later, place) _ => ?_
  by_cases damage : request.isDamage = true
  · simp [damage, unfired]
  · simp [damage]

theorem requestSteps_eq (ammo : Option Item) (versatile : Bool) (requests : List RollRequest) :
    requestSteps item versatile ammo requests = do
      checkLines item (requests.flatMap (·.askedLines item))
      return planned item ammo versatile requests := by
  -- along the recursion of the expansion, which drops the ammunition at the first damage request
  fun_induction requestSteps item versatile ammo requests with
  | case1 ammo => rfl
  | case2 ammo args requests ih =>
    have primary := primarySteps_eq item args versatile 0
      (selected item.damage.parts.length args.index)
    rw [beq_self_eq_true] at primary
    rw [ih, primary, planned_cons, List.flatMap_cons, checkLines_append]
    simp only [bind_assoc, pure_bind]
    rfl
  | case3 ammo index requests ih =>
    have single : checkLines item [index.toNat] = checkIndex item index.toNat := by
      rw [checkLines_cons]
      exact bind_pure _
    rw [ih, planned_cons, List.flatMap_cons, checkLines_append, RollRequest.askedLines, single]
    simp only [bind_assoc, pure_bind]
    rfl
  | case4 ammo request requests notDamage notIndexed ih =>
    have alone : request.askedLines item = [] ∧ request.isDamage = false ∧
        request.ownSteps item versatile = [.request request] ∧ request.firedSteps ammo = [] := by
      cases request with
      | damage args => exact absurd rfl (notDamage args)
      | critExtra index =>
        cases index with
        | none => exact ⟨rfl, rfl, rfl, rfl⟩
        | some index => exact absurd rfl (notIndexed index)
      | _ => exact ⟨rfl, rfl, rfl, rfl⟩
    obtain ⟨unasked, notFirst, own, unfired⟩ := alone
    rw [ih, planned_cons, List.flatMap_cons, unasked, notFirst, own, unfired]
    simp only [bind_assoc, pure_bind]
    rfl

/-! ## Whole plans -/

theorem expand_eq_checkLines (ammo : Option Item) (versatile : Bool) (requests : List RollRequest) :
    expand requests item ammo versatile =
      (checkLines item (checkedLines item requests) >>= fun _ =>
        return planned item ammo versatile requests) := by
  unfold expand checkedLines
  rw [requestSteps_eq, checkLines_append, bind_assoc]
  cases item.crit.extraDamage with
  | none => rfl
  | some line =>
    rw [Option.toList_some, checkLines_cons, bind_assoc]
    rfl

theorem planned_append (ammo : Option Item) (versatile : Bool) (first second : List RollRequest) :
    planned item ammo versatile (first ++ second) =
      planned item ammo versatile first ++
        planned item (if first.any (·.isDamage) then none else ammo) versatile second := by
  induction first generalizing ammo with
  | nil => rfl
  | cons request first ih =>
    rw [List.cons_append, planned_cons, planned_cons, ih, List.any_cons, List.append_assoc]
    by_cases damage : request.isDamage = true
    · simp only [damage, if_true, Bool.true_or, ite_self, List.append_assoc]
    · simp only [damage, Bool.false_eq_true, if_false, Bool.false_or, List.append_assoc]

/-- The extra damage line of the item is checked for each piece of a plan, to no effect but in the
first one. -/
theorem checkLines_twice (extra lines more : List Nat) :
    (checkLines item (extra ++ lines) >>= fun _ => checkLines item (extra ++ more)) =
      checkLines item (extra ++ (lines ++ more)) := by
  simp only [checkLines_append, bind_assoc]
  cases checkLines item extra with
  | error e => rfl
  | ok u => rfl

theorem expand_eq (ammo : Option Item) (versatile : Bool) (requests : List RollRequest) :
    expand requests item ammo versatile =
      match (checkedLines item requests).find? (item.damage.parts.length ≤ ·) with
      | some line => .error (.damageIndexOutOfRange item.name line item.damage.parts.length)
      | none => .ok (planned item ammo versatile requests) := by
  rw [expand_eq_checkLines, checkLines]
  cases (checkedLines item requests).find? (item.damage.parts.length ≤ ·) with
  | none => rfl
  | some line => rfl

theorem expand_refused_iff (ammo : Option Item) (versatile : Bool) (requests : List RollRequest) :
    (∃ name line lines,
        expand requests item ammo versatile = .error (.damageIndexOutOfRange name line lines)) ↔
      ∃ line ∈ checkedLines item requests, item.damage.parts.length ≤ line := by
  rw [expand_eq]
  cases found : (checkedLines item requests).find? (item.damage.parts.length ≤ ·) with
  | none =>
    refine iff_of_false (by rintro ⟨_, _, _, ⟨⟩⟩) ?_
    simpa using found
  | some line =>
    refine iff_of_true ⟨_, _, _, rfl⟩ ⟨line, List.mem_of_find?_eq_some found, ?_⟩
    simpa using List.find?_some found

theorem exists_checkedLines_iff {requests : List RollRequest} {p : Nat → Prop} :
    (∃ line ∈ checkedLines item requests, p line) ↔
      (∃ line ∈ item.crit.extraDamage, p line) ∨
        ∃ request ∈ requests, ∃ line ∈ request.askedLines item, p line := by
  simp only [checkedLines, List.mem_append, List.mem_flatMap, Option.mem_toList, or_and_right,
    exists_or]
  refine or_congr_right ⟨?_, ?_⟩
  · rintro ⟨line, ⟨request, mem, asked⟩, holds⟩
    exact ⟨request, mem, line, asked, holds⟩
  · rintro ⟨request, mem, line, asked, holds⟩
    exact ⟨line, ⟨request, mem, asked⟩, holds⟩

theorem expand_append (ammo : Option Item) (versatile : Bool) (first second : List RollRequest) :
    expand (first ++ second) item ammo versatile = do
      let steps ← expand first item ammo versatile
      let more ← expand second item (if first.any (·.isDamage) then none else ammo) versatile
      return steps ++ more := by
  simp only [expand_eq_checkLines, planned_append, checkedLines, List.flatMap_append, bind_assoc,
    pure_bind]
  rw [← checkLines_twice, bind_assoc]

/-- A plan is refused for the first damage line that the item does not have, be it its own extra
damage line or one that a request selects or names, and is else made of what the requests become,
each at its place. A plan of requests behind others is the plan of these and that of the others,
without the ammunition if a request for damage stands before. -/
theorem expand_plans (item : Item) (ammo : Option Item) (versatile : Bool) :
    (∀ requests, expand requests item ammo versatile =
      match (checkedLines item requests).find? (item.damage.parts.length ≤ ·) with
      | some line => .error (.damageIndexOutOfRange item.name line item.damage.parts.length)
      | none => .ok (planned item ammo versatile requests)) ∧
    (∀ requests,
      (∃ name line lines,
        expand requests item ammo versatile = .error (.damageIndexOutOfRange name line lines)) ↔
      (∃ line ∈ item.crit.extraDamage, item.damage.parts.length ≤ line) ∨
        ∃ request ∈ requests, ∃ line ∈ request.askedLines item,
          item.damage.parts.length ≤ line) ∧
    ∀ first second, expand (first ++ second) item ammo versatile = do
      let steps ← expand first item ammo versatile
      let more ← expand second item (if first.any (·.isDamage) then none else ammo) versatile
      return steps ++ more :=
  ⟨expand_eq ammo versatile,
    fun requests => (expand_refused_iff ammo versatile requests).trans exists_checkedLines_iff,
    expand_append ammo versatile⟩

end Plan

end Tabletop
