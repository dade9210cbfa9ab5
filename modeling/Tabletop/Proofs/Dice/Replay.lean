import Mathlib
import Tabletop.Proofs.Dice.Draws
import Tabletop.Proofs.Dice.Evaluation
/-!
# Replaying the faces of an evaluation

What an evaluation comes to depends on its roller only by the faces that the dice show. So two
rollers that show the same faces to the same dice give the same outcome, and a script that is made
of the faces of one evaluation repeats it. The faces are the log of a roller that keeps a record;
the record is in the order in which the dice are drawn, which is not that of the outcome, where a
rerolled die stands before the one that replaces it.
-/

namespace Tabletop

section

variable {σ τ : Type} [Roller σ] [Roller τ] {α β : Type}

theorem Draws.split {u u' : τ} {first second : List (Nat × Nat)}
    (h : Draws u (first ++ second) u') : ∃ v, Draws u first v ∧ Draws v second u' := by
  induction first generalizing u with
  | nil => exact ⟨u, .nil u, h⟩
  | cons die first ih =>
    cases h with
    | cons rest =>
      obtain ⟨v, before, behind⟩ := ih rest
      exact ⟨v, .cons before, behind⟩

/-- Some dice are drawn by the first computation, and the second one comes to the same wherever
these dice show the same faces. -/
def Follows (x : σ → α × σ) (y : τ → α × τ) : Prop :=
  ∀ s, ∃ drawn, Draws s drawn (x s).2 ∧ ∀ u u', Draws u drawn u' → y u = ((x s).1, u')

namespace Follows

theorem pure (a : α) : Follows (fun s : σ => (a, s)) (fun u : τ => (a, u)) := by
  intro s
  refine ⟨[], .nil s, fun u u' draws => ?_⟩
  cases draws
  rfl

theorem roll (faces : Nat) :
    Follows (fun s : σ => Roller.roll faces s) (fun u : τ => Roller.roll faces u) := by
  intro s
  have drawn : Draws s [(faces, (Roller.roll faces s).1)] (Roller.roll faces s).2 := .cons (.nil _)
  refine ⟨_, drawn, fun u u' draws => ?_⟩
  generalize shown : (Roller.roll faces s).1 = face at draws
  cases draws with
  | cons rest =>
    cases rest
    rfl

/-- Two computations follow two others step by step. -/
theorem andThen {x : σ → α × σ} {y : τ → α × τ} {f : α → σ → β × σ} {g : α → τ → β × τ}
    (h : Follows x y) (h' : ∀ a, Follows (f a) (g a)) :
    Follows (fun s => f (x s).1 (x s).2) (fun u => g (y u).1 (y u).2) := by
  intro s
  obtain ⟨first, draws, same⟩ := h s
  obtain ⟨second, draws', same'⟩ := h' (x s).1 (x s).2
  refine ⟨first ++ second, draws.append draws', fun u u' both => ?_⟩
  obtain ⟨v, before, behind⟩ := both.split
  simp only [same u v before]
  exact same' v u' behind

theorem bind {ε : Type} {x : ExceptT ε (StateM σ) α} {y : ExceptT ε (StateM τ) α}
    {f : α → ExceptT ε (StateM σ) β} {g : α → ExceptT ε (StateM τ) β}
    (h : Follows (perform x) (perform y)) (h' : ∀ a, Follows (perform (f a)) (perform (g a))) :
    Follows (perform (x >>= f)) (perform (y >>= g)) := by
  intro s
  obtain ⟨first, draws, same⟩ := h s
  rcases done : perform x s with ⟨e | a, v⟩
  · rw [done] at draws same
    rw [perform_bind_of_error done]
    exact ⟨first, draws, fun u u' again => perform_bind_of_error (same u u' again) g⟩
  · rw [done] at draws same
    obtain ⟨second, draws', same'⟩ := h' a v
    rw [perform_bind_of_ok done]
    refine ⟨first ++ second, draws.append draws', fun u u' both => ?_⟩
    obtain ⟨w, before, behind⟩ := both.split
    rw [perform_bind_of_ok (same u w before)]
    exact same' w u' behind

end Follows

/-! ## The dice of one term -/

theorem rollMany_follows (faces number : Nat) :
    Follows (fun s : σ => rollMany faces number s) (fun u : τ => rollMany faces number u) := by
  induction number with
  | zero => exact .pure _
  | succ number ih =>
    exact (Follows.roll faces).andThen fun value => ih.andThen fun rest =>
      .pure (⟨value, true⟩ :: rest)

theorem rerollBelow_follows (faces bound : Nat) (dice : List DieResult) :
    Follows (fun s : σ => rerollBelow faces bound dice s)
      (fun u : τ => rerollBelow faces bound dice u) := by
  induction dice with
  | nil => exact .pure _
  | cons die dice ih =>
    simp only [rerollBelow]
    split
    · exact (Follows.roll faces).andThen fun value => ih.andThen fun rest =>
        .pure (⟨die.value, false⟩ :: ⟨value, true⟩ :: rest)
    · exact ih.andThen fun rest => .pure (die :: rest)

theorem DieModifier.apply_follows (faces : Nat) (dice : List DieResult) (m : DieModifier) :
    Follows (fun s : σ => m.apply faces dice s) (fun u : τ => m.apply faces dice u) := by
  cases m with
  | rerollBelow bound => exact rerollBelow_follows faces bound dice
  | keepHighest count => exact .pure _
  | keepLowest count => exact .pure _
  | minimum least => exact .pure _

theorem applyModifiers_follows (faces : Nat) (ms : List DieModifier) (dice : List DieResult) :
    Follows (fun s : σ => applyModifiers faces ms dice s)
      (fun u : τ => applyModifiers faces ms dice u) := by
  induction ms generalizing dice with
  | nil => exact .pure _
  | cons m ms ih => exact (m.apply_follows faces dice).andThen fun dice => ih dice

theorem DiceTerm.roll_follows (d : DiceTerm) :
    Follows (perform (d.roll : Rolling σ _)) (perform (d.roll : Rolling τ _)) := by
  unfold DiceTerm.roll
  by_cases many : maxDice < d.number
  · rw [if_pos many, if_pos many]
    exact .pure _
  · rw [if_neg many, if_neg many]
    exact (rollMany_follows d.faces d.number).andThen fun dice =>
      (applyModifiers_follows d.faces d.modifiers dice).andThen fun dice =>
        .pure (Except.ok (DieOutcome.mk d.faces dice))

/-! ## Evaluations -/

mutual

theorem Term.evaluate_follows (t : Term) :
    Follows (perform (t.evaluate : Rolling σ _)) (perform (t.evaluate : Rolling τ _)) := by
  match t with
  | .dice d => exact d.roll_follows.bind fun _ => .pure _
  | .number n => exact .pure _
  | .variable path => exact .pure _
  | .group inner => exact Formula.evaluateFrom_follows inner Partial.start
  | .call function argument =>
    exact (Formula.evaluateFrom_follows argument Partial.start).bind fun _ => .pure _
  | .operator op => exact .pure _

theorem Formula.evaluateFrom_follows (ts : List Term) (p : Partial) :
    Follows (perform (Formula.evaluateFrom p ts : Rolling σ _))
      (perform (Formula.evaluateFrom p ts : Rolling τ _)) := by
  match ts with
  | [] => exact .pure _
  | t :: ts =>
    rcases t.operator_or_operand with ⟨op, rfl⟩ | operand
    · exact Formula.evaluateFrom_follows ts { p with pending := some op }
    · rw [Formula.evaluateFrom_operand operand, Formula.evaluateFrom_operand operand]
      refine t.evaluate_follows.bind fun first => ?_
      refine Follows.bind (x := liftM (p.push first.1)) (.pure _) fun q => ?_
      exact (Formula.evaluateFrom_follows ts q).bind fun _ => .pure _

end

/-- An evaluation comes to the same with every roller that shows the same faces. -/
theorem Formula.evaluate_follows (f : Formula) (b : Bindings) :
    Follows (perform (Formula.evaluate f b : Rolling σ _))
      (perform (Formula.evaluate f b : Rolling τ _)) := by
  refine Follows.bind (x := liftM (Formula.substitute b f)) (.pure _) fun g => ?_
  exact (Formula.evaluateFrom_follows g Partial.start).bind fun _ => .pure _

theorem evaluateText_follows (text : String) (b : Bindings) :
    Follows (perform (evaluateText text b : Rolling σ _))
      (perform (evaluateText text b : Rolling τ _)) :=
  Follows.bind (x := liftM (Formula.parse text)) (.pure _) fun f => Formula.evaluate_follows f b

/-! ## Sequences of evaluations -/

/-- Evaluates texts one after the other on one source. A failed evaluation does not stop the ones
behind it, and the dice that it rolled stay rolled. -/
def evaluateEach (evaluate : String → Bindings → Rolling σ EvaluatedRoll) :
    List (String × Bindings) → σ → List (Except FormulaError EvaluatedRoll) × σ
  | [], s => ([], s)
  | (text, b) :: calls, s =>
    let (result, s) := perform (evaluate text b) s
    let (results, s) := evaluateEach evaluate calls s
    (result :: results, s)

theorem evaluateEach_follows (calls : List (String × Bindings)) :
    Follows (fun s : σ => evaluateEach evaluateText calls s)
      (fun u : τ => evaluateEach evaluateText calls u) := by
  induction calls with
  | nil => exact .pure _
  | cons call calls ih =>
    exact (evaluateText_follows call.1 call.2).andThen fun result => ih.andThen fun results =>
      .pure (result :: results)

/-! ## The record of a roller -/

/-- A roller with the dice that it rolled, each with its number of faces and the face shown. -/
structure Recorder (σ : Type) where
  roller : σ
  shown : List (Nat × Nat)

instance : Roller (Recorder σ) where
  roll faces r :=
    let (value, roller) := Roller.roll faces r.roller
    (value, ⟨roller, r.shown ++ [(faces, value)]⟩)

theorem Draws.shown {r r' : Recorder σ} {drawn : List (Nat × Nat)} (h : Draws r drawn r') :
    r'.shown = r.shown ++ drawn := by
  induction h with
  | nil r => exact (List.append_nil _).symm
  | cons rest ih =>
    rw [ih]
    exact List.append_assoc _ _ _

theorem Draws.roller {r r' : Recorder σ} {drawn : List (Nat × Nat)} (h : Draws r drawn r') :
    Draws r.roller drawn r'.roller := by
  induction h with
  | nil r => exact .nil _
  | cons rest ih => exact .cons ih

/-- Every die shows one of its faces. -/
def ShowsFaces (drawn : List (Nat × Nat)) : Prop := ∀ die ∈ drawn, 1 ≤ die.2 ∧ die.2 ≤ die.1

/-- A script shows the faces that it consists of. -/
theorem draws_script {drawn : List (Nat × Nat)} (h : ShowsFaces drawn) (rest : List Nat) :
    Draws (⟨drawn.map (·.2) ++ rest⟩ : Script) drawn ⟨rest⟩ := by
  induction drawn with
  | nil => exact .nil _
  | cons die drawn ih =>
    obtain ⟨⟨positive, bounded⟩, others⟩ := List.forall_mem_cons.1 h
    let script : Script := ⟨die.2 :: (drawn.map (·.2) ++ rest)⟩
    have value : (Roller.roll die.1 script).1 = die.2 := Script.clampFace_of_le positive bounded
    have draws : Draws script ((die.1, (Roller.roll die.1 script).1) :: drawn) ⟨rest⟩ :=
      .cons (ih others)
    rw [value] at draws
    exact draws

/-- A record does not change what a computation comes to, and a script of the faces in it replays
the computation to its end. -/
theorem Follows.replay {x : Recorder σ → α × Recorder σ} {y : σ → α × σ} {z : Script → α × Script}
    (unrecorded : Follows x y) (scripted : Follows x z) (s : σ) :
    ∃ shown, x ⟨s, []⟩ = ((y s).1, ⟨(y s).2, shown⟩) ∧
      (ShowsFaces shown → z ⟨shown.map (·.2)⟩ = ((y s).1, ⟨[]⟩)) := by
  obtain ⟨drawn, draws, same⟩ := unrecorded ⟨s, []⟩
  obtain ⟨drawn', draws', replayed⟩ := scripted ⟨s, []⟩
  obtain rfl : drawn = drawn' := draws.shown.symm.trans draws'.shown
  have plain : y s = ((x ⟨s, []⟩).1, (x ⟨s, []⟩).2.roller) := same s _ draws.roller
  refine ⟨drawn, ?_, fun faces => ?_⟩
  · rw [plain]
    have shown : (x ⟨s, []⟩).2.shown = drawn := draws.shown
    rw [← shown]
  · have script := draws_script faces []
    rw [List.append_nil] at script
    rw [plain, replayed _ _ script]

theorem DrawsMany.shown {r r' : Recorder σ} {count : Nat} (h : DrawsMany r count r') :
    r'.shown.length = r.shown.length + count := by
  obtain ⟨drawn, draws, rfl⟩ := h
  rw [draws.shown, List.length_append]

theorem evaluateEach_drawsMany {calls : List (String × Bindings)} {s s' : σ}
    {rolls : List EvaluatedRoll}
    (h : evaluateEach evaluateText calls s = (rolls.map .ok, s')) :
    DrawsMany s (sumOf (rolls.map (·.dieCount))) s' := by
  induction calls generalizing s rolls with
  | nil =>
    obtain ⟨none, rfl⟩ := Prod.mk.inj h
    obtain rfl := List.map_eq_nil_iff.1 none.symm
    exact .zero _
  | cons call calls ih =>
    obtain ⟨results, rfl⟩ := Prod.mk.inj h
    obtain ⟨roll, rest, rfl, first, others⟩ := List.map_eq_cons_iff.1 results.symm
    have rolled : perform (evaluateText call.1 call.2) s =
        (.ok roll, (perform (evaluateText call.1 call.2) s).2) := Prod.ext first.symm rfl
    exact (draws_of_evaluateText rolled).trans (ih (Prod.ext others.symm rfl))

end

/-- A scripted source goes through its script and counts the calls. -/
theorem evaluateEach_scripted (calls : List (String × Bindings)) (s : ScriptedSource) :
    evaluateEach ScriptedSource.evaluate calls s =
      ((evaluateEach evaluateText calls s.script).1,
        ⟨(evaluateEach evaluateText calls s.script).2, s.evaluations + calls.length⟩) := by
  induction calls generalizing s with
  | nil => rfl
  | cons call calls ih =>
    have first : perform (ScriptedSource.evaluate call.1 call.2) s =
        ((perform (evaluateText call.1 call.2) s.script).1,
          ⟨(perform (evaluateText call.1 call.2) s.script).2, s.evaluations + 1⟩) := rfl
    rw [evaluateEach, first]
    simp only [ih, evaluateEach, List.length_cons]
    rw [Nat.add_right_comm, Nat.add_assoc]

/-- The faces that a roller shows during an evaluation are as many as the outcome has dice, and a
script of them, in the order in which they were shown, repeats the evaluation and is then empty. The
same holds of evaluations one after the other, also if some of them fail. -/
theorem evaluate_replays {σ : Type} [Roller σ] :
    (∀ (f : Formula) (b : Bindings) (s s' : σ) (roll : EvaluatedRoll),
      perform (Formula.evaluate f b) s = (.ok roll, s') →
      ∃ shown, perform (Formula.evaluate f b) (⟨s, []⟩ : Recorder σ) = (.ok roll, ⟨s', shown⟩) ∧
        shown.length = roll.dieCount ∧
        (ShowsFaces shown →
          perform (Formula.evaluate f b) (⟨shown.map (·.2)⟩ : Script) = (.ok roll, ⟨[]⟩))) ∧
    ∀ (calls : List (String × Bindings)) (s s' : σ)
      (results : List (Except FormulaError EvaluatedRoll)),
      evaluateEach evaluateText calls s = (results, s') →
      ∃ shown, evaluateEach evaluateText calls (⟨s, []⟩ : Recorder σ) = (results, ⟨s', shown⟩) ∧
        (∀ rolls : List EvaluatedRoll, results = rolls.map .ok →
          shown.length = sumOf (rolls.map (·.dieCount))) ∧
        (ShowsFaces shown →
          evaluateEach ScriptedSource.evaluate calls (.ofFaces (shown.map (·.2))) =
            (results, ⟨⟨[]⟩, calls.length⟩)) := by
  constructor
  · intro f b s s' roll h
    obtain ⟨shown, recorded, replayed⟩ :=
      (Formula.evaluate_follows f b).replay (Formula.evaluate_follows f b) s
    rw [h] at recorded replayed
    have count := (Formula.draws_of_evaluate recorded).shown
    exact ⟨shown, recorded, count.trans (Nat.zero_add _), replayed⟩
  · intro calls s s' results h
    obtain ⟨shown, recorded, replayed⟩ :=
      (evaluateEach_follows calls).replay (evaluateEach_follows calls) s
    rw [h] at recorded replayed
    refine ⟨shown, recorded, fun rolls all => ?_, fun faces => ?_⟩
    · subst all
      exact (evaluateEach_drawsMany recorded).shown.trans (Nat.zero_add _)
    · have script := evaluateEach_scripted calls (.ofFaces (shown.map (·.2)))
      rw [script]
      simp only [ScriptedSource.ofFaces, replayed faces, Nat.zero_add]

/-- Two dice, of which the low ones are rerolled, and rerolled again. -/
def twiceRerolled : Formula := [.dice ⟨2, 6, [.rerollBelow 3, .rerollBelow 3, .minimum 5]⟩]

/-- What is recorded of them: three of the five dice were rerolled, and one was raised. -/
def fiveDice : EvaluatedRoll :=
  ⟨"2d6r<3r<3min5", 11, [⟨6, [⟨1, false⟩, ⟨2, false⟩, ⟨5, true⟩, ⟨2, false⟩, ⟨6, true⟩]⟩]⟩

/-- The faces are replayed in the order in which they were shown: the `4` is the last of the five,
and the `9` in the queue was shown as a `6`. -/
theorem twiceRerolled_replays :
    perform (Formula.evaluate twiceRerolled ∅) (⟨[1, 2, 2, 9, 4, 3]⟩ : Script) =
      (.ok fiveDice, ⟨[3]⟩) ∧
    (∃ shown, shown.map (·.2) = [1, 2, 2, 6, 4] ∧ shown.length = fiveDice.dieCount ∧
      ShowsFaces shown ∧
      perform (Formula.evaluate twiceRerolled ∅) (⟨shown.map (·.2)⟩ : Script) =
        (.ok fiveDice, ⟨[]⟩)) ∧
    ∃ shown, shown.map (·.2) = [1, 2, 2, 6, 4, 3] ∧ ShowsFaces shown ∧
      evaluateEach ScriptedSource.evaluate [("2d6r<3r<3min5", ∅), ("1d4 / 0", ∅)]
        (.ofFaces (shown.map (·.2))) = ([.ok fiveDice, .error .divisionByZero], ⟨⟨[]⟩, 2⟩) := by
  have rolled : perform (Formula.evaluate twiceRerolled ∅) (⟨[1, 2, 2, 9, 4, 3]⟩ : Script) =
      (.ok fiveDice, ⟨[3]⟩) := Prod.ext (eq_ok_of_toOption (by decide +kernel)) rfl
  refine ⟨rolled, ?_, ?_⟩
  · obtain ⟨shown, recorded, count, replayed⟩ := evaluate_replays.1 twiceRerolled ∅ _ _ _ rolled
    obtain rfl : shown = [(6, 1), (6, 2), (6, 2), (6, 6), (6, 4)] :=
      (congrArg (·.2.shown) recorded).symm.trans rfl
    have faces : ShowsFaces [(6, 1), (6, 2), (6, 2), (6, 6), (6, 4)] := by
      unfold ShowsFaces
      decide
    exact ⟨_, rfl, count, faces, replayed faces⟩
  · have parsed : Formula.parse "2d6r<3r<3min5" = .ok twiceRerolled := by cbv
    have parsed' : Formula.parse "1d4 / 0" =
        .ok [.dice ⟨1, 4, []⟩, .operator .divide, .number 0] := by cbv
    have each : evaluateEach evaluateText [("2d6r<3r<3min5", ∅), ("1d4 / 0", ∅)]
        (⟨[1, 2, 2, 9, 4, 3]⟩ : Script) =
        ([.ok fiveDice, .error .divisionByZero], ⟨[]⟩) := by
      simp only [evaluateEach, perform_evaluateText parsed, perform_evaluateText parsed', rolled]
      rfl
    obtain ⟨shown, recorded, -, replayed⟩ := evaluate_replays.2 _ _ _ _ each
    simp only [evaluateEach, perform_evaluateText parsed, perform_evaluateText parsed']
      at recorded
    obtain rfl : shown = [(6, 1), (6, 2), (6, 2), (6, 6), (6, 4), (4, 3)] :=
      (congrArg (·.2.shown) recorded).symm.trans rfl
    have faces : ShowsFaces [(6, 1), (6, 2), (6, 2), (6, 6), (6, 4), (4, 3)] := by
      unfold ShowsFaces
      decide
    exact ⟨_, rfl, faces, replayed faces⟩

end Tabletop
