import Tabletop.Run.Context
/-!
# Performing computations

A computation with errors and a state, performed from one state, yields a value or an error, and
leaves a state behind. The equations below take it apart at its binds; they hold for evaluations,
for the resolution of steps, and for whole runs alike.
-/

namespace Tabletop

variable {ε s α β : Type}

theorem bind_eq_ok_iff {x : Except ε α} {f : α → Except ε β} {b : β} :
    (x >>= f) = .ok b ↔ ∃ a, x = .ok a ∧ f a = .ok b := by
  constructor
  · intro h
    cases x with
    | error e => cases h
    | ok a => exact ⟨a, rfl, h⟩
  · rintro ⟨a, rfl, h⟩
    exact h

theorem bind_check_eq_ok_iff {check : Except ε Unit} {rest : Except ε α} {a : α} :
    (check >>= fun _ => rest) = .ok a ↔ check = .ok () ∧ rest = .ok a := by
  rw [bind_eq_ok_iff]
  exact ⟨fun ⟨⟨⟩, checked, h⟩ => ⟨checked, h⟩, fun ⟨checked, h⟩ => ⟨(), checked, h⟩⟩

theorem bind_eq_error_iff {x : Except ε α} {f : α → Except ε β} {e : ε} :
    (x >>= f) = .error e ↔ x = .error e ∨ ∃ a, x = .ok a ∧ f a = .error e := by
  constructor
  · intro h
    cases x with
    | error e' =>
      cases h
      exact Or.inl rfl
    | ok a => exact Or.inr ⟨a, rfl, h⟩
  · rintro (rfl | ⟨a, rfl, h⟩)
    · rfl
    · exact h

theorem mapError_eq_ok_iff {ε' : Type} {x : Except ε α} {f : ε → ε'} {a : α} :
    x.mapError f = .ok a ↔ x = .ok a := by
  cases x with
  | error e =>
    constructor
    · rintro ⟨⟩
    · rintro ⟨⟩
  | ok b =>
    constructor
    · rintro ⟨⟩
      rfl
    · rintro ⟨⟩
      rfl

theorem eq_ok_of_toOption {x : Except ε α} {a : α} (h : x.toOption = some a) : x = .ok a := by
  cases x with
  | error e => cases h
  | ok b =>
    cases h
    rfl

/-- What a computation yields from a state, and the state that it leaves behind. -/
def perform (x : ExceptT ε (StateM s) α) (t : s) : Except ε α × s := (ExceptT.run x).run t

@[simp]
theorem perform_pure (a : α) (t : s) :
    perform (pure a : ExceptT ε (StateM s) α) t = (.ok a, t) := rfl

@[simp]
theorem perform_throw (e : ε) (t : s) :
    perform (throw e : ExceptT ε (StateM s) α) t = (.error e, t) := rfl

@[simp]
theorem perform_lift (x : Except ε α) (t : s) :
    perform (liftM x : ExceptT ε (StateM s) α) t = (x, t) := rfl

@[simp]
theorem perform_get (t : s) : perform (get : ExceptT ε (StateM s) s) t = (.ok t, t) := rfl

@[simp]
theorem perform_modifyGet (f : s → α × s) (t : s) :
    perform (modifyGet f : ExceptT ε (StateM s) α) t = (.ok (f t).1, (f t).2) := rfl

theorem perform_bind (x : ExceptT ε (StateM s) α) (f : α → ExceptT ε (StateM s) β) (t : s) :
    perform (x >>= f) t =
      match perform x t with
      | (.ok a, u) => perform (f a) u
      | (.error e, u) => (.error e, u) := by
  unfold perform
  rw [ExceptT.run_bind, StateT.run_bind]
  rcases (ExceptT.run x).run t with ⟨e | a, u⟩
  · rfl
  · rfl

theorem perform_bind_of_ok {x : ExceptT ε (StateM s) α} {t u : s} {a : α}
    (h : perform x t = (.ok a, u)) (f : α → ExceptT ε (StateM s) β) :
    perform (x >>= f) t = perform (f a) u := by
  rw [perform_bind, h]

theorem perform_bind_of_error {x : ExceptT ε (StateM s) α} {t u : s} {e : ε}
    (h : perform x t = (.error e, u)) (f : α → ExceptT ε (StateM s) β) :
    perform (x >>= f) t = (.error e, u) := by
  rw [perform_bind, h]

/-- A sequence succeeds exactly if both of its parts do. -/
theorem perform_bind_ok_iff {x : ExceptT ε (StateM s) α} {f : α → ExceptT ε (StateM s) β}
    {t t' : s} {b : β} :
    perform (x >>= f) t = (.ok b, t') ↔
      ∃ a u, perform x t = (.ok a, u) ∧ perform (f a) u = (.ok b, t') := by
  constructor
  · intro h
    rcases hx : perform x t with ⟨e | a, u⟩
    · rw [perform_bind_of_error hx] at h
      cases h
    · rw [perform_bind_of_ok hx] at h
      exact ⟨a, u, rfl, h⟩
  · rintro ⟨a, u, hx, h⟩
    rw [perform_bind_of_ok hx, h]

/-- A sequence fails in its first part, or in its second part after the first one succeeded. -/
theorem perform_bind_error_iff {x : ExceptT ε (StateM s) α} {f : α → ExceptT ε (StateM s) β}
    {t t' : s} {e : ε} :
    perform (x >>= f) t = (.error e, t') ↔
      perform x t = (.error e, t') ∨
        ∃ a u, perform x t = (.ok a, u) ∧ perform (f a) u = (.error e, t') := by
  constructor
  · intro h
    rcases hx : perform x t with ⟨e' | a, u⟩
    · rw [perform_bind_of_error hx] at h
      cases h
      exact Or.inl rfl
    · rw [perform_bind_of_ok hx] at h
      exact Or.inr ⟨a, u, rfl, h⟩
  · rintro (hx | ⟨a, u, hx, h⟩)
    · exact perform_bind_of_error hx f
    · rw [perform_bind_of_ok hx, h]

theorem perform_map (g : α → β) (x : ExceptT ε (StateM s) α) (t : s) :
    perform (g <$> x) t = ((perform x t).1.map g, (perform x t).2) := by
  change perform (x >>= fun a => pure (g a)) t = _
  rw [perform_bind]
  rcases perform x t with ⟨e | a, u⟩
  · rfl
  · rfl

/-- The dice of a roll stay rolled when its error gives up the run. -/
theorem perform_rolling {σ : Type} (x : Rolling σ α) (t : σ) :
    perform (rolling x) t = ((perform x t).1.mapError RollError.formula, (perform x t).2) := by
  rfl

end Tabletop
