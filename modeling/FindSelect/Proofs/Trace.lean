import Mathlib.Tactic.Common
import FindSelect.Trace

namespace FindSelect.Traced

variable {ε ε' α β : Type}

@[simp] theorem result_of (x : Except ε α) : (Traced.of x).result = x := rfl

@[simp] theorem result_throw (e : ε) : (throw e : Traced ε α).result = .error e := rfl

@[simp] theorem result_mapError (f : ε → ε') (x : Traced ε α) :
    (x.mapError f).result = x.result.mapError f := rfl

@[simp] theorem result_bind (x : Traced ε α) (f : α → Traced ε β) :
    (x >>= f).result = x.result.bind fun a => (f a).result := by
  change (x.andThen f).result = _
  unfold andThen
  cases x.result <;> rfl

@[simp] theorem events_of (x : Except ε α) : (Traced.of x).events = [] := rfl

@[simp] theorem events_pure (a : α) : (pure a : Traced ε α).events = [] := rfl

@[simp] theorem events_throw (e : ε) : (throw e : Traced ε α).events = [] := rfl

@[simp] theorem events_emit (event : Event) : (emit event : Traced ε Unit).events = [event] := rfl

@[simp] theorem events_mapError (f : ε → ε') (x : Traced ε α) :
    (x.mapError f).events = x.events := rfl

/-- What is reported of two steps is reported in their order. -/
theorem events_bind_of_ok {x : Traced ε α} {a : α} (h : x.result = .ok a) (f : α → Traced ε β) :
    (x >>= f).events = x.events ++ (f a).events := by
  change (x.andThen f).events = _
  rw [andThen, h]

/-- What follows a failure reports nothing. -/
theorem events_bind_of_error {x : Traced ε α} {e : ε} (h : x.result = .error e)
    (f : α → Traced ε β) : (x >>= f).events = x.events := by
  change (x.andThen f).events = _
  rw [andThen, h]

/-- A step that reports nothing adds no events, whether it is taken or not. -/
theorem events_bind_of_silent {x : Traced ε α} {f : α → Traced ε β}
    (hf : ∀ a, (f a).events = []) : (x >>= f).events = x.events := by
  cases h : x.result with
  | ok a => rw [events_bind_of_ok h, hf, List.append_nil]
  | error e => exact events_bind_of_error h f

/-- A sequence succeeds when its parts do. -/
theorem result_bind_eq_ok {x : Traced ε α} {f : α → Traced ε β} {b : β} :
    (x >>= f).result = .ok b ↔ ∃ a, x.result = .ok a ∧ (f a).result = .ok b := by
  rw [result_bind]
  cases x.result <;> simp [Except.bind]

/-- A sequence fails where its first part does, or its second one after that. -/
theorem result_bind_eq_error {x : Traced ε α} {f : α → Traced ε β} {e : ε} :
    (x >>= f).result = .error e ↔
      x.result = .error e ∨ ∃ a, x.result = .ok a ∧ (f a).result = .error e := by
  rw [result_bind]
  cases x.result <;> simp [Except.bind]

end FindSelect.Traced
