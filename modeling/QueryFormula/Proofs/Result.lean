/-!
# Results that are not errors

A step after a step is a success just when both are.
-/

namespace QueryFormula

variable {ε α β : Type}

theorem bind_eq_ok_iff {first : Except ε α} {next : α → Except ε β} {b : β} :
    (first >>= next) = .ok b ↔ ∃ a, first = .ok a ∧ next a = .ok b := by
  constructor
  · intro h
    cases first with
    | error e => cases h
    | ok a => exact ⟨a, rfl, h⟩
  · rintro ⟨a, rfl, h⟩
    exact h

theorem bind_eq_error_iff {first : Except ε α} {next : α → Except ε β} {e : ε} :
    (first >>= next) = .error e ↔ first = .error e ∨ ∃ a, first = .ok a ∧ next a = .error e := by
  constructor
  · intro h
    cases first with
    | error e' => exact .inl (congrArg Except.error (Except.error.inj h))
    | ok a => exact .inr ⟨a, rfl, h⟩
  · rintro (rfl | ⟨a, rfl, h⟩)
    · rfl
    · exact h

theorem pure_eq_ok_iff {a b : α} : (pure a : Except ε α) = .ok b ↔ a = b :=
  ⟨Except.ok.inj, congrArg Except.ok⟩

/-- A computation that is seen to succeed has a result. -/
theorem exists_ok_of_any {result : Except ε α} {p : α → Bool}
    (h : result.toOption.any p = true) : ∃ a, result = .ok a ∧ p a = true := by
  cases result with
  | error e => cases h
  | ok a => exact ⟨a, rfl, h⟩

/-- The error of a computation, if it fails. -/
def error? : Except ε α → Option ε
  | .error e => some e
  | .ok _ => none

theorem error?_eq_some_iff {result : Except ε α} {e : ε} :
    error? result = some e ↔ result = .error e := by
  cases result <;> simp [error?]

/-- What is expected of the value of a computation, and of the error it may end with. -/
def Yields (good : α → Prop) (bad : ε → Prop) : Except ε α → Prop
  | .ok a => good a
  | .error e => bad e

namespace Yields

variable {good : α → Prop} {good' : β → Prop} {bad : ε → Prop}

/-- One step after another. -/
theorem bind {first : Except ε α} {next : α → Except ε β} (h : Yields good bad first)
    (hnext : ∀ a, good a → Yields good' bad (next a)) : Yields good' bad (first >>= next) := by
  cases first with
  | error e => exact h
  | ok a => exact hnext a h

/-- A step that wraps up the result of another. -/
theorem map {first : Except ε α} {wrap : α → β} (h : Yields good bad first)
    (hwrap : ∀ a, good a → good' (wrap a)) :
    Yields good' bad (do let a ← first; Pure.pure (wrap a)) :=
  h.bind fun a ha => hwrap a ha

end Yields

end QueryFormula
