import StyleEngine.Schema.Shape

/-!
# Outcomes

What a chain of steps tells of its parts when it succeeds, and when it fails.

    x >>= f = .ok b → ∃ a, x = .ok a ∧ f a = .ok b                       (bind_eq_ok)
    x >>= f = .error e → x = .error e ∨ ∃ a, x = .ok a ∧ f a = .error e  (bind_eq_error)
-/

namespace StyleEngine

/-! ## Steps -/

section
variable {ε ε' α β : Type} {x : Except ε α}

theorem bind_eq_ok {f : α → Except ε β} {b : β} (h : x >>= f = .ok b) :
    ∃ a, x = .ok a ∧ f a = .ok b := by
  cases x with
  | error e => cases h
  | ok a => exact ⟨a, rfl, h⟩

theorem bind_eq_error {f : α → Except ε β} {e : ε} (h : x >>= f = .error e) :
    x = .error e ∨ ∃ a, x = .ok a ∧ f a = .error e := by
  cases x with
  | error e' => exact Or.inl (congrArg _ (Except.error.inj h))
  | ok a => exact Or.inr ⟨a, rfl, h⟩

theorem mapError_eq_ok {f : ε → ε'} {a : α} (h : x.mapError f = .ok a) : x = .ok a := by
  cases x with
  | error e => cases h
  | ok b => rw [Except.ok.inj h]

end

/-! ## Checks -/

namespace Schema

variable {α β : Type} {value : Value} {fields : Fields Value} {name : String}

theorem Checked.map_eq_ok {x : Checked α} {f : α → β} {b : β} (h : x.map f = .ok b) :
    ∃ a, x = .ok a ∧ f a = b := by
  cases x with
  | error issues => cases h
  | ok a => exact ⟨a, rfl, Except.ok.inj h⟩

theorem Checked.under_eq_ok {x : Checked α} {place : Place} {a : α}
    (h : x.under place = .ok a) : x = .ok a := by
  cases x with
  | error issues => cases h
  | ok b => rw [Except.ok.inj h]

/-- A required field that passes is there, and its value passes. -/
theorem required_eq_ok {check : Value → Checked α} {a : α}
    (h : required fields name check = .ok a) :
    ∃ value, Fields.get? fields name = some value ∧ check value = .ok a := by
  unfold required at h
  split at h
  · next value hv => exact ⟨value, hv, Checked.under_eq_ok h⟩
  · cases h

/-- An optional field that passes is missing, or its value passes. -/
theorem optional_eq_ok {fallback a : α} {check : Value → Checked α}
    (h : Schema.optional fields name fallback check = .ok a) :
    a = fallback ∨ ∃ value, Fields.get? fields name = some value ∧ check value = .ok a := by
  unfold Schema.optional at h
  split at h
  · next value hv => exact Or.inr ⟨value, hv, Checked.under_eq_ok h⟩
  · exact Or.inl (Except.ok.inj h).symm

end Schema

end StyleEngine
