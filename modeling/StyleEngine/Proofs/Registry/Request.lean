import StyleEngine.Proofs.Registry.Allocation

/-!
# What a request answers

A request for a placeholder ends in one of four ways.

    name is no non-empty text → encode r d name fallback = (.error (.invalidName name), r)
    n is bound to p → encode r d (.text n) fallback = (.ok (withFallback p ..), r)
    allocate r d = (.ok p, r') →
      encode r d (.text n) fallback = (.ok (withFallback p ..), r'.bind n p)
    allocate r d = (.error e, r') → encode r d (.text n) fallback = (.error e, r')
-/

namespace StyleEngine.Registry

variable {r r' : Registry} {d : Discipline} {n p : String}

/-- Anything but a non-empty text is refused, and nothing changes, not even the source. -/
theorem encode_of_invalid {name : Value} (h : ∀ s, name = .text s → s = "") (r : Registry)
    (d : Discipline) (fallback : Value) :
    r.encode d name fallback = (.error (.invalidName name), r) := by
  cases name with
  | text s =>
    have hs : s = "" := h s rfl
    subst hs
    rfl
  | _ => rfl

theorem isEmpty_eq_false (h : n ≠ "") : n.isEmpty = false := by
  rw [Bool.eq_false_iff, ne_eq, String.isEmpty_iff]
  exact h

/-- A bound name is found without a change. -/
theorem encode_of_bound (hn : n ≠ "") (h : r.placeholderFor? n = some p) (d : Discipline)
    (fallback : Value) :
    r.encode d (.text n) fallback = (.ok (withFallback p fallback.isTruthy), r) := by
  simp [encode, isEmpty_eq_false hn, placeholder, h]

theorem encode_of_allocated (hn : n ≠ "") (h : r.placeholderFor? n = none)
    (ha : r.allocate d = (.ok p, r')) (fallback : Value) :
    r.encode d (.text n) fallback = (.ok (withFallback p fallback.isTruthy), r'.bind n p) := by
  simp [encode, isEmpty_eq_false hn, placeholder, h, ha]

theorem encode_of_refused {e : Fault} (hn : n ≠ "") (h : r.placeholderFor? n = none)
    (ha : r.allocate d = (.error e, r')) (fallback : Value) :
    r.encode d (.text n) fallback = (.error e, r') := by
  simp [encode, isEmpty_eq_false hn, placeholder, h, ha]

/-- All that a request can do: leave the registry alone, use up tokens, or bind a fresh
placeholder to a name that was not bound. -/
theorem encode_cases (r : Registry) (d : Discipline) (name fallback : Value) :
    (r.encode d name fallback).2 = r ∨
    (∃ e, (r.allocate d).1 = .error e ∧ (r.encode d name fallback).2 = (r.allocate d).2) ∨
    ∃ n p, name = .text n ∧ n ≠ "" ∧ r.placeholderFor? n = none ∧ (r.allocate d).1 = .ok p ∧
      (r.encode d name fallback).2 = (r.allocate d).2.bind n p := by
  by_cases hname : ∀ s, name = .text s → s = ""
  · left
    rw [encode_of_invalid hname]
  · push Not at hname
    obtain ⟨n, rfl, hn⟩ := hname
    cases hp : r.placeholderFor? n with
    | some p =>
      left
      rw [encode_of_bound hn hp]
    | none =>
      right
      cases ha : r.allocate d with
      | mk answer r' =>
        cases answer with
        | error e =>
          left
          exact ⟨e, rfl, by rw [encode_of_refused hn hp ha]⟩
        | ok p =>
          right
          exact ⟨n, p, rfl, hn, hp, rfl, by rw [encode_of_allocated hn hp ha]⟩

end StyleEngine.Registry
