import Mathlib.Data.List.Basic
import StyleEngine.Number

/-!
# What numbers are written with

An integer can be read from its text.  The text of a number has digits, signs, points and the
letters of `e`, `inf` and `nan` in it, and nothing else.

    intChars m = intChars n → m = n                                      (intChars_injective)
    c ∈ n.text.toList → isNumberChar c                                   (isNumberChar_of_mem_text)
-/

namespace StyleEngine

/-! ## Texts of integers -/

theorem isDigit_of_mem_natChars {n : Nat} {c : Char} (h : c ∈ natChars n) : c.isDigit = true :=
  Nat.isDigit_of_mem_toDigits (by decide) (by decide) h

theorem natChars_injective : Function.Injective natChars := by
  intro m n h
  have hread : ∀ k, Nat.ofDigitChars 10 (natChars k) 0 = k := fun k =>
    Nat.ofDigitChars_toDigits (by decide) (by decide)
  rw [← hread m, h, hread]

theorem mem_intChars {n : Int} {c : Char} (h : c ∈ intChars n) : c = '-' ∨ c.isDigit = true := by
  unfold intChars at h
  split at h
  · rcases List.mem_cons.1 h with h | h
    · exact Or.inl h
    · exact Or.inr (isDigit_of_mem_natChars h)
  · exact Or.inr (isDigit_of_mem_natChars h)

theorem intChars_injective : Function.Injective intChars := by
  have hsign : ∀ (k : Nat) (cs : List Char), '-' :: cs ≠ natChars k := by
    intro k cs h
    have hmem : '-' ∈ natChars k := h ▸ List.mem_cons_self
    exact absurd (isDigit_of_mem_natChars hmem) (by decide)
  intro m n h
  unfold intChars at h
  -- only a negative number is written with a sign, so both have the same one
  split at h <;> split at h
  · have habs := natChars_injective (List.cons.inj h).2
    omega
  · exact absurd h (hsign _ _)
  · exact absurd h.symm (hsign _ _)
  · have habs := natChars_injective h
    omega

/-! ## Texts of numbers -/

def isNumberChar (c : Char) : Bool := c.isDigit || "+-.einfa".toList.contains c

theorem isNumberChar_of_isDigit {c : Char} (h : c.isDigit = true) : isNumberChar c = true := by
  unfold isNumberChar
  rw [h]
  rfl

theorem isNumberChar_of_mem_natChars {n : Nat} {c : Char} (h : c ∈ natChars n) :
    isNumberChar c = true := isNumberChar_of_isDigit (isDigit_of_mem_natChars h)

theorem isNumberChar_of_mem_intChars {n : Int} {c : Char} (h : c ∈ intChars n) :
    isNumberChar c = true := by
  rcases mem_intChars h with rfl | h
  · decide
  · exact isNumberChar_of_isDigit h

theorem isNumberChar_of_mem_exponentChars {e : Int} {c : Char} (h : c ∈ exponentChars e) :
    isNumberChar c = true := by
  unfold exponentChars at h
  rcases List.mem_cons.1 h with rfl | h
  · split <;> decide
  · split at h
    · rcases List.mem_cons.1 h with rfl | h
      · decide
      · exact isNumberChar_of_mem_natChars h
    · exact isNumberChar_of_mem_natChars h

section
variable {digits : List Char} (hd : ∀ c ∈ digits, isNumberChar c = true)

include hd

theorem isNumberChar_of_mem_scientific {e : Int} {c : Char} (h : c ∈ scientific digits e) :
    isNumberChar c = true := by
  unfold scientific at h
  simp only [List.mem_append, List.mem_cons] at h
  rcases h with (h | h) | rfl | h
  · exact hd c (List.mem_of_mem_take h)
  · split at h
    · cases h
    · rcases List.mem_cons.1 h with rfl | h
      · decide
      · exact hd c (List.mem_of_mem_drop h)
  · decide
  · exact isNumberChar_of_mem_exponentChars h

theorem isNumberChar_of_mem_layout {point : Int} {c : Char} (h : c ∈ layout digits point) :
    isNumberChar c = true := by
  unfold layout at h
  split at h
  · exact isNumberChar_of_mem_scientific hd h
  · split at h
    · simp only [List.mem_cons, List.mem_append, List.mem_replicate] at h
      rcases h with rfl | rfl | ⟨-, rfl⟩ | h
      · decide
      · decide
      · decide
      · exact hd c h
    · split at h
      · simp only [List.mem_cons, List.mem_append, List.mem_replicate, List.not_mem_nil,
          or_false] at h
        rcases h with (h | ⟨-, rfl⟩) | rfl | rfl
        · exact hd c h
        · decide
        · decide
        · decide
      · simp only [List.mem_cons, List.mem_append] at h
        rcases h with h | rfl | h
        · exact hd c (List.mem_of_mem_take h)
        · decide
        · exact hd c (List.mem_of_mem_drop h)

end

theorem isNumberChar_of_mem_magnitudeChars {x : Float} {b : Binary} {c : Char}
    (h : c ∈ magnitudeChars x b) : isNumberChar c = true :=
  isNumberChar_of_mem_layout (fun _ hd => isNumberChar_of_mem_natChars hd) h

theorem isNumberChar_of_mem_floatChars {x : Float} {c : Char} (h : c ∈ floatChars x) :
    isNumberChar c = true := by
  have hsigned : ∀ body : List Char, (∀ c ∈ body, isNumberChar c = true) →
      c ∈ (if isNegativeFloat x then '-' :: body else body) → isNumberChar c = true := by
    intro body hbody h
    split at h
    · rcases List.mem_cons.1 h with rfl | h
      · decide
      · exact hbody c h
    · exact hbody c h
  unfold floatChars at h
  cases hb : Binary.ofFloat? x with
  | some b =>
    simp only [hb] at h
    exact hsigned _ (fun c => isNumberChar_of_mem_magnitudeChars) h
  | none =>
    simp only [hb] at h
    refine hsigned _ ?_ h
    by_cases hnan : x.isNaN = true
    · rw [if_pos hnan]
      exact List.all_eq_true.1 (by decide)
    · rw [if_neg hnan]
      exact List.all_eq_true.1 (by decide)

theorem Number.isNumberChar_of_mem_text {n : Number} {c : Char} (h : c ∈ n.text.toList) :
    isNumberChar c = true := by
  cases n with
  | int n =>
    rw [text, String.toList_ofList] at h
    exact isNumberChar_of_mem_intChars h
  | float x =>
    rw [text, String.toList_ofList] at h
    exact isNumberChar_of_mem_floatChars h

end StyleEngine
