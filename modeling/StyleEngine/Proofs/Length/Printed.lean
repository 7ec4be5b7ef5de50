import StyleEngine.Proofs.Expression.Spelling
import StyleEngine.Proofs.Length
import StyleEngine.Proofs.Number.Printed

/-!
# Lengths made of printed numbers

A printed number with a unit behind it is split where the unit begins, whatever the number looks
like, and its magnitude is the number again.  What is not finite is printed as a word, which starts
no length.

    x.isFinite → ∃ y, parse? ((float x).compact ++ unit) = some ⟨y, unit⟩ ∧ y == x
                                                                         (parse?_compact_float)
    ¬x.isFinite → strip unit = unit → parse? ((float x).compact ++ unit) = none
                                                                 (parse?_compact_of_not_finite)
-/

namespace StyleEngine

open Text Expression

namespace Length

variable {unit : List Char}

theorem parse?_of_validUnit {n : Numeral} (hn : n.WellFormed) (hunit : ValidUnit unit) :
    parse? (String.ofList (n.spelling ++ unit)) = some ⟨n.value, String.ofList unit⟩ := by
  have hstops := @stops_unit unit [] hunit nofun n
  rw [List.append_nil] at hstops
  exact parse?_spelling hn hstops hunit.strip_eq

theorem parse?_of_numeral {n : Numeral} (hn : n.WellFormed) (hunit : ValidUnit unit) {s : String}
    (hs : n.spelling = s.toList) :
    parse? (s ++ String.ofList unit) = some ⟨n.value, String.ofList unit⟩ := by
  have htext : s ++ String.ofList unit = String.ofList (n.spelling ++ unit) := by
    rw [hs, String.ofList_append, String.ofList_toList]
  rw [htext]
  exact parse?_of_validUnit hn hunit

theorem parse?_compact_int (n : Int) (hunit : ValidUnit unit) :
    parse? ((Number.int n).compact ++ String.ofList unit) =
      some ⟨Number.floatOfInt n, String.ofList unit⟩ := by
  obtain ⟨k, hk, hspelling, hvalue⟩ := exists_numeral_intChars n
  rw [← hvalue]
  exact parse?_of_numeral hk hunit (by rw [hspelling, Number.compact, String.toList_ofList])

theorem parse?_compact_float {x : Float} (h : x.isFinite = true) (hunit : ValidUnit unit) :
    ∃ y, parse? ((Number.float x).compact ++ String.ofList unit) = some ⟨y, String.ofList unit⟩ ∧
      (y == x) = true := by
  obtain ⟨k, hk, hspelling, hvalue⟩ := exists_numeral_compact h
  exact ⟨k.value, parse?_of_numeral hk hunit hspelling, hvalue⟩

/-- How a float is printed that is not finite. -/
theorem compact_of_not_finite {x : Float} (h : x.isFinite = false) :
    (Number.float x).compact = "inf" ∨ (Number.float x).compact = "-inf" ∨
      (Number.float x).compact = "nan" := by
  rw [isFinite_eq] at h
  have hnan : x.isNaN = x.toModel.unpack.isNaN := rfl
  unfold Number.compact integerOfFloat? floatChars Binary.ofFloat? isNegativeFloat
  simp only [hnan]
  cases hx : x.toModel.unpack with
  | notANumber => exact Or.inr (Or.inr rfl)
  | infinity s =>
    cases s with
    | positive => exact Or.inl rfl
    | negative => exact Or.inr (Or.inl rfl)
  | zero s => rw [hx] at h; cases h
  | finite s m e hm => rw [hx] at h; cases h

/-- A word for what is no number starts no numeral, with a minus sign or without. -/
theorem scan?_compact_of_not_finite {x : Float} (h : x.isFinite = false) (unit : List Char) :
    Numeral.scan? ((Number.float x).compact.toList ++ unit) = none := by
  rcases compact_of_not_finite h with hx | hx | hx <;> rw [hx]
  · exact Numeral.scan?_eq_none (by decide) (by decide) _
  · have hsign : Numeral.scan? ("-inf".toList ++ unit) =
        (Numeral.scanUnsigned? ('i' :: (['n', 'f'] ++ unit))).map fun r =>
          ({ r.1 with sign := some '-' }, r.2) := rfl
    rw [hsign, Numeral.scanUnsigned?_eq_none (by decide) (by decide)]
    rfl
  · exact Numeral.scan?_eq_none (by decide) (by decide) _

theorem parse?_compact_of_not_finite {x : Float} (h : x.isFinite = false)
    (hunit : strip unit = unit) :
    parse? ((Number.float x).compact ++ String.ofList unit) = none := by
  have hne : (Number.float x).compact.toList ≠ [] := by
    rcases compact_of_not_finite h with hx | hx | hx <;> rw [hx] <;> exact List.cons_ne_nil _ _
  have hall : (Number.float x).compact.toList.all (! isBlank ·) = true := by
    rcases compact_of_not_finite h with hx | hx | hx <;> rw [hx] <;> decide
  have hword : ∀ c ∈ (Number.float x).compact.toList, isBlank c = false := fun c hc =>
    Bool.not_eq_true' _ ▸ List.all_eq_true.1 hall c hc
  unfold parse?
  rw [String.toList_append, String.toList_ofList, strip_word_append hne hword hunit,
    scan?_compact_of_not_finite h]
  rfl

/-- Whatever number is printed, only the unit behind it is taken for a unit. -/
theorem unit_of_parse?_compact {n : Number} (hunit : ValidUnit unit) {l : Length}
    (h : parse? (n.compact ++ String.ofList unit) = some l) : l.unit = String.ofList unit := by
  cases n with
  | int n =>
    rw [parse?_compact_int n hunit] at h
    rw [← Option.some.inj h]
  | float x =>
    cases hx : x.isFinite with
    | true =>
      obtain ⟨y, hy, -⟩ := parse?_compact_float hx hunit
      rw [hy] at h
      rw [← Option.some.inj h]
    | false =>
      rw [parse?_compact_of_not_finite hx hunit.strip_eq] at h
      cases h

end Length

end StyleEngine
