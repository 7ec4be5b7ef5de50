import StyleEngine.Expression.Evaluate
import StyleEngine.Length
import StyleEngine.Proofs.Number.Notation
import StyleEngine.Proofs.Number.Numeral

/-!
# Texts that are lengths

An expression starts with the name of a function.  A length starts with a sign, a point or a digit,
so it is no expression, and neither is the text of a number.

    Expression.looksLike (.number n) = false                         (looksLike_number)
    Expression.looksLike (.text s) = true → parse? s = none          (parse?_eq_none_of_looksLike)
    n.WellFormed → n.Stops unit → strip unit = unit →
      parse? (n.spelling ++ unit) = some ⟨n.value, unit⟩             (parse?_spelling)
-/

namespace StyleEngine

open Text

/-- Stripping takes nothing off in front of a character that is no blank. -/
theorem Text.strip_cons {c : Char} (h : isBlank c = false) (cs : List Char) :
    ∃ rest, strip (c :: cs) = c :: rest := by
  have hd : (c :: cs).dropWhile isBlank = c :: cs :=
    dropWhile_eq_self fun _ he => Option.some.inj he ▸ h
  unfold strip trim
  rw [hd, List.reverse_cons, List.dropWhile_append]
  split
  · exact ⟨[], by simp [h]⟩
  · exact ⟨_, List.reverse_append⟩

/-- What a numeral can start with. -/
theorem Numeral.scan?_eq_none {c : Char} (hs : c ≠ '+' ∧ c ≠ '-' ∧ c ≠ '.')
    (hd : isDigit c = false) (cs : List Char) : Numeral.scan? (c :: cs) = none := by
  have hsign : Numeral.scanSign (c :: cs) = (none, c :: cs) := by
    simp [Numeral.scanSign, hs.1, hs.2.1]
  simp [Numeral.scan?, hsign, Numeral.scanUnsigned?_eq_none hs.2.2 hd]

namespace Expression

/-- What looks like an expression starts as the name of a function does. -/
theorem first_of_looksLike {value : Value} (h : looksLike value = true) :
    ∃ c cs, value.shown.toList = c :: cs ∧ (c = 'c' ∨ c = 'm') := by
  obtain ⟨f, -, hf⟩ := List.any_eq_true.1 h
  obtain ⟨rest, hrest⟩ := List.isPrefixOf_iff_prefix.1 hf
  rw [← hrest]
  match f with
  | .calc => exact ⟨_, _, rfl, Or.inl rfl⟩
  | .min => exact ⟨_, _, rfl, Or.inr rfl⟩
  | .max => exact ⟨_, _, rfl, Or.inr rfl⟩

theorem looksLike_number (n : Number) : looksLike (.number n) = false := by
  rw [Bool.eq_false_iff]
  intro h
  obtain ⟨c, cs, hcs, hc⟩ := first_of_looksLike h
  have hmem : c ∈ n.text.toList := by
    have hshown : n.text.toList = c :: cs := hcs
    rw [hshown]
    exact List.mem_cons_self
  have hchar := Number.isNumberChar_of_mem_text hmem
  rcases hc with rfl | rfl <;> exact absurd hchar (by decide)

end Expression

namespace Length

theorem parse?_eq_none_of_looksLike {s : String} (h : Expression.looksLike (.text s) = true) :
    parse? s = none := by
  obtain ⟨c, cs, hcs, hc⟩ := Expression.first_of_looksLike h
  have hcs : s.toList = c :: cs := hcs
  have hblank : isBlank c = false := by rcases hc with rfl | rfl <;> decide
  have hdigit : isDigit c = false := by rcases hc with rfl | rfl <;> decide
  have hsign : c ≠ '+' ∧ c ≠ '-' ∧ c ≠ '.' := by rcases hc with rfl | rfl <;> decide
  obtain ⟨rest', hstrip⟩ := strip_cons hblank cs
  unfold parse?
  rw [hcs, hstrip, Numeral.scan?_eq_none hsign hdigit]
  rfl

/-- A numeral and a unit behind it are split where they meet. -/
theorem parse?_spelling {n : Numeral} (hn : n.WellFormed) {unit : List Char}
    (hstops : n.Stops unit) (hunit : strip unit = unit) :
    parse? (String.ofList (n.spelling ++ unit)) = some ⟨n.value, String.ofList unit⟩ := by
  have hstrip : strip (n.spelling ++ unit) = n.spelling ++ unit :=
    strip_word_append (Numeral.spelling_ne_nil hn) (fun c => Numeral.isBlank_of_mem_spelling hn)
      hunit
  unfold parse?
  rw [String.toList_ofList, hstrip, Numeral.scan?_spelling hn hstops, Option.map_some, hunit]

end Length

end StyleEngine
