import StyleEngine.Number.Numeral
import StyleEngine.Proofs.Text.Blank

/-!
# Numerals are read as they are spelled

A well-formed numeral has digits where digits belong, at least one of them around the point, and at
least one in its exponent.  Scanning gives well-formed numerals, and it gives back every unsigned
one that is followed by nothing that could be more of it.

    scanUnsigned? cs = some (n, rest) → n.WellFormed                     (wellFormed_scanUnsigned?)
    n.WellFormed → n.Stops rest →
      scanUnsigned? (n.spelling ++ rest) = some (n, rest)                (scanUnsigned?_spelling)
    n.WellFormed → n.Stops rest →
      scan? (n.spelling ++ rest) = some (n, rest)                        (scan?_spelling)
-/

namespace StyleEngine

open Text

/-! ## Well-formed numerals -/

structure Exponent.WellFormed (e : Exponent) : Prop where
  mark : e.mark = 'e' ∨ e.mark = 'E'
  sign : ∀ c, e.sign = some c → c = '+' ∨ c = '-'
  digits : ∀ c ∈ e.digits, isDigit c = true
  nonempty : e.digits ≠ []

namespace Numeral

structure WellFormed (n : Numeral) : Prop where
  sign : ∀ c, n.sign = some c → c = '+' ∨ c = '-'
  whole : ∀ c ∈ n.whole, isDigit c = true
  fraction : ∀ ds, n.fraction = some ds → ∀ c ∈ ds, isDigit c = true
  nonempty : n.whole ≠ [] ∨ n.fraction.getD [] ≠ []
  exponent : ∀ e, n.exponent = some e → e.WellFormed

/-- What follows a numeral is not taken for more of it. -/
structure Stops (n : Numeral) (rest : List Char) : Prop where
  digit : ∀ c, rest.head? = some c → isDigit c = false
  point : n.fraction = none → n.exponent = none → rest.head? ≠ some '.'
  exponent : n.exponent = none → (scanExponent rest).1 = none

/-! ## What scanning gives -/

theorem sign_scanSign {cs : List Char} {c : Char} (h : (scanSign cs).1 = some c) :
    c = '+' ∨ c = '-' := by
  cases cs with
  | nil => cases h
  | cons d cs =>
    simp only [scanSign] at h
    split at h
    · next hd =>
      cases h
      simpa only [Bool.or_eq_true, decide_eq_true_eq] using hd
    · cases h

theorem wellFormed_scanExponent {cs : List Char} {e : Exponent}
    (h : (scanExponent cs).1 = some e) : e.WellFormed := by
  cases cs with
  | nil => cases h
  | cons c cs =>
    simp only [scanExponent] at h
    split at h
    · next hc =>
      cases h
      simp only [Bool.and_eq_true, Bool.or_eq_true, decide_eq_true_eq, Bool.not_eq_true',
        List.isEmpty_eq_false_iff] at hc
      exact ⟨hc.1, fun _ => sign_scanSign, fun _ => List.mem_takeWhile_imp, hc.2⟩
    · cases h

theorem digits_scanFraction {cs ds : List Char} (h : (scanFraction cs).1 = some ds) :
    ∀ c ∈ ds, isDigit c = true := by
  unfold scanFraction at h
  split at h
  · cases h
    exact fun _ => List.mem_takeWhile_imp
  · cases h

theorem wellFormed_scanUnsigned? {cs rest : List Char} {n : Numeral}
    (h : scanUnsigned? cs = some (n, rest)) : n.sign = none ∧ n.WellFormed := by
  unfold scanUnsigned? at h
  simp only at h
  split at h
  · cases h
  · next hne =>
    simp only [Option.some.injEq, Prod.mk.injEq] at h
    obtain ⟨rfl, -⟩ := h
    rw [Bool.and_eq_true, not_and_or, List.isEmpty_iff, List.isEmpty_iff] at hne
    exact ⟨rfl, nofun, fun _ => List.mem_takeWhile_imp, fun _ => digits_scanFraction, hne,
      fun _ => wellFormed_scanExponent⟩

/-- A text that starts with neither a digit nor a point starts with no numeral. -/
theorem scanUnsigned?_eq_none {c : Char} (hpoint : c ≠ '.') (hdigit : isDigit c = false)
    (cs : List Char) : scanUnsigned? (c :: cs) = none := by
  have hfraction : scanFraction (c :: cs) = (none, c :: cs) := by
    unfold scanFraction
    split
    · next he => exact absurd (List.cons.inj he).1 hpoint
    · rfl
  simp [scanUnsigned?, hdigit, hfraction]

/-! ## Scanning what is spelled -/

/-- An exponent needs a digit behind its mark and sign. -/
theorem scanExponent_eq_none {c : Char} {cs : List Char}
    (h : c ≠ 'e' ∧ c ≠ 'E' ∨
      ∀ d, cs.head? = some d → d ≠ '+' ∧ d ≠ '-' ∧ isDigit d = false) :
    scanExponent (c :: cs) = (none, c :: cs) := by
  unfold scanExponent
  rcases h with ⟨he, hE⟩ | hcs
  · simp [he, hE]
  · have hsign : scanSign cs = (none, cs) := by
      cases cs with
      | nil => rfl
      | cons d cs =>
        obtain ⟨hplus, hminus, -⟩ := hcs d rfl
        simp [scanSign, hplus, hminus]
    have hdigits : cs.takeWhile isDigit = [] := by
      cases cs with
      | nil => rfl
      | cons d cs => simp [(hcs d rfl).2.2]
    simp [hsign, hdigits]

theorem scanSign_spelling {sign : Option Char} {rest : List Char}
    (hsign : ∀ c, sign = some c → c = '+' ∨ c = '-')
    (hrest : ∀ c, rest.head? = some c → c ≠ '+' ∧ c ≠ '-') :
    scanSign (sign.toList ++ rest) = (sign, rest) := by
  cases sign with
  | some c => simp [scanSign, hsign c rfl]
  | none =>
    cases rest with
    | nil => rfl
    | cons c rest => simp [scanSign, hrest c rfl]

theorem ne_sign_of_isDigit {c : Char} (h : isDigit c = true) : c ≠ '+' ∧ c ≠ '-' ∧ c ≠ '.' := by
  refine ⟨?_, ?_, ?_⟩ <;> (rintro rfl; exact absurd h (by decide))

theorem scanExponent_spelling {e : Exponent} (he : e.WellFormed) {rest : List Char}
    (hrest : ∀ c, rest.head? = some c → isDigit c = false) :
    scanExponent (e.spelling ++ rest) = (some e, rest) := by
  have hfirst : ∀ c, (e.digits ++ rest).head? = some c → c ≠ '+' ∧ c ≠ '-' := by
    intro c hc
    obtain ⟨d, ds, hds⟩ := List.exists_cons_of_ne_nil he.nonempty
    rw [hds, List.cons_append, List.head?_cons, Option.some.injEq] at hc
    have hd := ne_sign_of_isDigit (he.digits d (by simp [hds]))
    rw [← hc]
    exact ⟨hd.1, hd.2.1⟩
  have hsign := scanSign_spelling he.sign hfirst
  obtain ⟨htake, hdrop⟩ := span_append he.digits hrest
  have hmark : e.mark = 'e' ∨ e.mark = 'E' := he.mark
  have hsome : e.digits.isEmpty = false := List.isEmpty_eq_false_iff.2 he.nonempty
  simp [Exponent.spelling, scanExponent, hsign, htake, hdrop, hmark, hsome]

/-- A fraction ends where something else than a digit follows; if there is none, no point does. -/
theorem scanFraction_spelling {fraction : Option (List Char)}
    (hfraction : ∀ ds, fraction = some ds → ∀ c ∈ ds, isDigit c = true) {rest : List Char}
    (hrest : ∀ c, rest.head? = some c → isDigit c = false ∧ (fraction = none → c ≠ '.')) :
    scanFraction (fractionSpelling fraction ++ rest) = (fraction, rest) := by
  cases fraction with
  | some ds =>
    obtain ⟨htake, hdrop⟩ := span_append (hfraction ds rfl) fun c hc => (hrest c hc).1
    simp [fractionSpelling, scanFraction, htake, hdrop]
  | none =>
    rw [fractionSpelling, List.nil_append]
    unfold scanFraction
    split
    · next cs => exact absurd rfl ((hrest '.' rfl).2 rfl)
    · rfl

/-- Behind the digits before and after the point stands the mark of the exponent or the rest. -/
theorem Stops.head_exponent {n : Numeral} (hn : n.WellFormed) {rest : List Char}
    (hrest : n.Stops rest) {c : Char}
    (hc : (exponentSpelling n.exponent ++ rest).head? = some c) :
    isDigit c = false ∧ (n.fraction = none → c ≠ '.') := by
  cases he : n.exponent with
  | some e =>
    rw [he] at hc
    have hmark : c = e.mark := (Option.some.inj hc).symm
    have hlisted : ∀ m : Char, m = 'e' ∨ m = 'E' → isDigit m = false ∧ m ≠ '.' := by
      rintro m (rfl | rfl) <;> decide
    obtain ⟨hdigit, hpoint⟩ := hlisted e.mark (hn.exponent e he).mark
    rw [hmark]
    exact ⟨hdigit, fun _ => hpoint⟩
  | none =>
    rw [he] at hc
    refine ⟨hrest.digit c hc, fun hf hpoint => hrest.point hf he ?_⟩
    rw [← hpoint]
    exact hc

/-- Scanning the spelling of a numeral gives the numeral: each part ends where the next begins. -/
theorem scanUnsigned?_spelling {n : Numeral} (hsign : n.sign = none) (hn : n.WellFormed)
    {rest : List Char} (hrest : n.Stops rest) :
    scanUnsigned? (n.spelling ++ rest) = some (n, rest) := by
  have hexponent : scanExponent (exponentSpelling n.exponent ++ rest) = (n.exponent, rest) := by
    cases he : n.exponent with
    | some e => exact scanExponent_spelling (hn.exponent e he) hrest.digit
    | none =>
      have hnone := hrest.exponent he
      have hspelling := spelling_scanExponent rest
      rw [hnone] at hspelling
      exact Prod.ext hnone hspelling
  have hfraction := scanFraction_spelling hn.fraction fun c hc => hrest.head_exponent hn hc
  have hwhole : ∀ c, (fractionSpelling n.fraction ++
      (exponentSpelling n.exponent ++ rest)).head? = some c → isDigit c = false := by
    intro c hc
    cases hf : n.fraction with
    | some ds =>
      rw [hf] at hc
      rw [← Option.some.inj hc]
      decide
    | none =>
      rw [hf] at hc
      exact (hrest.head_exponent hn hc).1
  obtain ⟨htake, hdrop⟩ := span_append hn.whole hwhole
  have hsome : (n.whole.isEmpty && (n.fraction.getD []).isEmpty) = false := by
    rw [Bool.and_eq_false_iff, List.isEmpty_eq_false_iff, List.isEmpty_eq_false_iff]
    exact hn.nonempty
  have htext : n.spelling ++ rest = n.whole ++ (fractionSpelling n.fraction ++
      (exponentSpelling n.exponent ++ rest)) := by
    simp only [spelling, hsign, Option.toList_none, List.nil_append, List.append_assoc]
  unfold scanUnsigned?
  simp only [htext, htake, hdrop, hfraction, hexponent, hsome, Bool.false_eq_true, if_false]
  rw [← hsign]

/-- Behind the sign of a numeral stands a digit or a point, so no other sign. -/
theorem head_unsigned {n : Numeral} (hn : n.WellFormed) (hsign : n.sign = none) {rest : List Char}
    {c : Char} (hc : (n.spelling ++ rest).head? = some c) : c ≠ '+' ∧ c ≠ '-' := by
  simp only [spelling, hsign, Option.toList_none, List.nil_append, List.append_assoc] at hc
  cases hw : n.whole with
  | cons d ds =>
    rw [hw] at hc
    have hd := ne_sign_of_isDigit (hn.whole d (hw ▸ List.mem_cons_self))
    rw [← Option.some.inj hc]
    exact ⟨hd.1, hd.2.1⟩
  | nil =>
    cases hf : n.fraction with
    | none => exact absurd (hn.nonempty.resolve_left (· hw)) (by simp [hf])
    | some ds =>
      rw [hw, hf] at hc
      rw [← Option.some.inj hc]
      decide

/-- A sign in front is scanned off first. -/
theorem scan?_spelling {n : Numeral} (hn : n.WellFormed) {rest : List Char}
    (hrest : n.Stops rest) : scan? (n.spelling ++ rest) = some (n, rest) := by
  let m : Numeral := { n with sign := none }
  have hm : m.WellFormed := ⟨nofun, hn.whole, hn.fraction, hn.nonempty, hn.exponent⟩
  have hstops : m.Stops rest := ⟨hrest.digit, hrest.point, hrest.exponent⟩
  have htext : n.spelling ++ rest = n.sign.toList ++ (m.spelling ++ rest) := by
    simp only [m, spelling, Option.toList_none, List.nil_append, List.append_assoc]
  have hsign : scanSign (n.sign.toList ++ (m.spelling ++ rest)) = (n.sign, m.spelling ++ rest) :=
    scanSign_spelling hn.sign fun c hc => head_unsigned hm rfl hc
  unfold scan?
  simp only [htext, hsign, scanUnsigned?_spelling rfl hm hstops, Option.map_some]
  rfl

/-! ## What numerals are spelled with -/

theorem spelling_ne_nil {n : Numeral} (hn : n.WellFormed) : n.spelling ≠ [] := by
  intro h
  unfold spelling at h
  simp only [List.append_eq_nil_iff] at h
  obtain ⟨-, hwhole, hfraction, -⟩ := h
  rcases hn.nonempty with hne | hne
  · exact hne hwhole
  · cases hf : n.fraction with
    | none =>
      rw [hf] at hne
      exact hne rfl
    | some ds =>
      rw [hf] at hfraction
      cases hfraction

theorem isBlank_of_mem_spelling {n : Numeral} (hn : n.WellFormed) {c : Char}
    (h : c ∈ n.spelling) : isBlank c = false := by
  have hsigns : ∀ sign : Option Char, (∀ c, sign = some c → c = '+' ∨ c = '-') →
      c ∈ sign.toList → isBlank c = false := by
    intro sign hsign hc
    rw [Option.mem_toList] at hc
    rcases hsign c hc with rfl | rfl <;> decide
  unfold spelling at h
  rw [List.mem_append, List.mem_append, List.mem_append] at h
  rcases h with h | h | h | h
  · exact hsigns n.sign hn.sign h
  · exact isBlank_of_isDigit (hn.whole c h)
  · cases hf : n.fraction with
    | none =>
      rw [hf] at h
      cases h
    | some ds =>
      rw [hf] at h
      rcases List.mem_cons.1 h with rfl | h
      · decide
      · exact isBlank_of_isDigit (hn.fraction ds hf c h)
  · cases he : n.exponent with
    | none =>
      rw [he] at h
      cases h
    | some e =>
      rw [he] at h
      have hwf := hn.exponent e he
      rcases List.mem_cons.1 h with rfl | h
      · rcases hwf.mark with hm | hm <;> rw [hm] <;> decide
      · rcases List.mem_append.1 h with h | h
        · exact hsigns e.sign hwf.sign h
        · exact isBlank_of_isDigit (hwf.digits c h)

end Numeral

end StyleEngine
