import StyleEngine.Number.Decimal
import StyleEngine.Text.Digit

/-!
# Numerals

A numeral is an optional sign, decimal digits of any script with an optional point among or around
them, and an optional exponent.  Scanning takes the longest numeral that a text starts with.

    scan? s = some (n, rest) → n.spelling ++ rest = s                 (spelling_scan?)
    scanUnsigned? s = some (n, rest) → rest.length < s.length         (scanUnsigned?_length_lt)
-/

namespace StyleEngine

open Text

/-! ## Structure -/

structure Exponent where
  mark : Char
  sign : Option Char
  digits : List Char
deriving DecidableEq

structure Numeral where
  sign : Option Char
  whole : List Char
  /-- The digits after the point, if there is a point. -/
  fraction : Option (List Char)
  exponent : Option Exponent
deriving DecidableEq

def Exponent.spelling (e : Exponent) : List Char := e.mark :: (e.sign.toList ++ e.digits)

def fractionSpelling : Option (List Char) → List Char
  | none => []
  | some ds => '.' :: ds

def exponentSpelling : Option Exponent → List Char
  | none => []
  | some e => e.spelling

namespace Numeral

def spelling (n : Numeral) : List Char :=
  n.sign.toList ++ (n.whole ++ (fractionSpelling n.fraction ++ exponentSpelling n.exponent))

/-! ## Value -/

def Exponent.value (e : Exponent) : Int :=
  if e.sign = some '-' then -(digitsValue e.digits : Int) else digitsValue e.digits

/-- The magnitude as a decimal. -/
def decimal (n : Numeral) : Decimal :=
  let fraction := n.fraction.getD []
  ⟨digitsValue (n.whole ++ fraction), (n.exponent.map Exponent.value).getD 0 - fraction.length⟩

/-- The nearest float. -/
def value (n : Numeral) : Float :=
  if n.sign = some '-' then -n.decimal.toFloat else n.decimal.toFloat

/-! ## Scanning -/

def scanSign : List Char → Option Char × List Char
  | [] => (none, [])
  | c :: cs => if c = '+' || c = '-' then (some c, cs) else (none, c :: cs)

def scanFraction : List Char → Option (List Char) × List Char
  | '.' :: cs => (some (cs.takeWhile isDigit), cs.dropWhile isDigit)
  | cs => (none, cs)

/-- An exponent is taken only when it has a digit. -/
def scanExponent : List Char → Option Exponent × List Char
  | [] => (none, [])
  | c :: cs =>
    let (sign, rest) := scanSign cs
    let digits := rest.takeWhile isDigit
    if (c = 'e' || c = 'E') && !digits.isEmpty then
      (some ⟨c, sign, digits⟩, rest.dropWhile isDigit)
    else (none, c :: cs)

/-- The longest unsigned numeral at the start of a text; there is none without a digit before
the exponent. -/
def scanUnsigned? (cs : List Char) : Option (Numeral × List Char) :=
  let whole := cs.takeWhile isDigit
  let (fraction, rest) := scanFraction (cs.dropWhile isDigit)
  if whole.isEmpty && (fraction.getD []).isEmpty then none
  else
    let (exponent, rest) := scanExponent rest
    some (⟨none, whole, fraction, exponent⟩, rest)

/-- The longest numeral at the start of a text. -/
def scan? (cs : List Char) : Option (Numeral × List Char) :=
  let (sign, rest) := scanSign cs
  (scanUnsigned? rest).map fun r => ({ r.1 with sign := sign }, r.2)

/-! ## Lemmas -/

theorem spelling_scanSign (cs : List Char) :
    (scanSign cs).1.toList ++ (scanSign cs).2 = cs := by
  cases cs with
  | nil => rfl
  | cons c cs => simp only [scanSign]; split <;> rfl

theorem spelling_scanFraction (cs : List Char) :
    fractionSpelling (scanFraction cs).1 ++ (scanFraction cs).2 = cs := by
  unfold scanFraction
  split
  · simp [fractionSpelling]
  · rfl

theorem spelling_scanExponent (cs : List Char) :
    exponentSpelling (scanExponent cs).1 ++ (scanExponent cs).2 = cs := by
  cases cs with
  | nil => rfl
  | cons c cs =>
    simp only [scanExponent]
    split
    · have h := spelling_scanSign cs
      simp only [exponentSpelling, Exponent.spelling, List.cons_append, List.append_assoc,
        List.takeWhile_append_dropWhile, h]
    · rfl

/-- Scanning loses nothing: the numeral and the rest spell the text. -/
theorem spelling_scanUnsigned? {cs rest : List Char} {n : Numeral}
    (h : scanUnsigned? cs = some (n, rest)) : n.spelling ++ rest = cs := by
  unfold scanUnsigned? at h
  simp only at h
  split at h
  · cases h
  · simp only [Option.some.injEq, Prod.mk.injEq] at h
    obtain ⟨rfl, rfl⟩ := h
    simp only [spelling, Option.toList_none, List.nil_append, List.append_assoc,
      spelling_scanExponent, spelling_scanFraction, List.takeWhile_append_dropWhile]

theorem spelling_scan? {cs rest : List Char} {n : Numeral} (h : scan? cs = some (n, rest)) :
    n.spelling ++ rest = cs := by
  unfold scan? at h
  simp only [Option.map_eq_some_iff] at h
  obtain ⟨⟨m, r⟩, hm, he⟩ := h
  simp only [Prod.mk.injEq] at he
  obtain ⟨rfl, rfl⟩ := he
  have hs := spelling_scanSign cs
  have hu := spelling_scanUnsigned? hm
  have hz : m.sign = none := by
    unfold scanUnsigned? at hm
    simp only at hm
    split at hm
    · cases hm
    · simp only [Option.some.injEq, Prod.mk.injEq] at hm
      rw [← hm.1]
  simp only [spelling, hz, Option.toList_none, List.nil_append] at hu
  simp only [spelling, List.append_assoc] at hu ⊢
  rw [hu, hs]

/-- A numeral takes at least one character. -/
theorem scanUnsigned?_length_lt {cs rest : List Char} {n : Numeral}
    (h : scanUnsigned? cs = some (n, rest)) : rest.length < cs.length := by
  have hl := congrArg List.length (spelling_scanUnsigned? h)
  unfold scanUnsigned? at h
  simp only at h
  split at h
  · cases h
  · next hw =>
    simp only [Option.some.injEq, Prod.mk.injEq] at h
    obtain ⟨rfl, rfl⟩ := h
    simp only [spelling, List.length_append] at hl ⊢
    cases hwhole : cs.takeWhile isDigit with
    | cons c w => simp only [hwhole, List.length_cons] at hl; omega
    | nil =>
      cases hfrac : (scanFraction (cs.dropWhile isDigit)).1 with
      | some f => simp only [hfrac, fractionSpelling, List.length_cons] at hl; omega
      | none => simp [hwhole, hfrac] at hw

end Numeral

end StyleEngine
