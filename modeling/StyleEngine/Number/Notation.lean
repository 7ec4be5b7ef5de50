import StyleEngine.Number.Decimal

/-!
# Texts of numbers

A float is written with the fewest digits that read back to it: positionally while the exponent of
the leading digit is between -4 and 15, with at least one digit after the point, and otherwise with
a signed exponent of at least two digits (`1e+16`, `1.5e-07`).  An integer with more than
`maxIntegerDigits` digits has no text, neither to be read nor to be written.
-/

namespace StyleEngine

/-! ## Integers -/

/-- How many digits the text of an integer has at most. -/
def maxIntegerDigits : Nat := 4300

def natChars (n : Nat) : List Char := Nat.toDigits 10 n

def intChars (n : Int) : List Char :=
  if n < 0 then '-' :: natChars n.natAbs else natChars n.natAbs

/-! ## Layout -/

/-- A signed exponent of at least two digits. -/
def exponentChars (e : Int) : List Char :=
  let ds := natChars e.natAbs
  (if e < 0 then '-' else '+') :: (if ds.length < 2 then '0' :: ds else ds)

def scientific (digits : List Char) (exponent : Int) : List Char :=
  digits.take 1 ++ (if digits.length ≤ 1 then [] else '.' :: digits.drop 1) ++
    'e' :: exponentChars exponent

/-- Digits with `point` of them before the decimal point. -/
def layout (digits : List Char) (point : Int) : List Char :=
  if point ≤ -4 || 16 < point then scientific digits (point - 1)
  else if point ≤ 0 then '0' :: '.' :: (List.replicate (-point).toNat '0' ++ digits)
  else if digits.length ≤ point.toNat then
    digits ++ List.replicate (point.toNat - digits.length) '0' ++ ['.', '0']
  else digits.take point.toNat ++ '.' :: digits.drop point.toNat

/-! ## Floats -/

/-- The text of the magnitude of a finite float with exact value `b`. -/
def magnitudeChars (x : Float) (b : Binary) : List Char :=
  let d := Decimal.shortest x b
  layout d.digitChars (d.digitChars.length + d.exp)

def floatChars (x : Float) : List Char :=
  let body := match Binary.ofFloat? x with
    | some b => magnitudeChars (if isNegativeFloat x then -x else x) b
    | none => if x.isNaN then ['n', 'a', 'n'] else ['i', 'n', 'f']
  if isNegativeFloat x then '-' :: body else body

end StyleEngine
