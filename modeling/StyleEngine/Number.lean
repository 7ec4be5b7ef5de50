import StyleEngine.Number.Notation

/-!
# Numbers

Integers of any size and floats.  Sums and comparisons of integers are exact; as soon as a float
takes part in a sum the integer is rounded, which fails when it exceeds the range of floats.  An
integer with too many digits is a number like any other, but it cannot be printed.
-/

namespace StyleEngine

inductive Number where
  | int (n : Int)
  | float (x : Float)
deriving DecidableEq

namespace Number

/-! ## Conversion -/

/-- The nearest float, infinity beyond the range. -/
def floatOfInt (n : Int) : Float :=
  let x := (Decimal.mk n.natAbs 0).toFloat
  if n < 0 then -x else x

/-- The nearest float. -/
def round : Number → Float
  | .float x => x
  | .int n => floatOfInt n

/-- The nearest float; none for an integer beyond the range. -/
def toFloat? : Number → Option Float
  | .float x => some x
  | .int n => if (floatOfInt n).isInf then none else some (floatOfInt n)

def isZero : Number → Bool
  | .int n => n == 0
  | .float x => x == 0

/-! ## Arithmetic -/

def add? : Number → Number → Option Number
  | .int a, .int b => some (.int (a + b))
  | a, b => do
    let x ← a.toFloat?
    let y ← b.toFloat?
    pure (.float (x + y))

def le : Number → Number → Bool
  | .int a, .int b => a ≤ b
  | .float x, .float y => x ≤ y
  | .int a, .float y => (compareIntFloat a y).any Ordering.isLE
  | .float x, .int b => (compareIntFloat b x).any Ordering.isGE

/-! ## Text -/

/-- Whether a number has a text. -/
def isPrintable : Number → Bool
  | .int n => (natChars n.natAbs).length ≤ maxIntegerDigits
  | .float _ => true

/-- The text of a number that is printable. -/
def text : Number → String
  | .int n => String.ofList (intChars n)
  | .float x => String.ofList (floatChars x)

/-- The text of a printable number, without a fraction that is zero: `30.0` is written `30`. -/
def compact : Number → String
  | .int n => String.ofList (intChars n)
  | .float x =>
    match integerOfFloat? x with
    | some n => String.ofList (intChars n)
    | none => String.ofList (floatChars x)

def compact? (n : Number) : Option String := if n.isPrintable then some n.compact else none

end Number

end StyleEngine
