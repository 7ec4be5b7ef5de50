/-!
# Binary value of a float

A finite float is `mantissa * 2 ^ exponent` with integers, so questions about its exact value are
questions about integers: whether it is whole, and how it compares with an integer of any size.
-/

namespace StyleEngine

/-- The number `mantissa * 2 ^ exponent`. -/
structure Binary where
  mantissa : Int
  exponent : Int
deriving DecidableEq

namespace Binary

def powerOfTwo (n : Nat) : Int := Int.ofNat (Nat.pow 2 n)

/-- The exact value of a finite float. -/
def ofFloat? (x : Float) : Option Binary :=
  match x.toModel.unpack with
  | .finite sign mantissa exponent _ => some ⟨sign.apply mantissa, exponent⟩
  | .zero _ => some ⟨0, 0⟩
  | .infinity _ => none
  | .notANumber => none

/-- The value as an integer, if it is one. -/
def toInt? (b : Binary) : Option Int :=
  if 0 ≤ b.exponent then some (b.mantissa * powerOfTwo b.exponent.toNat)
  else
    let d := powerOfTwo (-b.exponent).toNat
    if b.mantissa % d = 0 then some (b.mantissa / d) else none

/-- The order of an integer and a value, both scaled to integers. -/
def compareInt (n : Int) (b : Binary) : Ordering :=
  compare (n * powerOfTwo (-b.exponent).toNat) (b.mantissa * powerOfTwo b.exponent.toNat)

end Binary

/-! ## Floats -/

def infinity : Float := 1 / 0

def nan : Float := 0 / 0

/-- The integer that a float equals, if it equals one. -/
def integerOfFloat? (x : Float) : Option Int := (Binary.ofFloat? x).bind Binary.toInt?

/-- The exact order of an integer and a float; none for NaN. -/
def compareIntFloat (n : Int) (x : Float) : Option Ordering :=
  match x.toModel.unpack with
  | .notANumber => none
  | .infinity .positive => some .lt
  | .infinity .negative => some .gt
  | .zero _ => some (compare n 0)
  | .finite sign mantissa exponent _ => some (Binary.compareInt n ⟨sign.apply mantissa, exponent⟩)

/-- The sign bit of a number; NaN has none. -/
def isNegativeFloat (x : Float) : Bool :=
  match x.toModel.unpack with
  | .notANumber => false
  | .infinity .negative => true
  | .zero .negative => true
  | .finite .negative _ _ _ => true
  | _ => false

end StyleEngine
