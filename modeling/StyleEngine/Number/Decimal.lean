import StyleEngine.Number.Binary

/-!
# Decimals

The number `digits * 10 ^ exp`.  Reading rounds to the nearest float, ties to even.  The decimal
that stands for a float has the fewest digits that read back to it: of the two neighbours of its
exact value on a coarser grid the nearer one is taken if both read back.

    neighbour? x d drop = some e → e.toFloat == x                        (neighbour?_reads_back)
-/

namespace StyleEngine

structure Decimal where
  digits : Nat
  exp : Int
deriving DecidableEq

namespace Decimal

/-! ## Reading -/

/-- The nearest float; infinity beyond the range. -/
def toFloat (d : Decimal) : Float :=
  Float.ofScientific d.digits (decide (d.exp < 0)) d.exp.natAbs

/-! ## Writing -/

/-- The exact magnitude of a finite float, as a decimal. -/
def ofBinary (b : Binary) : Decimal :=
  if 0 ≤ b.exponent then ⟨b.mantissa.natAbs * Nat.pow 2 b.exponent.toNat, 0⟩
  else ⟨b.mantissa.natAbs * Nat.pow 5 (-b.exponent).toNat, b.exponent⟩

def digitChars (d : Decimal) : List Char := Nat.toDigits 10 d.digits

/-- The point of the grid with `drop` digits fewer that lies at or below `d`. -/
def below (d : Decimal) (drop : Nat) : Decimal := ⟨d.digits / Nat.pow 10 drop, d.exp + drop⟩

/-- The next point of that grid. -/
def above (d : Decimal) (drop : Nat) : Decimal := ⟨d.digits / Nat.pow 10 drop + 1, d.exp + drop⟩

/-- Whether `below` is nearer than `above`; halfway, whether it is even. -/
def belowNearer (d : Decimal) (drop : Nat) : Bool :=
  match compare (2 * (d.digits % Nat.pow 10 drop)) (Nat.pow 10 drop) with
  | .lt => true
  | .gt => false
  | .eq => d.digits / Nat.pow 10 drop % 2 == 0

/-- The neighbour of `d` on a coarser grid that reads back to `x`, the nearer one if both do. -/
def neighbour? (x : Float) (d : Decimal) (drop : Nat) : Option Decimal :=
  let lower := (d.below drop).toFloat == x
  let upper := (d.above drop).toFloat == x
  if lower && (d.belowNearer drop || !upper) then some (d.below drop)
  else if upper then some (d.above drop)
  else none

/-- The fewest digits of `d` that read back to `x`: grids of 1, 2, … 17 digits are tried. -/
def shorten (x : Float) (d : Decimal) : Decimal :=
  let length := d.digitChars.length
  ((List.range 17).findSome? fun n =>
    if n + 1 < length then neighbour? x d (length - (n + 1)) else some d).getD d

/-- Moves trailing zeros of the digits into the exponent. -/
def stripZeros (d : Decimal) : Nat → Decimal
  | 0 => d
  | fuel + 1 =>
    if d.digits ≠ 0 && d.digits % 10 == 0 then stripZeros ⟨d.digits / 10, d.exp + 1⟩ fuel else d

/-- The decimal that stands for a positive float with value `b`. -/
def shortest (x : Float) (b : Binary) : Decimal :=
  let d := shorten x (ofBinary b)
  d.stripZeros d.digitChars.length

/-! ## Lemmas -/

theorem neighbour?_reads_back {x : Float} {d e : Decimal} {drop : Nat}
    (h : neighbour? x d drop = some e) : (e.toFloat == x) = true := by
  unfold neighbour? at h
  dsimp only at h
  split at h
  · next hl =>
    rw [Bool.and_eq_true] at hl
    rw [← Option.some.inj h]
    exact hl.1
  · split at h
    · next hu =>
      rw [← Option.some.inj h]
      exact hu
    · cases h

end Decimal

end StyleEngine
