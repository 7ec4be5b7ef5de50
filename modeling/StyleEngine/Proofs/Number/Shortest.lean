import StyleEngine.Number.Notation
import StyleEngine.Proofs.Number.Decimal

/-!
# The decimal that stands for a float reads back to it

The exact decimal of a float reads back to it since it rounds to itself.  A shorter one is taken
only if it reads back, and moving zeros into the exponent keeps its value.

    Binary.ofFloat? x = some b → (ofBinary b).toFloat = x.abs            (toFloat_ofBinary)
    Binary.ofFloat? x = some b → (shortest x.abs b).toFloat = x.abs      (toFloat_shortest)
-/

namespace StyleEngine

open Float.Model Float.Model.UnpackedFloat

/-! ## Signs -/

section
variable (x : Float)

theorem unpack_neg : (-x).toModel.unpack = x.toModel.unpack.neg := by
  have hneg : (-x).toModel.unpack = (packed x.toModel.unpack.neg).toModel.unpack := rfl
  rw [hneg]
  cases hx : x.toModel.unpack with
  | notANumber => rfl
  | infinity s => cases s <;> rfl
  | zero s => cases s <;> rfl
  | finite s m e h => exact unpack_pack (stored_of_unpack hx)

theorem neg_neg_float : - -x = x := by
  have hneg : ∀ u : UnpackedFloat, u.neg.neg = u := by
    rintro (s | _ | s | ⟨s, m, e, h⟩) <;> first | rfl | (cases s <;> rfl)
  calc - -x = packed (-x).toModel.unpack.neg := rfl
    _ = packed x.toModel.unpack := by rw [unpack_neg, hneg]
    _ = x := packed_unpack x

theorem unpack_abs : x.abs.toModel.unpack = x.toModel.unpack.abs := by
  have habs : x.abs.toModel.unpack = (packed x.toModel.unpack.abs).toModel.unpack := rfl
  rw [habs]
  cases hx : x.toModel.unpack with
  | notANumber => rfl
  | infinity s => cases s <;> rfl
  | zero s => cases s <;> rfl
  | finite s m e h => exact @unpack_pack .positive m e h (stored_of_unpack hx)

theorem isNegativeFloat_abs : isNegativeFloat x.abs = false := by
  rw [isNegativeFloat, unpack_abs]
  cases x.toModel.unpack <;> rfl

/-- The magnitude is the float itself or the opposite one. -/
theorem abs_eq_ite : x.abs = if isNegativeFloat x then -x else x := by
  have habs : x.abs = packed x.toModel.unpack.abs := rfl
  have hneg : -x = packed x.toModel.unpack.neg := rfl
  have hself := packed_unpack x
  rw [habs, hneg, isNegativeFloat]
  cases hx : x.toModel.unpack with
  | notANumber => rw [← hself, hx]; rfl
  | infinity s => cases s <;> [rfl; (rw [← hself, hx]; rfl)]
  | zero s => cases s <;> [rfl; (rw [← hself, hx]; rfl)]
  | finite s m e h => cases s <;> [rfl; (rw [← hself, hx]; rfl)]

theorem isFinite_eq : x.isFinite = x.toModel.unpack.isFinite := rfl

theorem isFinite_abs : x.abs.isFinite = x.isFinite := by
  rw [isFinite_eq, isFinite_eq, unpack_abs]
  cases x.toModel.unpack <;> rfl

end

theorem isFinite_of_ofFloat? {x : Float} {b : Binary} (h : Binary.ofFloat? x = some b) :
    x.isFinite = true := by
  rw [isFinite_eq]
  unfold Binary.ofFloat? at h
  cases hx : x.toModel.unpack <;> rw [hx] at h <;> first | rfl | cases h

theorem beq_self_of_isFinite {x : Float} (h : x.isFinite = true) : (x == x) = true := by
  refine Float.beq_self_iff.2 ?_
  rintro rfl
  cases h

theorem isFinite_of_beq {x y : Float} (h : (x == y) = true) (hy : y.isFinite = true) :
    x.isFinite = true := by
  obtain ⟨-, -, rfl | ⟨rfl, -⟩ | ⟨rfl, -⟩⟩ := Float.beq_iff_ne_nan_and_eq.1 h
  · exact hy
  · rfl
  · rfl

/-- Equal numbers without a sign are the same float. -/
theorem eq_of_beq {x y : Float} (h : (x == y) = true) (hx : isNegativeFloat x = false)
    (hy : isNegativeFloat y = false) : x = y := by
  have hneg : isNegativeFloat (-0) = true := by decide
  obtain ⟨-, -, h | ⟨-, h⟩ | ⟨h, -⟩⟩ := Float.beq_iff_ne_nan_and_eq.1 h
  · exact h
  · rw [h, hneg] at hy
    cases hy
  · rw [h, hneg] at hx
    cases hx

namespace Decimal

/-! ## The exact decimal of a float -/

theorem toRat_ofBinary (b : Binary) :
    (ofBinary b).toRat = b.mantissa.natAbs * 2 ^ b.exponent := by
  unfold ofBinary toRat
  split
  · next h =>
    obtain ⟨n, hn⟩ := Int.eq_ofNat_of_zero_le h
    rw [hn]
    simp
  · next h =>
    obtain ⟨n, hn⟩ : ∃ n : Nat, b.exponent = -n := ⟨(-b.exponent).toNat, by omega⟩
    have hpow : ((5 : Rat) ^ n) * 10 ^ (-n : Int) = 2 ^ (-n : Int) := by
      rw [zpow_neg, zpow_neg, zpow_natCast, zpow_natCast, show (10 : Rat) = 5 * 2 by norm_num,
        mul_pow, mul_inv, mul_inv_cancel_left₀ (by positivity)]
    have hpow' : ∀ k, Nat.pow 5 k = 5 ^ k := fun _ => rfl
    rw [hn, neg_neg, Int.toNat_natCast, hpow']
    push_cast
    rw [mul_assoc, hpow]

theorem toFloat_ofBinary {x : Float} {b : Binary} (h : Binary.ofFloat? x = some b) :
    (ofBinary b).toFloat = x.abs := by
  have habs : x.abs = packed x.toModel.unpack.abs := rfl
  rw [toFloat_eq, toRat_ofBinary, habs]
  unfold Binary.ofFloat? at h
  split at h
  · next s m e hm hx =>
    cases h
    have hnat : (s.apply m).natAbs = m := by cases s <;> simp [Sign.apply]
    rw [hnat, nearest_of_canonical hm (stored_of_unpack hx).toCanonical, hx]
    rfl
  · next s hx =>
    cases h
    rw [Int.natAbs_zero, Nat.cast_zero, zero_mul, nearest_zero, hx]
    rfl
  · cases h
  · cases h

/-! ## Shorter decimals -/

/-- Every candidate reads back, and so does the decimal that is left if there is none. -/
theorem toFloat_shorten {x : Float} {d : Decimal} (h : (d.toFloat == x) = true) :
    ((shorten x d).toFloat == x) = true := by
  unfold shorten
  dsimp only
  cases hs : (List.range 17).findSome? _ with
  | none => exact h
  | some e =>
    obtain ⟨n, -, hn⟩ := List.exists_of_findSome?_eq_some hs
    split at hn
    · exact neighbour?_reads_back hn
    · rw [← Option.some.inj hn]
      exact h

theorem toRat_stripZeros (d : Decimal) (fuel : Nat) : (d.stripZeros fuel).toRat = d.toRat := by
  induction fuel generalizing d with
  | zero => rfl
  | succ fuel ih =>
    unfold stripZeros
    split
    · next h =>
      simp only [ne_eq, decide_not, Bool.and_eq_true, beq_iff_eq] at h
      have hdigits : d.digits = 10 * (d.digits / 10) := by omega
      have hcast : (d.digits : Rat) = 10 * (d.digits / 10 : Nat) := by exact_mod_cast hdigits
      rw [ih, toRat, toRat, hcast, zpow_add_one₀ (by norm_num)]
      ring
    · rfl

/-- The decimal by which a float is written reads back to its magnitude. -/
theorem toFloat_shortest {x : Float} {b : Binary} (h : Binary.ofFloat? x = some b) :
    (shortest x.abs b).toFloat = x.abs := by
  have hself : ((ofBinary b).toFloat == x.abs) = true := by
    rw [toFloat_ofBinary h]
    exact beq_self_of_isFinite (isFinite_abs x ▸ isFinite_of_ofFloat? h)
  have hshort : (shorten x.abs (ofBinary b)).toFloat = x.abs :=
    eq_of_beq (toFloat_shorten hself) (isNegativeFloat_toFloat _) (isNegativeFloat_abs x)
  unfold shortest
  exact (toFloat_congr (toRat_stripZeros _ _)).trans hshort

end Decimal

end StyleEngine
