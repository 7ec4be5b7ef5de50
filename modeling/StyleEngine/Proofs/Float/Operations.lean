import StyleEngine.Number
import StyleEngine.Proofs.Float.Error

/-!
# Operations on values

Products, quotients and differences of finite floats round the exact results, and so do decimals
and integers that are read.

    HasValue x p → HasValue y q → RoundsTo (p * q) (x * y)               (HasValue.mul)
    HasValue x p → HasValue y q → q ≠ 0 → RoundsTo (p / q) (x / y)       (HasValue.div)
    HasValue x p → HasValue y q → RoundsTo (p - q) (x - y)               (HasValue.sub)
    RoundsTo n (floatOfInt n)                                            (roundsTo_floatOfInt)
-/

namespace StyleEngine

open Float.Model Float.Model.UnpackedFloat

variable {x y : Float} {p q : Rat}

/-! ## Signs -/

theorem HasValue.neg (h : HasValue x q) : HasValue (-x) (-q) := by
  have hneg := unpack_neg x
  rcases h.cases with ⟨s, hx, rfl⟩ | ⟨s, m, e, hm, hx, -, rfl⟩ <;> rw [hx] at hneg
  · rw [neg_zero]
    exact hasValue_of_zero hneg
  · have hvalue := hasValue_of_finite hneg
    cases s <;> simpa [Sign.apply] using hvalue

theorem nearest_neg (s : Sign) (q : Rat) : nearest (-s) q = (nearest s q).neg := by
  unfold nearest settle
  dsimp only
  split <;> rfl

theorem neg_packed_nearest (s : Sign) (hq : 0 ≤ q) :
    -packed (nearest s q) = packed (nearest (-s) q) := by
  have hneg : ∀ u, -packed u = packed (packed u).toModel.unpack.neg := fun _ => rfl
  have hzero : -packed (.zero s) = packed (.zero (-s)) := by cases s <;> rfl
  have hinf : -packed (.infinity s) = packed (.infinity (-s)) := by cases s <;> rfl
  rw [nearest_neg]
  rcases hq.eq_or_lt with rfl | h0
  · rw [nearest_zero]
    exact hzero
  · rcases nearest_cases s h0 with ⟨hn, -⟩ | ⟨m, e, h, hn, hc, -, -⟩ <;> rw [hn]
    · exact hzero
    · rcases lt_or_ge 971 e with he | he
      · rw [packed_of_lt he, hinf]
        exact (packed_of_lt he).symm
      · rw [hneg]
        exact congrArg (fun u => packed u.neg) (unpack_pack ⟨hc, he⟩)

theorem RoundsTo.neg (h : RoundsTo q x) : RoundsTo (-q) (-x) := by
  rcases h with ⟨hq, rfl⟩ | ⟨hq, rfl⟩
  · refine Or.inr ⟨neg_nonpos.2 hq, ?_⟩
    rw [neg_neg]
    exact neg_packed_nearest .positive hq
  · exact Or.inl ⟨neg_nonneg.2 hq, neg_packed_nearest .negative (neg_nonneg.2 hq)⟩

/-! ## Products and quotients -/

theorem apply_mul (s s' : Sign) : (((s * s').apply 1 : Int) : Rat) = s.apply 1 * s'.apply 1 := by
  cases s <;> cases s' <;> simp [Sign.apply]

theorem apply_div (s s' : Sign) : (((s / s').apply 1 : Int) : Rat) = s.apply 1 / s'.apply 1 := by
  cases s <;> cases s' <;> simp [Sign.apply] <;> rfl

theorem HasValue.mul (hx : HasValue x p) (hy : HasValue y q) : RoundsTo (p * q) (x * y) := by
  have hmul : x * y =
      packed (UnpackedFloat.mul Format.binary64 x.toModel.unpack y.toModel.unpack) := rfl
  rcases hx.cases with ⟨s, hxu, rfl⟩ | ⟨s, m, e, hm, hxu, hxs, rfl⟩ <;>
    rcases hy.cases with ⟨s', hyu, rfl⟩ | ⟨s', m', e', hm', hyu, hys, rfl⟩ <;>
    rw [hmul, hxu, hyu]
  · rw [zero_mul]
    exact roundsTo_zero (s * s')
  · rw [zero_mul]
    exact roundsTo_zero (s * s')
  · rw [mul_zero]
    exact roundsTo_zero (s * s')
  · have hround := roundsTo_nearest (s * s')
      (by positivity : (0 : Rat) ≤ m * 2 ^ e * (m' * 2 ^ e'))
    rwa [mul_canonical hxs.toCanonical hys.toCanonical, mul_mul_mul_comm, ← apply_mul]

theorem HasValue.div (hx : HasValue x p) (hy : HasValue y q) (hq : q ≠ 0) :
    RoundsTo (p / q) (x / y) := by
  have hdiv : x / y =
      packed (UnpackedFloat.div Format.binary64 x.toModel.unpack y.toModel.unpack) := rfl
  rcases hy.cases with ⟨-, -, h0⟩ | ⟨s', m', e', hm', hyu, -, rfl⟩
  · exact absurd h0 hq
  · rcases hx.cases with ⟨s, hxu, rfl⟩ | ⟨s, m, e, hm, hxu, -, rfl⟩ <;> rw [hdiv, hxu, hyu]
    · rw [zero_div]
      exact roundsTo_zero (s / s')
    · have hround := roundsTo_nearest (s / s')
        (by positivity : (0 : Rat) ≤ m * 2 ^ e / (m' * 2 ^ e'))
      rwa [div_finite, mul_div_mul_comm, ← apply_div]

/-! ## Differences -/

theorem roundsTo_normalize (k e : Int) :
    RoundsTo (k * 2 ^ e) (packed (UnpackedFloat.normalize Format.binary64 k e .positive)) := by
  have hpow : (0 : Rat) < 2 ^ e := by positivity
  unfold UnpackedFloat.normalize
  rcases lt_trichotomy k 0 with hk | rfl | hk
  · have hcast : (((-k).toNat : Nat) : Rat) = -k := by
      exact_mod_cast Int.toNat_of_nonneg (neg_nonneg.2 hk.le)
    rw [Int.compare_eq_lt.2 hk, round_eq (by omega : 0 < (-k).toNat), hcast, neg_mul]
    exact Or.inr ⟨mul_nonpos_of_nonpos_of_nonneg (Int.cast_nonpos.2 hk.le) hpow.le, rfl⟩
  · rw [Int.cast_zero, zero_mul]
    exact roundsTo_zero .positive
  · have hcast : ((k.toNat : Nat) : Rat) = k := by exact_mod_cast Int.toNat_of_nonneg hk.le
    rw [Int.compare_eq_gt.2 hk, round_eq (by omega : 0 < k.toNat), hcast]
    exact Or.inl ⟨mul_nonneg (Int.cast_nonneg hk.le) hpow.le, rfl⟩

theorem cast_decreaseExponent {m : Nat} {e t : Int} (h : t ≤ e) :
    ((decreaseExponent m e t).1 : Rat) * 2 ^ t = m * 2 ^ e := by
  rw [← cast_mul_pow h, decreaseExponent, Nat.shiftLeft_eq]

theorem roundsTo_stored {s : Sign} {m : Nat} {e : Int} {h : 0 < m} (hs : Stored m e) :
    RoundsTo (s.apply 1 * (m * 2 ^ e)) (packed (.finite s m e h)) := by
  have hround := roundsTo_nearest s (by positivity : (0 : Rat) ≤ m * 2 ^ e)
  rwa [nearest_of_canonical h hs.toCanonical] at hround

theorem HasValue.sub (hx : HasValue x p) (hy : HasValue y q) : RoundsTo (p - q) (x - y) := by
  have hsub : x - y =
      packed (UnpackedFloat.sub Format.binary64 x.toModel.unpack y.toModel.unpack) := rfl
  rcases hx.cases with ⟨s, hxu, rfl⟩ | ⟨s, m, e, hm, hxu, hxs, rfl⟩ <;>
    rcases hy.cases with ⟨s', hyu, rfl⟩ | ⟨s', m', e', hm', hyu, hys, rfl⟩ <;>
    rw [hsub, hxu, hyu]
  · obtain ⟨t, ht⟩ : ∃ t, UnpackedFloat.sub Format.binary64 (.zero s) (.zero s') = .zero t := by
      cases s <;> cases s' <;> exact ⟨_, rfl⟩
    rw [ht, sub_zero]
    exact roundsTo_zero t
  · have hround := @roundsTo_stored (-s') m' e' hm' hys
    have hneg : (((-s').apply 1 : Int) : Rat) = -s'.apply 1 := by cases s' <;> rfl
    rwa [hneg, neg_mul, ← zero_sub] at hround
  · rw [sub_zero]
    exact @roundsTo_stored s m e hm hxs
  · -- both are written with the smaller exponent, so the mantissas are subtracted as integers
    have hround := roundsTo_normalize
      (s.apply (decreaseExponent m e (min e e')).1 - s'.apply (decreaseExponent m' e' (min e e')).1)
      (min e e')
    rwa [Int.cast_sub, sub_mul, cast_apply, cast_apply, mul_assoc, mul_assoc,
      cast_decreaseExponent (min_le_left e e'), cast_decreaseExponent (min_le_right e e')] at hround

/-- Values are whole multiples of the least float. -/
theorem HasValue.exists_multiple (h : HasValue x p) : ∃ k : Int, p = k * 2 ^ (-1074 : Int) := by
  rcases h.cases with ⟨-, -, rfl⟩ | ⟨s, m, e, hm, -, hs, rfl⟩
  · exact ⟨0, by rw [Int.cast_zero, zero_mul]⟩
  · obtain ⟨-, hmin, -⟩ := (canonical_iff hm).1 hs.toCanonical
    refine ⟨s.apply 1 * (m * 2 ^ (e - -1074).toNat : Nat), ?_⟩
    rw [← cast_mul_pow hmin, Int.cast_mul, Int.cast_natCast, mul_assoc]

theorem hasValue_zero : HasValue 0 0 := @hasValue_of_zero 0 .positive rfl

theorem hasValue_one : HasValue 1 1 := by
  have h := @hasValue_of_finite 1 .positive (2 ^ 52) (-52) (by decide) rfl
  norm_num [Sign.apply] at h
  exact h

theorem hasValue_hundred : HasValue 100 100 := by
  have h := @hasValue_of_finite 100 .positive (100 * 2 ^ 46) (-46) (by decide) rfl
  norm_num [Sign.apply] at h
  exact h

/-- A difference that is not zero is not rounded to zero. -/
theorem HasValue.sub_nonneg_iff {r : Rat} (hx : HasValue x p) (hy : HasValue y q)
    (hr : HasValue (x - y) r) : 0 ≤ r ↔ q ≤ p := by
  have hround := hx.sub hy
  refine ⟨fun h => ?_, fun h => hround.ge_of_ge hr hasValue_zero (sub_nonneg.2 h)⟩
  by_contra hlt
  have hlt : p - q < 0 := sub_neg.2 (not_le.1 hlt)
  have hpow : (0 : Rat) < 2 ^ (-1074 : Int) := by positivity
  obtain ⟨k, hk⟩ := hx.exists_multiple
  obtain ⟨k', hk'⟩ := hy.exists_multiple
  have hleast : HasValue (packed (.finite .negative 1 (-1074) one_pos)) (-2 ^ (-1074 : Int)) := by
    have hs : Stored 1 (-1074) := ⟨(canonical_iff one_pos).2 (by decide), by decide⟩
    have hcast : ((Sign.negative.apply 1 : Int) : Rat) * ((1 : Nat) * 2 ^ (-1074 : Int)) =
        -2 ^ (-1074 : Int) := by
      simp only [Sign.apply, Int.cast_neg, Int.cast_one, Nat.cast_one, neg_mul, one_mul]
    rw [← hcast]
    exact hasValue_of_finite (unpack_pack hs)
  have hle : p - q ≤ -2 ^ (-1074 : Int) := by
    rw [hk, hk', ← sub_mul, ← Int.cast_sub] at hlt ⊢
    have hneg : k - k' < 0 := Int.cast_lt_zero.1 (neg_of_mul_neg_left hlt hpow.le)
    have hone : ((k - k' : Int) : Rat) ≤ -1 := by exact_mod_cast Int.le_sub_one_of_lt hneg
    linarith [mul_le_mul_of_nonneg_right hone hpow.le]
  linarith [hround.le_of_le hr hleast hle]

/-! ## Operands of finite results -/

/-- Infinity or NaN. -/
def NotFinite (u : UnpackedFloat) : Prop := (∃ s, u = .infinity s) ∨ u = .notANumber

theorem notFinite_of_isFinite (h : x.isFinite = false) : NotFinite x.toModel.unpack := by
  rw [isFinite_eq] at h
  cases hx : x.toModel.unpack with
  | infinity s => exact Or.inl ⟨s, rfl⟩
  | notANumber => exact Or.inr rfl
  | zero s =>
    rw [hx] at h
    cases h
  | finite s m e hm =>
    rw [hx] at h
    cases h

theorem NotFinite.isFinite_packed {u : UnpackedFloat} (h : NotFinite u) :
    (packed u).isFinite = false := by
  rcases h with ⟨s, rfl⟩ | rfl
  · exact isFinite_infinity s
  · rfl

section
variable {u v : UnpackedFloat}

theorem NotFinite.sub (h : NotFinite v) (u : UnpackedFloat) :
    NotFinite (UnpackedFloat.sub Format.binary64 u v) := by
  rcases h with ⟨s, rfl⟩ | rfl <;> cases u <;> unfold NotFinite UnpackedFloat.sub <;> grind

theorem NotFinite.mul (h : NotFinite v) (u : UnpackedFloat) :
    NotFinite (UnpackedFloat.mul Format.binary64 u v) := by
  rcases h with ⟨s, rfl⟩ | rfl <;> cases u <;> unfold NotFinite UnpackedFloat.mul <;> grind

theorem NotFinite.mul_left (h : NotFinite u) (v : UnpackedFloat) :
    NotFinite (UnpackedFloat.mul Format.binary64 u v) := by
  rcases h with ⟨s, rfl⟩ | rfl <;> cases v <;> unfold NotFinite UnpackedFloat.mul <;> grind

theorem NotFinite.div (h : NotFinite u) (v : UnpackedFloat) :
    NotFinite (UnpackedFloat.div Format.binary64 u v) := by
  rcases h with ⟨s, rfl⟩ | rfl <;> cases v <;> unfold NotFinite UnpackedFloat.div <;> grind

end

theorem isFinite_of_sub (h : (x - y).isFinite = true) : y.isFinite = true := by
  by_contra hy
  have hinf := (notFinite_of_isFinite (Bool.not_eq_true _ ▸ hy)).sub x.toModel.unpack
  exact Bool.false_ne_true (hinf.isFinite_packed.symm.trans h)

theorem isFinite_of_mul (h : (x * y).isFinite = true) : y.isFinite = true := by
  by_contra hy
  have hinf := (notFinite_of_isFinite (Bool.not_eq_true _ ▸ hy)).mul x.toModel.unpack
  exact Bool.false_ne_true (hinf.isFinite_packed.symm.trans h)

theorem isFinite_of_mul_left (h : (x * y).isFinite = true) : x.isFinite = true := by
  by_contra hx
  have hinf := (notFinite_of_isFinite (Bool.not_eq_true _ ▸ hx)).mul_left y.toModel.unpack
  exact Bool.false_ne_true (hinf.isFinite_packed.symm.trans h)

theorem isFinite_of_div (h : (x / y).isFinite = true) : x.isFinite = true := by
  by_contra hx
  have hinf := (notFinite_of_isFinite (Bool.not_eq_true _ ▸ hx)).div y.toModel.unpack
  exact Bool.false_ne_true (hinf.isFinite_packed.symm.trans h)

/-- What is divided by infinity is zero. -/
theorem hasValue_div_infinite (hy : y.isFinite = false) (h : (x / y).isFinite = true) :
    HasValue (x / y) 0 := by
  have hdiv : x / y =
      packed (UnpackedFloat.div Format.binary64 x.toModel.unpack y.toModel.unpack) := rfl
  obtain ⟨p, hp⟩ := isFinite_iff.1 (isFinite_of_div h)
  rcases notFinite_of_isFinite hy with ⟨s', hy⟩ | hy
  · have hzero : ∀ s, HasValue (packed (.zero s)) 0 := fun s =>
      hasValue_of_zero (unpack_packed_zero s)
    rw [hdiv, hy]
    rcases hp.cases with ⟨s, hx, -⟩ | ⟨s, m, e, hm, hx, -⟩ <;> rw [hx] <;> exact hzero (s / s')
  · have hinf : NotFinite
        (UnpackedFloat.div Format.binary64 x.toModel.unpack y.toModel.unpack) := by
      rw [hy]
      cases x.toModel.unpack <;> exact Or.inr rfl
    rw [hdiv, hinf.isFinite_packed] at h
    cases h

/-! ## Decimals and integers -/

theorem roundsTo_toFloat (d : Decimal) : RoundsTo d.toRat d.toFloat :=
  Or.inl ⟨by unfold Decimal.toRat; positivity, Decimal.toFloat_eq d⟩

theorem roundsTo_floatOfInt (n : Int) : RoundsTo n (Number.floatOfInt n) := by
  have habs : RoundsTo n.natAbs (Decimal.mk n.natAbs 0).toFloat := by
    have h := roundsTo_toFloat ⟨n.natAbs, 0⟩
    rwa [Decimal.toRat, zpow_zero, mul_one] at h
  unfold Number.floatOfInt
  dsimp only
  split
  · next hn =>
    have hneg := habs.neg
    rwa [Nat.cast_natAbs, abs_of_neg hn, Int.cast_neg, neg_neg] at hneg
  · next hn =>
    rwa [Nat.cast_natAbs, abs_of_nonneg (not_lt.1 hn)] at habs

theorem Decimal.IsExact.hasValue (h : Decimal.IsExact x q) : HasValue x q := by
  obtain ⟨m, e, hm, hx, -, rfl⟩ := h
  have hvalue := hasValue_of_finite hx
  rwa [Sign.apply, Int.cast_one, one_mul] at hvalue

/-- Integers up to 2 ^ 53 are floats. -/
theorem exists_hasValue_natCast {n : Nat} (h0 : 0 < n) (hn : n ≤ 2 ^ 53) : ∃ y, HasValue y n := by
  rcases hn.eq_or_lt with rfl | hlt
  · have h := Decimal.isExact_packed one_pos (by decide) (by decide : -1022 ≤ 53) (by decide)
    rw [Nat.cast_one, one_mul] at h
    exact ⟨_, by exact_mod_cast h.hasValue⟩
  · have h := Decimal.isExact_packed h0 hlt (by decide : -1022 ≤ 0) (by decide)
    rw [zpow_zero, mul_one] at h
    exact ⟨_, h.hasValue⟩

end StyleEngine
