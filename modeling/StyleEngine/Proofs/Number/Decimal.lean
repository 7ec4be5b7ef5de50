import StyleEngine.Number.Decimal
import StyleEngine.Proofs.Float.Arithmetic

/-!
# Decimals are read correctly

Reading a decimal gives the float nearest to its value, whichever way it is computed.  So decimals
of one value read alike, and the exact decimal of a float reads back to it.

    d.toFloat = packed (nearest .positive d.toRat)                       (toFloat_eq)
    d.toRat = d'.toRat → d.toFloat = d'.toFloat                          (toFloat_congr)
-/

namespace StyleEngine

open Float.Model Float.Model.UnpackedFloat

/-- A float from its parts. -/
def packed (u : UnpackedFloat) : Float := .ofModel (Float.Model.pack u)

theorem packed_unpack (x : Float) : packed x.toModel.unpack = x :=
  congrArg Float.ofModel (pack_unpack x.toModel)

namespace Decimal

def toRat (d : Decimal) : Rat := d.digits * 10 ^ d.exp

/-! ## Reading in general -/

/-- With so large an exponent no digits but 0 stay in range. -/
theorem le_mul_zpow {m : Nat} {e : Int} (hm : 0 < m) (he : 2048 < e) :
    (2 : Rat) ^ (1024 : Int) ≤ m * 10 ^ e :=
  calc (2 : Rat) ^ (1024 : Int) ≤ 2 ^ e := zpow_le_zpow_right₀ one_le_two (by omega)
    _ ≤ 10 ^ e := zpow_le_zpow_left₀ (by omega) two_pos.le (by norm_num)
    _ ≤ m * 10 ^ e := le_mul_of_one_le_left (by positivity) (Nat.one_le_cast.2 hm)

/-- With so small an exponent nothing is left of the digits. -/
theorem mul_zpow_lt {m : Nat} {e : Int} (he : e < -(2048 + m.log2)) :
    (m : Rat) * 10 ^ e < 2 ^ (-1075 : Int) := by
  have hm : (m : Rat) < 2 ^ (m.log2 + 1 : Int) := by exact_mod_cast Nat.lt_log2_self (n := m)
  have hten : (10 : Rat) ^ e ≤ 2 ^ e := by
    obtain ⟨n, rfl⟩ : ∃ n : Nat, e = -n := ⟨(-e).toNat, by omega⟩
    rw [zpow_neg, zpow_neg, zpow_natCast, zpow_natCast]
    exact inv_anti₀ (by positivity) (pow_le_pow_left₀ two_pos.le (by norm_num) n)
  calc (m : Rat) * 10 ^ e ≤ m * 2 ^ e := mul_le_mul_of_nonneg_left hten (Nat.cast_nonneg m)
    _ < 2 ^ (m.log2 + 1 : Int) * 2 ^ e := mul_lt_mul_of_pos_right hm (by positivity)
    _ = 2 ^ (m.log2 + 1 + e : Int) := (zpow_add₀ two_ne_zero _ _).symm
    _ ≤ 2 ^ (-1075 : Int) := zpow_le_zpow_right₀ one_le_two (by omega)

theorem pack_ofScientific (m : Nat) (e : Int) :
    Float.Model.pack (UnpackedFloat.ofScientific Format.binary64 m e) =
      Float.Model.pack (nearest .positive (m * 10 ^ e)) := by
  unfold UnpackedFloat.ofScientific
  split
  · next hm => rw [hm, Nat.cast_zero, zero_mul, nearest_zero]
  · next hm =>
    have hpos : 0 < m := Nat.pos_of_ne_zero hm
    have hq : (0 : Rat) < m * 10 ^ e := by positivity
    split
    · next he => exact (pack_nearest_of_le hq (le_mul_zpow hpos he)).symm
    · split
      · next he => rw [nearest_of_lt hq (mul_zpow_lt he)]
      · split
        · next he =>
          have hlong : 2 ^ 52 ≤ (m <<< Format.binary64.mantissaBits) * 10 ^ e.toNat := by
            have hmant : m <<< Format.binary64.mantissaBits = m * 2 ^ 53 := Nat.shiftLeft_eq _ _
            have hten : 0 < 10 ^ e.toNat := by positivity
            rw [hmant]
            nlinarith
          have hvalue : ((m <<< Format.binary64.mantissaBits : Nat) : Rat) *
              2 ^ (-Format.binary64.mantissaBits : Int) * ((10 ^ e.toNat : Nat) * 2 ^ (0 : Int)) =
              m * 10 ^ e := by
            rw [cast_shiftLeft, ← zpow_natCast, mul_assoc (m : Rat), ← zpow_add₀ two_ne_zero,
              add_neg_cancel, zpow_zero, mul_one, mul_one, Nat.cast_pow,
              ← zpow_natCast, Int.toNat_of_nonneg he]
            rfl
          rw [mul_finite hlong, hvalue]
          rfl
        · next he =>
          have hvalue : (m : Rat) * 2 ^ (0 : Int) / ((10 ^ (-e).toNat : Nat) * 2 ^ (0 : Int)) =
              m * 10 ^ e := by
            rw [zpow_zero, mul_one, mul_one, Nat.cast_pow, ← zpow_natCast,
              Int.toNat_of_nonneg (by omega), zpow_neg, div_inv_eq_mul]
            rfl
          rw [div_finite, hvalue]
          rfl

/-! ## Reading short decimals -/

/-- A float with all its digits that has a given value. -/
def IsExact (x : Float) (q : Rat) : Prop :=
  ∃ m e h, x.toModel.unpack = .finite .positive m e h ∧ 2 ^ 52 ≤ m ∧ (m : Rat) * 2 ^ e = q

theorem IsExact.mul {x y : Float} {p q : Rat} (hx : IsExact x p) (hy : IsExact y q) :
    x * y = packed (nearest .positive (p * q)) := by
  obtain ⟨m, e, h, hxm, hm, rfl⟩ := hx
  obtain ⟨m', e', h', hym, hm', rfl⟩ := hy
  have hmul : x * y =
      packed (UnpackedFloat.mul Format.binary64 x.toModel.unpack y.toModel.unpack) := rfl
  rw [hmul, hxm, hym, mul_finite (le_trans hm (Nat.le_mul_of_pos_right m h'))]
  rfl

theorem IsExact.div {x y : Float} {p q : Rat} (hx : IsExact x p) (hy : IsExact y q) :
    x / y = packed (nearest .positive (p / q)) := by
  obtain ⟨m, e, h, hxm, hm, rfl⟩ := hx
  obtain ⟨m', e', h', hym, hm', rfl⟩ := hy
  have hdiv : x / y =
      packed (UnpackedFloat.div Format.binary64 x.toModel.unpack y.toModel.unpack) := rfl
  rw [hdiv, hxm, hym, div_finite]
  rfl

/-- What has at most 53 binary digits, and is not too small and not too large, is a float. -/
theorem isExact_packed {m : Nat} {e : Int} (h0 : 0 < m) (hm : m < 2 ^ 53) (hl : -1022 ≤ e)
    (hu : e ≤ 971) : IsExact (packed (nearest .positive (m * 2 ^ e))) (m * 2 ^ e) := by
  obtain ⟨k, hk⟩ : ∃ k, m.log2 + k = 52 :=
    ⟨52 - m.log2, Nat.add_sub_cancel' (Nat.lt_succ_iff.1 ((Nat.log2_lt h0.ne').2 hm))⟩
  have hpos : 0 < m * 2 ^ k := by positivity
  have hlow : 2 ^ 52 ≤ m * 2 ^ k := by
    rw [← hk, pow_add]
    exact Nat.mul_le_mul_right _ (Nat.log2_self_le h0.ne')
  have hhigh : m * 2 ^ k < 2 ^ 53 := by
    have hsum : 2 ^ 53 = 2 ^ (m.log2 + 1) * 2 ^ k := by rw [← pow_add]; congr 1; omega
    rw [hsum]
    exact Nat.mul_lt_mul_of_pos_right Nat.lt_log2_self (by positivity)
  have hs : Stored (m * 2 ^ k) (e - k) :=
    ⟨(canonical_iff hpos).2 ⟨hhigh, by omega, Or.inl hlow⟩, by omega⟩
  have hvalue : ((m * 2 ^ k : Nat) : Rat) * 2 ^ (e - k : Int) = m * 2 ^ e := by
    rw [zpow_sub₀ two_ne_zero, zpow_natCast]
    push_cast
    field_simp
  refine ⟨_, _, hpos, ?_, hlow, hvalue⟩
  rw [← hvalue, nearest_of_canonical hpos hs.toCanonical]
  exact unpack_pack hs

theorem isExact_toFloat {m : Nat} (h0 : 0 < m) (hm : m < 2 ^ 53) :
    IsExact m.toUInt64.toFloat m := by
  have hsize : m.toUInt64.toNat = m := by
    rw [UInt64.toNat_ofNat']
    omega
  have hround : m.toUInt64.toFloat = packed (nearest .positive (m * 2 ^ (0 : Int))) := by
    have hnormalize : m.toUInt64.toFloat =
        packed (UnpackedFloat.normalize Format.binary64 m.toUInt64.toNat 0 .positive) := rfl
    have hcompare : compare (m : Int) 0 = .gt := Int.compare_eq_gt.2 (by omega)
    rw [hnormalize, hsize, ← round_eq h0]
    unfold UnpackedFloat.normalize
    rw [hcompare]
    rfl
  have hexact := isExact_packed h0 hm (e := 0) (by decide) (by decide)
  rw [← hround] at hexact
  rwa [zpow_zero, mul_one] at hexact

theorem powerOfTen_eq : ∀ e : Fin Float.exactlyRepresentablePowersOfTen.size,
    Float.exactlyRepresentablePowersOfTen[e] =
      packed (UnpackedFloat.ofScientific Format.binary64 1 e.val) := by
  decide +kernel

/-- The powers of ten up to 10 ^ 22 are floats, since those of five have so few digits. -/
theorem isExact_powerOfTen {e : Nat} (he : e < Float.exactlyRepresentablePowersOfTen.size) :
    IsExact Float.exactlyRepresentablePowersOfTen[e] (10 ^ e) := by
  have he : e < 23 := he
  have hsmall : ∀ e : Fin 23, 5 ^ e.val < 2 ^ 53 := by decide
  have hvalue : ((5 ^ e : Nat) : Rat) * 2 ^ (e : Int) = 10 ^ e := by
    rw [zpow_natCast, Nat.cast_pow, Nat.cast_ofNat, ← mul_pow]
    norm_num
  have hexact := isExact_packed (m := 5 ^ e) (e := e) (by positivity) (hsmall ⟨e, he⟩) (by omega)
    (by omega)
  rw [hvalue] at hexact
  have htable : Float.exactlyRepresentablePowersOfTen[e] = packed (nearest .positive (10 ^ e)) := by
    refine (powerOfTen_eq ⟨e, he⟩).trans (congrArg Float.ofModel ?_)
    rw [pack_ofScientific, Nat.cast_one, one_mul, zpow_natCast]
  exact htable ▸ hexact

theorem zero_mul_of_isExact {y : Float} {q : Rat} (hy : IsExact y q) :
    (0 : Nat).toUInt64.toFloat * y = packed (.zero .positive) ∧
      (0 : Nat).toUInt64.toFloat / y = packed (.zero .positive) := by
  obtain ⟨m, e, h, hm, -⟩ := hy
  have hzero : (0 : Nat).toUInt64.toFloat.toModel.unpack = .zero .positive := rfl
  have hmul : (0 : Nat).toUInt64.toFloat * y = packed (UnpackedFloat.mul Format.binary64
      (0 : Nat).toUInt64.toFloat.toModel.unpack y.toModel.unpack) := rfl
  have hdiv : (0 : Nat).toUInt64.toFloat / y = packed (UnpackedFloat.div Format.binary64
      (0 : Nat).toUInt64.toFloat.toModel.unpack y.toModel.unpack) := rfl
  rw [hmul, hdiv, hzero, hm]
  exact ⟨rfl, rfl⟩

/-- Reading gives the nearest float: short decimals are read with one product or quotient of floats
that are exact, the others by the definition. -/
theorem toFloat_eq (d : Decimal) : d.toFloat = packed (nearest .positive d.toRat) := by
  obtain ⟨m, e⟩ := d
  unfold toFloat Float.ofScientific toRat
  dsimp only
  split
  · next h =>
    have hten := isExact_powerOfTen (Nat.lt_succ_of_le h.2)
    rcases Nat.eq_zero_or_pos m with rfl | h0
    · obtain ⟨hmul, hdiv⟩ := zero_mul_of_isExact hten
      rw [Nat.cast_zero, zero_mul, nearest_zero]
      split
      · exact hdiv
      · exact hmul
    · have hdigits := isExact_toFloat h0 h.1
      split
      · next hneg =>
        have hexp : e = -(e.natAbs : Int) := by
          have hneg := of_decide_eq_true hneg
          omega
        refine (hdigits.div hten).trans ?_
        rw [hexp, zpow_neg, zpow_natCast, Int.natAbs_neg, Int.natAbs_natCast, div_eq_mul_inv]
      · next hneg =>
        have hexp : e = (e.natAbs : Int) := by
          have hneg := of_decide_eq_false (Bool.not_eq_true _ ▸ hneg)
          omega
        refine (hdigits.mul hten).trans ?_
        rw [hexp, zpow_natCast, Int.natAbs_natCast]
  · next h =>
    have hexp : (if decide (e < 0) = true then Int.negOfNat e.natAbs
        else Int.ofNat e.natAbs) = e := by
      simp only [decide_eq_true_eq]
      split <;> simp only [Int.negOfNat_eq, Int.ofNat_eq_natCast] <;> omega
    rw [hexp]
    exact congrArg Float.ofModel (pack_ofScientific _ _)

/-- Decimals of one value read alike. -/
theorem toFloat_congr {d d' : Decimal} (h : d.toRat = d'.toRat) : d.toFloat = d'.toFloat := by
  rw [toFloat_eq, toFloat_eq, h]

/-! ## Signs -/

/-- A rounded rational is stored as it is, or as infinity. -/
theorem unpack_nearest (s : Sign) {q : Rat} (hq : 0 ≤ q) :
    (packed (nearest s q)).toModel.unpack = .zero s ∨
      (packed (nearest s q)).toModel.unpack = .infinity s ∨
      ∃ m e h, (packed (nearest s q)).toModel.unpack = .finite s m e h := by
  have hzero : (packed (.zero s)).toModel.unpack = .zero s := by cases s <;> rfl
  have hinf : (packed (.infinity s)).toModel.unpack = .infinity s := by cases s <;> rfl
  rcases hq.eq_or_lt with rfl | hq
  · rw [nearest_zero]
    exact Or.inl hzero
  · rcases nearest_cases s hq with ⟨hn, -⟩ | ⟨m, e, h, hn, hc, -, -⟩
    · rw [hn]
      exact Or.inl hzero
    · rw [hn]
      rcases lt_or_ge 971 e with he | he
      · have hpack : packed (.finite s m e h) = packed (.infinity s) :=
          congrArg Float.ofModel (pack_of_lt he)
        rw [hpack]
        exact Or.inr (Or.inl hinf)
      · exact Or.inr (Or.inr ⟨m, e, h, unpack_pack ⟨hc, he⟩⟩)

theorem isNegativeFloat_toFloat (d : Decimal) : isNegativeFloat d.toFloat = false := by
  have hq : 0 ≤ d.toRat := by unfold toRat; positivity
  rw [toFloat_eq]
  unfold isNegativeFloat
  rcases unpack_nearest .positive hq with h | h | ⟨m, e, hm, h⟩ <;> rw [h]

end Decimal

end StyleEngine
