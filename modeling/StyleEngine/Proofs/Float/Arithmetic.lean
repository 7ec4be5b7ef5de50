import StyleEngine.Proofs.Float.Rounding

/-!
# Products and quotients

Products, quotients and integers are rounded once, so each is the float nearest to the exact
result.

    round .. s m e = nearest s (m * 2 ^ e)                               (round_eq)
    mul .. (.finite s m e _) (.finite s' m' e' _) =
      nearest (s * s') (m * 2 ^ e * (m' * 2 ^ e'))                       (mul_finite)
    div .. (.finite s m e _) (.finite s' m' e' _) =
      nearest (s / s') (m * 2 ^ e / (m' * 2 ^ e'))                       (div_finite)
-/

namespace StyleEngine

open Float.Model Float.Model.UnpackedFloat

variable {s s' : Sign} {m m' : Nat} {e e' : Int}

/-! ## Shifting to the left -/

theorem cast_shiftLeft (m n : Nat) : ((m <<< n : Nat) : Rat) = m * 2 ^ n := by
  rw [Nat.shiftLeft_eq, Nat.cast_mul, Nat.cast_pow, Nat.cast_ofNat]

/-! ## Integers and products -/

theorem roundWithAccuracy_exact (hm : 0 < m) (he : e ≤ place (m * 2 ^ e)) :
    roundWithAccuracy Format.binary64 s m e .exact = nearest s (m * 2 ^ e) :=
  roundWithAccuracy_eq (by positivity) he (by rw [mul_zpow_div, extended_natCast])

/-- Rounding gives a mantissa more digits first, so the exponent is small enough to start with. -/
theorem round_eq (hm : 0 < m) :
    UnpackedFloat.round Format.binary64 s m e = nearest s (m * 2 ^ e) := by
  unfold UnpackedFloat.round
  rw [← place_mul_zpow hm]
  dsimp only [decreaseExponent]
  have hvalue : ((m <<< (e - place (m * 2 ^ e)).toNat : Nat) : Rat) *
      2 ^ (e - (e - place (m * 2 ^ e)).toNat : Int) = m * 2 ^ e := by
    rw [cast_shiftLeft, mul_assoc, ← zpow_natCast, ← zpow_add₀ two_ne_zero, add_sub_cancel]
  have hpos : 0 < m <<< (e - place (m * 2 ^ e)).toNat := by
    rw [Nat.shiftLeft_eq]
    positivity
  have hround := @roundWithAccuracy_exact s _ (e - (e - place (m * 2 ^ e)).toNat : Int) hpos
  rw [hvalue] at hround
  exact hround (by omega)

theorem mul_of_le_place {h : 0 < m} {h' : 0 < m'}
    (he : e + e' ≤ place (m * 2 ^ e * (m' * 2 ^ e'))) :
    UnpackedFloat.mul Format.binary64 (.finite s m e h) (.finite s' m' e' h') =
      nearest (s * s') (m * 2 ^ e * (m' * 2 ^ e')) := by
  have hvalue : ((m * m' : Nat) : Rat) * 2 ^ (e + e') = m * 2 ^ e * (m' * 2 ^ e') := by
    rw [zpow_add₀ two_ne_zero, Nat.cast_mul]
    ring
  rw [← hvalue] at he ⊢
  exact roundWithAccuracy_exact (Nat.mul_pos h h') he

theorem mul_finite {h : 0 < m} {h' : 0 < m'} (hm : 2 ^ 52 ≤ m * m') :
    UnpackedFloat.mul Format.binary64 (.finite s m e h) (.finite s' m' e' h') =
      nearest (s * s') (m * 2 ^ e * (m' * 2 ^ e')) := by
  have hpos : 0 < m * m' := Nat.mul_pos h h'
  have hvalue : ((m * m' : Nat) : Rat) * 2 ^ (e + e') = m * 2 ^ e * (m' * 2 ^ e') := by
    rw [zpow_add₀ two_ne_zero, Nat.cast_mul]
    ring
  have hlog := (Nat.le_log2 hpos.ne').2 hm
  refine mul_of_le_place ?_
  rw [← hvalue, place_mul_zpow hpos, targetExponent_eq, totalExponent]
  omega

/-- A product of two floats at the least exponent is far below every place. -/
theorem mul_canonical {h : 0 < m} {h' : 0 < m'} (hm : Canonical m e) (hm' : Canonical m' e') :
    UnpackedFloat.mul Format.binary64 (.finite s m e h) (.finite s' m' e' h') =
      nearest (s * s') (m * 2 ^ e * (m' * 2 ^ e')) := by
  rcases Nat.lt_or_ge (m * m') (2 ^ 52) with hlt | hge
  · obtain ⟨-, -, hl⟩ := (canonical_iff h).1 hm
    obtain ⟨-, -, hl'⟩ := (canonical_iff h').1 hm'
    have hshort : m < 2 ^ 52 := lt_of_le_of_lt (Nat.le_mul_of_pos_right m h') hlt
    have hshort' : m' < 2 ^ 52 := lt_of_le_of_lt (Nat.le_mul_of_pos_left m' h) hlt
    refine mul_of_le_place ?_
    rw [place, targetExponent_eq]
    omega
  · exact mul_finite hge

/-! ## Quotients -/

/-- A quotient has at most one digit less than the positions of the first digits tell. -/
theorem log_div_ge {a b : Rat} (ha : 0 < a) (hb : 0 < b) :
    Int.log 2 a - (Int.log 2 b + 1) ≤ Int.log 2 (a / b) := by
  rw [← Int.zpow_le_iff_le_log one_lt_two (div_pos ha hb), le_div_iff₀ hb]
  calc ((2 : Nat) : Rat) ^ (Int.log 2 a - (Int.log 2 b + 1)) * b
      ≤ ((2 : Nat) : Rat) ^ (Int.log 2 a - (Int.log 2 b + 1)) *
          ((2 : Nat) : Rat) ^ (Int.log 2 b + 1) := by
        have hlt := Int.lt_zpow_succ_log_self one_lt_two b
        gcongr
    _ = ((2 : Nat) : Rat) ^ Int.log 2 a := by
        rw [← zpow_add₀ (by norm_num), sub_add_cancel]
    _ ≤ a := Int.zpow_log_le_self one_lt_two ha

theorem div_finite {h : 0 < m} {h' : 0 < m'} :
    UnpackedFloat.div Format.binary64 (.finite s m e h) (.finite s' m' e' h') =
      nearest (s / s') (m * 2 ^ e / (m' * 2 ^ e')) := by
  have hm : (0 : Rat) < m * 2 ^ e := by positivity
  have hm' : (0 : Rat) < m' * 2 ^ e' := by positivity
  have htarget : Format.binary64.targetExponent (totalExponent m e - totalExponent m' e') ≤
      place (m * 2 ^ e / (m' * 2 ^ e')) := by
    have hlog := log_div_ge hm hm'
    rw [log_mul_zpow h, log_mul_zpow h'] at hlog
    rw [place, targetExponent_eq, targetExponent_eq, totalExponent, totalExponent]
    omega
  unfold UnpackedFloat.div
  dsimp only [divCore]
  generalize ht : min (e - e') (Format.binary64.targetExponent
    (totalExponent m e - totalExponent m' e')) = t
  have hscale : ((m <<< (e - e' - t).toNat : Nat) : Rat) / m' =
      m * 2 ^ e / (m' * 2 ^ e') / 2 ^ t := by
    have hshift : ((e - e' - t).toNat : Int) = e - e' - t := by omega
    rw [cast_shiftLeft, ← zpow_natCast, hshift, zpow_sub₀ two_ne_zero, zpow_sub₀ two_ne_zero]
    field_simp
  refine roundWithAccuracy_eq (div_pos hm hm') (by omega) ?_
  rw [← extended_div _ h', hscale]

end StyleEngine
