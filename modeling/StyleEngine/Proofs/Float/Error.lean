import StyleEngine.Proofs.Float.Value
import StyleEngine.Proofs.Number.Shortest

/-!
# Rounding errors

A rational and the float that it rounds to are at most half a last place apart.  So rounding never
passes a float: what is not greater than a float does not round to a greater one.

    |rounding q - q| ≤ 2 ^ place q / 2                                   (rounding_error)
    RoundsTo q x → HasValue x r → HasValue y t → q ≤ t → r ≤ t           (RoundsTo.le_of_le)
    RoundsTo q x → HasValue x r → |r - q| ≤ |q| / 2 ^ 53 + 2 ^ (-1075)   (RoundsTo.error)
    RoundsTo q x → |q| ≤ 2 ^ 1023 → x.isFinite                           (RoundsTo.isFinite)
    RoundsTo q x → HasValue y q → HasValue x q                           (RoundsTo.hasValue)
-/

namespace StyleEngine

open Float.Model Float.Model.UnpackedFloat

/-! ## The last place -/

section
variable {q : Rat} {m : Nat} {e : Int}

/-- Whether a fraction is dropped or carried, that is a change by a half at most. -/
theorem roundedMantissa_error (hq : 0 ≤ q) :
    |((extended q).roundedMantissa : Rat) - q| ≤ 1 / 2 := by
  obtain ⟨n, f, h0, h1, rfl⟩ : ∃ (n : Nat) (f : Rat), 0 ≤ f ∧ f < 1 ∧ q = n + f := by
    refine ⟨⌊q⌋₊, q - ⌊q⌋₊, sub_nonneg.2 (Nat.floor_le hq), ?_, by ring⟩
    linarith [Nat.lt_floor_add_one q]
  have hdown : ∀ sticky, ExtendedMantissa.roundedMantissa ⟨n, false, sticky⟩ = n := by
    intro sticky
    cases sticky <;> rfl
  have hup : ExtendedMantissa.roundedMantissa ⟨n, true, true⟩ = n + 1 := rfl
  have heven : ExtendedMantissa.roundedMantissa ⟨n, true, false⟩ = n + n % 2 := rfl
  rw [extended_add n h0 h1, abs_le]
  by_cases hround : 1 / 2 ≤ f
  · rw [decide_eq_true hround]
    by_cases hhalf : f = 1 / 2
    · have hbit : (0 : Rat) ≤ (n % 2 : Nat) ∧ ((n % 2 : Nat) : Rat) ≤ 1 :=
        ⟨Nat.cast_nonneg _, by exact_mod_cast Nat.lt_succ_iff.1 (Nat.mod_lt n two_pos)⟩
      rw [decide_eq_false (fun h => h.2 hhalf), heven, hhalf, Nat.cast_add]
      constructor <;> linarith
    · have hne : f ≠ 0 ∧ f ≠ 1 / 2 := ⟨by linarith, hhalf⟩
      rw [decide_eq_true hne, hup, Nat.cast_add, Nat.cast_one]
      constructor <;> linarith
  · rw [decide_eq_false hround, hdown]
    constructor <;> linarith

theorem rounding_zero : rounding 0 = 0 := by
  have hzero : (extended (0 : Nat)).roundedMantissa = 0 := by
    rw [extended_natCast]
    rfl
  rw [rounding, zero_div, ← Nat.cast_zero, hzero, Nat.cast_zero, zero_mul]

theorem rounding_error (hq : 0 ≤ q) : |rounding q - q| ≤ 2 ^ place q / 2 := by
  have hpow : (0 : Rat) < 2 ^ place q := by positivity
  have hscale : rounding q - q =
      ((extended (q / 2 ^ place q)).roundedMantissa - q / 2 ^ place q) * 2 ^ place q := by
    rw [sub_mul, div_mul_cancel₀ _ hpow.ne']
    rfl
  rw [hscale, abs_mul, abs_of_pos hpow]
  calc _ ≤ 1 / 2 * (2 : Rat) ^ place q :=
        mul_le_mul_of_nonneg_right (roundedMantissa_error (by positivity)) hpow.le
    _ = 2 ^ place q / 2 := by ring

/-- The last place is small beside the value, unless it is the least one. -/
theorem place_le (h0 : 0 < q) : (2 : Rat) ^ place q ≤ q / 2 ^ 52 + 2 ^ (-1074 : Int) := by
  obtain ⟨-, hfull, -⟩ := scaled_bounds h0
  have hleast : (0 : Rat) < 2 ^ (-1074 : Int) := by positivity
  rcases hfull with h | h
  · rw [le_div_iff₀ (by positivity)] at h
    have hle : (2 : Rat) ^ place q ≤ q / 2 ^ 52 := by
      rw [le_div_iff₀ (by positivity), mul_comm]
      exact h
    linarith
  · rw [h]
    have hpos : 0 < q / 2 ^ 52 := by positivity
    linarith

theorem place_mono {q' : Rat} (h0 : 0 < q) (h : q ≤ q') : place q ≤ place q' := by
  have hlog := Int.log_mono_right h0 h (b := 2)
  rw [place, place, targetExponent_eq, targetExponent_eq]
  omega

theorem Canonical.place_eq (hc : Canonical m e) : place (m * 2 ^ e) = e := by
  rw [place_mul_zpow hc.pos, hc.target]

/-- The next float is a last place away at least. -/
theorem Canonical.next_le {m' : Nat} {e' : Int} (hc : Canonical m e) (hc' : Canonical m' e')
    (h : (m : Rat) * 2 ^ e < m' * 2 ^ e') : (m : Rat) * 2 ^ e + 2 ^ e ≤ m' * 2 ^ e' := by
  have hpow : (0 : Rat) < 2 ^ e := by positivity
  have he : e ≤ e' := by
    by_contra hlt
    exact absurd (hc'.lt_of_exponent_lt hc (not_le.1 hlt)) h.asymm
  rw [← cast_mul_pow he] at h ⊢
  have hlt : m < m' * 2 ^ (e' - e).toNat := Nat.cast_lt.1 (lt_of_mul_lt_mul_right h hpow.le)
  have hle : (m : Rat) + 1 ≤ (m' * 2 ^ (e' - e).toNat : Nat) := by exact_mod_cast hlt
  calc (m : Rat) * 2 ^ e + 2 ^ e = (m + 1) * 2 ^ e := by ring
    _ ≤ (m' * 2 ^ (e' - e).toNat : Nat) * 2 ^ e := mul_le_mul_of_nonneg_right hle hpow.le

/-! ## Rounding never passes a float -/

/-- A float above is a multiple of the last place, and so is what is rounded to. -/
theorem rounding_le (hc : Canonical m e) (h0 : 0 < q) (h : q ≤ m * 2 ^ e) :
    rounding q ≤ m * 2 ^ e := by
  have hpow : (0 : Rat) < 2 ^ place q := by positivity
  have hplace : place q ≤ e := hc.place_eq ▸ place_mono h0 h
  obtain ⟨k, hk⟩ : ∃ k : Nat, (m : Rat) * 2 ^ e = k * 2 ^ place q :=
    ⟨_, (cast_mul_pow hplace).symm⟩
  have hscaled : q / 2 ^ place q ≤ k := by
    rw [div_le_iff₀ hpow, ← hk]
    exact h
  have herror := roundedMantissa_error (by positivity : 0 ≤ q / 2 ^ place q)
  have hlt : ((extended (q / 2 ^ place q)).roundedMantissa : Rat) < k + 1 := by
    linarith [(abs_le.1 herror).2]
  have hle : (extended (q / 2 ^ place q)).roundedMantissa ≤ k :=
    Nat.lt_succ_iff.1 (by exact_mod_cast hlt)
  rw [hk]
  exact mul_le_mul_of_nonneg_right (Nat.cast_le.2 hle) hpow.le

/-- A float below with the same last place is a multiple of it; with a smaller one it is below every
mantissa with all digits. -/
theorem le_rounding (hc : Canonical m e) (h : m * 2 ^ e ≤ q) : m * 2 ^ e ≤ rounding q := by
  have hm := hc.pos
  have h0 : 0 < q := lt_of_lt_of_le (by positivity) h
  have hpow : (0 : Rat) < 2 ^ place q := by positivity
  have hplace : e ≤ place q := hc.place_eq ▸ place_mono (by positivity) h
  have hfloor : ((extended (q / 2 ^ place q)).mantissa : Rat) ≤
      (extended (q / 2 ^ place q)).roundedMantissa :=
    Nat.cast_le.2 (roundedMantissa_bounds _).1
  rcases hplace.eq_or_lt with he | he
  · have hle : m ≤ (extended (q / 2 ^ place q)).mantissa := by
      refine Nat.le_floor ?_
      rw [← he, le_div_iff₀ (by positivity)]
      exact h
    rw [rounding, ← he]
    rw [← he] at hfloor hle
    exact mul_le_mul_of_nonneg_right ((Nat.cast_le.2 hle).trans hfloor) (by positivity)
  · obtain ⟨-, hfull, -⟩ := scaled_bounds h0
    obtain ⟨hlt, hmin, -⟩ := (canonical_iff hm).1 hc
    have hfull : (2 : Rat) ^ 52 ≤ q / 2 ^ place q := hfull.resolve_right (by omega)
    have hle : 2 ^ 52 ≤ (extended (q / 2 ^ place q)).mantissa :=
      Nat.le_floor (by exact_mod_cast hfull)
    have hfull : Canonical (2 ^ 52) (place q) :=
      (canonical_iff (by decide)).2 ⟨by decide, by omega, Or.inl le_rfl⟩
    refine (hc.lt_of_exponent_lt hfull he).le.trans ?_
    exact mul_le_mul_of_nonneg_right ((Nat.cast_le.2 hle).trans hfloor) hpow.le

end

/-! ## What a rational rounds to -/

/-- The float nearest to a rational, ties to even; zero has the sign of the rational if that is not
zero. -/
def RoundsTo (q : Rat) (x : Float) : Prop :=
  0 ≤ q ∧ x = packed (nearest .positive q) ∨ q ≤ 0 ∧ x = packed (nearest .negative (-q))

section
variable {q r t : Rat} {x y : Float}

theorem unpack_packed_zero (s : Sign) : (packed (.zero s)).toModel.unpack = .zero s := by
  cases s <;> rfl

theorem packed_of_lt {s : Sign} {m : Nat} {e : Int} {h : 0 < m} (he : 971 < e) :
    packed (.finite s m e h) = packed (.infinity s) := congrArg Float.ofModel (pack_of_lt he)

/-- What is rounded is a float with the rounded value, or infinity beyond the range. -/
theorem nearest_value (s : Sign) (hq : 0 ≤ q) :
    HasValue (packed (nearest s q)) (s.apply 1 * rounding q) ∨
      packed (nearest s q) = packed (.infinity s) ∧ 2 ^ (1024 : Int) ≤ rounding q := by
  rcases hq.eq_or_lt with rfl | h0
  · rw [nearest_zero, rounding_zero, mul_zero]
    exact Or.inl (hasValue_of_zero (unpack_packed_zero s))
  · rcases nearest_cases s h0 with ⟨hn, -, hr⟩ | ⟨m, e, h, hn, hc, -, hr⟩
    · rw [hn, hr, mul_zero]
      exact Or.inl (hasValue_of_zero (unpack_packed_zero s))
    · rw [hn, hr]
      rcases lt_or_ge 971 e with he | he
      · refine Or.inr ⟨packed_of_lt he, ?_⟩
        obtain ⟨-, -, hfull⟩ := (canonical_iff h).1 hc
        have hfull : 2 ^ 52 ≤ m := hfull.resolve_right (by omega)
        calc (2 : Rat) ^ (1024 : Int) = 2 ^ 52 * 2 ^ (972 : Int) := by
              rw [← zpow_natCast, ← zpow_add₀ two_ne_zero]; rfl
          _ ≤ 2 ^ 52 * 2 ^ e :=
              mul_le_mul_of_nonneg_left (zpow_le_zpow_right₀ one_le_two (by omega)) (by positivity)
          _ ≤ m * 2 ^ e := mul_le_mul_of_nonneg_right (by exact_mod_cast hfull) (by positivity)
      · exact Or.inl (hasValue_of_finite (unpack_pack ⟨hc, he⟩))

theorem isFinite_infinity (s : Sign) : (packed (.infinity s)).isFinite = false := by
  cases s <;> rfl

theorem roundsTo_nearest (s : Sign) (hq : 0 ≤ q) :
    RoundsTo (s.apply 1 * q) (packed (nearest s q)) := by
  cases s with
  | positive =>
    refine Or.inl ⟨?_, ?_⟩ <;> simp only [Sign.apply, Int.cast_one, one_mul]
    exact hq
  | negative =>
    refine Or.inr ⟨?_, ?_⟩ <;>
      simp only [Sign.apply, Int.cast_neg, Int.cast_one, neg_mul, one_mul, neg_neg]
    exact neg_nonpos.2 hq

theorem roundsTo_zero (s : Sign) : RoundsTo 0 (packed (.zero s)) := by
  have h := roundsTo_nearest s (le_refl 0)
  rwa [mul_zero, nearest_zero] at h

/-- The sign of what is rounded stays, and its magnitude is rounded. -/
theorem RoundsTo.value (h : RoundsTo q x) (hx : HasValue x r) :
    0 ≤ q ∧ r = rounding q ∨ q ≤ 0 ∧ r = -rounding (-q) := by
  have hvalue : ∀ (s : Sign) (p : Rat), 0 ≤ p → x = packed (nearest s p) →
      r = s.apply 1 * rounding p := by
    rintro s p hp rfl
    rcases nearest_value s hp with hv | ⟨hinf, -⟩
    · exact hx.unique hv
    · have hfinite := hx.isFinite
      rw [hinf, isFinite_infinity] at hfinite
      cases hfinite
  rcases h with ⟨hq, hxq⟩ | ⟨hq, hxq⟩
  · have hr := hvalue .positive q hq hxq
    simp only [Sign.apply, Int.cast_one, one_mul] at hr
    exact Or.inl ⟨hq, hr⟩
  · have hr := hvalue .negative (-q) (neg_nonneg.2 hq) hxq
    simp only [Sign.apply, Int.cast_neg, Int.cast_one, neg_mul, one_mul] at hr
    exact Or.inr ⟨hq, hr⟩

theorem rounding_nonneg (q : Rat) : 0 ≤ rounding q :=
  mul_nonneg (Nat.cast_nonneg _) (by positivity)

/-- The magnitude of a float that is not zero. -/
theorem HasValue.exists_canonical (h : HasValue y t) (ht : t ≠ 0) :
    ∃ m e, Canonical m e ∧ |t| = m * 2 ^ e := by
  rcases h.cases with ⟨s, -, h0⟩ | ⟨s, m, e, hm, -, hs, rfl⟩
  · exact absurd h0 ht
  · refine ⟨m, e, hs.toCanonical, ?_⟩
    have hpos : (0 : Rat) < m * 2 ^ e := by positivity
    cases s <;> simp [Sign.apply, abs_of_pos hpos]

theorem HasValue.abs_lt (h : HasValue x q) : |q| < 2 ^ (1024 : Int) := by
  rcases h.cases with ⟨s, -, rfl⟩ | ⟨s, m, e, hm, -, hs, rfl⟩
  · rw [abs_zero]
    positivity
  · obtain ⟨hlt, -, -⟩ := (canonical_iff hm).1 hs.toCanonical
    have hsign : |((s.apply 1 : Int) : Rat)| = 1 := by cases s <;> simp [Sign.apply]
    have hpos : (0 : Rat) < m * 2 ^ e := by positivity
    rw [abs_mul, hsign, one_mul, abs_of_pos hpos]
    calc (m : Rat) * 2 ^ e < 2 ^ 53 * 2 ^ e :=
          mul_lt_mul_of_pos_right (by exact_mod_cast hlt) (by positivity)
      _ ≤ 2 ^ 53 * 2 ^ (971 : Int) :=
          mul_le_mul_of_nonneg_left (zpow_le_zpow_right₀ one_le_two hs.le) (by positivity)
      _ = 2 ^ (1024 : Int) := by rw [← zpow_natCast, ← zpow_add₀ two_ne_zero]; rfl

theorem HasValue.rounding_le (h : HasValue y t) (hq : 0 ≤ q) (hle : q ≤ |t|) :
    rounding q ≤ |t| := by
  rcases hq.eq_or_lt with rfl | h0
  · rw [rounding_zero]
    exact abs_nonneg t
  · have ht : t ≠ 0 := fun h => by
      rw [h, abs_zero] at hle
      linarith
    obtain ⟨m, e, hc, hte⟩ := h.exists_canonical ht
    rw [hte] at hle ⊢
    exact StyleEngine.rounding_le hc h0 hle

theorem HasValue.le_rounding (h : HasValue y t) (hle : |t| ≤ q) : |t| ≤ rounding q := by
  rcases eq_or_ne t 0 with rfl | ht
  · rw [abs_zero]
    exact rounding_nonneg q
  · obtain ⟨m, e, hc, hte⟩ := h.exists_canonical ht
    rw [hte] at hle ⊢
    exact StyleEngine.le_rounding hc hle

/-- What is not greater than a float does not round to a greater one. -/
theorem RoundsTo.le_of_le (h : RoundsTo q x) (hx : HasValue x r) (hy : HasValue y t) (hle : q ≤ t) :
    r ≤ t := by
  rcases h.value hx with ⟨hq, rfl⟩ | ⟨hq, rfl⟩
  · have ht : |t| = t := abs_of_nonneg (hq.trans hle)
    have hr := hy.rounding_le hq (ht.symm ▸ hle)
    rwa [ht] at hr
  · rcases le_or_gt 0 t with ht | ht
    · linarith [rounding_nonneg (-q)]
    · have habs : |t| = -t := abs_of_neg ht
      have hr := hy.le_rounding (q := -q) (by rw [habs]; linarith)
      rw [habs] at hr
      linarith

theorem RoundsTo.ge_of_ge (h : RoundsTo q x) (hx : HasValue x r) (hy : HasValue y t) (hge : t ≤ q) :
    t ≤ r := by
  rcases h.value hx with ⟨hq, rfl⟩ | ⟨hq, rfl⟩
  · rcases le_or_gt t 0 with ht | ht
    · linarith [rounding_nonneg q]
    · have habs : |t| = t := abs_of_pos ht
      have hr := hy.le_rounding (q := q) (by rw [habs]; exact hge)
      rwa [habs] at hr
  · have ht : |t| = -t := abs_of_nonpos (hge.trans hq)
    have hr := hy.rounding_le (neg_nonneg.2 hq) (by rw [ht]; linarith)
    rw [ht] at hr
    linarith

theorem RoundsTo.error_place (h : RoundsTo q x) (hx : HasValue x r) :
    |r - q| ≤ 2 ^ place |q| / 2 := by
  rcases h.value hx with ⟨hq, rfl⟩ | ⟨hq, rfl⟩
  · rw [abs_of_nonneg hq]
    exact rounding_error hq
  · rw [abs_of_nonpos hq]
    have herror := rounding_error (neg_nonneg.2 hq)
    rwa [abs_sub_comm, show -q - rounding (-q) = -rounding (-q) - q by ring] at herror

theorem RoundsTo.error (h : RoundsTo q x) (hx : HasValue x r) :
    |r - q| ≤ |q| / 2 ^ 53 + 2 ^ (-1075 : Int) := by
  have hleast : (2 : Rat) ^ (-1074 : Int) = 2 * 2 ^ (-1075 : Int) := by
    rw [← zpow_one_add₀ two_ne_zero]
    rfl
  rcases eq_or_ne q 0 with rfl | hq
  · have hr : r = 0 := by
      rcases h.value hx with ⟨-, rfl⟩ | ⟨-, rfl⟩ <;> simp [rounding_zero]
    rw [hr, sub_zero, abs_zero]
    positivity
  · have hplace := place_le (abs_pos.2 hq)
    have herror := h.error_place hx
    rw [hleast] at hplace
    linarith

/-- A rational rounds to the float nearest to its magnitude, with its sign. -/
theorem RoundsTo.exists_sign (h : RoundsTo q x) : ∃ s, x = packed (nearest s |q|) := by
  rcases h with ⟨hq, rfl⟩ | ⟨hq, rfl⟩
  · exact ⟨.positive, by rw [abs_of_nonneg hq]⟩
  · exact ⟨.negative, by rw [abs_of_nonpos hq]⟩

theorem RoundsTo.isFinite (h : RoundsTo q x) (hq : |q| ≤ 2 ^ (1023 : Int)) : x.isFinite = true := by
  obtain ⟨s, rfl⟩ := h.exists_sign
  rcases nearest_value s (abs_nonneg q) with hv | ⟨-, hr⟩
  · exact hv.isFinite
  · have hc : Canonical (2 ^ 52) 971 := (canonical_iff (by decide)).2 (by decide)
    have hvalue : ((2 ^ 52 : Nat) : Rat) * 2 ^ (971 : Int) = 2 ^ (1023 : Int) := by
      rw [Nat.cast_pow, Nat.cast_ofNat, ← zpow_natCast, ← zpow_add₀ two_ne_zero]
      norm_num only
    have hpos : 0 < |q| := by
      by_contra hz
      rw [le_antisymm (not_lt.1 hz) (abs_nonneg q), rounding_zero] at hr
      exact absurd hr (not_le.2 (by positivity))
    have hle := rounding_le hc hpos (hq.trans_eq hvalue.symm)
    have hlt : (2 : Rat) ^ (1023 : Int) < 2 ^ (1024 : Int) :=
      zpow_lt_zpow_right₀ one_lt_two (by decide)
    rw [hvalue] at hle
    exact absurd (hr.trans hle) (not_le.2 hlt)

theorem RoundsTo.abs_lt (h : RoundsTo q x) (hx : x.isFinite = true) : |q| < 2 ^ (1024 : Int) := by
  obtain ⟨s, rfl⟩ := h.exists_sign
  by_contra hq
  have hq := not_lt.1 hq
  have hinf : packed (nearest s |q|) = packed (.infinity s) :=
    congrArg Float.ofModel (pack_nearest_of_le (lt_of_lt_of_le (by positivity) hq) hq)
  rw [hinf, isFinite_infinity] at hx
  cases hx

/-- A rational that is the value of a float rounds to this value. -/
theorem RoundsTo.hasValue (h : RoundsTo q x) (hy : HasValue y q) : HasValue x q := by
  obtain ⟨s, hx⟩ := h.exists_sign
  have hfinite : x.isFinite = true := by
    rcases nearest_value s (abs_nonneg q) with hv | ⟨-, hr⟩
    · exact hx ▸ hv.isFinite
    · have hle := hy.rounding_le (abs_nonneg q) (le_refl |q|)
      exact absurd (hr.trans hle) (not_le.2 hy.abs_lt)
  obtain ⟨r, hr⟩ := isFinite_iff.1 hfinite
  obtain rfl : r = q :=
    le_antisymm (h.le_of_le hr hy (le_refl q)) (h.ge_of_ge hr hy (le_refl q))
  exact hr

theorem RoundsTo.value_unique (h : RoundsTo q x) (h' : RoundsTo q y) (hx : HasValue x r)
    (hy : HasValue y t) : r = t := by
  have hzero : ∀ {q : Rat}, 0 ≤ q → q ≤ 0 → rounding q = -rounding (-q) := by
    intro q h0 h1
    rw [le_antisymm h1 h0, neg_zero, rounding_zero, neg_zero]
  rcases h.value hx with ⟨hq, rfl⟩ | ⟨hq, rfl⟩ <;> rcases h'.value hy with ⟨hq', rfl⟩ | ⟨hq', rfl⟩
  · rfl
  · exact hzero hq hq'
  · exact (hzero hq' hq).symm
  · rfl

/-- The error of rounding what is near a value. -/
theorem RoundsTo.error_of_near {d : Rat} (h : RoundsTo q x) (hx : HasValue x r) (hq : |q - t| ≤ d) :
    |r - t| ≤ d + ((|t| + d) / 2 ^ 53 + 2 ^ (-1075 : Int)) := by
  have herror := h.error hx
  have htriangle := abs_sub_le r q t
  have hmagnitude : |q| ≤ |t| + d := by linarith [abs_sub_abs_le_abs_sub q t]
  have hscaled : |q| / 2 ^ 53 ≤ (|t| + d) / 2 ^ 53 :=
    div_le_div_of_nonneg_right hmagnitude (by positivity)
  linarith

end

end StyleEngine
