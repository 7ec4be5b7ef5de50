import StyleEngine.Proofs.Float.Operations

/-!
# Hundredths of products

A hundredth of a magnitude times an extent is computed in two orders: the product is divided, or the
magnitude is multiplied with a hundredth of the extent.  If the product is finite, then so are all
results on both ways, and they are a few last places apart.

    (m * w).isFinite → (m * w / 100).isFinite ∧ (m * (w / 100)).isFinite
                                               (isFinite_hundredth, isFinite_mul_hundredth)
    |r - s| ≤ |p * q / 100| / 2 ^ 50 + (|p| + 1) * 2 ^ (-1073)           (hundredths_near)
    HasValue (m * w) (p * q) → HasValue (w / 100) (q / 100) → r = s      (hundredths_eq)
-/

namespace StyleEngine

/-- Values of a hundredth of a product in the two orders: they are close, and they are equal if
neither the product nor the hundredth of the extent is rounded. -/
structure CloseHundredths (magnitude extent : Float) (r s : Rat) : Prop where
  near : ∃ p q, HasValue magnitude p ∧ HasValue extent q ∧
    |r - s| ≤ |p * q / 100| / 2 ^ 50 + (|p| + 1) * 2 ^ (-1073 : Int)
  exact : ∀ p q, HasValue magnitude p → HasValue extent q →
    HasValue (magnitude * extent) (p * q) → HasValue (extent / 100) (q / 100) → r = s

variable {m w : Float} {p q r s : Rat}

/-! ## Range -/

theorem abs_hundredth (t : Rat) : |t / 100| = |t| / 100 := by
  rw [abs_div, abs_of_pos (by norm_num : (0 : Rat) < 100)]

theorem hundredth_lt (h : |r| < 2 ^ (1024 : Int)) : |r / 100| < 2 ^ (1023 : Int) / 50 := by
  have htwice : (2 : Rat) ^ (1024 : Int) = 2 * 2 ^ (1023 : Int) := by
    rw [← zpow_one_add₀ two_ne_zero]
    rfl
  rw [htwice] at h
  rw [abs_hundredth]
  generalize (2 : Rat) ^ (1023 : Int) = bound at h ⊢
  linarith

theorem isFinite_hundredth (hw : HasValue w q) : (w / 100).isFinite = true := by
  refine (hw.div hasValue_hundred (by norm_num)).isFinite ?_
  refine (hundredth_lt hw.abs_lt).le.trans (div_le_self (by positivity) (by norm_num))

section
variable (hw : HasValue w q)

include hw

/-- A hundredth of the extent is rounded before it is multiplied. -/
theorem mul_hundredth_error (p : Rat) (hb : HasValue (w / 100) r) :
    |p * r - p * q / 100| ≤ |p * q / 100| / 2 ^ 53 + |p| * 2 ^ (-1075 : Int) := by
  have herror := (hw.div hasValue_hundred (by norm_num)).error hb
  have hfactor : p * r - p * q / 100 = p * (r - q / 100) := by ring
  have hscale : |p * q / 100| = |p| * |q / 100| := by rw [mul_div_assoc, abs_mul]
  rw [hfactor, abs_mul, hscale]
  calc |p| * |r - q / 100| ≤ |p| * (|q / 100| / 2 ^ 53 + 2 ^ (-1075 : Int)) :=
        mul_le_mul_of_nonneg_left herror (abs_nonneg p)
    _ = |p| * |q / 100| / 2 ^ 53 + |p| * 2 ^ (-1075 : Int) := by ring

variable (hm : HasValue m p)

include hm

theorem isFinite_mul_hundredth (h : (m * w).isFinite = true) : (m * (w / 100)).isFinite = true := by
  obtain ⟨r, hr⟩ := isFinite_iff.1 (isFinite_hundredth hw)
  refine (hm.mul hr).isFinite ?_
  have herror := mul_hundredth_error hw p hr
  have hproduct := hundredth_lt ((hm.mul hw).abs_lt h)
  have hmagnitude : |p| * 2 ^ (-1075 : Int) ≤ 1 := by
    calc |p| * 2 ^ (-1075 : Int) ≤ 2 ^ (1024 : Int) * 2 ^ (-1075 : Int) :=
          mul_le_mul_of_nonneg_right hm.abs_lt.le (by positivity)
      _ ≤ 1 := by
          rw [← zpow_add₀ two_ne_zero]
          exact zpow_le_one_of_nonpos₀ one_le_two (by decide)
  have hlarge : (2 : Rat) ≤ 2 ^ (1023 : Int) := by
    rw [← zpow_one (2 : Rat)]
    exact zpow_le_zpow_right₀ one_le_two (by decide)
  have hle := abs_sub_abs_le_abs_sub (p * r) (p * q / 100)
  generalize (2 : Rat) ^ (1023 : Int) = bound at hproduct hlarge ⊢
  linarith [abs_nonneg (p * q / 100)]

/-! ## Nearness -/

/-- Both orders round twice. -/
theorem hundredths_near (h : (m * w).isFinite = true) (hr : HasValue (m * w / 100) r)
    (hs : HasValue (m * (w / 100)) s) :
    |r - s| ≤ |p * q / 100| / 2 ^ 50 + (|p| + 1) * 2 ^ (-1073 : Int) := by
  obtain ⟨a, ha⟩ := isFinite_iff.1 h
  obtain ⟨b, hb⟩ := isFinite_iff.1 (isFinite_hundredth hw)
  have hquotient : |a / 100 - p * q / 100| ≤ |p * q / 100| / 2 ^ 53 + 2 ^ (-1075 : Int) / 100 := by
    have herror := (hm.mul hw).error ha
    rw [← sub_div, abs_hundredth, abs_hundredth]
    linarith
  have hdivided := (ha.div hasValue_hundred (by norm_num)).error_of_near hr hquotient
  have hmultiplied := (hm.mul hb).error_of_near hs (mul_hundredth_error hw p hb)
  have htriangle := abs_sub_le r (p * q / 100) s
  rw [abs_sub_comm (p * q / 100) s] at htriangle
  have hleast : (2 : Rat) ^ (-1073 : Int) = 4 * 2 ^ (-1075 : Int) := by
    rw [show (4 : Rat) = 2 ^ (2 : Int) by norm_num, ← zpow_add₀ two_ne_zero]
    rfl
  have hpos : (0 : Rat) < 2 ^ (-1075 : Int) := by positivity
  have hscaled : 0 ≤ |p| * (2 : Rat) ^ (-1075 : Int) := by positivity
  rw [hleast]
  linarith [abs_nonneg (p * q / 100)]

end

/-- If neither the product nor the hundredth of the extent is rounded, the order makes no
difference. -/
theorem hundredths_eq (hm : HasValue m p) (hproduct : HasValue (m * w) (p * q))
    (hhundredth : HasValue (w / 100) (q / 100)) (hr : HasValue (m * w / 100) r)
    (hs : HasValue (m * (w / 100)) s) : r = s := by
  have hdivided := hproduct.div hasValue_hundred (by norm_num)
  have hmultiplied := hm.mul hhundredth
  rw [← mul_div_assoc] at hmultiplied
  exact hdivided.value_unique hmultiplied hr hs

theorem closeHundredths (hr : HasValue (m * w / 100) r) (hs : HasValue (m * (w / 100)) s) :
    CloseHundredths m w r s := by
  have hproduct : (m * w).isFinite = true := isFinite_of_div hr.isFinite
  obtain ⟨p, hm⟩ := isFinite_iff.1 (isFinite_of_mul_left hproduct)
  obtain ⟨q, hw⟩ := isFinite_iff.1 (isFinite_of_mul hproduct)
  refine ⟨⟨p, q, hm, hw, hundredths_near hw hm hproduct hr hs⟩, ?_⟩
  intro p' q' hm' _ hproduct' hhundredth
  exact hundredths_eq hm' hproduct' hhundredth hr hs

/-! ## Finite results -/

/-- Unless the product leaves the range, both orders leave it or none does. -/
theorem isFinite_mul_hundredth_eq (hm : m.isFinite = true)
    (hproduct : w.isFinite = true → (m * w).isFinite = true) :
    (m * (w / 100)).isFinite = (m * w / 100).isFinite := by
  cases hw : w.isFinite with
  | true =>
    obtain ⟨p, hp⟩ := isFinite_iff.1 hm
    obtain ⟨q, hq⟩ := isFinite_iff.1 hw
    obtain ⟨a, ha⟩ := isFinite_iff.1 (hproduct hw)
    rw [isFinite_hundredth ha, isFinite_mul_hundredth hq hp (hproduct hw)]
  | false =>
    have hw : w.isFinite ≠ true := Bool.eq_false_iff.1 hw
    have hmultiplied : (m * (w / 100)).isFinite = false :=
      Bool.eq_false_iff.2 fun h => hw (isFinite_of_div (isFinite_of_mul h))
    have hdivided : (m * w / 100).isFinite = false :=
      Bool.eq_false_iff.2 fun h => hw (isFinite_of_mul (isFinite_of_div h))
    rw [hmultiplied, hdivided]

theorem HasValue.zero_mul (hm : HasValue m 0) (hw : w.isFinite = true) : HasValue (m * w) 0 := by
  obtain ⟨q, hq⟩ := isFinite_iff.1 hw
  have hround := hm.mul hq
  rw [MulZeroClass.zero_mul] at hround
  exact hround.hasValue hasValue_zero

theorem hasValue_hundredth_of_zero (hm : HasValue m 0) : HasValue (m / 100) 0 := by
  have hround := hm.div hasValue_hundred (by norm_num)
  rw [zero_div] at hround
  exact hround.hasValue hasValue_zero

end StyleEngine
