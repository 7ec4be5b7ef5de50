import StyleEngine.Proofs.Float.Packing

/-!
# Rounding

What a rational rounds to depends on the rational alone: shifting a mantissa to the right keeps the
whole part of the value and what its fraction begins with, so every way to round a value ends in
the same float.  A value that a float can have rounds to itself.

    extended q >>> n = extended (q / 2 ^ n)                              (extended_shiftRight)
    0 < q → e ≤ place q → ofMantissaAndAccuracy m a = extended (q / 2 ^ e) →
      roundWithAccuracy .. s m e a = nearest s q                         (roundWithAccuracy_eq)
    Canonical m e → nearest s (m * 2 ^ e) = .finite s m e h              (nearest_of_canonical)
-/

namespace StyleEngine

open Float.Model Float.Model.UnpackedFloat

/-! ## Extended mantissas -/

/-- The whole part of a rational; then whether the rest is half at least, and whether it is neither
nothing nor a half. -/
def extended (q : Rat) : ExtendedMantissa where
  mantissa := ⌊q⌋₊
  roundBit := decide (1 / 2 ≤ Int.fract q)
  stickyBit := decide (Int.fract q ≠ 0 ∧ Int.fract q ≠ 1 / 2)

theorem extended_add (n : Nat) {f : Rat} (h0 : 0 ≤ f) (h1 : f < 1) :
    extended (n + f) = ⟨n, decide (1 / 2 ≤ f), decide (f ≠ 0 ∧ f ≠ 1 / 2)⟩ := by
  have hfloor : ⌊(n : Rat) + f⌋₊ = n := by
    rw [Nat.floor_eq_iff (by positivity)]
    constructor <;> linarith
  have hfract : Int.fract ((n : Rat) + f) = f := by
    rw [Int.fract_natCast_add, Int.fract_eq_self.2 ⟨h0, h1⟩]
  rw [extended, hfloor, hfract]

theorem extended_natCast (n : Nat) :
    extended n = ExtendedMantissa.ofMantissaAndAccuracy n .exact := by
  have h := extended_add n (f := 0) le_rfl one_pos
  rw [add_zero] at h
  rw [h]
  simp [ExtendedMantissa.ofMantissaAndAccuracy]

/-- Where a fraction lies, by its numerator and denominator. -/
theorem ofMantissaAndAccuracy_accuracyOfFraction (n : Nat) {r d : Nat} (hd : 0 < d) :
    ExtendedMantissa.ofMantissaAndAccuracy n (accuracyOfFraction r d) =
      ⟨n, decide ((1 : Rat) / 2 ≤ r / d), decide ((r : Rat) / d ≠ 0 ∧ (r : Rat) / d ≠ 1 / 2)⟩ := by
  have hd' : (0 : Rat) < d := Nat.cast_pos.2 hd
  have hzero : (r : Rat) / d = 0 ↔ r = 0 := by
    rw [div_eq_zero_iff, Nat.cast_eq_zero, Nat.cast_eq_zero]
    exact or_iff_left hd.ne'
  have hle : (1 : Rat) / 2 ≤ r / d ↔ d ≤ 2 * r := by
    rw [div_le_div_iff₀ two_pos hd', one_mul, mul_comm]
    exact_mod_cast Iff.rfl
  have hhalf : (r : Rat) / d = 1 / 2 ↔ 2 * r = d := by
    rw [div_eq_div_iff hd'.ne' two_ne_zero, one_mul, mul_comm]
    exact_mod_cast Iff.rfl
  simp only [ne_eq, hzero, hle, hhalf]
  unfold accuracyOfFraction
  by_cases hr : r = 0
  · subst hr
    simp [ExtendedMantissa.ofMantissaAndAccuracy, hd.ne']
  · rw [if_neg hr]
    rcases lt_trichotomy (2 * r) d with h | h | h
    · rw [Nat.compare_eq_lt.2 h]
      simp [ExtendedMantissa.ofMantissaAndAccuracy, hr, h, h.ne]
    · rw [Nat.compare_eq_eq.2 h]
      simp [ExtendedMantissa.ofMantissaAndAccuracy, h]
    · rw [Nat.compare_eq_gt.2 h]
      simp [ExtendedMantissa.ofMantissaAndAccuracy, hr, h.le, h.ne']

/-- Dividing integers with remainder tells the quotient as exactly as rounding asks for. -/
theorem extended_div (m : Nat) {d : Nat} (hd : 0 < d) :
    extended (m / d) =
      ExtendedMantissa.ofMantissaAndAccuracy (m / d) (accuracyOfFraction (m % d) d) := by
  have hsplit : (m : Rat) / d = (m / d : Nat) + (m % d : Nat) / d := by
    have hm : ((d * (m / d) + m % d : Nat) : Rat) = m := by rw [Nat.div_add_mod]
    have hd' : (d : Rat) ≠ 0 := Nat.cast_ne_zero.2 hd.ne'
    rw [← hm]
    push_cast
    field_simp
  have h1 : ((m % d : Nat) : Rat) / d < 1 := by
    rw [div_lt_one (Nat.cast_pos.2 hd), Nat.cast_lt]
    exact Nat.mod_lt _ hd
  rw [hsplit, extended_add _ (by positivity) h1, ofMantissaAndAccuracy_accuracyOfFraction _ hd]

/-- Shifting by one place halves. -/
theorem extended_shiftRightOne {q : Rat} (hq : 0 ≤ q) :
    (extended q).shiftRightOne = extended (q / 2) := by
  obtain ⟨n, f, h0, h1, rfl⟩ : ∃ (n : Nat) (f : Rat), 0 ≤ f ∧ f < 1 ∧ q = n + f := by
    refine ⟨⌊q⌋₊, q - ⌊q⌋₊, sub_nonneg.2 (Nat.floor_le hq), ?_, by ring⟩
    linarith [Nat.lt_floor_add_one q]
  have hhalf : ((n : Rat) + f) / 2 = (n / 2 : Nat) + (((n % 2 : Nat) : Rat) + f) / 2 := by
    have hn : ((2 * (n / 2) + n % 2 : Nat) : Rat) = n := by rw [Nat.div_add_mod]
    rw [← hn]
    push_cast
    ring
  have hsticky : (decide (1 / 2 ≤ f) || decide (f ≠ 0 ∧ f ≠ 1 / 2)) = decide (f ≠ 0) := by
    rw [← Bool.decide_or, decide_eq_decide]
    constructor
    · rintro (h | h)
      · linarith
      · exact h.1
    · intro h
      rcases eq_or_ne f (1 / 2) with h2 | h2
      · exact Or.inl h2.ge
      · exact Or.inr ⟨h, h2⟩
  rw [hhalf, extended_add n h0 h1, ExtendedMantissa.shiftRightOne]
  simp only [hsticky]
  -- the last bit of the whole part becomes the round bit
  rcases Nat.mod_two_eq_zero_or_one n with hn | hn
  · have hround : ¬ (1 : Rat) / 2 ≤ f / 2 := by linarith
    have hrest : f / 2 ≠ 0 ∧ f / 2 ≠ 1 / 2 ↔ f ≠ 0 := by
      rw [div_ne_zero_iff]
      exact ⟨fun h => h.1.1, fun h => ⟨⟨h, two_ne_zero⟩, by linarith⟩⟩
    rw [hn, Nat.cast_zero, zero_add, extended_add _ (by positivity) (by linarith)]
    simp only [hround, hrest, decide_false]
    rfl
  · have hround : (1 : Rat) / 2 ≤ (1 + f) / 2 := by linarith
    have hrest : (1 + f) / 2 ≠ 0 ∧ (1 + f) / 2 ≠ 1 / 2 ↔ f ≠ 0 := by
      refine ⟨fun h h2 => h.2 (by rw [h2, add_zero]), fun h => ⟨by linarith, fun h2 => h ?_⟩⟩
      linarith
    rw [hn, Nat.cast_one, extended_add _ (by positivity) (by linarith)]
    simp only [hround, hrest, decide_true]
    rfl

theorem extended_shiftRight {q : Rat} (hq : 0 ≤ q) (n : Nat) :
    extended q >>> n = extended (q / 2 ^ n) := by
  induction n with
  | zero =>
    rw [pow_zero, div_one]
    rfl
  | succ n ih =>
    have hstep : extended q >>> (n + 1) = (extended q >>> n).shiftRightOne := rfl
    rw [hstep, ih, extended_shiftRightOne (by positivity), pow_succ, div_div]

/-! ## The nearest float -/

/-- The exponent of the last binary digit of a float near `q`. -/
def place (q : Rat) : Int := Format.binary64.targetExponent (Int.log 2 q + 1)

/-- A rounded mantissa as a float; it may have carried into one digit more. -/
def settle (s : Sign) (em : ExtendedMantissa) (e : Int) : UnpackedFloat :=
  let r := shiftToTargetExponent Format.binary64 em.roundedMantissa e .exact
  if h : r.1.mantissa = 0 then .zero s else .finite s r.1.mantissa r.2 (Nat.pos_of_ne_zero h)

/-- The float nearest to `q`, ties to even; its exponent may be too large for it to be stored. -/
def nearest (s : Sign) (q : Rat) : UnpackedFloat := settle s (extended (q / 2 ^ place q)) (place q)

section
variable {q : Rat} {m : Nat} {e : Int}

/-- The position of the first digit of a value. -/
theorem log_eq_of_floor (hq : ⌊q / 2 ^ e⌋₊ = m) (hm : 0 < m) : Int.log 2 q = m.log2 + e := by
  have hpow : (0 : Rat) < 2 ^ e := by positivity
  have hpos : 0 < q / 2 ^ e := by
    by_contra h
    rw [Nat.floor_of_nonpos (not_lt.1 h)] at hq
    omega
  obtain ⟨hl, hu⟩ := (Nat.floor_eq_iff hpos.le).1 hq
  have hq0 : 0 < q := by
    rw [div_pos_iff_of_pos_right hpow] at hpos
    exact hpos
  have hlow : (2 : Rat) ^ (m.log2 + e : Int) ≤ q := by
    rw [zpow_add₀ two_ne_zero, zpow_natCast, ← le_div_iff₀ hpow]
    refine le_trans ?_ hl
    exact_mod_cast Nat.log2_self_le hm.ne'
  have hhigh : q < (2 : Rat) ^ (m.log2 + e + 1 : Int) := by
    rw [add_right_comm, zpow_add₀ two_ne_zero, ← div_lt_iff₀ hpow]
    refine lt_of_lt_of_le hu ?_
    exact_mod_cast Nat.lt_log2_self (n := m)
  have h1 := (Int.zpow_le_iff_le_log one_lt_two hq0).1 hlow
  have h2 := (Int.lt_zpow_iff_log_lt one_lt_two hq0).1 hhigh
  omega

theorem place_eq_of_floor (hq : ⌊q / 2 ^ e⌋₊ = m) (hm : 0 < m) :
    place q = Format.binary64.targetExponent (totalExponent m e) := by
  rw [place, log_eq_of_floor hq hm, totalExponent, add_right_comm]

theorem mul_zpow_div (m : Nat) (e : Int) : (m : Rat) * 2 ^ e / 2 ^ e = m :=
  mul_div_cancel_right₀ _ (by positivity)

/-- With a smaller exponent a value has a longer mantissa. -/
theorem cast_mul_pow {m : Nat} {e t : Int} (h : t ≤ e) :
    ((m * 2 ^ (e - t).toNat : Nat) : Rat) * 2 ^ t = m * 2 ^ e := by
  have hsum : ((e - t).toNat : Int) + t = e := by omega
  rw [Nat.cast_mul, Nat.cast_pow, Nat.cast_ofNat, mul_assoc, ← zpow_natCast,
    ← zpow_add₀ two_ne_zero, hsum]

theorem floor_mul_zpow (m : Nat) (e : Int) : ⌊(m : Rat) * 2 ^ e / 2 ^ e⌋₊ = m := by
  rw [mul_zpow_div, Nat.floor_natCast]

theorem log_mul_zpow (hm : 0 < m) : Int.log 2 ((m : Rat) * 2 ^ e) = m.log2 + e :=
  log_eq_of_floor (floor_mul_zpow m e) hm

theorem place_mul_zpow (hm : 0 < m) :
    place (m * 2 ^ e) = Format.binary64.targetExponent (totalExponent m e) :=
  place_eq_of_floor (floor_mul_zpow m e) hm

/-- Rounding starts with the place that the value asks for, also where the mantissa is 0. -/
theorem targetExponent_of_floor (h0 : 0 < q) (hq : ⌊q / 2 ^ e⌋₊ = m) (he : e ≤ place q) :
    Format.binary64.targetExponent (totalExponent m e) = place q := by
  rcases Nat.eq_zero_or_pos m with rfl | hm
  · have hlt : q < 2 ^ e := by
      have h1 := Nat.floor_eq_zero.1 hq
      rwa [div_lt_one (by positivity)] at h1
    have hlog := (Int.lt_zpow_iff_log_lt one_lt_two h0).1 hlt
    rw [place, targetExponent_eq] at he ⊢
    rw [targetExponent_eq, totalExponent, Nat.log2_zero]
    push_cast
    omega
  · exact (place_eq_of_floor hq hm).symm

theorem roundWithAccuracy_eq {s : Sign} {a : Accuracy} (h0 : 0 < q) (he : e ≤ place q)
    (hm : ExtendedMantissa.ofMantissaAndAccuracy m a = extended (q / 2 ^ e)) :
    roundWithAccuracy Format.binary64 s m e a = nearest s q := by
  have hfloor : ⌊q / 2 ^ e⌋₊ = m := by
    refine Eq.trans (congrArg ExtendedMantissa.mantissa hm).symm ?_
    unfold ExtendedMantissa.ofMantissaAndAccuracy
    split <;> rfl
  have hshift : shiftToTargetExponent Format.binary64 m e a =
      (extended (q / 2 ^ place q), place q) := by
    have hsum : e + (place q - e).toNat = place q := by omega
    have hscale : (2 : Rat) ^ e * 2 ^ (place q - e).toNat = 2 ^ place q := by
      rw [← zpow_natCast, ← zpow_add₀ two_ne_zero, hsum]
    rw [shiftToTargetExponent, targetExponent_of_floor h0 hfloor he]
    dsimp only [shiftToExponent]
    rw [hm, extended_shiftRight (by positivity), div_div, hscale, hsum]
  unfold roundWithAccuracy
  rw [hshift]
  rfl

/-! ## What rounding gives -/

theorem roundedMantissa_bounds (em : ExtendedMantissa) :
    em.mantissa ≤ em.roundedMantissa ∧ em.roundedMantissa ≤ em.mantissa + 1 := by
  obtain ⟨m, round, sticky⟩ := em
  cases round <;> cases sticky <;>
    simp only [ExtendedMantissa.roundedMantissa, ExtendedMantissa.accuracy,
      Accuracy.roundToNearestEven] <;> omega

theorem settle_zero {s : Sign} {em : ExtendedMantissa} (h : em.roundedMantissa = 0) :
    settle s em e = .zero s := by
  have hshift : (shiftToTargetExponent Format.binary64 0 e .exact).1.mantissa = 0 := by
    rw [shiftToTargetExponent]
    dsimp only [shiftToExponent]
    rw [← extended_natCast, extended_shiftRight (by positivity), Nat.cast_zero, zero_div]
    rfl
  unfold settle
  simp only [h]
  exact dif_pos hshift

/-- A canonical mantissa stays as it is. -/
theorem settle_canonical {s : Sign} {em : ExtendedMantissa} (h : 0 < em.roundedMantissa)
    (hc : Canonical em.roundedMantissa e) : settle s em e = .finite s em.roundedMantissa e h := by
  have hshift : shiftToTargetExponent Format.binary64 em.roundedMantissa e .exact =
      (ExtendedMantissa.ofMantissaAndAccuracy em.roundedMantissa .exact, e) := by
    rw [shiftToTargetExponent, hc.target]
    dsimp only [shiftToExponent]
    rw [sub_self, Int.toNat_zero, Nat.cast_zero, add_zero]
    rfl
  unfold settle
  simp only [hshift]
  exact dif_neg h.ne'

/-- A mantissa that has carried gives up its last digit, which is 0. -/
theorem settle_carry {s : Sign} {em : ExtendedMantissa} (he : -1074 ≤ e)
    (h : em.roundedMantissa = 2 ^ 53) :
    settle s em e = .finite s (2 ^ 52) (e + 1) (by decide) := by
  have htarget : Format.binary64.targetExponent (totalExponent (2 ^ 53) e) = e + 1 := by
    rw [targetExponent_eq, totalExponent, Nat.log2_two_pow]
    push_cast
    omega
  have hshift : shiftToTargetExponent Format.binary64 (2 ^ 53) e .exact =
      (⟨2 ^ 52, false, false⟩, e + 1) := by
    rw [shiftToTargetExponent, htarget]
    dsimp only [shiftToExponent]
    rw [add_sub_cancel_left]
    rfl
  unfold settle
  simp only [h, hshift]
  exact dif_neg (by decide)

/-- The scaled value has 53 digits, or fewer at the least exponent. -/
theorem scaled_bounds (h0 : 0 < q) : q / 2 ^ place q < 2 ^ 53 ∧
    (2 ^ 52 ≤ q / 2 ^ place q ∨ place q = -1074) ∧ -1074 ≤ place q := by
  have hp : place q = max (Int.log 2 q + 1 - 53) (-1074) := targetExponent_eq _
  refine ⟨?_, ?_, by omega⟩
  · rw [div_lt_iff₀ (by positivity), ← zpow_natCast, ← zpow_add₀ two_ne_zero]
    rw [show (2 : Rat) = ((2 : Nat) : Rat) from rfl, Int.lt_zpow_iff_log_lt one_lt_two h0]
    push_cast
    omega
  · rw [or_iff_not_imp_right]
    intro hne
    rw [le_div_iff₀ (by positivity), ← zpow_natCast, ← zpow_add₀ two_ne_zero]
    rw [show (2 : Rat) = ((2 : Nat) : Rat) from rfl, Int.zpow_le_iff_le_log one_lt_two h0]
    push_cast
    omega

/-- The value that a rational rounds to, with an exponent of any size: it is rounded to an integer
in units of its last place. -/
def rounding (q : Rat) : Rat := (extended (q / 2 ^ place q)).roundedMantissa * 2 ^ place q

/-- A positive rational rounds to zero, which only a tiny one does, or to something canonical. -/
theorem nearest_cases (s : Sign) (h0 : 0 < q) :
    (nearest s q = .zero s ∧ place q = -1074 ∧ rounding q = 0) ∨
      ∃ m e h, nearest s q = .finite s m e h ∧ Canonical m e ∧ place q ≤ e ∧
        rounding q = m * 2 ^ e := by
  obtain ⟨hlt, hfull, hplace⟩ := scaled_bounds h0
  have hpos : 0 ≤ q / 2 ^ place q := by positivity
  obtain ⟨hlow, hhigh⟩ := roundedMantissa_bounds (extended (q / 2 ^ place q))
  have hfloor : (extended (q / 2 ^ place q)).mantissa < 2 ^ 53 := by
    rw [extended, Nat.floor_lt hpos]
    exact_mod_cast hlt
  have hnormal : 2 ^ 52 ≤ (extended (q / 2 ^ place q)).mantissa ∨ place q = -1074 := by
    refine hfull.imp_left fun h => ?_
    rw [extended]
    exact Nat.le_floor (by exact_mod_cast h)
  unfold nearest rounding
  generalize extended (q / 2 ^ place q) = em at *
  rcases Nat.eq_zero_or_pos em.roundedMantissa with hz | hm
  · refine Or.inl ⟨settle_zero hz, by omega, ?_⟩
    rw [hz, Nat.cast_zero, zero_mul]
  · refine Or.inr ?_
    rcases Nat.lt_or_ge em.roundedMantissa (2 ^ 53) with hr | hr
    · have hc : Canonical em.roundedMantissa (place q) := (canonical_iff hm).2 (by omega)
      exact ⟨_, _, hm, settle_canonical hm hc, hc, le_rfl, rfl⟩
    · have hc : Canonical (2 ^ 52) (place q + 1) := (canonical_iff (by decide)).2 (by omega)
      have hcarry : em.roundedMantissa = 2 ^ 53 := by omega
      refine ⟨_, _, _, settle_carry hplace hcarry, hc, by omega, ?_⟩
      rw [hcarry, zpow_add_one₀ two_ne_zero]
      push_cast
      ring

/-- A value that a float can have rounds to itself. -/
theorem nearest_of_canonical {s : Sign} (h : 0 < m) (hc : Canonical m e) :
    nearest s (m * 2 ^ e) = .finite s m e h := by
  have hplace : place (m * 2 ^ e) = e := by rw [place_mul_zpow h, hc.target]
  rw [nearest, hplace, mul_zpow_div, extended_natCast]
  exact @settle_canonical e s (ExtendedMantissa.ofMantissaAndAccuracy m .exact) h hc

theorem nearest_zero (s : Sign) : nearest s 0 = .zero s := by
  rw [nearest, zero_div, ← Nat.cast_zero, extended_natCast]
  exact settle_zero rfl

/-- Less than half of the least float rounds to zero. -/
theorem nearest_of_lt {s : Sign} (h0 : 0 < q) (hq : q < 2 ^ (-1075 : Int)) :
    nearest s q = .zero s := by
  have hplace : place q = -1074 := by
    have hlog := (Int.lt_zpow_iff_log_lt one_lt_two h0).1 hq
    rw [place, targetExponent_eq]
    omega
  have hhalf : q / 2 ^ (-1074 : Int) < 1 / 2 := by
    rw [div_lt_iff₀ (by positivity)]
    refine lt_of_lt_of_eq hq ?_
    rw [one_div, ← zpow_neg_one, ← zpow_add₀ two_ne_zero]
    rfl
  have hext := extended_add 0 (by positivity : 0 ≤ q / 2 ^ (-1074 : Int)) (by linarith)
  rw [Nat.cast_zero, zero_add, decide_eq_false hhalf.not_ge] at hext
  have hround : ∀ sticky, ExtendedMantissa.roundedMantissa ⟨0, false, sticky⟩ = 0 := by decide
  rw [nearest, hplace, hext]
  exact settle_zero (hround _)

/-- Beyond the largest exponent everything rounds to infinity. -/
theorem pack_nearest_of_le {s : Sign} (h0 : 0 < q) (hq : 2 ^ (1024 : Int) ≤ q) :
    Float.Model.pack (nearest s q) = Float.Model.pack (.infinity s) := by
  have hplace : 971 < place q := by
    have hlog := (Int.zpow_le_iff_le_log one_lt_two h0).1 hq
    rw [place, targetExponent_eq]
    omega
  rcases nearest_cases s h0 with ⟨-, hp, -⟩ | ⟨m, e, h, hn, -, he, -⟩
  · omega
  · rw [hn, pack_of_lt (by omega)]

end

end StyleEngine
