import StyleEngine.Number.Binary
import StyleEngine.Proofs.Float.Rounding

/-!
# Values of floats

A finite float has a rational value, and floats are ordered as their values are.  A mantissa and
exponent as rounding gives them are compared by the exponent first: with a larger exponent the
mantissa has all its digits.

    x.isFinite ↔ ∃ q, HasValue x q                                       (isFinite_iff)
    HasValue x p → HasValue y q → (x ≤ y ↔ p ≤ q)                        (HasValue.le_iff)
    HasValue x q → compareIntFloat n x = some (compare n q)     (HasValue.compareIntFloat_eq)
-/

namespace StyleEngine

open Float.Model Float.Model.UnpackedFloat

/-! ## Values -/

def Binary.toRat (b : Binary) : Rat := b.mantissa * 2 ^ b.exponent

/-- A finite float, with its exact value. -/
def HasValue (x : Float) (q : Rat) : Prop := ∃ b, Binary.ofFloat? x = some b ∧ b.toRat = q

section
variable {x y : Float} {p q : Rat}

theorem HasValue.unique (h : HasValue x p) (h' : HasValue x q) : p = q := by
  obtain ⟨b, hb, rfl⟩ := h
  obtain ⟨b', hb', rfl⟩ := h'
  rw [hb] at hb'
  rw [Option.some.inj hb']

theorem hasValue_of_zero {s : Sign} (hx : x.toModel.unpack = .zero s) : HasValue x 0 := by
  refine ⟨⟨0, 0⟩, ?_, by simp [Binary.toRat]⟩
  unfold Binary.ofFloat?
  rw [hx]

theorem cast_apply (s : Sign) (m : Nat) : ((s.apply m : Int) : Rat) = s.apply 1 * m := by
  cases s <;> simp [Sign.apply]

theorem hasValue_of_finite {s : Sign} {m : Nat} {e : Int} {h : 0 < m}
    (hx : x.toModel.unpack = .finite s m e h) : HasValue x (s.apply 1 * (m * 2 ^ e)) := by
  refine ⟨⟨s.apply m, e⟩, ?_, ?_⟩
  · unfold Binary.ofFloat?
    rw [hx]
  · rw [Binary.toRat, cast_apply, mul_assoc]

theorem HasValue.cases (h : HasValue x q) : (∃ s, x.toModel.unpack = .zero s ∧ q = 0) ∨
    ∃ s m e hm, x.toModel.unpack = .finite s m e hm ∧ Stored m e ∧
      q = s.apply 1 * (m * 2 ^ e) := by
  have hvalue : ∀ {r}, HasValue x r → q = r := fun h' => h.unique h'
  obtain ⟨b, hb, -⟩ := h
  unfold Binary.ofFloat? at hb
  cases hx : x.toModel.unpack with
  | zero s => exact Or.inl ⟨s, rfl, hvalue (hasValue_of_zero hx)⟩
  | finite s m e hm =>
    exact Or.inr ⟨s, m, e, hm, rfl, stored_of_unpack hx, hvalue (hasValue_of_finite hx)⟩
  | infinity s =>
    rw [hx] at hb
    cases hb
  | notANumber =>
    rw [hx] at hb
    cases hb

theorem isFinite_iff : x.isFinite = true ↔ ∃ q, HasValue x q := by
  have hfinite : x.isFinite = x.toModel.unpack.isFinite := rfl
  rw [hfinite]
  constructor
  · intro h
    cases hx : x.toModel.unpack with
    | zero s => exact ⟨_, hasValue_of_zero hx⟩
    | finite s m e hm => exact ⟨_, hasValue_of_finite hx⟩
    | infinity s =>
      rw [hx] at h
      cases h
    | notANumber =>
      rw [hx] at h
      cases h
  · rintro ⟨q, hq⟩
    rcases hq.cases with ⟨s, hx, -⟩ | ⟨s, m, e, hm, hx, -⟩ <;> rw [hx] <;> rfl

theorem HasValue.isFinite (h : HasValue x q) : x.isFinite = true := isFinite_iff.2 ⟨q, h⟩

theorem HasValue.isNaN (h : HasValue x q) : x.isNaN = false := by
  have hnan : x.isNaN = x.toModel.unpack.isNaN := rfl
  rw [hnan]
  rcases h.cases with ⟨s, hx, -⟩ | ⟨s, m, e, hm, hx, -⟩ <;> rw [hx] <;> rfl

end

/-! ## Order -/

theorem compare_strictMono {α β : Type*} [LinearOrder α] [LinearOrder β] {f : α → β}
    (hf : StrictMono f) (a b : α) : compare (f a) (f b) = compare a b := by
  rcases lt_trichotomy a b with h | rfl | h
  · rw [compare_lt_iff_lt.2 h, compare_lt_iff_lt.2 (hf h)]
  · rw [compare_eq_iff_eq.2 rfl, compare_eq_iff_eq.2 rfl]
  · rw [compare_gt_iff_gt.2 h, compare_gt_iff_gt.2 (hf h)]

theorem compare_neg_swap (p q : Rat) : compare (-p) (-q) = (compare p q).swap := by
  rcases lt_trichotomy p q with h | rfl | h
  · rw [compare_lt_iff_lt.2 h, compare_gt_iff_gt.2 (neg_lt_neg h)]
    rfl
  · rw [compare_eq_iff_eq.2 rfl, compare_eq_iff_eq.2 rfl]
    rfl
  · rw [compare_gt_iff_gt.2 h, compare_lt_iff_lt.2 (neg_lt_neg h)]
    rfl

section
variable {m m' : Nat} {e e' : Int}

/-- Behind a larger exponent a mantissa has all its digits, so the exponent decides. -/
theorem Canonical.lt_of_exponent_lt (h : Canonical m e) (h' : Canonical m' e') (he : e < e') :
    (m : Rat) * 2 ^ e < m' * 2 ^ e' := by
  obtain ⟨hlt, hmin, -⟩ := (canonical_iff h.pos).1 h
  obtain ⟨-, -, hfull⟩ := (canonical_iff h'.pos).1 h'
  have hfull : 2 ^ 52 ≤ m' := hfull.resolve_right (by omega)
  calc (m : Rat) * 2 ^ e < 2 ^ 53 * 2 ^ e :=
        mul_lt_mul_of_pos_right (by exact_mod_cast hlt) (by positivity)
    _ = 2 ^ 52 * 2 ^ (e + 1) := by rw [zpow_add_one₀ two_ne_zero]; ring
    _ ≤ 2 ^ 52 * 2 ^ e' :=
        mul_le_mul_of_nonneg_left (zpow_le_zpow_right₀ one_le_two (by omega)) (by positivity)
    _ ≤ m' * 2 ^ e' := mul_le_mul_of_nonneg_right (by exact_mod_cast hfull) (by positivity)

theorem Canonical.compare_eq (h : Canonical m e) (h' : Canonical m' e') :
    (compare e e').then (compare m m') = compare ((m : Rat) * 2 ^ e) (m' * 2 ^ e') := by
  rcases lt_trichotomy e e' with he | rfl | he
  · rw [compare_lt_iff_lt.2 he, compare_lt_iff_lt.2 (h.lt_of_exponent_lt h' he)]
    rfl
  · have hpow : (0 : Rat) < 2 ^ e := by positivity
    have hmono : StrictMono fun k : Nat => (k : Rat) * 2 ^ e := fun _ _ h =>
      mul_lt_mul_of_pos_right (Nat.cast_lt.2 h) hpow
    rw [compare_eq_iff_eq.2 rfl, Ordering.eq_then]
    exact (compare_strictMono hmono m m').symm
  · rw [compare_gt_iff_gt.2 he, compare_gt_iff_gt.2 (h'.lt_of_exponent_lt h he)]
    rfl

end

section
variable {x y : Float} {p q : Rat}

theorem HasValue.compare_eq (hx : HasValue x p) (hy : HasValue y q) :
    UnpackedFloat.compare x.toModel.unpack y.toModel.unpack = some (compare p q) := by
  have hpos : ∀ {m : Nat} (e : Int), 0 < m → (0 : Rat) < m * 2 ^ e := fun e hm => by positivity
  rcases hx.cases with ⟨s, hxu, rfl⟩ | ⟨s, m, e, hm, hxu, hxs, rfl⟩ <;>
    rcases hy.cases with ⟨s', hyu, rfl⟩ | ⟨s', m', e', hm', hyu, hys, rfl⟩ <;> rw [hxu, hyu]
  · rw [compare_eq_iff_eq.2 rfl]
    rfl
  · have hq := hpos e' hm'
    cases s' with
    | positive => rw [compare_lt_iff_lt.2 (by simpa [Sign.apply] using hq)]; rfl
    | negative => rw [compare_gt_iff_gt.2 (by simpa [Sign.apply] using hq)]; rfl
  · have hp := hpos e hm
    cases s with
    | positive => rw [compare_gt_iff_gt.2 (by simpa [Sign.apply] using hp)]; rfl
    | negative => rw [compare_lt_iff_lt.2 (by simpa [Sign.apply] using hp)]; rfl
  · have hp := hpos e hm
    have hq := hpos e' hm'
    have hcompare := hxs.toCanonical.compare_eq hys.toCanonical
    cases s <;> cases s' <;>
      simp only [Sign.apply, Int.cast_neg, Int.cast_one, neg_mul, one_mul]
    · rw [compare_neg_swap, ← hcompare]; rfl
    · rw [compare_lt_iff_lt.2 (by linarith)]; rfl
    · rw [compare_gt_iff_gt.2 (by linarith)]; rfl
    · rw [← hcompare]; rfl

theorem HasValue.le_iff (hx : HasValue x p) (hy : HasValue y q) : x ≤ y ↔ p ≤ q := by
  have hle : x ≤ y ↔ UnpackedFloat.le x.toModel.unpack y.toModel.unpack = true :=
    decide_eq_true_iff
  rw [hle, UnpackedFloat.le, hx.compare_eq hy, Option.any_some, ← compare_le_iff_le,
    Ordering.isLE_iff_ne_gt]

theorem HasValue.lt_iff (hx : HasValue x p) (hy : HasValue y q) : x < y ↔ p < q := by
  have hlt : x < y ↔ UnpackedFloat.lt x.toModel.unpack y.toModel.unpack = true :=
    decide_eq_true_iff
  rw [hlt, UnpackedFloat.lt, hx.compare_eq hy, beq_iff_eq, Option.some.injEq, compare_lt_iff_lt]

theorem HasValue.beq_iff (hx : HasValue x p) (hy : HasValue y q) : (x == y) = true ↔ p = q := by
  have hbeq : (x == y) = UnpackedFloat.beq x.toModel.unpack y.toModel.unpack := rfl
  rw [hbeq, UnpackedFloat.beq, hx.compare_eq hy, beq_iff_eq, Option.some.injEq, compare_eq_iff_eq]

end

/-! ## Integers -/

theorem Binary.compareInt_eq (n : Int) (b : Binary) :
    b.compareInt n = compare (n : Rat) b.toRat := by
  have hpow : ∀ k, ((powerOfTwo k : Int) : Rat) = 2 ^ k := fun k => by simp [powerOfTwo]
  have hscale : (0 : Rat) < 2 ^ (-b.exponent).toNat := by positivity
  have hshift : b.toRat * 2 ^ (-b.exponent).toNat = b.mantissa * 2 ^ b.exponent.toNat := by
    have hsum : b.exponent + (-b.exponent).toNat = b.exponent.toNat := by omega
    rw [toRat, mul_assoc, ← zpow_natCast, ← zpow_natCast, ← zpow_add₀ two_ne_zero, hsum]
  calc b.compareInt n
      = compare ((n * powerOfTwo (-b.exponent).toNat : Int) : Rat)
          (b.mantissa * powerOfTwo b.exponent.toNat : Int) :=
        (compare_strictMono Int.cast_strictMono _ _).symm
    _ = compare (n * 2 ^ (-b.exponent).toNat : Rat) (b.toRat * 2 ^ (-b.exponent).toNat) := by
        rw [Int.cast_mul, Int.cast_mul, hpow, hpow, hshift]
    _ = compare (n : Rat) b.toRat :=
        compare_strictMono (fun _ _ h => mul_lt_mul_of_pos_right h hscale) _ _

theorem HasValue.compareIntFloat_eq {x : Float} {q : Rat} (h : HasValue x q) (n : Int) :
    compareIntFloat n x = some (compare (n : Rat) q) := by
  unfold compareIntFloat
  obtain ⟨b, hb, rfl⟩ := h
  rw [← Binary.compareInt_eq]
  unfold Binary.ofFloat? at hb
  split at hb
  · next hx =>
    rw [hx, ← Option.some.inj hb]
  · next hx =>
    rw [hx, ← Option.some.inj hb, Binary.compareInt_eq]
    have hzero : (Binary.mk 0 0).toRat = ((0 : Int) : Rat) := by simp [Binary.toRat]
    rw [hzero, compare_strictMono Int.cast_strictMono]
  · cases hb
  · cases hb

end StyleEngine
