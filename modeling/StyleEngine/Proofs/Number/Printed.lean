import StyleEngine.Number
import StyleEngine.Number.Numeral
import StyleEngine.Proofs.Number.Notation
import StyleEngine.Proofs.Number.Numeral
import StyleEngine.Proofs.Number.Shortest

/-!
# Printed numbers are numerals

However the digits of a number are laid out, they spell a well-formed numeral of the same value.
So the text of an integer or of a finite float is a numeral that is read as that number.

    (laidOut ds point).spelling = layout ds point                        (spelling_laidOut)
    (laidOut ds point).decimal.toRat =
      digitsValue ds * 10 ^ (point - ds.length)                          (toRat_laidOut)
    x.isFinite → ∃ n, n.WellFormed ∧ n.spelling = (float x).compact ∧ n.value == x
                                                                         (exists_numeral_compact)
-/

namespace StyleEngine

open Text
open Float.Model.UnpackedFloat

/-! ## Digits -/

theorem digitValue?_of_isDigit {c : Char} (h : c.isDigit = true) :
    digitValue? c = some (c.toNat - '0'.toNat) := by
  simp only [Char.isDigit, Bool.and_eq_true, decide_eq_true_eq] at h
  have hlow : 48 ≤ c.toNat := h.1
  have hhigh : c.toNat ≤ 57 := h.2
  unfold digitValue? digitZeros
  rw [List.find?_cons_of_pos (by simp only [Bool.and_eq_true, decide_eq_true_eq]; omega)]
  rfl

theorem isDigit_natChars {n : Nat} {c : Char} (h : c ∈ natChars n) :
    isDigit c = true := by
  rw [isDigit, digitValue?_of_isDigit (isDigit_of_mem_natChars h)]
  rfl

theorem natChars_ne_nil (n : Nat) : natChars n ≠ [] := Nat.toDigits_ne_nil

theorem foldl_digits (ds : List Char) (n : Nat) :
    ds.foldl (fun n c => n * 10 + (digitValue? c).getD 0) n =
      n * 10 ^ ds.length + digitsValue ds := by
  induction ds generalizing n with
  | nil => simp [digitsValue]
  | cons c ds ih =>
    have hds : digitsValue (c :: ds) =
        ((digitValue? c).getD 0) * 10 ^ ds.length + digitsValue ds := by
      rw [digitsValue, List.foldl_cons, ih, Nat.zero_mul, Nat.zero_add]
    rw [List.foldl_cons, ih, hds, List.length_cons, pow_succ]
    ring

theorem digitsValue_append (a b : List Char) :
    digitsValue (a ++ b) = digitsValue a * 10 ^ b.length + digitsValue b := by
  rw [digitsValue, List.foldl_append, foldl_digits]
  rfl

theorem digitsValue_zero : digitsValue ['0'] = 0 := by decide

theorem digitsValue_replicate_zero (n : Nat) : digitsValue (List.replicate n '0') = 0 := by
  induction n with
  | zero => rfl
  | succ n ih =>
    rw [List.replicate_succ, ← List.singleton_append, digitsValue_append, ih, digitsValue_zero,
      Nat.zero_mul]

theorem digitsValue_natChars (n : Nat) : digitsValue (natChars n) = n := by
  have hread : ∀ (ds : List Char) (m : Nat), (∀ c ∈ ds, c.isDigit = true) →
      ds.foldl (fun n c => n * 10 + (digitValue? c).getD 0) m = Nat.ofDigitChars 10 ds m := by
    intro ds
    induction ds with
    | nil => exact fun _ _ => rfl
    | cons c ds ih =>
      intro m hds
      rw [List.foldl_cons, digitValue?_of_isDigit (hds c List.mem_cons_self),
        ih _ fun d hd => hds d (List.mem_cons_of_mem c hd), Nat.mul_comm]
      rfl
  rw [digitsValue, hread _ _ fun _ => isDigit_of_mem_natChars]
  exact Nat.ofDigitChars_toDigits (by decide) (by decide)

/-! ## Laying out digits -/

/-- The exponent that `exponentChars` writes. -/
def printedExponent (e : Int) : Exponent :=
  ⟨'e', some (if e < 0 then '-' else '+'),
    if (natChars e.natAbs).length < 2 then '0' :: natChars e.natAbs else natChars e.natAbs⟩

/-- The numeral that `layout` writes. -/
def laidOut (digits : List Char) (point : Int) : Numeral :=
  if point ≤ -4 || 16 < point then
    ⟨none, digits.take 1, if digits.length ≤ 1 then none else some (digits.drop 1),
      some (printedExponent (point - 1))⟩
  else if point ≤ 0 then
    ⟨none, ['0'], some (List.replicate (-point).toNat '0' ++ digits), none⟩
  else if digits.length ≤ point.toNat then
    ⟨none, digits ++ List.replicate (point.toNat - digits.length) '0', some ['0'], none⟩
  else ⟨none, digits.take point.toNat, some (digits.drop point.toNat), none⟩

theorem spelling_printedExponent (e : Int) :
    (printedExponent e).spelling = 'e' :: exponentChars e := rfl

theorem digits_printedExponent (e : Int) : ∀ c ∈ (printedExponent e).digits, isDigit c = true := by
  intro c hc
  dsimp only [printedExponent] at hc
  split at hc
  · rcases List.mem_cons.1 hc with rfl | hc
    · decide
    · exact isDigit_natChars hc
  · exact isDigit_natChars hc

theorem wellFormed_printedExponent (e : Int) : (printedExponent e).WellFormed where
  mark := Or.inl rfl
  sign c hc := by
    cases Option.some.inj hc
    split
    · exact Or.inr rfl
    · exact Or.inl rfl
  digits := digits_printedExponent e
  nonempty := by
    dsimp only [printedExponent]
    split
    · exact List.cons_ne_nil _ _
    · exact natChars_ne_nil _

theorem value_printedExponent (e : Int) : Numeral.Exponent.value (printedExponent e) = e := by
  have hdigits : digitsValue (printedExponent e).digits = e.natAbs := by
    dsimp only [printedExponent]
    split
    · rw [← List.singleton_append, digitsValue_append, digitsValue_zero, Nat.zero_mul, Nat.zero_add,
        digitsValue_natChars]
    · exact digitsValue_natChars _
  unfold Numeral.Exponent.value
  rw [hdigits]
  by_cases he : e < 0
  · rw [if_pos (by simp [printedExponent, he])]
    omega
  · rw [if_neg (by simp [printedExponent, he])]
    omega

section
variable {digits : List Char} {point : Int}

theorem spelling_laidOut (digits : List Char) (point : Int) :
    (laidOut digits point).spelling = layout digits point := by
  unfold laidOut layout
  split
  · unfold scientific Numeral.spelling
    split <;> simp [fractionSpelling, exponentSpelling, spelling_printedExponent]
  · split
    · simp [Numeral.spelling, fractionSpelling, exponentSpelling]
    · split <;> simp [Numeral.spelling, fractionSpelling, exponentSpelling]

theorem sign_laidOut (digits : List Char) (point : Int) : (laidOut digits point).sign = none := by
  unfold laidOut
  split <;> [rfl; split] <;> [rfl; split] <;> rfl

theorem wellFormed_laidOut (hd : ∀ c ∈ digits, isDigit c = true) (hne : digits ≠ []) :
    (laidOut digits point).WellFormed := by
  have hzeros : ∀ n, ∀ c ∈ List.replicate n '0', isDigit c = true := by
    intro n c hc
    rw [List.eq_of_mem_replicate hc]
    decide
  unfold laidOut
  split
  · refine ⟨nofun, fun c hc => hd c (List.mem_of_mem_take hc), ?_, ?_, ?_⟩
    · intro ds hds c hc
      dsimp only at hds
      split at hds
      · cases hds
      · cases hds
        exact hd c (List.mem_of_mem_drop hc)
    · refine Or.inl ?_
      simp [hne]
    · intro e he
      cases he
      exact wellFormed_printedExponent _
  · split
    · refine ⟨nofun, hzeros 1, ?_, Or.inl (List.cons_ne_nil _ _), nofun⟩
      · intro ds hds c hc
        cases hds
        rcases List.mem_append.1 hc with hc | hc
        · exact hzeros _ c hc
        · exact hd c hc
    · split
      · refine ⟨nofun, ?_, ?_, Or.inl (by simp [hne]), nofun⟩
        · intro c hc
          rcases List.mem_append.1 hc with hc | hc
          · exact hd c hc
          · exact hzeros _ c hc
        · intro ds hds c hc
          cases hds
          exact hzeros 1 c hc
      · next hpoint _ =>
        refine ⟨nofun, fun c hc => hd c (List.mem_of_mem_take hc), ?_, Or.inl ?_, nofun⟩
        · intro ds hds c hc
          cases hds
          exact hd c (List.mem_of_mem_drop hc)
        · have hpos : point.toNat ≠ 0 := by omega
          simp [hne, hpos]

/-- The point stands for the power of ten that the digits are multiplied by. -/
theorem toRat_laidOut (hne : digits ≠ []) :
    (laidOut digits point).decimal.toRat = digitsValue digits * 10 ^ (point - digits.length) := by
  have hpos : 0 < digits.length := List.length_pos_of_ne_nil hne
  unfold laidOut Numeral.decimal Decimal.toRat
  split
  · dsimp only
    rw [Option.map_some, Option.getD_some, value_printedExponent]
    split
    · next hlen =>
      have htake : digits.take 1 = digits := List.take_of_length_le hlen
      rw [htake, Option.getD_none, List.append_nil, List.length_nil]
      congr 2
      omega
    · rw [Option.getD_some, List.take_append_drop, List.length_drop]
      congr 2
      omega
  · split
    · next hpoint =>
      dsimp only
      rw [Option.getD_some, ← List.append_assoc, digitsValue_append, List.singleton_append,
        ← List.replicate_succ, digitsValue_replicate_zero, Nat.zero_mul, Nat.zero_add,
        List.length_append, List.length_replicate]
      congr 2
      rw [Option.map_none, Option.getD_none]
      omega
    · next hpoint =>
      split
      · next hlen =>
        dsimp only
        have hexp : point - digits.length = (point.toNat - digits.length : Nat) := by omega
        rw [Option.getD_some, digitsValue_append, digitsValue_append, digitsValue_replicate_zero,
          digitsValue_zero, List.length_replicate, Option.map_none, Option.getD_none, hexp,
          zpow_natCast]
        push_cast [List.length_singleton]
        field_simp
        ring
      · next hlen =>
        dsimp only
        rw [Option.getD_some, List.take_append_drop, List.length_drop, Option.map_none,
          Option.getD_none]
        congr 2
        omega

end

/-! ## Signs -/

/-- An unsigned numeral with a minus sign, or as it is. -/
def Numeral.signed (negative : Bool) (n : Numeral) : Numeral :=
  { n with sign := if negative then some '-' else none }

section
variable {n : Numeral} {negative : Bool}

theorem Numeral.WellFormed.signed (h : n.WellFormed) (negative : Bool) :
    (n.signed negative).WellFormed where
  sign c hc := by
    cases negative
    · cases hc
    · exact Or.inr (Option.some.inj hc).symm
  whole := h.whole
  fraction := h.fraction
  nonempty := h.nonempty
  exponent := h.exponent

theorem Numeral.spelling_signed (h : n.sign = none) (negative : Bool) :
    (n.signed negative).spelling = if negative then '-' :: n.spelling else n.spelling := by
  cases negative <;> simp [signed, spelling, h]

theorem Numeral.value_signed (n : Numeral) (negative : Bool) :
    (n.signed negative).value = if negative then -n.decimal.toFloat else n.decimal.toFloat := by
  cases negative <;> rfl

end

/-! ## Integers -/

/-- An integer that is written is read as the nearest float. -/
theorem exists_numeral_intChars (n : Int) : ∃ k : Numeral, k.WellFormed ∧
    k.spelling = intChars n ∧ k.value = Number.floatOfInt n := by
  let k : Numeral := ⟨none, natChars n.natAbs, none, none⟩
  have hk : k.WellFormed :=
    ⟨nofun, fun _ => isDigit_natChars, nofun, Or.inl (natChars_ne_nil _), nofun⟩
  have hspelling : k.spelling = natChars n.natAbs := by
    simp [k, Numeral.spelling, fractionSpelling, exponentSpelling]
  have hdecimal : k.decimal = ⟨n.natAbs, 0⟩ := by
    simp [k, Numeral.decimal, digitsValue_natChars]
  refine ⟨k.signed (decide (n < 0)), hk.signed _, ?_, ?_⟩
  · rw [Numeral.spelling_signed rfl, hspelling, intChars]
    simp only [decide_eq_true_eq]
  · rw [Numeral.value_signed, hdecimal, Number.floatOfInt]
    simp only [decide_eq_true_eq]

/-! ## Floats -/

theorem exists_ofFloat? {x : Float} (h : x.isFinite = true) :
    ∃ b, Binary.ofFloat? x = some b := by
  rw [isFinite_eq] at h
  unfold Binary.ofFloat?
  cases hx : x.toModel.unpack <;> rw [hx] at h <;> first | exact ⟨_, rfl⟩ | cases h

/-- A finite float that is written is read as itself. -/
theorem exists_numeral_floatChars {x : Float} (h : x.isFinite = true) : ∃ k : Numeral,
    k.WellFormed ∧ k.spelling = floatChars x ∧ k.value = x := by
  obtain ⟨b, hb⟩ := exists_ofFloat? h
  have hread := Decimal.toFloat_shortest hb
  unfold floatChars
  rw [hb]
  simp only [← abs_eq_ite, magnitudeChars]
  generalize Decimal.shortest x.abs b = d at hread ⊢
  have hne : d.digitChars ≠ [] := natChars_ne_nil _
  have hk : (laidOut d.digitChars (d.digitChars.length + d.exp)).WellFormed :=
    wellFormed_laidOut (fun _ => isDigit_natChars) hne
  have hvalue : (laidOut d.digitChars (d.digitChars.length + d.exp)).decimal.toFloat = x.abs := by
    refine Eq.trans (Decimal.toFloat_congr ?_) hread
    have hdigits : digitsValue d.digitChars = d.digits := digitsValue_natChars _
    rw [toRat_laidOut hne, hdigits, add_sub_cancel_left]
    rfl
  refine ⟨_, hk.signed (isNegativeFloat x), ?_, ?_⟩
  · rw [Numeral.spelling_signed (sign_laidOut _ _), spelling_laidOut]
  · rw [Numeral.value_signed, hvalue, abs_eq_ite]
    split
    · exact neg_neg_float x
    · rfl

theorem Binary.cast_toInt? {b : Binary} {n : Int} (h : b.toInt? = some n) :
    (n : Rat) = b.mantissa * 2 ^ b.exponent := by
  have hpow : ∀ k, powerOfTwo k = 2 ^ k := fun k => by simp [powerOfTwo]
  unfold toInt? at h
  split at h
  · next he =>
    obtain ⟨k, hk⟩ := Int.eq_ofNat_of_zero_le he
    rw [← Option.some.inj h, hk, hpow, Int.toNat_natCast, zpow_natCast]
    push_cast
    rfl
  · next he =>
    obtain ⟨k, hk⟩ : ∃ k : Nat, b.exponent = -k := ⟨(-b.exponent).toNat, by omega⟩
    dsimp only at h
    split at h
    · next hmod =>
      have hdvd := Int.ediv_mul_cancel (Int.dvd_of_emod_eq_zero hmod)
      rw [Option.some.inj h, hpow, hk, neg_neg, Int.toNat_natCast] at hdvd
      rw [← hdvd, hk, zpow_neg, zpow_natCast]
      push_cast
      rw [mul_inv_cancel_right₀ (by positivity)]
    · cases h

/-- The integer that a float equals rounds to it. -/
theorem floatOfInt_beq {x : Float} {n : Int} (h : integerOfFloat? x = some n) :
    (Number.floatOfInt n == x) = true := by
  obtain ⟨b, hb, hn⟩ := Option.bind_eq_some_iff.1 h
  have hexact := Binary.cast_toInt? hn
  have hread : (Decimal.mk n.natAbs 0).toFloat = x.abs := by
    refine Eq.trans (Decimal.toFloat_congr ?_) (Decimal.toFloat_ofBinary hb)
    have habs : ((n.natAbs : Nat) : Rat) = b.mantissa.natAbs * 2 ^ b.exponent := by
      rw [Nat.cast_natAbs, Nat.cast_natAbs, Int.cast_abs, Int.cast_abs, hexact, abs_mul,
        abs_of_pos (by positivity : (0 : Rat) < 2 ^ b.exponent)]
    rw [Decimal.toRat_ofBinary, ← habs, Decimal.toRat, zpow_zero, mul_one]
  have hfinite := beq_self_of_isFinite (isFinite_of_ofFloat? hb)
  have hneg : n < 0 ↔ b.mantissa < 0 := by
    have hpow : (0 : Rat) < 2 ^ b.exponent := by positivity
    rw [← @Int.cast_lt_zero Rat, hexact, ← @Int.cast_lt_zero Rat]
    exact ⟨fun h => neg_of_mul_neg_left h hpow.le, fun h => mul_neg_of_neg_of_pos h hpow⟩
  unfold Number.floatOfInt
  dsimp only
  rw [hread]
  unfold Binary.ofFloat? at hb
  split at hb
  · next s m e hm hx =>
    cases hb
    cases s with
    | positive =>
      have habs : x.abs = x := by rw [abs_eq_ite, isNegativeFloat, hx]; rfl
      have hpos : ¬ n < 0 := fun h => absurd (hneg.1 h) (by simp [Sign.apply])
      rw [if_neg hpos, habs]
      exact hfinite
    | negative =>
      have habs : x.abs = -x := by rw [abs_eq_ite, isNegativeFloat, hx]; rfl
      have hlt : n < 0 := hneg.2 (by simp [Sign.apply, hm])
      rw [if_pos hlt, habs, neg_neg_float]
      exact hfinite
  · next s hx =>
    cases hb
    have hzero : n = 0 := by
      rw [Int.cast_zero, zero_mul] at hexact
      exact_mod_cast hexact
    have hbeq : (x.abs == x) = x.abs.toModel.unpack.beq x.toModel.unpack := rfl
    rw [hzero, if_neg (lt_irrefl 0), hbeq, unpack_abs, hx]
    rfl
  · cases hb
  · cases hb

theorem exists_numeral_compact {x : Float} (h : x.isFinite = true) : ∃ k : Numeral,
    k.WellFormed ∧ k.spelling = (Number.float x).compact.toList ∧ (k.value == x) = true := by
  unfold Number.compact
  split
  · cases ‹Number.float x = _›
  · next y hy =>
    cases hy
    split
    · next n hn =>
      obtain ⟨k, hk, hspelling, hvalue⟩ := exists_numeral_intChars n
      refine ⟨k, hk, by rw [hspelling, String.toList_ofList], ?_⟩
      rw [hvalue]
      exact floatOfInt_beq hn
    · obtain ⟨k, hk, hspelling, hvalue⟩ := exists_numeral_floatChars h
      refine ⟨k, hk, by rw [hspelling, String.toList_ofList], ?_⟩
      rw [hvalue]
      exact beq_self_of_isFinite h

end StyleEngine
