import StyleEngine.Proofs.Dimension.Unit
import StyleEngine.Proofs.Float.Operations
import StyleEngine.Schema.Extent

/-!
# How much room there is for margins

A dimension makes room only if it is greater than its margins, but the room for a margin is a
hundred times the margin over the extent of the viewport.  If the viewport extends by a hundred at
least, that is not more than the margin up to rounding, and rounding passes no float: nothing
negative is left.  In a smaller one there may be more room than the dimension.

    margin < magnitude → 100 ≤ extent → room ≤ magnitude                          (room_le)
    0 ≤ x → parse? ((float x).compact ++ unit) = some l → 0 ≤ l.magnitude         (read_nonneg)
-/

namespace StyleEngine.Dimension

open Text Resolution
open Float.Model Float.Model.UnpackedFloat

/-! ## Rounding the room -/

section
variable {m : Nat} {e : Int}

/-- A hundred times a float has seven binary digits more at most. -/
theorem place_hundredfold (hc : Canonical m e) : place (100 * (m * 2 ^ e)) ≤ e + 7 := by
  have hm := hc.pos
  have htarget := hc.target
  have hshift : (m : Rat) * 2 ^ (e + 7) = 128 * (m * 2 ^ e) := by
    rw [zpow_add₀ two_ne_zero, show (2 : Rat) ^ (7 : Int) = 128 by norm_num]
    ring
  have hpos : (0 : Rat) < m * 2 ^ e := by positivity
  have hmono : place (100 * (m * 2 ^ e)) ≤ place (m * 2 ^ (e + 7)) := by
    refine place_mono (by positivity) ?_
    rw [hshift]
    linarith
  rw [place_mul_zpow hm, targetExponent_eq, totalExponent] at hmono
  rw [targetExponent_eq, totalExponent] at htarget
  omega

end

section
variable {dimension margin extent hundredfold room : Float} {p s w h r : Rat}

/-- Up to rounding, a hundredth of a hundredfold is not greater than the next float. -/
theorem hundredth_le (hp : HasValue dimension p) (hs : HasValue margin s) (hsp : s < p)
    (h0 : 0 < s) (hround : RoundsTo (100 * s) hundredfold) (hh : HasValue hundredfold h) :
    h / 100 ≤ p := by
  obtain ⟨m, e, hc, hms⟩ := hs.exists_canonical h0.ne'
  obtain ⟨m', e', hc', hmp⟩ := hp.exists_canonical (h0.trans hsp).ne'
  rw [abs_of_pos h0] at hms
  rw [abs_of_pos (h0.trans hsp)] at hmp
  have hnext : s + 2 ^ e ≤ p := by
    rw [hms, hmp] at hsp ⊢
    exact hc.next_le hc' hsp
  have herror := hround.error_place hh
  have hplace : (2 : Rat) ^ place (100 * s) ≤ 128 * 2 ^ e := by
    calc (2 : Rat) ^ place (100 * s) ≤ 2 ^ (e + 7) :=
          zpow_le_zpow_right₀ one_le_two (hms ▸ place_hundredfold hc)
      _ = 128 * 2 ^ e := by
          rw [zpow_add₀ two_ne_zero, show (2 : Rat) ^ (7 : Int) = 128 by norm_num]
          ring
  rw [abs_of_pos (by linarith : 0 < 100 * s)] at herror
  have hle : h ≤ 100 * s + 64 * 2 ^ e := by linarith [(abs_le.1 herror).2]
  have hpow : (0 : Rat) < 2 ^ e := by positivity
  rw [div_le_iff₀ (by norm_num)]
  linarith

/-- In a viewport of a hundred or more there is not more room for margins than in a dimension that
is greater than they are. -/
theorem room_le (hp : HasValue dimension p) (h0 : 0 < p) (hs : 0 < s → ∃ y, HasValue y s)
    (hsp : s < p)
    (hw : HasValue extent w) (hw100 : 100 ≤ w) (hround : RoundsTo (100 * s) hundredfold)
    (hh : HasValue hundredfold h) (hr : HasValue (hundredfold / extent) r) : r ≤ p := by
  have hroom := hh.div hw (by linarith)
  refine hroom.le_of_le hr hp ?_
  rcases le_or_gt s 0 with hneg | hpos
  · have hh0 : h ≤ 0 := hround.le_of_le hh hasValue_zero (by linarith)
    exact (div_nonpos_of_nonpos_of_nonneg hh0 (by linarith)).trans h0.le
  · obtain ⟨margin, hs⟩ := hs hpos
    have hh0 : 0 ≤ h := hround.ge_of_ge hh hasValue_zero (by linarith)
    exact (div_le_div_of_nonneg_left hh0 (by norm_num) hw100).trans
      (hundredth_le hp hs hsp hpos hround hh)

end

/-! ## Margins as numbers -/

section
variable {dimension h : Float} {sum : Number} {p : Rat}

/-- The sum of the margins beside a greater dimension, and what its hundredfold rounds. -/
theorem exists_sum_value (hp : HasValue dimension p) (hle : (Number.float dimension).le sum = false)
    (hh : hundredfold? sum = some h) (hfinite : h.isFinite = true)
    (hint : ∀ n, sum = .int n → n ≤ 2 ^ 53) :
    ∃ s, s < p ∧ RoundsTo (100 * s) h ∧ (0 < s → ∃ y, HasValue y s) := by
  cases sum with
  | int n =>
    have hround : h = Number.floatOfInt (100 * n) := by
      have hh : (if (Number.floatOfInt (100 * n)).isInf then none
        else some (Number.floatOfInt (100 * n))) = some h := hh
      split at hh
      · cases hh
      · exact (Option.some.inj hh).symm
    have hcompare := hp.compareIntFloat_eq n
    have hlt : (n : Rat) < p := by
      have hge : (compareIntFloat n dimension).any Ordering.isGE = false := hle
      rw [hcompare, Option.any_some, Ordering.isGE_eq_false, compare_lt_iff_lt] at hge
      exact hge
    refine ⟨n, hlt, ?_, fun hpos => ?_⟩
    · have h := roundsTo_floatOfInt (100 * n)
      rwa [Int.cast_mul, Int.cast_ofNat, ← hround] at h
    · obtain ⟨k, rfl⟩ := Int.eq_ofNat_of_zero_le (Int.cast_pos.1 hpos).le
      exact exists_hasValue_natCast (by exact_mod_cast hpos) (by exact_mod_cast hint k rfl)
  | float y =>
    obtain rfl : 100 * y = h := Option.some.inj hh
    obtain ⟨s, hs⟩ := isFinite_iff.1 (isFinite_of_mul hfinite)
    refine ⟨s, ?_, hasValue_hundred.mul hs, fun _ => ⟨y, hs⟩⟩
    have hlt : ¬dimension ≤ y := of_decide_eq_false hle
    rw [hp.le_iff hs] at hlt
    exact not_le.1 hlt

end

/-! ## What is left -/

section
variable {dimension extent x : Float} {sum : Number} {p : Rat}

theorem adjusted_cases (h : adjusted dimension sum extent = .ok x) :
    ((Number.float dimension).le sum = true ∨ (extent == 0) = true) ∧ x = dimension ∨
      (Number.float dimension).le sum = false ∧ (extent == 0) = false ∧
        ∃ room, hundredfold? sum = some room ∧ x = dimension - room / extent := by
  unfold adjusted at h
  split at h
  · next hkept => exact Or.inl ⟨Bool.or_eq_true_iff.1 hkept, (Except.ok.inj h).symm⟩
  · next hkept =>
    rw [Bool.not_eq_true, Bool.or_eq_false_iff] at hkept
    split at h
    · next room hroom => exact Or.inr ⟨hkept.1, hkept.2, room, hroom, (Except.ok.inj h).symm⟩
    · cases h

variable (hp : HasValue dimension p) (h0 : 0 < p) (hleft : adjusted dimension sum extent = .ok x)
  (hx : x.isFinite = true)

include hp h0 hleft hx

/-- Something negative is left exactly if there is more room than the dimension. -/
theorem left_nonneg_iff : 0 ≤ x ↔ (Number.float dimension).le sum = true ∨ (extent == 0) = true ∨
    ∃ room, hundredfold? sum = some room ∧ room / extent ≤ dimension := by
  rcases adjusted_cases hleft with ⟨hkept, rfl⟩ | ⟨hle, hextent, room, hroom, rfl⟩
  · refine iff_of_true ((hasValue_zero.le_iff hp).2 h0.le) ?_
    exact hkept.imp_right Or.inl
  · obtain ⟨r, hr⟩ := isFinite_iff.1 hx
    obtain ⟨q, hq⟩ := isFinite_iff.1 (isFinite_of_sub hx)
    rw [hasValue_zero.le_iff hr, hp.sub_nonneg_iff hq hr, hle, hextent]
    simp only [Bool.false_eq_true, false_or, hroom, Option.some.injEq, exists_eq_left',
      hq.le_iff hp]

theorem left_nonneg (hextent : 100 ≤ extent) (hint : ∀ n, sum = .int n → n ≤ 2 ^ 53) : 0 ≤ x := by
  rw [left_nonneg_iff hp h0 hleft hx]
  rcases adjusted_cases hleft with ⟨hkept, -⟩ | ⟨hle, -, room, hroom, rfl⟩
  · exact hkept.imp_right Or.inl
  · refine Or.inr (Or.inr ⟨room, hroom, ?_⟩)
    have hquotient := isFinite_of_sub hx
    have hfinite := isFinite_of_div hquotient
    obtain ⟨r, hr⟩ := isFinite_iff.1 hquotient
    rw [hr.le_iff hp]
    cases hw : extent.isFinite with
    | false => exact (hr.unique (hasValue_div_infinite hw hquotient)).trans_le h0.le
    | true =>
      obtain ⟨w, hw⟩ := isFinite_iff.1 hw
      obtain ⟨h, hh⟩ := isFinite_iff.1 hfinite
      obtain ⟨s, hsp, hround, hs⟩ := exists_sum_value hp hle hroom hfinite hint
      exact room_le hp h0 hs hsp hw ((hasValue_hundred.le_iff hw).1 hextent) hround hh hr

end

/-! ## Reading what is left -/

theorem toFloat_nonneg (d : Decimal) : 0 ≤ d.toFloat := by
  have hq : 0 ≤ d.toRat := by unfold Decimal.toRat; positivity
  rw [Decimal.toFloat_eq]
  rcases nearest_value .positive hq with hv | ⟨hinf, -⟩
  · rw [hasValue_zero.le_iff hv, Sign.apply, Int.cast_one, one_mul]
    exact rounding_nonneg _
  · rw [hinf]
    decide

theorem compact_of_hasValue_zero {x : Float} (h : HasValue x 0) :
    (Number.float x).compact = "0" := by
  rcases h.cases with ⟨s, hx, -⟩ | ⟨s, m, e, hm, -, -, h0⟩
  · have hint : integerOfFloat? x = some 0 := by
      unfold integerOfFloat? Binary.ofFloat?
      rw [hx]
      rfl
    unfold Number.compact
    simp only [hint]
    rfl
  · have hpos : (0 : Rat) < m * 2 ^ e := by positivity
    exact absurd h0.symm (by cases s <;> simpa [Sign.apply] using hpos.ne')

/-- A numeral has the sign that it is spelled with. -/
theorem head_spelling_iff {n : Numeral} (hn : n.WellFormed) :
    n.spelling.head? = some '-' ↔ n.sign = some '-' := by
  cases hs : n.sign with
  | some c => simp [Numeral.spelling, hs]
  | none =>
    refine iff_of_false (fun h => ?_) (Option.some_ne_none '-').symm
    rw [← List.append_nil n.spelling] at h
    exact (Numeral.head_unsigned hn hs h).2 rfl

/-- A number that is not negative is printed without a sign, also a zero that has one. -/
theorem head_compact {x : Float} {r : Rat} (hx : HasValue x r) (hr : 0 ≤ r) :
    (Number.float x).compact.toList.head? ≠ some '-' := by
  obtain ⟨k, hk, hspelling, hvalue⟩ := exists_numeral_compact hx.isFinite
  intro hhead
  have hsign : k.sign = some '-' := by
    rw [← hspelling] at hhead
    exact (head_spelling_iff hk).1 hhead
  have hk0 : k.value = -k.decimal.toFloat := by
    unfold Numeral.value
    rw [if_pos hsign]
  obtain ⟨q, hq⟩ := isFinite_iff.1 (isFinite_of_beq hvalue hx.isFinite)
  obtain rfl : q = r := (hq.beq_iff hx).1 hvalue
  have hneg : HasValue k.decimal.toFloat (-q) := by
    have h := hq.neg
    rwa [hk0, neg_neg_float] at h
  have hzero : q = 0 := by
    have h := (hasValue_zero.le_iff hneg).1 (toFloat_nonneg _)
    linarith
  rw [compact_of_hasValue_zero (hzero ▸ hx)] at hhead
  exact absurd hhead (by decide)

/-- What is not negative is not read as something negative, whatever is taken for its unit. -/
theorem read_nonneg {x : Float} {unit : String} {l : Length} (hx : x.isFinite = true) (h : 0 ≤ x)
    (hl : Length.parse? ((Number.float x).compact ++ unit) = some l) : 0 ≤ l.magnitude := by
  obtain ⟨r, hr⟩ := isFinite_iff.1 hx
  obtain ⟨k, hk, hspelling, -⟩ := exists_numeral_compact hx
  obtain ⟨c, cs, hcs⟩ := List.exists_cons_of_ne_nil (Numeral.spelling_ne_nil hk)
  have hminus : c ≠ '-' := by
    have hhead := head_compact hr ((hasValue_zero.le_iff hr).1 h)
    rw [← hspelling, hcs] at hhead
    exact fun hc => hhead (congrArg some hc)
  have hblank : isBlank c = false :=
    Numeral.isBlank_of_mem_spelling hk (hcs ▸ List.mem_cons_self)
  obtain ⟨n, rest, hlongest, rfl⟩ := (Length.parse?_eq_some_iff _ l).1 hl
  obtain ⟨rest', hstrip⟩ := strip_cons hblank (cs ++ unit.toList)
  have hsplit := hlongest.split
  rw [String.toList_append, ← hspelling, hcs, List.cons_append, hstrip] at hsplit
  obtain ⟨d, ds, hds⟩ := List.exists_cons_of_ne_nil (Numeral.spelling_ne_nil hlongest.wellFormed)
  rw [hds, List.cons_append] at hsplit
  have hsign : n.sign ≠ some '-' := by
    rw [Ne, ← head_spelling_iff hlongest.wellFormed, hds, (List.cons.inj hsplit).1]
    exact fun hc => hminus (Option.some.inj hc)
  have hvalue : n.value = n.decimal.toFloat := if_neg hsign
  exact hvalue ▸ toFloat_nonneg n.decimal

/-! ## Dimensions -/

variable {style : Fields Value} {viewport : Viewport} {key : String} {value : Value} {l : Length}
  {sum : Number} {x : Float}

theorem format_of_makesRoom (h : MakesRoom style viewport key value l sum x) :
    format style viewport key = .ok (some ((Number.float x).compact ++ l.unit)) := by
  obtain ⟨first, second, a, b, hax, ha, hb, hsum⟩ := h.margins
  rcases @fitted_cases style value first second l a b (extent viewport key) h.declared ha hb with
    ⟨sum', x', hsum', hx', hfitted⟩ | ⟨hnone, -⟩
  · obtain rfl : sum = sum' := Option.some.inj (hsum.symm.trans hsum')
    obtain rfl : x = x' := Except.ok.inj (h.left.symm.trans hx')
    unfold format
    simp only [hax, h.held, h.truthy, if_true, hfitted]
    rfl
  · exact absurd h.left (hnone sum x hsum)

theorem strip_declared (h : declared value = .ok l) : strip l.unit.toList = l.unit.toList := by
  obtain ⟨k, hk, -, -, hunit⟩ := declared_eq_ok h
  rw [hunit]
  exact strip_printedUnit hk

/-- A positive dimension is printed beside its margins, whatever they are.  As long as what is left
is finite, it is not negative exactly if the dimension is not greater than the margins, the viewport
has no extent, or there is not more room for the margins than the dimension has; this is so in every
viewport that extends by a hundred at least, up to sums of integers that are no floats.  What is
read from the text then is not negative either, and it is what is left if the unit is found
again. -/
theorem left_of_positive_dimension (hroom : MakesRoom style viewport key value l sum x)
    (hpos : 0 < l.magnitude) (hx : x.isFinite = true) :
    let text := (Number.float x).compact ++ l.unit
    format style viewport key = .ok (some text) ∧
      (0 ≤ x ↔ (Number.float l.magnitude).le sum = true ∨ (extent viewport key == 0) = true ∨
        ∃ room, hundredfold? sum = some room ∧ room / extent viewport key ≤ l.magnitude) ∧
      (100 ≤ extent viewport key → (∀ n, sum = .int n → n ≤ 2 ^ 53) → 0 ≤ x) ∧
      ∀ l', Length.parse? text = some l' →
        (0 ≤ x → 0 ≤ l'.magnitude) ∧ (l'.unit = l.unit → (l'.magnitude == x) = true) := by
  intro text
  obtain ⟨k, -, hfinite, hmagnitude, -⟩ := declared_eq_ok hroom.declared
  obtain ⟨p, hp⟩ := isFinite_iff.1 (hmagnitude ▸ hfinite)
  have h0 : 0 < p := (hasValue_zero.lt_iff hp).1 hpos
  refine ⟨format_of_makesRoom hroom, left_nonneg_iff hp h0 hroom.left hx,
    left_nonneg hp h0 hroom.left hx, fun l' hl' => ⟨fun h => read_nonneg hx h hl', fun hunit => ?_⟩⟩
  have hstrip := strip_declared hroom.declared
  obtain ⟨m, hm, hvalue⟩ := exists_parse?_of_not_runsOn hstrip hx fun h =>
    unit_ne_of_runsOn hstrip h hl' hunit
  rw [Option.some.inj (hl'.symm.trans hm)]
  exact hvalue

theorem fiftyPixels_make_room :
    format (box "50px") ⟨100, 844⟩ Attribute.width = .ok (some "30px") ∧
      ∀ l, Length.parse? "30px" = some l → 0 ≤ l.magnitude := by
  have hroom : MakesRoom (box "50px") ⟨100, 844⟩ Attribute.width (.text "50px") ⟨50, "px"⟩
      (.int 20) 30 := ⟨rfl, rfl, rfl, ⟨_, _, .int 10, .int 10, rfl, rfl, rfl, rfl⟩, rfl⟩
  have hint : ∀ n, Number.int 20 = .int n → n ≤ 2 ^ 53 := by
    rintro n ⟨⟩
    decide
  obtain ⟨hformat, -, hleft, hread⟩ := left_of_positive_dimension hroom (by decide) rfl
  have htext : (Number.float 30).compact ++ "px" = "30px" := rfl
  rw [htext] at hformat hread
  exact ⟨hformat, fun l hl => (hread l hl).1 (hleft (by decide) hint)⟩

/-- In a narrow viewport margins of 20 take 200, and something negative is left of 50. -/
theorem fiftyPixels_become_negative :
    Viewport.check (.map [("width", .int 10), ("height", .int 844)]) = .ok ⟨10, 844⟩ ∧
      Length.parse? "50px" = some ⟨50, "px"⟩ ∧
      format (box "50px") ⟨10, 844⟩ Attribute.width = .ok (some "-150px") ∧
      Length.parse? "-150px" = some ⟨-150, "px"⟩ ∧ (-150 : Float) < 0 :=
  ⟨rfl, rfl, rfl, rfl, by decide⟩

end StyleEngine.Dimension
