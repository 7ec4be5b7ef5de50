import StyleEngine.Proofs.Expression.Call
import StyleEngine.Proofs.Length.Hundredth
import StyleEngine.Proofs.Length.Printed
import StyleEngine.Proofs.Resolution.Observation
import StyleEngine.Proofs.Resolution.WhiteSpace

/-!
# Lengths in calls

A length and the same length in a call of `calc` are converted by different code: the one from the
theme and the viewport, the other from units that were derived from them.  For pixels and root
metrics both compute the same number.  For shares of the viewport the two round in another order,
so the numbers may differ in their last places.

    c.units.size? key unit = some size →
      resolve c [(key, calcText n unit)] = (n.value * size if that is finite)  (resolve_calcText)
    l.pixels? rootMetric viewport = some x →
      c.length text = (x if that is finite, zero if l is)                      (length_of_pixels?)
-/

namespace StyleEngine

open Expression

/-- The exact value of a number; infinity and NaN have none. -/
def Number.IsValue : Number → Rat → Prop
  | .int n, q => (n : Rat) = q
  | .float x, q => HasValue x q

namespace Resolution

variable {c : Context} {key s : String}

/-- Two outcomes for one property: numbers whose values are near, or errors of the resolver. -/
def Alike (near : Rat → Rat → Prop) (key : String) (r r' : Except Failure (Fields Value)) : Prop :=
  (∃ x y p q, r = .ok [(key, .number x)] ∧ r' = .ok [(key, .number y)] ∧
    x.IsValue p ∧ y.IsValue q ∧ near p q) ∨
  ∃ e e', r = .error (.resolution e) ∧ r' = .error (.resolution e')

/-! ## Both conversions -/

/-- A length that has pixels is no percentage, so it comes to a number or is out of range. -/
theorem length_of_pixels? {l : Length} {x : Float} (hl : Length.parse? s = some l)
    (hx : l.pixels? c.theme.rootMetric c.viewport = some x) :
    c.length (.text s) =
      if l.magnitude.isFinite && (l.magnitude == 0 || x.isFinite)
      then .ok (if l.magnitude == 0 then .int 0 else .float x)
      else .error (.malformedLength (.text s) .outOfRange) := by
  obtain ⟨hempty, hpercent⟩ := Length.unit_of_pixels? hx
  have hs : s.isEmpty = false := by
    rw [Bool.eq_false_iff]
    intro hs
    rw [String.isEmpty_iff.1 hs] at hl
    cases hl
  unfold Context.length Length.resolve
  rw [if_neg (by simp [Value.isTruthy, Value.number?, hs])]
  show Length.resolveText _ _ s = _
  unfold Length.resolveText
  cases hm : l.magnitude.isFinite <;> cases hz : l.magnitude == 0 <;> cases hf : x.isFinite <;>
    simp [hl, hx, hm, hz, hf, hempty, hpercent]

section
variable {n : Numeral} {unit : String} (hk : Attribute.isLength key = true)
  (hr : ∀ p, c.registry.nameFor? p = none) (hn : n.WellFormed) (hunit : ValidUnit unit.toList)

include hk hr hn hunit

theorem resolve_lengthText {x : Float}
    (hx : Length.pixels? c.theme.rootMetric c.viewport ⟨n.value, unit⟩ = some x) :
    resolve c [(key, .text (lengthText n unit.toList))] =
      if n.value.isFinite && (n.value == 0 || x.isFinite)
      then .ok [(key, if n.value == 0 then .int 0 else .float x)]
      else .error
        (.resolution (.malformedLength (.text (lengthText n unit.toList)) .outOfRange)) := by
  have hl : Length.parse? (lengthText n unit.toList) = some ⟨n.value, unit⟩ := by
    have hparse := Length.parse?_of_validUnit hn hunit
    rwa [String.ofList_toList] at hparse
  have hlooks : looksLike (.text (lengthText n unit.toList)) = false := by
    rw [Bool.eq_false_iff]
    intro h
    have hnone := Length.parse?_eq_none_of_looksLike h
    exact absurd (hl.symm.trans hnone) (Option.some_ne_none _)
  rw [resolve_unbound hk (hr _), measure_of_not_looksLike rfl hlooks, length_of_pixels? hl hx]
  split <;> rfl

theorem resolve_calcText (hc : c.evaluator = defaultEvaluator) (hsign : n.sign = none)
    (hne : unit.toList ≠ []) {size : Float} (hsize : c.units.size? key unit = some size) :
    resolve c [(key, .text (calcText n unit.toList))] =
      if (n.value * size).isFinite then .ok [(key, .float (n.value * size))]
      else .error (.resolution
        (.unknownUnit (String.ofList (Text.strip (calcText n unit.toList).toList))
          (calcText n unit.toList))) := by
  have hlooks := looksLike_calcText n unit.toList
  have hconvert := @convert_calcText n unit.toList hsign hn hunit key c.units size hne
    (by rwa [String.ofList_toList])
  rw [resolve_unbound hk (hr _), measure_of_looksLike hc rfl hlooks, hconvert]
  cases hfinite : (n.value * size).isFinite with
  | true =>
    obtain ⟨y, hy⟩ := isFinite_iff.1 hfinite
    rw [if_pos rfl, hy.isNaN]
    rfl
  | false =>
    have hshown : calcText n unit.toList ≠ "" := by
      rw [Ne, ← String.toList_inj, toList_calcText]
      exact List.cons_ne_nil _ _
    have hnone := Length.parse?_eq_none_of_looksLike hlooks
    have hnan : nan.isNaN = true := by decide +kernel
    rw [if_neg Bool.false_ne_true, if_pos hnan, length_of_parse?_none hshown hnone]
    rfl

/-- Both texts come to a number, or both to an error, if the pixels and the product with the size
are finite together. -/
theorem alike_of_pixels? (hc : c.evaluator = defaultEvaluator) (hsign : n.sign = none)
    (hne : unit.toList ≠ []) {near : Rat → Rat → Prop} {x size : Float}
    (hx : Length.pixels? c.theme.rootMetric c.viewport ⟨n.value, unit⟩ = some x)
    (hsize : c.units.size? key unit = some size)
    (hzero : HasValue n.value 0 → HasValue x 0 ∧ HasValue (n.value * size) 0)
    (hfinite : n.value.isFinite = true → (n.value * size).isFinite = x.isFinite)
    (hnear : ∀ p q, HasValue x p → HasValue (n.value * size) q → near p q) :
    Alike near key (resolve c [(key, .text (lengthText n unit.toList))])
      (resolve c [(key, .text (calcText n unit.toList))]) := by
  rw [resolve_lengthText hk hr hn hunit hx, resolve_calcText hk hr hn hunit hc hsign hne hsize]
  cases hm : n.value.isFinite with
  | false =>
    have hproduct : (n.value * size).isFinite = false :=
      Bool.eq_false_iff.2 (mt isFinite_of_mul_left (Bool.eq_false_iff.1 hm))
    rw [hproduct]
    exact Or.inr ⟨_, _, rfl, rfl⟩
  | true =>
    obtain ⟨m, hvalue⟩ := isFinite_iff.1 hm
    rw [hfinite hm]
    cases hz : n.value == 0 with
    | true =>
      have hm0 := (hvalue.beq_iff hasValue_zero).1 hz
      obtain ⟨hx0, hproduct0⟩ := hzero (hm0 ▸ hvalue)
      rw [hx0.isFinite]
      exact Or.inl ⟨.int 0, _, 0, 0, rfl, rfl, Int.cast_zero, hproduct0, hnear 0 0 hx0 hproduct0⟩
    | false =>
      cases hxf : x.isFinite with
      | true =>
        obtain ⟨p, hp⟩ := isFinite_iff.1 hxf
        obtain ⟨q, hq⟩ := isFinite_iff.1 ((hfinite hm).trans hxf)
        exact Or.inl ⟨_, _, p, q, rfl, rfl, hp, hq, hnear p q hp hq⟩
      | false => exact Or.inr ⟨_, _, rfl, rfl⟩

end

/-! ## Derived units -/

section
variable (theme : Theme) (viewport : Viewport) (registry : Registry) (platform key : String)
  (n : Numeral) (hk : Attribute.isLength key = true) (hr : ∀ p, registry.nameFor? p = none)
  (hsign : n.sign = none) (hn : n.WellFormed)

/-- A length of the numeral `n` and the call with it resolve alike, where the units are derived from
the theme and the viewport. -/
def AlikeIn (near : Rat → Rat → Prop) (unit : String) : Prop :=
  let c := Context.derived theme viewport registry platform defaultEvaluator
  Alike near key (resolve c [(key, .text (lengthText n unit.toList))])
    (resolve c [(key, .text (calcText n unit.toList))])

include hk hr hsign hn

theorem alikeIn_pixels : AlikeIn theme viewport registry platform key n Eq "px" := by
  have hproduct : ∀ {p}, HasValue n.value p → HasValue (n.value * 1) p := by
    intro p hp
    have hround := hp.mul hasValue_one
    rw [mul_one] at hround
    exact hround.hasValue hp
  refine alike_of_pixels? hk hr hn (by decide) rfl hsign (by decide) rfl rfl
    (fun h => ⟨h, hproduct h⟩) (fun h => ?_) fun p q hp hq => ?_
  · obtain ⟨p, hp⟩ := isFinite_iff.1 h
    rw [h, (hproduct hp).isFinite]
  · exact (hproduct hp).unique hq

theorem alikeIn_rootMetric
    (hzero : (n.value == 0) = true → theme.rootMetric.round.isFinite = true) :
    AlikeIn theme viewport registry platform key n Eq "rem" := by
  refine alike_of_pixels? hk hr hn (by decide) rfl hsign (by decide) rfl rfl
    (fun h => ?_) (fun _ => rfl) fun p q hp hq => hp.unique hq
  have hproduct := h.zero_mul (hzero ((h.beq_iff hasValue_zero).2 rfl))
  exact ⟨hproduct, hproduct⟩

/-- A share of the viewport is a hundredth of a product in both texts. -/
theorem alikeIn_share {unit : String} {extent : Float} (hunit : ValidUnit unit.toList)
    (hne : unit.toList ≠ [])
    (hx : Length.pixels? theme.rootMetric viewport ⟨n.value, unit⟩ =
      some (n.value * extent / 100))
    (hsize : (Units.ofViewport theme.rootMetric viewport none).size? key unit =
      some (extent / 100))
    (hzero : (n.value == 0) = true → extent.isFinite = true)
    (hproduct : n.value.isFinite = true → extent.isFinite = true →
      (n.value * extent).isFinite = true) :
    AlikeIn theme viewport registry platform key n (CloseHundredths n.value extent) unit := by
  refine alike_of_pixels? hk hr hn hunit rfl hsign hne hx hsize (fun h => ?_)
    (fun h => isFinite_mul_hundredth_eq h (hproduct h)) fun p q hp hq => closeHundredths hp hq
  obtain ⟨w, hw⟩ := isFinite_iff.1 (hzero ((h.beq_iff hasValue_zero).2 rfl))
  exact ⟨hasValue_hundredth_of_zero (h.zero_mul hw.isFinite),
    h.zero_mul (isFinite_hundredth hw)⟩

/-- A length and the same length in a call of `calc` resolve to equal numbers if the unit is pixels
or root metrics, and to close ones if it is a share of the viewport; or neither resolves.  Excepted
are shares that leave the range before they are divided, and zeros of something infinite. -/
theorem lengths_in_calls_agree :
    AlikeIn theme viewport registry platform key n Eq "px" ∧
      (((n.value == 0) = true → theme.rootMetric.round.isFinite = true) →
        AlikeIn theme viewport registry platform key n Eq "rem") ∧
      ∀ unit extent, (unit, extent) ∈ [("vw", viewport.width), ("vh", viewport.height)] →
        ((n.value == 0) = true → extent.isFinite = true) →
        (n.value.isFinite = true → extent.isFinite = true → (n.value * extent).isFinite = true) →
        AlikeIn theme viewport registry platform key n (CloseHundredths n.value extent) unit := by
  refine ⟨alikeIn_pixels theme viewport registry platform key n hk hr hsign hn,
    alikeIn_rootMetric theme viewport registry platform key n hk hr hsign hn, ?_⟩
  intro unit extent haxis hzero hproduct
  simp only [List.mem_cons, Prod.mk.injEq, List.not_mem_nil, or_false] at haxis
  rcases haxis with ⟨rfl, rfl⟩ | ⟨rfl, rfl⟩
  · exact alikeIn_share theme viewport registry platform key n hk hr hsign hn (by decide)
      (by decide) rfl rfl hzero hproduct
  · exact alikeIn_share theme viewport registry platform key n hk hr hsign hn (by decide)
      (by decide) rfl rfl hzero hproduct

end

/-- A theme without tokens and no variable bound, in a window of a given width. -/
def bareWindow (width : Float) : Context :=
  .derived {} ⟨width, 844⟩ bareContext.registry "ios" defaultEvaluator

def three : Numeral := ⟨none, ['3'], none, none⟩

theorem wellFormed_three : three.WellFormed :=
  ⟨nofun, List.forall_mem_singleton.2 (by decide), nofun, by decide, nofun⟩

theorem three_agrees :
    lengthText three "px".toList = "3px" ∧ calcText three "vw".toList = "calc(3vw)" ∧
      AlikeIn {} ⟨110, 844⟩ bareContext.registry "ios" "width" three Eq "px" ∧
      AlikeIn {} ⟨110, 844⟩ bareContext.registry "ios" "width" three Eq "rem" ∧
      AlikeIn {} ⟨110, 844⟩ bareContext.registry "ios" "width" three
        (CloseHundredths three.value 110) "vw" := by
  obtain ⟨hpixels, hmetric, hshare⟩ := lengths_in_calls_agree {} ⟨110, 844⟩ bareContext.registry
    "ios" "width" three (by decide) (fun _ => rfl) rfl wellFormed_three
  refine ⟨rfl, rfl, hpixels, hmetric fun _ => ?_, hshare _ _ List.mem_cons_self (fun _ => ?_)
    fun _ _ => ?_⟩ <;> decide +kernel

def zeroShare : Numeral := ⟨none, ['0'], none, none⟩

def largeShare : Numeral := ⟨none, ['1'], none, some ⟨'e', none, ['3', '0', '7']⟩⟩

/-- Rounding the product of 3 and 110 first gives another float than rounding a hundredth of 110
first.  The product of a large share leaves the range before it is divided, and a hundredth of an
infinite window is no number when it is multiplied by zero. -/
theorem shares_round_differently :
    (resolve (bareWindow 110) [("width", .text "3vw")] = .ok [("width", .float (3 * 110 / 100))] ∧
      resolve (bareWindow 110) [("width", .text "calc(3vw)")] =
        .ok [("width", .float (3 * (110 / 100)))] ∧
      ((3 * 110 / 100 : Float) == 3 * (110 / 100)) = false) ∧
    (resolve (bareWindow 100) [("width", .text "1e307vw")] =
        .error (.resolution (.malformedLength (.text "1e307vw") .outOfRange)) ∧
      resolve (bareWindow 100) [("width", .text "calc(1e307vw)")] =
        .ok [("width", .float largeShare.value)]) ∧
    resolve (bareWindow (1 / 0)) [("width", .text "0vw")] = .ok [("width", .int 0)] ∧
      resolve (bareWindow (1 / 0)) [("width", .text "calc(0vw)")] =
        .error (.resolution (.unknownUnit "calc(0vw)" "calc(0vw)")) := by
  have hlarge : largeShare.WellFormed :=
    (Numeral.wellFormed_scanUnsigned? (rfl : Numeral.scanUnsigned? "1e307".toList = some (_, []))).2
  have hzero : zeroShare.WellFormed :=
    (Numeral.wellFormed_scanUnsigned? (rfl : Numeral.scanUnsigned? "0".toList = some (_, []))).2
  have hsize : ∀ width, (bareWindow width).units.size? "width" "vw" = some (width / 100) :=
    fun _ => rfl
  have hcall : ∀ {n : Numeral}, n.WellFormed → n.sign = none → ∀ width, _ :=
    fun hn hsign width => resolve_calcText (by decide) (fun _ => rfl) hn (by decide) rfl hsign
      (by decide) (hsize width)
  have hthree : three.value * (110 / 100) = 3 * (110 / 100) := by decide +kernel
  have hshare : largeShare.value * (100 / 100) = largeShare.value := by decide +kernel
  refine ⟨⟨rfl, ?_, by decide +kernel⟩, ⟨?_, ?_⟩, rfl, ?_⟩
  · have h := hcall wellFormed_three rfl 110
    rw [hthree, if_pos (by decide +kernel)] at h
    exact h
  · have h := @resolve_lengthText (bareWindow 100) "width" largeShare "vw" (by decide)
      (fun _ => rfl) hlarge (by decide) (largeShare.value * 100 / 100) rfl
    rw [if_neg (by decide +kernel)] at h
    exact h
  · have h := hcall hlarge rfl 100
    rw [hshare, if_pos (by decide +kernel)] at h
    exact h
  · have h := hcall hzero rfl (1 / 0)
    rw [if_neg (by decide +kernel)] at h
    exact h

end Resolution

end StyleEngine
