import StyleEngine.Proofs.Fields
import StyleEngine.Proofs.Resolution.Property
import StyleEngine.Resolution

/-!
# Fitting dimensions

Making room for margins reads look-ups only and writes to the width and the height only, so it does
not matter in which order the properties of a style stand, and the order stays.

    refit c m key = .ok r ↔ nothing is formatted and r = m, or the text that is formatted is a
      length and r holds it                                              (refit_eq_ok_iff)
    fit c m = .ok r → keys r = keys m                                    (keys_fit)
    fit c m = .ok r → key ≠ width → key ≠ height → get? r key = get? m key            (get?_fit)
    SameValues m n → fit c m = .ok r → ∃ s, fit c n = .ok s ∧ SameValues r s          (fit_congr)
-/

namespace StyleEngine.Resolution

variable {c : Context} {m r : Fields Value} {key first second : String} {value : Value}

/-! ## What fitting does -/

/-- The value of a dimension declares `l`, the margins on its axis have the sum `sum`, and beside
them `x` is left of its magnitude. -/
structure MakesRoom (m : Fields Value) (viewport : Viewport) (key : String) (value : Value)
    (l : Length) (sum : Number) (x : Float) : Prop where
  held : Fields.get? m key = some value
  truthy : value.isTruthy = true
  declared : Dimension.declared value = .ok l
  margins : ∃ first second a b, Dimension.margins? key = some (first, second) ∧
    Dimension.margin m first = .ok a ∧ Dimension.margin m second = .ok b ∧ a.add? b = some sum
  left : Dimension.adjusted l.magnitude sum (Dimension.extent viewport key) = .ok x

theorem exists_makesRoom {viewport : Viewport} {text : String}
    (h : Dimension.format m viewport key = .ok (some text)) : ∃ value l sum x,
      MakesRoom m viewport key value l sum x ∧ text = (Number.float x).compact ++ l.unit := by
  unfold Dimension.format at h
  split at h
  · next first second value hax hv =>
    split at h
    · next ht =>
      cases hf : Dimension.fitted m value first second (Dimension.extent viewport key) with
      | error e =>
        rw [hf] at h
        cases h
      | ok t =>
        rw [hf] at h
        cases h
        unfold Dimension.fitted at hf
        obtain ⟨l, hl, hf⟩ := bind_eq_ok hf
        obtain ⟨a, ha, hf⟩ := bind_eq_ok hf
        obtain ⟨b, hb, hf⟩ := bind_eq_ok hf
        split at hf
        · cases hf
        · next sum hsum =>
          obtain ⟨x, hx, hf⟩ := bind_eq_ok hf
          exact ⟨value, l, sum, x, ⟨hv, ht, hl, ⟨first, second, a, b, hax, ha, hb, hsum⟩,
            mapError_eq_ok hx⟩, (Except.ok.inj hf).symm⟩
    · cases h
  · cases h

theorem format_eq_some {viewport : Viewport} {text : String}
    (h : Dimension.format m viewport key = .ok (some text)) :
    ∃ value l x, Fields.get? m key = some value ∧ value.isTruthy = true ∧
      Dimension.declared value = .ok l ∧ text = (Number.float x).compact ++ l.unit := by
  obtain ⟨value, l, sum, x, hroom, htext⟩ := exists_makesRoom h
  exact ⟨value, l, x, hroom.held, hroom.truthy, hroom.declared, htext⟩

/-- A style is left as it is where nothing is formatted; otherwise the text is read as a length. -/
theorem refit_eq_ok_iff : refit c m key = .ok r ↔
    Dimension.format m c.viewport key = .ok none ∧ r = m ∨
      ∃ text v, Dimension.format m c.viewport key = .ok (some text) ∧
        c.length (.text text) = .ok v ∧ r = Fields.set m key v := by
  unfold refit
  constructor
  · intro h
    obtain ⟨text, ht, h⟩ := bind_eq_ok h
    cases text with
    | none => exact Or.inl ⟨ht, (Except.ok.inj h).symm⟩
    | some text =>
      obtain ⟨v, hv, h⟩ := bind_eq_ok h
      exact Or.inr ⟨text, v, ht, mapError_eq_ok hv, (Except.ok.inj h).symm⟩
  · rintro (⟨ht, rfl⟩ | ⟨text, v, ht, hv, rfl⟩)
    · rw [ht]
      rfl
    · rw [ht]
      show (c.length (.text text)).mapError Failure.resolution >>= _ = _
      rw [hv]
      rfl

theorem fit_eq_ok_iff : fit c m = .ok r ↔ hasMargins m = false ∧ r = m ∨
    hasMargins m = true ∧ ∃ m', refit c m Attribute.width = .ok m' ∧
      refit c m' Attribute.height = .ok r := by
  unfold fit
  cases hasMargins m with
  | false => simp [eq_comm]
  | true =>
    simp only [if_true, Bool.true_eq_false, false_and, false_or, true_and]
    refine ⟨bind_eq_ok, ?_⟩
    rintro ⟨m', hwidth, hheight⟩
    rw [hwidth]
    exact hheight

theorem fit_of_not_hasMargins (h : hasMargins m = false) : fit c m = .ok m :=
  fit_eq_ok_iff.2 (Or.inl ⟨h, rfl⟩)

/-! ## What fitting writes -/

/-- A dimension that is refitted was there. -/
theorem keys_refit (h : refit c m key = .ok r) : Fields.keys r = Fields.keys m := by
  rcases refit_eq_ok_iff.1 h with ⟨-, rfl⟩ | ⟨text, v, hformat, -, rfl⟩
  · rfl
  · obtain ⟨value, -, -, hg, -⟩ := format_eq_some hformat
    exact Fields.keys_set_of_mem m key v (Fields.mem_keys_of_get? hg)

theorem keys_fit (h : fit c m = .ok r) : Fields.keys r = Fields.keys m := by
  rcases fit_eq_ok_iff.1 h with ⟨-, rfl⟩ | ⟨-, m', hwidth, hheight⟩
  · rfl
  · rw [keys_refit hheight, keys_refit hwidth]

theorem get?_refit {dimension : String} (h : refit c m dimension = .ok r) (hk : key ≠ dimension) :
    Fields.get? r key = Fields.get? m key := by
  rcases refit_eq_ok_iff.1 h with ⟨-, rfl⟩ | ⟨text, v, -, -, rfl⟩
  · rfl
  · exact Fields.get?_set_of_ne m dimension key v hk

theorem get?_fit (h : fit c m = .ok r) (hw : key ≠ Attribute.width) (hh : key ≠ Attribute.height) :
    Fields.get? r key = Fields.get? m key := by
  rcases fit_eq_ok_iff.1 h with ⟨-, rfl⟩ | ⟨-, m', hwidth, hheight⟩
  · rfl
  · rw [get?_refit hheight hh, get?_refit hwidth hw]

/-- One property is not four margins. -/
theorem hasMargins_single (key : String) (value : Value) : hasMargins [(key, value)] = false := by
  cases hm : hasMargins [(key, value)] with
  | false => rfl
  | true =>
    have hall : ∀ margin ∈ Attribute.margins, margin = key := by
      intro margin hk
      have hs := List.all_eq_true.1 hm margin hk
      by_contra hne
      rw [Fields.get?_eq_none_iff.2 (by simpa [Fields.keys] using hne)] at hs
      cases hs
    have hl := hall Attribute.marginLeft (by decide)
    have hr := hall Attribute.marginRight (by decide)
    exact absurd (hl.trans hr.symm) (by decide)

/-! ## What fitting reads -/

/-- Two styles that hold the same values, in whatever order. -/
def SameValues (m n : Fields Value) : Prop := ∀ key, Fields.get? m key = Fields.get? n key

section
variable {n : Fields Value} (h : SameValues m n)

include h

theorem SameValues.set (key : String) (value : Value) :
    SameValues (Fields.set m key value) (Fields.set n key value) := by
  intro j
  rw [Fields.get?_set, Fields.get?_set, h j]

theorem SameValues.hasMargins_eq : hasMargins m = hasMargins n := by
  unfold hasMargins
  simp only [h _]

theorem SameValues.format_eq (viewport : Viewport) (key : String) :
    Dimension.format m viewport key = Dimension.format n viewport key := by
  have hm : Dimension.margin m = Dimension.margin n := by
    funext key
    unfold Dimension.margin
    rw [h key]
  unfold Dimension.format Dimension.fitted
  rw [h key, hm]

theorem refit_congr {dimension : String} (hr : refit c m dimension = .ok r) :
    ∃ s, refit c n dimension = .ok s ∧ SameValues r s := by
  rcases refit_eq_ok_iff.1 hr with ⟨ht, rfl⟩ | ⟨text, v, ht, hv, rfl⟩
  · rw [h.format_eq] at ht
    exact ⟨n, refit_eq_ok_iff.2 (Or.inl ⟨ht, rfl⟩), h⟩
  · rw [h.format_eq] at ht
    exact ⟨_, refit_eq_ok_iff.2 (Or.inr ⟨text, v, ht, hv, rfl⟩), h.set dimension v⟩

theorem fit_congr (hr : fit c m = .ok r) : ∃ s, fit c n = .ok s ∧ SameValues r s := by
  rcases fit_eq_ok_iff.1 hr with ⟨hm, rfl⟩ | ⟨hm, m₁, hwidth, hheight⟩
  · rw [h.hasMargins_eq] at hm
    exact ⟨n, fit_of_not_hasMargins hm, h⟩
  · rw [h.hasMargins_eq] at hm
    obtain ⟨n₁, hn₁, h₁⟩ := refit_congr h hwidth
    obtain ⟨s, hs, hrs⟩ := refit_congr h₁ hheight
    exact ⟨s, fit_eq_ok_iff.2 (Or.inr ⟨hm, n₁, hn₁, hs⟩), hrs⟩

end

end StyleEngine.Resolution
