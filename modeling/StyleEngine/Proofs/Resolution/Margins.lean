import StyleEngine.Proofs.Length.Printed
import StyleEngine.Proofs.Resolution.Resolved

/-!
# Room for margins

After the walk a dimension is falsy, a number or a percentage.  Beside its margins it is printed
with its unit and read again, which keeps its kind; nothing but its own axis has a say in it, also
for the height, which is refitted in a style whose width is new already.

    fit c m = .ok r → hasMargins m → refitting a dimension of m alone gives what r holds
                                                                         (refit_of_fit)
    refit c m dimension = .ok r → a number becomes a number              (number_of_refit)
    refit c m dimension = .ok r → a percentage becomes one, or 0         (percentage_of_refit)
-/

namespace StyleEngine.Resolution

open Text Expression

variable {c c' : Context} {m m' r r' : Fields Value} {key first second : String} {value : Value}

/-! ## Units -/

/-- The units that dimensions are printed with. -/
def IsDimensionUnit (unit : String) : Prop := unit = "px" ∨ unit = "%"

theorem IsDimensionUnit.valid {unit : String} (h : IsDimensionUnit unit) :
    ValidUnit unit.toList := by
  rcases h with rfl | rfl
  · exact Or.inr (List.all_eq_true.1 (by decide))
  · exact Or.inl rfl

theorem unit_of_parse? {x : Float} {unit : String} (hunit : IsDimensionUnit unit) {l : Length}
    (h : Length.parse? ((Number.float x).compact ++ unit) = some l) : l.unit = unit := by
  have hl := @Length.unit_of_parse?_compact unit.toList (.float x) hunit.valid l
  rw [String.ofList_toList] at hl
  exact hl h

theorem declared_eq_ok {l : Length} (h : Dimension.declared value = .ok l) :
    ∃ l', Length.parse? value.compact = some l' ∧ l'.magnitude.isFinite = true ∧
      l.magnitude = l'.magnitude ∧ l.unit = if l'.unit.isEmpty then "px" else l'.unit := by
  unfold Dimension.declared at h
  obtain ⟨text, htext, h⟩ := bind_eq_ok h
  obtain ⟨-, rfl⟩ := Value.printCompact_eq_ok (mapError_eq_ok htext)
  split at h
  · cases h
  · next l' hl =>
    split at h
    · next hf =>
      rw [← Except.ok.inj h]
      exact ⟨l', hl, hf, rfl, rfl⟩
    · cases h

/-- A number declares pixels; a truth value declares nothing. -/
theorem declared_number {l : Length} (hv : value.number?.isSome = true)
    (h : Dimension.declared value = .ok l) : l.unit = "px" := by
  obtain ⟨l', hl, -, -, hunit⟩ := declared_eq_ok h
  cases value with
  | number n =>
    have hempty := @Length.unit_of_parse?_compact [] n (Or.inr nofun) l'
    rw [String.ofList_nil, String.append_empty] at hempty
    rw [hunit, hempty hl]
    rfl
  | bool b =>
    have hnone : Length.parse? (Value.bool b).compact = none := by cases b <;> decide
    rw [hnone] at hl
    cases hl
  | _ => cases hv

theorem declared_percentage {s : String} {l l' : Length} (hs : Length.parse? s = some l)
    (hl : l.unit = "%") (h : Dimension.declared (.text s) = .ok l') : l'.unit = "%" := by
  obtain ⟨k, hk, -, -, hunit⟩ := declared_eq_ok h
  have hsame : l = k := Option.some.inj (hs.symm.trans hk)
  rw [hunit, ← hsame, hl]
  rfl

/-- What the walk leaves declares pixels or a percentage. -/
theorem isDimensionUnit_of_declared {l : Length} (hv : ResolvedLength value)
    (ht : value.isTruthy = true) (h : Dimension.declared value = .ok l) :
    IsDimensionUnit l.unit := by
  rcases hv with hf | hn | ⟨s, k, rfl, hk, -, -, hunit⟩
  · rw [hf] at ht
    cases ht
  · exact Or.inl (declared_number hn h)
  · exact Or.inr (declared_percentage hk hunit h)

/-! ## Printed dimensions -/

/-- Pixels and percentages are no matter of theme and viewport. -/
theorem resolveText_of_unit {s : String} {l : Length} (hs : Length.parse? s = some l)
    (hunit : IsDimensionUnit l.unit) (rootMetric : Number) (viewport : Viewport) :
    Length.resolveText rootMetric viewport s =
      if l.magnitude.isFinite = false then .error (.malformedLength (.text s) .outOfRange)
      else if (l.magnitude == 0) = true then .ok (.int 0)
      else if l.unit = "%" then .ok (.text s) else .ok (.float l.magnitude) := by
  have hsome : l.unit.isEmpty = false := by rcases hunit with h | h <;> rw [h] <;> rfl
  unfold Length.resolveText Length.pixels?
  rw [hs]
  simp only [Bool.not_eq_true', hsome, Bool.false_eq_true, if_false]
  split
  · rfl
  · next hfinite =>
    split
    · rfl
    · rcases hunit with h | h
      · simp only [h, Bool.not_eq_false] at hfinite ⊢
        simp only [hfinite, if_true, String.reduceEq, if_false]
      · rw [if_pos h, if_pos h]

section
variable {x : Float} {unit : String} (hunit : IsDimensionUnit unit)

include hunit

theorem resolve_printed (rootMetric : Number) (viewport : Viewport) :
    Length.resolve rootMetric viewport (.text ((Number.float x).compact ++ unit)) =
      Length.resolveText rootMetric viewport ((Number.float x).compact ++ unit) := by
  have hne : ((Number.float x).compact ++ unit).isEmpty = false := by
    rcases hunit with rfl | rfl <;> simp
  unfold Length.resolve
  simp [Value.isTruthy, Value.number?, hne]

/-- The text of a dimension, read again, is no matter of theme and viewport. -/
theorem length_printed_congr (c c' : Context) :
    c.length (.text ((Number.float x).compact ++ unit)) =
      c'.length (.text ((Number.float x).compact ++ unit)) := by
  rw [Context.length, Context.length, resolve_printed hunit, resolve_printed hunit]
  cases hl : Length.parse? ((Number.float x).compact ++ unit) with
  | none => simp [Length.resolveText, hl]
  | some l =>
    have hu := unit_of_parse? hunit hl
    rw [resolveText_of_unit hl (hu ▸ hunit), resolveText_of_unit hl (hu ▸ hunit)]

/-- Read again, a dimension is 0, a number of pixels or the text itself. -/
theorem length_printed_cases (h : c.length (.text ((Number.float x).compact ++ unit)) = .ok value) :
    value = .int 0 ∨ (unit = "px" ∧ ∃ y, value = .float y) ∨
      (unit = "%" ∧ ∃ s l, value = .text s ∧ Length.parse? s = some l ∧ l.unit = "%") := by
  rw [Context.length, resolve_printed hunit] at h
  cases hl : Length.parse? ((Number.float x).compact ++ unit) with
  | none =>
    rw [Length.resolveText, hl] at h
    cases h
  | some l =>
    have hu := unit_of_parse? hunit hl
    rw [resolveText_of_unit hl (hu ▸ hunit)] at h
    split at h
    · cases h
    · split at h
      · exact Or.inl (Except.ok.inj h).symm
      · split at h
        · next hpercent =>
          exact Or.inr (Or.inr ⟨hu ▸ hpercent, _, l, (Except.ok.inj h).symm, hl, hpercent⟩)
        · next hpercent =>
          exact Or.inr (Or.inl ⟨hunit.resolve_right (hu ▸ hpercent), _, (Except.ok.inj h).symm⟩)

end

/-! ## One dimension -/

/-- A dimension that is refitted was there, and its kind decides on the unit. -/
theorem refit_cases (hm : ∀ v, Fields.get? m key = some v → ResolvedLength v)
    (h : refit c m key = .ok r) : r = m ∨ ∃ value l x v, Fields.get? m key = some value ∧
      value.isTruthy = true ∧ Dimension.declared value = .ok l ∧ IsDimensionUnit l.unit ∧
      c.length (.text ((Number.float x).compact ++ l.unit)) = .ok v ∧ r = Fields.set m key v := by
  rcases refit_eq_ok_iff.1 h with ⟨-, hr⟩ | ⟨text, v, hformat, hv, hr⟩
  · exact Or.inl hr
  · obtain ⟨value, l, x, hg, ht, hl, rfl⟩ := format_eq_some hformat
    have hunit := isDimensionUnit_of_declared (hm value hg) ht hl
    exact Or.inr ⟨value, l, x, v, hg, ht, hl, hunit, hv, hr⟩

theorem refit_of_falsy (hm : ∀ v, Fields.get? m key = some v → v.isTruthy = false)
    (h : refit c m key = .ok r) : r = m := by
  rcases refit_eq_ok_iff.1 h with ⟨-, hr⟩ | ⟨text, v, hformat, -, -⟩
  · exact hr
  · obtain ⟨value, -, -, hg, ht, -⟩ := format_eq_some hformat
    rw [hm value hg] at ht
    cases ht

section
variable (hm : ∀ v, Fields.get? m key = some v → ResolvedLength v) (h : refit c m key = .ok r)

include hm h

theorem number_of_refit (hg : Fields.get? m key = some value) (hv : value.number?.isSome = true) :
    Fields.get? r key = some value ∨ ∃ n, Fields.get? r key = some (.number n) := by
  rcases refit_cases hm h with rfl | ⟨value', l, x, v, hg', -, hl, hunit, hlen, rfl⟩
  · exact Or.inl hg
  · obtain rfl : value = value' := Option.some.inj (hg.symm.trans hg')
    have hpx := declared_number hv hl
    rw [Fields.get?_set_self]
    rcases length_printed_cases hunit hlen with rfl | ⟨-, y, rfl⟩ | ⟨hpercent, -⟩
    · exact Or.inr ⟨_, rfl⟩
    · exact Or.inr ⟨_, rfl⟩
    · rw [hpx] at hpercent
      exact absurd hpercent (by decide)

theorem percentage_of_refit {s : String} {l : Length} (hg : Fields.get? m key = some (.text s))
    (hs : Length.parse? s = some l) (hl : l.unit = "%") :
    Fields.get? r key = some (.int 0) ∨ ∃ s' l', Fields.get? r key = some (.text s') ∧
      Length.parse? s' = some l' ∧ l'.unit = "%" := by
  rcases refit_cases hm h with rfl | ⟨value', l', x, v, hg', -, hl', hunit, hlen, rfl⟩
  · exact Or.inr ⟨s, l, hg, hs, hl⟩
  · obtain rfl : Value.text s = value' := Option.some.inj (hg.symm.trans hg')
    have hpercent := declared_percentage hs hl hl'
    rw [Fields.get?_set_self]
    rcases length_printed_cases hunit hlen with rfl | ⟨hpx, -⟩ | ⟨-, s', k, rfl, hk, hku⟩
    · exact Or.inl rfl
    · rw [hpercent] at hpx
      exact absurd hpx (by decide)
    · exact Or.inr ⟨s', k, rfl, hk, hku⟩

end

/-! ## One axis -/

/-- What a dimension and its two margins are, and how far the viewport extends along them. -/
structure SameAxis (c c' : Context) (m m' : Fields Value) (key first second : String) : Prop where
  dimension : Fields.get? m key = Fields.get? m' key
  first : Fields.get? m first = Fields.get? m' first
  second : Fields.get? m second = Fields.get? m' second
  extent : Dimension.extent c.viewport key = Dimension.extent c'.viewport key

section
variable (hax : Dimension.margins? key = some (first, second))
  (hsame : SameAxis c c' m m' key first second)

include hax hsame

theorem format_congr :
    Dimension.format m c.viewport key = Dimension.format m' c'.viewport key := by
  unfold Dimension.format Dimension.fitted Dimension.margin
  rw [hax, hsame.dimension]
  cases Fields.get? m' key with
  | none => rfl
  | some value =>
    simp only [hsame.first, hsame.second, hsame.extent]

/-- Refitting reads one axis, and resolving what it prints reads nothing. -/
theorem get?_refit_congr (hm : ∀ v, Fields.get? m key = some v → ResolvedLength v)
    (h : refit c m key = .ok r) (h' : refit c' m' key = .ok r') :
    Fields.get? r key = Fields.get? r' key := by
  have hformat := format_congr hax hsame
  rcases refit_eq_ok_iff.1 h' with ⟨hnone, rfl⟩ | ⟨text, v', hsome, hv', rfl⟩
  · rcases refit_eq_ok_iff.1 h with ⟨-, rfl⟩ | ⟨text, v, hsome, -⟩
    · exact hsame.dimension
    · rw [hformat, hnone] at hsome
      cases hsome
  · rcases refit_eq_ok_iff.1 h with ⟨hnone, -⟩ | ⟨text', v, hsome', hv, rfl⟩
    · rw [hformat, hsome] at hnone
      cases hnone
    · rw [hformat, hsome] at hsome'
      obtain rfl : text = text' := Option.some.inj (Except.ok.inj hsome')
      obtain ⟨value, l, x, hg, ht, hl, rfl⟩ := format_eq_some (hformat.trans hsome)
      have hunit := isDimensionUnit_of_declared (hm value hg) ht hl
      rw [length_printed_congr hunit c c', hv'] at hv
      rw [Fields.get?_set_self, Fields.get?_set_self, Except.ok.inj hv]

end

/-! ## Both axes -/

theorem margins?_eq_some (hax : Dimension.margins? key = some (first, second)) :
    key = Attribute.width ∧ first = Attribute.marginLeft ∧ second = Attribute.marginRight ∨
      key = Attribute.height ∧ first = Attribute.marginTop ∧ second = Attribute.marginBottom := by
  unfold Dimension.margins? at hax
  split at hax
  · next hk =>
    cases hax
    exact Or.inl ⟨hk, rfl, rfl⟩
  · split at hax
    · next hk =>
      cases hax
      exact Or.inr ⟨hk, rfl, rfl⟩
    · cases hax

/-- The width that is new when the height is refitted does not matter to it. -/
theorem refit_of_fit (hax : Dimension.margins? key = some (first, second))
    (hmargins : hasMargins m = true) (h : fit c m = .ok r) :
    ∃ s, refit c m key = .ok s ∧ Fields.get? s key = Fields.get? r key := by
  rcases fit_eq_ok_iff.1 h with ⟨hnone, -⟩ | ⟨-, m', hwidth, hheight⟩
  · rw [hnone] at hmargins
    cases hmargins
  · rcases margins?_eq_some hax with ⟨rfl, -⟩ | ⟨rfl, rfl, rfl⟩
    · exact ⟨m', hwidth, (get?_refit hheight (by decide)).symm⟩
    · have hsame : SameAxis c c m m' Attribute.height Attribute.marginTop Attribute.marginBottom :=
        ⟨(get?_refit hwidth (by decide)).symm, (get?_refit hwidth (by decide)).symm,
          (get?_refit hwidth (by decide)).symm, rfl⟩
      have hformat := format_congr hax hsame
      rcases refit_eq_ok_iff.1 hheight with ⟨ht, rfl⟩ | ⟨text, v, ht, hv, rfl⟩
      · rw [← hformat] at ht
        exact ⟨m, refit_eq_ok_iff.2 (Or.inl ⟨ht, rfl⟩), hsame.dimension⟩
      · rw [← hformat] at ht
        refine ⟨_, refit_eq_ok_iff.2 (Or.inr ⟨text, v, ht, hv, rfl⟩), ?_⟩
        rw [Fields.get?_set_self, Fields.get?_set_self]

/-- Making room for margins writes to the width and the height only, each from its own axis.  A
style without four margins that count stays as it is; otherwise the names and their order stay, and
so does every other value.  A dimension that is absent or falsy stays as well, one that is a number
becomes a number, and a percentage becomes a percentage or 0; and whatever else differs between two
styles and contexts, a dimension becomes the same in both if it was the same, its margins are, and
the viewport extends as far. -/
theorem margins_change_dimensions_only (c : Context) (style : Fields Value)
    (hn : (Fields.keys style).Nodup) (w : Walk) (hw : run c (Walk.start style) = .ok w) :
    ((∃ margin ∈ Attribute.margins,
        ∀ v, Fields.get? w.style margin = some v → v.isTruthy = false) →
      fit c w.style = .ok w.style) ∧
    ∀ r, fit c w.style = .ok r →
      Fields.keys r = Fields.keys w.style ∧
      (∀ key, key ≠ Attribute.width → key ≠ Attribute.height →
        Fields.get? r key = Fields.get? w.style key) ∧
      ∀ key first second, Dimension.margins? key = some (first, second) →
        ((∀ v, Fields.get? w.style key = some v → v.isTruthy = false) →
          Fields.get? r key = Fields.get? w.style key) ∧
        (∀ v, Fields.get? w.style key = some v → v.number?.isSome = true →
          Fields.get? r key = some v ∨ ∃ n, Fields.get? r key = some (.number n)) ∧
        (∀ s l, Fields.get? w.style key = some (.text s) → Length.parse? s = some l →
          l.unit = "%" → Fields.get? r key = some (.int 0) ∨
            ∃ s' l', Fields.get? r key = some (.text s') ∧ Length.parse? s' = some l' ∧
              l'.unit = "%") ∧
        ∀ (c' : Context) (style' : Fields Value) (w' : Walk) (r' : Fields Value),
          (Fields.keys style').Nodup → run c' (Walk.start style') = .ok w' →
          fit c' w'.style = .ok r' → hasMargins w.style = true → hasMargins w'.style = true →
          SameAxis c c' w.style w'.style key first second →
          Fields.get? r key = Fields.get? r' key := by
  have hresolved : ∀ key first second, Dimension.margins? key = some (first, second) →
      ∀ v, Fields.get? w.style key = some v → ResolvedLength v := by
    intro key first second hax v hv
    refine (resolved_of_run hn hw hv).length ?_
    rcases margins?_eq_some hax with ⟨rfl, -⟩ | ⟨rfl, -⟩ <;> decide
  refine ⟨?_, fun r hr => ⟨keys_fit hr, fun key => get?_fit hr, ?_⟩⟩
  · rintro ⟨margin, hmargin, hfalsy⟩
    refine fit_of_not_hasMargins (Bool.eq_false_iff.2 fun hall => ?_)
    obtain ⟨v, hv, ht⟩ := Option.any_eq_true _ _ |>.1 (List.all_eq_true.1 hall margin hmargin)
    rw [hfalsy v hv] at ht
    cases ht
  · intro key first second hax
    have hkey := hresolved key first second hax
    cases hmargins : hasMargins w.style with
    | false =>
      have hsame : r = w.style := by
        rw [fit_of_not_hasMargins hmargins] at hr
        exact (Except.ok.inj hr).symm
      rw [hsame]
      exact ⟨fun _ => rfl, fun v hv _ => Or.inl hv,
        fun s l hs hl hu => Or.inr ⟨s, l, hs, hl, hu⟩, fun _ _ _ _ _ _ _ h => nomatch h⟩
    | true =>
      obtain ⟨s, hs, hget⟩ := refit_of_fit hax hmargins hr
      rw [← hget]
      refine ⟨fun hf => by rw [refit_of_falsy hf hs], fun v => number_of_refit hkey hs,
        fun t l => percentage_of_refit hkey hs, ?_⟩
      intro c' style' w' r' hn' hw' hr' _ hmargins' hsame
      obtain ⟨s', hs', hget'⟩ := refit_of_fit hax hmargins' hr'
      rw [← hget']
      exact get?_refit_congr hax hsame hkey hs hs'

/-- A viewport that is 200 pixels wide, whatever its height. -/
def panelContext (height : Float) : Context where
  theme := {}
  viewport := ⟨200, height⟩
  units := {}
  registry := { source := .ofInt "tokens" 1000 }

/-- A panel whose margins differ at the top. -/
def panel (width height : Value) (marginTop : Int) : Fields Value :=
  [("width", width), ("marginLeft", .int 10), ("marginRight", .int 10), ("height", height),
   ("marginTop", .int marginTop), ("marginBottom", .text "8%")]

def lowPanel : Fields Value := panel (.text "50%") (.int 90) 8

def highPanel : Fields Value := panel (.text "50%") (.int 90) 12

theorem panels_walk : run (panelContext 400) (Walk.start lowPanel) = .ok ⟨lowPanel, [], []⟩ ∧
    run (panelContext 1000) (Walk.start highPanel) = .ok ⟨highPanel, [], []⟩ := ⟨rfl, rfl⟩

set_option maxRecDepth 4000 in
theorem lowPanel_fits :
    fit (panelContext 400) lowPanel = .ok (panel (.text "40%") (.float 86) 8) := rfl

set_option maxRecDepth 4000 in
theorem highPanel_fits :
    fit (panelContext 1000) highPanel = .ok (panel (.text "40%") (.float 88) 12) := rfl

/-- The same panel in a taller viewport and with another margin at the top is as wide. -/
theorem panels_are_as_wide :
    (Fields.keys lowPanel).Nodup ∧ (Fields.keys highPanel).Nodup ∧
      hasMargins lowPanel = true ∧ hasMargins highPanel = true ∧
      Fields.get? (panel (.text "40%") (.float 86) 8) Attribute.width =
        Fields.get? (panel (.text "40%") (.float 88) 12) Attribute.width := by
  have hn : (Fields.keys lowPanel).Nodup ∧ (Fields.keys highPanel).Nodup := by decide
  have hmargins : hasMargins lowPanel = true ∧ hasMargins highPanel = true := ⟨rfl, rfl⟩
  obtain ⟨-, hfit⟩ := margins_change_dimensions_only (panelContext 400) lowPanel hn.1
    ⟨lowPanel, [], []⟩ panels_walk.1
  obtain ⟨-, -, haxis⟩ := hfit (panel (.text "40%") (.float 86) 8) lowPanel_fits
  obtain ⟨-, -, -, hwide⟩ := haxis Attribute.width Attribute.marginLeft Attribute.marginRight rfl
  have hsame : SameAxis (panelContext 400) (panelContext 1000) lowPanel highPanel Attribute.width
      Attribute.marginLeft Attribute.marginRight :=
    ⟨rfl, rfl, rfl, (if_pos rfl).trans (if_pos rfl).symm⟩
  have hwidth := hwide (panelContext 1000) highPanel ⟨highPanel, [], []⟩
    (panel (.text "40%") (.float 88) 12) hn.2 panels_walk.2 highPanel_fits hmargins.1 hmargins.2
    hsame
  exact ⟨hn.1, hn.2, hmargins.1, hmargins.2, hwidth⟩

end StyleEngine.Resolution
