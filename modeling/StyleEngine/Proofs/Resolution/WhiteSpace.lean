import StyleEngine.Proofs.Length.Split
import StyleEngine.Proofs.Resolution.FixedPoint
import StyleEngine.Proofs.Resolution.Placeholder

/-!
# White space around lengths

Three readers look at the text of a length: the test for the name of a function at its start, the
tokenizer and the splitting into magnitude and unit.  The latter two strip the text.  The test does
not, so white space in front of an expression hides it, and what is left is no length.

    convert key (padded before s after) = convert key s                  (convert_padded)
    s is no expression → a number of pixels stays the same in white space     (measure_padded)
    s is an expression → its number stays the same with white space behind it (measure_followed)
    s is an expression, before ≠ [] → the padded text has an unknown unit     (measure_hidden)
-/

namespace StyleEngine

open Text

variable {before after : List Char} {s : String}

/-! ## Readers -/

namespace Expression

section
variable (hbefore : AllBlank before) (hafter : AllBlank after)

include hbefore hafter

theorem tokenize_padded (s : String) : tokenize (padded before s after) = tokenize s := by
  unfold tokenize
  rw [strip_padded hbefore hafter]

theorem evaluate_padded (key s : String) (units : Units) :
    evaluate key (padded before s after) units = evaluate key s units := by
  unfold evaluate
  rw [tokenize_padded hbefore hafter]

/-- The evaluator does not see white space around an expression. -/
theorem convert_padded (key s : String) (units : Units) :
    convert key (.text (padded before s after)) units = convert key (.text s) units := by
  unfold convert
  simp only [evaluate_padded hbefore hafter]

end

/-- A name at the start of a text is there whatever follows the text. -/
theorem looksLike_followed (h : looksLike (.text s) = true) (after : List Char) :
    looksLike (.text (padded [] s after)) = true := by
  obtain ⟨f, hf, hprefix⟩ := List.any_eq_true.1 h
  refine List.any_eq_true.2 ⟨f, hf, List.isPrefixOf_iff_prefix.2 ?_⟩
  have hshown : (Value.shown (.text (padded [] s after))).toList = s.toList ++ after :=
    String.toList_ofList
  rw [hshown]
  exact (List.isPrefixOf_iff_prefix.1 hprefix).trans (List.prefix_append _ _)

/-- No name of a function starts with a blank. -/
theorem looksLike_hidden (hbefore : AllBlank before) (hne : before ≠ []) (s : String)
    (after : List Char) : looksLike (.text (padded before s after)) = false := by
  obtain ⟨b, bs, rfl⟩ := List.exists_cons_of_ne_nil hne
  rw [Bool.eq_false_iff]
  intro h
  obtain ⟨c, cs, hcs, hc⟩ := first_of_looksLike h
  have hshown : (Value.shown (.text (padded (b :: bs) s after))).toList =
      b :: (bs ++ s.toList ++ after) := String.toList_ofList
  have hblank := hbefore b List.mem_cons_self
  rw [(List.cons.inj (hshown.symm.trans hcs)).1] at hblank
  rcases hc with rfl | rfl <;> exact absurd hblank (by decide)

end Expression

/-! ## Numbers of pixels -/

namespace Length

/-- What a length is as a number: an exact zero, whatever its unit, or its pixels. -/
def HasPixels (rootMetric : Number) (viewport : Viewport) (l : Length) (x : Number) : Prop :=
  l.magnitude.isFinite = true ∧
    ((l.magnitude == 0) = true ∧ x = .int 0 ∨
      (l.magnitude == 0) = false ∧
        ∃ y, l.pixels? rootMetric viewport = some y ∧ y.isFinite = true ∧ x = .float y)

variable {rootMetric : Number} {viewport : Viewport} {x : Number}

theorem unit_of_pixels? {l : Length} {y : Float} (h : l.pixels? rootMetric viewport = some y) :
    l.unit.isEmpty = false ∧ l.unit ≠ "%" := by
  constructor
  · rw [Bool.eq_false_iff]
    intro hu
    rw [pixels?, String.isEmpty_iff.1 hu] at h
    cases h
  · intro hu
    rw [pixels?, hu] at h
    cases h

/-- The text itself goes into percentages and errors only. -/
theorem resolveText_eq_number_iff :
    resolveText rootMetric viewport s = .ok (.number x) ↔
      ∃ l, parse? s = some l ∧ l.HasPixels rootMetric viewport x := by
  unfold resolveText
  constructor
  · intro h
    split at h
    · cases h
    · next l hl =>
      refine ⟨l, hl, ?_⟩
      split at h
      · cases h
      · next hf =>
        rw [Bool.not_eq_true', Bool.not_eq_false] at hf
        split at h
        · next hz =>
          cases h
          exact ⟨hf, Or.inl ⟨hz, rfl⟩⟩
        · next hz =>
          rw [Bool.not_eq_true] at hz
          split at h
          · cases h
          · split at h
            · cases h
            · split at h
              · cases h
              · next y hy =>
                split at h
                · next hfinite =>
                  cases h
                  exact ⟨hf, Or.inr ⟨hz, y, hy, hfinite, rfl⟩⟩
                · cases h
  · rintro ⟨l, hl, hf, ⟨hz, rfl⟩ | ⟨hz, y, hy, hfinite, rfl⟩⟩
    · simp [hl, hf, hz]
    · obtain ⟨hempty, hpercent⟩ := unit_of_pixels? hy
      simp [hl, hf, hz, hempty, hpercent, hy, hfinite]

end Length

namespace Resolution

variable {c : Context} {key : String} {value : Value} {x : Number}

theorem length_eq_number_iff :
    c.length (.text s) = .ok (.number x) ↔
      ∃ l, Length.parse? s = some l ∧ l.HasPixels c.theme.rootMetric c.viewport x := by
  rw [← Length.resolveText_eq_number_iff]
  unfold Context.length Length.resolve
  by_cases hs : s.isEmpty = true
  · rw [if_pos (by simp [Value.isTruthy, hs]), String.isEmpty_iff.1 hs]
    constructor
    · intro h
      cases h
    · intro h
      cases h
  · rw [if_neg (by simp [Value.isTruthy, Value.number?, hs])]

theorem length_of_parse?_none (hs : s ≠ "") (h : Length.parse? s = none) :
    c.length (.text s) = .error (.unknownUnit (String.ofList (strip s.toList)) s) := by
  have htruthy : s.isEmpty = false := by rwa [Bool.eq_false_iff, Ne, String.isEmpty_iff]
  unfold Context.length Length.resolve
  rw [if_neg (by simp [Value.isTruthy, Value.number?, htruthy])]
  show Length.resolveText _ _ s = _
  unfold Length.resolveText
  rw [h]

/-! ## Expressions -/

/-- An expression becomes the number that the default evaluator finds, and is measured as a length
if that is NaN. -/
theorem measure_of_looksLike (hc : c.evaluator = defaultEvaluator)
    (hp : value.isPrintable = true) (h : Expression.looksLike value = true) :
    measure c key value =
      if (Expression.convert key value c.units).isNaN
      then (c.length value).mapError .resolution
      else .ok (.float (Expression.convert key value c.units)) := by
  unfold measure
  rw [evaluate_of_isPrintable hp, h, hc]
  show (Except.mapError _ (.ok (if (Expression.convert key value c.units).isNaN = true
    then value else .float (Expression.convert key value c.units)))) >>= _ = _
  split
  · rfl
  · show (c.length _).mapError _ = _
    rw [length_of_isNaN (b := (Expression.convert key value c.units).isNaN) rfl]
    rfl

/-- No length is an expression, so the number that an expression comes to is the evaluator's. -/
theorem measure_eq_number_of_looksLike (hc : c.evaluator = defaultEvaluator)
    (h : Expression.looksLike (.text s) = true) (hm : measure c key (.text s) = .ok (.number x)) :
    (Expression.convert key (.text s) c.units).isNaN = false ∧
      x = .float (Expression.convert key (.text s) c.units) := by
  rw [measure_of_looksLike hc rfl h] at hm
  split at hm
  · obtain ⟨l, hl, -⟩ := length_eq_number_iff.1 (mapError_eq_ok hm)
    rw [Length.parse?_eq_none_of_looksLike h] at hl
    cases hl
  · next hnan =>
    cases hm
    exact ⟨Bool.not_eq_true _ ▸ hnan, rfl⟩

/-! ## White space -/

section
variable (hbefore : AllBlank before) (hafter : AllBlank after)

include hbefore hafter

/-- A length that is no expression splits alike in white space, and is no expression there. -/
theorem measure_padded (h : Expression.looksLike (.text s) = false)
    (hm : measure c key (.text s) = .ok (.number x)) :
    measure c key (.text (padded before s after)) = .ok (.number x) := by
  rw [measure_of_not_looksLike rfl h] at hm
  obtain ⟨l, hl, hx⟩ := length_eq_number_iff.1 (mapError_eq_ok hm)
  rw [← Length.parse?_padded hbefore hafter] at hl
  -- white space could uncover nothing: what splits as a length is no expression
  have hpadded : Expression.looksLike (.text (padded before s after)) = false := by
    rw [Bool.eq_false_iff]
    intro hlooks
    rw [Length.parse?_eq_none_of_looksLike hlooks] at hl
    cases hl
  rw [measure_of_not_looksLike rfl hpadded, length_eq_number_iff.2 ⟨l, hl, hx⟩]
  rfl

/-- An expression with white space in front of it is measured as a length, which it is not. -/
theorem measure_hidden (h : Expression.looksLike (.text s) = true) (hne : before ≠ []) :
    measure c key (.text (padded before s after)) =
      .error (.resolution (.unknownUnit (String.ofList (strip s.toList))
        (padded before s after))) := by
  have hparse := Length.parse?_eq_none_of_looksLike h
  rw [← Length.parse?_padded hbefore hafter] at hparse
  have hshown : padded before s after ≠ "" := by
    rw [Ne, ← String.toList_inj, padded, String.toList_ofList]
    simp [hne]
  rw [measure_of_not_looksLike rfl (Expression.looksLike_hidden hbefore hne s after),
    length_of_parse?_none hshown hparse, strip_padded hbefore hafter s]
  rfl

end

theorem measure_followed (hc : c.evaluator = defaultEvaluator) (hafter : AllBlank after)
    (h : Expression.looksLike (.text s) = true) (hm : measure c key (.text s) = .ok (.number x)) :
    measure c key (.text (padded [] s after)) = .ok (.number x) := by
  obtain ⟨hnan, rfl⟩ := measure_eq_number_of_looksLike hc h hm
  rw [measure_of_looksLike hc rfl (Expression.looksLike_followed h after),
    Expression.convert_padded AllBlank.nil hafter, hnan]
  rfl

/-! ## Styles -/

/-- A length that is no placeholder is measured as it is. -/
theorem property_of_unbound (hk : Attribute.isLength key = true)
    (h : c.registry.nameFor? (s ++ TokenSource.pixelSuffix) = none) :
    property c key (.text s) = measure c key (.text s) := by
  have hs : substitute c .length (.text s) = .ok (.text s) :=
    substitute_of_unbound fun p hp => Option.some.inj hp ▸ h
  unfold property
  rw [role?_of_isLength hk, hs]
  rfl

theorem resolve_unbound (hk : Attribute.isLength key = true)
    (hs : c.registry.nameFor? (s ++ TokenSource.pixelSuffix) = none) :
    resolve c [(key, .text s)] = (measure c key (.text s)).map fun v => [(key, v)] := by
  have hrole := role?_of_isLength hk
  rw [resolve_single (drops_of_role? hrole) (ne_elevation_of_role? hrole),
    property_of_unbound hk hs]

/-- A style with one expression resolves to the number that the evaluator finds. -/
theorem resolve_single_of_looksLike (hc : c.evaluator = defaultEvaluator)
    (hk : Attribute.isLength key = true)
    (hs : c.registry.nameFor? (s ++ TokenSource.pixelSuffix) = none)
    (h : Expression.looksLike (.text s) = true) {y : Float}
    (hy : Expression.convert key (.text s) c.units = y) (hnan : y.isNaN = false) :
    resolve c [(key, .text s)] = .ok [(key, .float y)] := by
  rw [resolve_unbound hk hs, measure_of_looksLike hc rfl h, hy, hnan]
  rfl

/-- White space behind a length that comes to a number does not matter, and in front of it neither
unless the length is an expression.  In front of an expression it hides the name of the function,
and the text is taken for a length of an unknown unit. -/
theorem white_space_hides_expressions_only (c : Context) (key s : String)
    (before after : List Char) (r : Fields Value) (x : Number)
    (hc : c.evaluator = defaultEvaluator) (hk : Attribute.isLength key = true)
    (hbefore : AllBlank before) (hafter : AllBlank after)
    (hs : c.registry.nameFor? (s ++ TokenSource.pixelSuffix) = none)
    (hpadded : c.registry.nameFor? (padded before s after ++ TokenSource.pixelSuffix) = none)
    (hr : resolve c [(key, .text s)] = .ok r) (hx : Fields.get? r key = some (.number x)) :
    (before = [] ∨ Expression.looksLike (.text s) = false →
      resolve c [(key, .text (padded before s after))] = .ok [(key, .number x)]) ∧
    (before ≠ [] → Expression.looksLike (.text s) = true →
      resolve c [(key, .text (padded before s after))] =
        .error (.resolution (.unknownUnit (String.ofList (strip s.toList))
          (padded before s after)))) := by
  have hm : measure c key (.text s) = .ok (.number x) := by
    rw [resolve_unbound hk hs] at hr
    obtain ⟨v, hv, rfl⟩ := map_eq_ok hr
    rw [hv]
    simpa [Fields.get?] using hx
  rw [resolve_unbound hk hpadded]
  constructor
  · intro h
    have hsame : measure c key (.text (padded before s after)) = .ok (.number x) := by
      cases hlooks : Expression.looksLike (.text s) with
      | false => exact measure_padded hbefore hafter hlooks hm
      | true =>
        rcases h with rfl | h
        · exact measure_followed hc hafter hlooks hm
        · exact absurd (hlooks.symm.trans h) Bool.true_eq_false.mp
    rw [hsame]
    rfl
  · intro hne hlooks
    rw [measure_hidden hbefore hafter hlooks hne]
    rfl

/-- A theme without tokens, a window, and no variable bound. -/
def bareContext : Context where
  theme := {}
  viewport := ⟨390, 844⟩
  units := {}
  registry := { source := .ofInt "tokens" 1000 }

theorem bareContext_calc :
    resolve bareContext [("width", .text "calc(1px)")] = .ok [("width", .float 1)] :=
  resolve_single_of_looksLike rfl (by decide) rfl (by decide)
    (by decide +kernel : _ = (1 : Float)) (by decide +kernel)

set_option maxRecDepth 2000 in
theorem pixels_in_white_space :
    resolve bareContext [("width", .text "\t3px\n")] = .ok [("width", .float 3)] ∧
    resolve bareContext [("width", .text "calc(1px)\n")] = .ok [("width", .float 1)] := by
  have hr : resolve bareContext [("width", .text "3px")] = .ok [("width", .float 3)] := rfl
  constructor
  · exact (white_space_hides_expressions_only bareContext "width" "3px" ['\t'] ['\n'] _ _ rfl
      (by decide) (by decide) (by decide) rfl rfl hr rfl).1 (Or.inr (by decide))
  · exact (white_space_hides_expressions_only bareContext "width" "calc(1px)" [] ['\n'] _ _ rfl
      (by decide) AllBlank.nil (by decide) rfl rfl bareContext_calc rfl).1 (Or.inl rfl)

/-- A blank in front of an expression keeps its style from being resolved. -/
theorem calc_behind_blank_fails :
    Attribute.isLength "width" = true ∧ AllBlank [' '] ∧
    (∀ p, bareContext.registry.nameFor? p = none) ∧
    resolve bareContext [("width", .text "calc(1px)")] = .ok [("width", .float 1)] ∧
    resolve bareContext [("width", .text (padded [' '] "calc(1px)" []))] =
      .error (.resolution (.unknownUnit "calc(1px)" " calc(1px)")) := by
  have hblank : AllBlank [' '] := by decide
  refine ⟨by decide, hblank, fun _ => rfl, bareContext_calc, ?_⟩
  rw [resolve_unbound (by decide) rfl,
    measure_hidden hblank AllBlank.nil (by decide) (List.cons_ne_nil _ _)]
  rfl

end Resolution

end StyleEngine
