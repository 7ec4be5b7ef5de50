import StyleEngine.Proofs.Registry.Counting
import StyleEngine.Proofs.Resolution.Pointwise

/-!
# Placeholders resolve to their variables

A placeholder that a registry has handed out comes back, in a compiled style, as the value of the
variable it stands for: a color placeholder as it is, a length placeholder as the number that is
left of its pixels.

    variableOf? c role value = some name →
      property c key value = (what the value of `name` comes to)         (property_of_variable)
    resolve c [(key, value)] = (property c key value).map fun v => [(key, v)]   (resolve_single)
-/

namespace StyleEngine.Resolution

variable {c : Context} {key name : String} {value : Value}

/-! ## Variables -/

/-- What a property makes of the value of its variable. -/
def finish (c : Context) (key : String) : VariableRole → Value → Except Failure Value
  | .color, v => .ok v
  | .length, v => measure c key v

theorem property_of_variable {role : VariableRole} (h : role? key = some role)
    (hv : variableOf? c role value = some name) :
    property c key value =
      (c.theme.lookup? name).elim (.error (.resolution (.undefinedVariable name role)))
        (finish c key role) := by
  unfold property substitute
  rw [h]
  cases role with
  | color =>
    simp only [hv]
    cases c.theme.lookup? name <;> rfl
  | length =>
    simp only [hv]
    cases c.theme.lookup? name <;> rfl

/-! ## Lengths -/

/-- What a value comes to as a length: the evaluator's number if it is an expression that has one,
and otherwise the length that it spells. -/
def ComesTo (c : Context) (key : String) (value out : Value) : Prop :=
  (Expression.looksLike value = true ∧ isNaN (c.evaluator key value c.units) = .ok false ∧
    out = c.evaluator key value c.units) ∨
  ((Expression.looksLike value = false ∨ isNaN (c.evaluator key value c.units) = .ok true) ∧
    c.length value = .ok out)

theorem length_of_isNaN {b : Bool} (h : isNaN value = .ok b) : c.length value = .ok value := by
  have hn : value.number?.isSome = true := by
    cases value with
    | bool _ => rfl
    | number _ => rfl
    | _ => cases h
  unfold Context.length Length.resolve
  rw [if_pos (by rw [hn, Bool.or_true])]

theorem comesTo_of_measure {out : Value} (h : measure c key value = .ok out) :
    ComesTo c key value out := by
  unfold measure at h
  obtain ⟨v, hv, hl⟩ := bind_eq_ok h
  have hv := mapError_eq_ok hv
  have hl := mapError_eq_ok hl
  rw [evaluate_of_isPrintable (isPrintable_of_evaluate hv)] at hv
  cases hx : Expression.looksLike value with
  | false =>
    rw [hx, if_neg Bool.false_ne_true] at hv
    exact Or.inr ⟨Or.inl hx, Except.ok.inj hv ▸ hl⟩
  | true =>
    rw [hx, if_pos rfl] at hv
    obtain ⟨nan, hn, hv⟩ := map_eq_ok hv
    cases nan with
    | true =>
      refine Or.inr ⟨Or.inr hn, ?_⟩
      rw [← hv] at hl
      exact hl
    | false =>
      refine Or.inl ⟨hx, hn, ?_⟩
      rw [← hv] at hl
      exact (Except.ok.inj ((length_of_isNaN hn).symm.trans hl)).symm

/-- Converting a length finds no variable undefined. -/
theorem length_ne_undefinedVariable {role : VariableRole} :
    c.length value ≠ .error (.undefinedVariable name role) := by
  unfold Context.length Length.resolve
  split
  · exact fun h => by cases h
  · split
    · unfold Length.resolveText
      repeat' split
      all_goals exact fun h => by cases h
    · exact fun h => by cases h

theorem measure_ne_undefinedVariable {role : VariableRole} :
    measure c key value ≠ .error (.resolution (.undefinedVariable name role)) := by
  intro h
  unfold measure at h
  cases he : evaluate c key value with
  | error e =>
    rw [he] at h
    cases h
  | ok v =>
    rw [he] at h
    have hl : (c.length v).mapError Failure.resolution =
        .error (.resolution (.undefinedVariable name role)) := h
    cases hr : c.length v with
    | ok out =>
      rw [hr] at hl
      cases hl
    | error e =>
      rw [hr] at hl
      have he := Failure.resolution.inj (Except.error.inj hl)
      exact length_ne_undefinedVariable (he ▸ hr)

theorem finish_ne_undefinedVariable {role role' : VariableRole} :
    finish c key role value ≠ .error (.resolution (.undefinedVariable name role')) := by
  cases role with
  | color =>
    intro h
    cases h
  | length => exact measure_ne_undefinedVariable

/-! ## Styles -/

/-- Without elevation, a resolved style holds what its properties resolve to. -/
theorem get?_resolve {style r : Fields Value} (hn : (Fields.keys style).Nodup)
    (he : Attribute.elevation ∉ Fields.keys style) (hr : resolve c style = .ok r)
    (hv : Fields.get? style key = some value) (hd : c.drops key = false)
    (hfit : (key ≠ Attribute.width ∧ key ≠ Attribute.height) ∨
      ∀ w, run c (Walk.start style) = .ok w → hasMargins w.style = false) :
    ∃ v, property c key value = .ok v ∧ Fields.get? r key = some v := by
  obtain ⟨_, ⟨w, hw, rfl⟩, hf⟩ := resolve_eq_ok_iff.1 hr
  have hrw : Fields.get? r key = Fields.get? w.style key := by
    rcases hfit with ⟨hwidth, hheight⟩ | hfit
    · exact get?_fit hf hwidth hheight
    · rw [fit_of_not_hasMargins (hfit w hw)] at hf
      rw [Except.ok.inj hf]
  rw [hrw]
  exact get?_run_start hn (fun h => absurd h he) hw hv hd

/-- A style with one property resolves as the property does, or fails with it. -/
theorem resolve_single (hd : c.drops key = false) (he : key ≠ Attribute.elevation) :
    resolve c [(key, value)] = (property c key value).map fun v => [(key, v)] := by
  have hv : Fields.get? [(key, value)] key = some value := by simp [Fields.get?]
  obtain ⟨evaluated, hvis⟩ :=
    visit_eq (c := c) hv (fun h => absurd h he) [] []
  have hrun : run c (Walk.start [(key, value)]) =
      (visit c key ⟨[(key, value)], [], []⟩).bind (run c) := run_cons rfl
  unfold resolve trace
  rw [hrun, hvis, outcome_of_not_drops hd]
  cases property c key value with
  | error e => rfl
  | ok v =>
    have hput : put [(key, value)] key (some v) = [(key, v)] := by simp [put, Fields.set]
    show ((run c ⟨put [(key, value)] key (some v), [], evaluated⟩).bind _).map _ = _
    rw [hput, run_nil rfl]
    show ((fit c [(key, v)]).bind _).map _ = _
    rw [fit_of_not_hasMargins (hasMargins_single key v)]
    rfl

/-! ## Properties with a variable -/

section
variable {role : VariableRole} (h : role? key = some role)
  (hname : variableOf? c role value = some name)

include h hname

theorem get?_resolve_of_variable {style r : Fields Value} (hn : (Fields.keys style).Nodup)
    (he : Attribute.elevation ∉ Fields.keys style) (hr : resolve c style = .ok r)
    (hv : Fields.get? style key = some value)
    (hfit : (key ≠ Attribute.width ∧ key ≠ Attribute.height) ∨
      ∀ w, run c (Walk.start style) = .ok w → hasMargins w.style = false) :
    ∃ v out, c.theme.lookup? name = some v ∧ finish c key role v = .ok out ∧
      Fields.get? r key = some out := by
  obtain ⟨out, hp, hout⟩ := get?_resolve hn he hr hv (drops_of_role? h) hfit
  rw [property_of_variable h hname] at hp
  cases hl : c.theme.lookup? name with
  | none =>
    rw [hl] at hp
    cases hp
  | some v =>
    rw [hl] at hp
    exact ⟨v, out, rfl, hp, hout⟩

theorem resolve_single_of_variable :
    resolve c [(key, value)] =
      ((c.theme.lookup? name).elim (.error (.resolution (.undefinedVariable name role)))
        (finish c key role)).map fun out => [(key, out)] := by
  rw [resolve_single (drops_of_role? h) (ne_elevation_of_role? h), property_of_variable h hname]

theorem resolve_single_undefined_iff :
    resolve c [(key, value)] = .error (.resolution (.undefinedVariable name role)) ↔
      c.theme.lookup? name = none := by
  rw [resolve_single_of_variable h hname]
  cases c.theme.lookup? name with
  | none => exact ⟨fun _ => rfl, fun _ => rfl⟩
  | some v =>
    refine ⟨fun hm => ?_, (fun hl => by cases hl)⟩
    change (finish c key role v).map _ = _ at hm
    cases hf : finish c key role v with
    | ok out =>
      rw [hf] at hm
      cases hm
    | error e =>
      rw [hf] at hm
      exact absurd (hf.trans (congrArg _ (Except.error.inj hm))) finish_ne_undefinedVariable

end

/-! ## Round trips -/

/-- In every color property the placeholder of a variable ends as the variable's value, and on its
own it fails just if the theme has no such variable. -/
def ShowsColor (c : Context) (name placeholder : String) : Prop :=
  ∀ key, Attribute.isColor key = true →
    (∀ style r, (Fields.keys style).Nodup → Attribute.elevation ∉ Fields.keys style →
      Fields.get? style key = some (.text placeholder) → resolve c style = .ok r →
      ∃ v, c.theme.lookup? name = some v ∧ Fields.get? r key = some v) ∧
    (∀ v, c.theme.lookup? name = some v → resolve c [(key, .text placeholder)] = .ok [(key, v)]) ∧
    (resolve c [(key, .text placeholder)] = .error (.resolution (.undefinedVariable name .color)) ↔
      c.theme.lookup? name = none)

/-- In every length property the number of pixels, as a number or as its text, ends as what the
variable's value comes to, unless a dimension makes room for margins; and on its own it fails as
undefined just if the theme has no such variable. -/
def ShowsLength (c : Context) (name : String) (pixels : Int) : Prop :=
  ∀ key, Attribute.isLength key = true → ∀ value,
    value = .int pixels ∨ value = .text (String.ofList (intChars pixels)) →
    (∀ style r, (Fields.keys style).Nodup → Attribute.elevation ∉ Fields.keys style →
      Fields.get? style key = some value →
      (∀ w, run c (Walk.start style) = .ok w → hasMargins w.style = false) →
      resolve c style = .ok r →
      ∃ v out, c.theme.lookup? name = some v ∧ ComesTo c key v out ∧
        Fields.get? r key = some out) ∧
    (∀ v, c.theme.lookup? name = some v →
      resolve c [(key, value)] = (measure c key v).map fun out => [(key, out)]) ∧
    (resolve c [(key, value)] = .error (.resolution (.undefinedVariable name .length)) ↔
      c.theme.lookup? name = none)

theorem showsColor_of_nameFor? {placeholder : String}
    (h : c.registry.nameFor? placeholder = some name) : ShowsColor c name placeholder := by
  intro key hk
  have hrole := role?_of_isColor hk
  have hvar : variableOf? c .color (.text placeholder) = some name := h
  have hne : key ≠ Attribute.width ∧ key ≠ Attribute.height := by
    constructor
    · rintro rfl
      exact absurd hk (by decide)
    · rintro rfl
      exact absurd hk (by decide)
  refine ⟨?_, ?_, resolve_single_undefined_iff hrole hvar⟩
  · intro style r hn he hv hr
    obtain ⟨v, out, hl, hf, hout⟩ :=
      get?_resolve_of_variable hrole hvar hn he hr hv (Or.inl hne)
    cases hf
    exact ⟨v, hl, hout⟩
  · intro v hl
    rw [resolve_single_of_variable hrole hvar, hl]
    rfl

theorem showsLength_of_nameFor? {pixels : Int} (hp : (Number.int pixels).isPrintable = true)
    (h : c.registry.nameFor? (String.ofList (intChars pixels) ++ "px") = some name) :
    ShowsLength c name pixels := by
  intro key hk value hvalue
  have hrole := role?_of_isLength hk
  have hvar : variableOf? c .length value = some name := by
    rcases hvalue with rfl | rfl
    · have hcandidate : candidate? .length (.int pixels) =
          some (String.ofList (intChars pixels) ++ "px") := by
        simp only [candidate?, Number.compact?, hp, if_true]
        rfl
      rw [variableOf?, hcandidate]
      exact h
    · exact h
  refine ⟨?_, ?_, resolve_single_undefined_iff hrole hvar⟩
  · intro style r hn he hv hfit hr
    obtain ⟨v, out, hl, hf, hout⟩ :=
      get?_resolve_of_variable hrole hvar hn he hr hv (Or.inr hfit)
    exact ⟨v, out, hl, comesTo_of_measure hf, hout⟩
  · intro v hl
    rw [resolve_single_of_variable hrole hvar, hl]
    rfl

/-- Whatever placeholder a registry that counts its length tokens has given to a name, it resolves
to the value of the variable with that name. -/
theorem placeholders_resolve_to_variables (label : String) (seed : Int)
    (actions : List Registry.Action) (name placeholder : String)
    (h : (Registry.run (Registry.start (.ofInt label seed)) actions).placeholderFor? name =
      some placeholder) :
    let source := TokenSource.ofInt label seed
    let registry := Registry.run (Registry.start source) actions
    let bare := Registry.stripSigil name
    (∃ d, Registry.BoundBy source actions d name) ∧
    (Registry.BoundBy source actions .color name →
      ∀ c : Context, c.registry = registry → ShowsColor c bare placeholder) ∧
    (Registry.BoundBy source actions .length name →
      ∃ pixels : Int, placeholder = String.ofList (intChars pixels) ++ "px" ∧
        ∀ c : Context, c.registry = registry → ShowsLength c bare pixels) := by
  intro source registry bare
  have hname : registry.nameFor? placeholder = some bare :=
    (Registry.mirrored_run source actions).nameFor?_of_placeholderFor? h
  refine ⟨Registry.exists_boundBy h, fun _ c hc => ?_, fun hb => ?_⟩
  · exact showsColor_of_nameFor? (hc ▸ hname)
  · obtain ⟨i, hi⟩ := hb.source_token h
    obtain ⟨hprintable, hi⟩ := TokenSource.token_ofInt_eq_ok hi
    refine ⟨seed + i, hi, fun c hc => showsLength_of_nameFor? hprintable ?_⟩
    have hi : placeholder = String.ofList (intChars (seed + i)) ++ "px" := hi
    rwa [hc, ← hi]

/-- A run that binds two names behind a reset and then asks for one of them again. -/
def rebinding : List Registry.Action :=
  [.encode .color (.text "$ink") .null, .encode .length (.text "$gap") .null, .reset,
   .encode .length (.text "$gap") .null, .encode .color (.text "$ink") (.text "black"),
   .encode .color (.text "$gap") .null]

theorem rebinding_resolves :
    (∀ c : Context,
      c.registry = Registry.run (Registry.start (.ofInt "tokens" 1000)) rebinding →
        ShowsColor c "ink" "#00000100") ∧
    ∃ pixels : Int, "1001px" = String.ofList (intChars pixels) ++ "px" ∧ ∀ c : Context,
      c.registry = Registry.run (Registry.start (.ofInt "tokens" 1000)) rebinding →
        ShowsLength c "gap" pixels := by
  constructor
  · exact (placeholders_resolve_to_variables "tokens" 1000 rebinding "$ink" "#00000100" rfl).2.1
      ⟨rebinding.take 4, .text "black", rebinding.drop 5, rfl, rfl, by decide +kernel,
        by simp [rebinding]⟩
  · exact (placeholders_resolve_to_variables "tokens" 1000 rebinding "$gap" "1001px" rfl).2.2
      ⟨rebinding.take 3, .null, rebinding.drop 4, rfl, rfl, by decide +kernel,
        by simp [rebinding]⟩

end StyleEngine.Resolution
