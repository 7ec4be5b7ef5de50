import StyleEngine.Proofs.Length
import StyleEngine.Proofs.Printable
import StyleEngine.Proofs.Resolution.Fit
import StyleEngine.Proofs.Resolution.Walk

/-!
# What a resolved style holds

However a property came into a style, its value has been resolved when the style is: a length is
falsy, a number or a percentage, a color is no placeholder any more, and a cursor is gone where it
does not belong.  A walk keeps that true of every name that does not wait; a name that an elevation
merges waits again.

    property c key value = .ok out → Resolved c key out                  (resolved_property)
    Visited c w → (w' is w after a visit) → Visited c w'                 (visited_visit)
    resolve c style = .ok r → every value of r is resolved               (resolved_of_resolve)
-/

namespace StyleEngine.Resolution

/-! ## Resolved values -/

/-- Falsy, a number, or a percentage other than zero. -/
def ResolvedLength (value : Value) : Prop :=
  value.isTruthy = false ∨ value.number?.isSome = true ∨
    ∃ s l, value = .text s ∧ Length.parse? s = some l ∧ l.magnitude.isFinite = true ∧
      (l.magnitude == 0) = false ∧ l.unit = "%"

/-- No placeholder, unless the theme itself gives that text to a variable. -/
def ResolvedColor (c : Context) (value : Value) : Prop :=
  ∀ p, value = .text p → c.registry.nameFor? p = none ∨ ∃ name, (name, value) ∈ c.theme.table

structure Resolved (c : Context) (key : String) (value : Value) : Prop where
  length : Attribute.isLength key = true → ResolvedLength value
  /-- The text of a length has been looked at. -/
  printable : Attribute.isLength key = true → value.isPrintable = true
  color : Attribute.isColor key = true → ResolvedColor c value
  kept : c.drops key = false

variable {c : Context} {key : String} {value out : Value}

/-! ## Resolving a value -/

theorem resolvedLength_resolveText {rootMetric : Number} {viewport : Viewport} {s : String}
    (h : Length.resolveText rootMetric viewport s = .ok out) : ResolvedLength out := by
  unfold Length.resolveText at h
  split at h
  · cases h
  · next l hl =>
    split at h
    · cases h
    · next hf =>
      split at h
      · rw [← Except.ok.inj h]
        exact Or.inl rfl
      · next hz =>
        split at h
        · cases h
        · split at h
          · next hu =>
            rw [← Except.ok.inj h]
            exact Or.inr (Or.inr ⟨s, l, rfl, hl, by simpa using hf, by simpa using hz, hu⟩)
          · split at h
            · cases h
            · split at h
              · rw [← Except.ok.inj h]
                exact Or.inr (Or.inl rfl)
              · cases h

theorem resolvedLength_length (h : c.length value = .ok out) : ResolvedLength out := by
  unfold Context.length Length.resolve at h
  split at h
  · next hv =>
    rw [← Except.ok.inj h]
    rw [Bool.or_eq_true, Bool.not_eq_true'] at hv
    exact hv.imp_right Or.inl
  · split at h
    · exact resolvedLength_resolveText h
    · cases h

/-- What is asked whether it is NaN has to be in the range of floats. -/
theorem isPrintable_of_isNaN {nan : Bool} (h : isNaN value = .ok nan) :
    value.isPrintable = true := by
  unfold isNaN at h
  split at h
  · rfl
  · rfl
  · split at h
    · next hfloat => exact Number.isPrintable_of_toFloat? hfloat
    · cases h
  · cases h

theorem isPrintable_evaluate (h : evaluate c key value = .ok out) : out.isPrintable = true := by
  have hp := isPrintable_of_evaluate h
  rw [evaluate_of_isPrintable hp] at h
  split at h
  · obtain ⟨nan, hnan, rfl⟩ := map_eq_ok h
    split
    · exact hp
    · exact isPrintable_of_isNaN hnan
  · rw [← Except.ok.inj h]
    exact hp

theorem isPrintable_resolveText {rootMetric : Number} {viewport : Viewport} {s : String}
    (h : Length.resolveText rootMetric viewport s = .ok out) : out.isPrintable = true := by
  unfold Length.resolveText at h
  split at h
  · cases h
  · split at h
    · cases h
    · split at h
      · rw [← Except.ok.inj h]
        decide
      · split at h
        · cases h
        · split at h
          · rw [← Except.ok.inj h]
            rfl
          · split at h
            · cases h
            · split at h
              · rw [← Except.ok.inj h]
                rfl
              · cases h

theorem isPrintable_length (hp : value.isPrintable = true) (h : c.length value = .ok out) :
    out.isPrintable = true := by
  unfold Context.length Length.resolve at h
  split at h
  · rw [← Except.ok.inj h]
    exact hp
  · split at h
    · exact isPrintable_resolveText h
    · cases h

theorem resolvedColor_substitute (h : substitute c .color value = .ok out) :
    ResolvedColor c out := by
  intro p hp
  unfold substitute at h
  split at h
  · next hv =>
    rw [Except.ok.inj h, hp] at hv
    exact Or.inl hv
  · next name _ =>
    split at h
    · next v hl =>
      rw [← Except.ok.inj h]
      exact Or.inr ⟨name, Fields.mem_of_get? hl⟩
    · cases h

/-- Whatever a property resolves to is resolved. -/
theorem resolved_property (hd : c.drops key = false) (h : property c key value = .ok out) :
    Resolved c key out := by
  unfold property at h
  refine ⟨fun hl => ?_, fun hl => ?_, fun hc => ?_, hd⟩
  · rw [role?_of_isLength hl] at h
    obtain ⟨v, -, h⟩ := bind_eq_ok h
    unfold measure at h
    obtain ⟨u, -, h⟩ := bind_eq_ok h
    exact resolvedLength_length (mapError_eq_ok h)
  · rw [role?_of_isLength hl] at h
    obtain ⟨v, -, h⟩ := bind_eq_ok h
    unfold measure at h
    obtain ⟨u, hu, h⟩ := bind_eq_ok h
    exact isPrintable_length (isPrintable_evaluate (mapError_eq_ok hu)) (mapError_eq_ok h)
  · rw [role?_of_isColor hc] at h
    exact resolvedColor_substitute (mapError_eq_ok h)

theorem resolved_elevation (c : Context) (value : Value) : Resolved c Attribute.elevation value :=
  ⟨fun h => absurd h (by decide), fun h => absurd h (by decide), fun h => absurd h (by decide),
    Bool.eq_false_iff.2 fun hd => ne_elevation_of_drops hd rfl⟩

/-! ## Walks -/

/-- The names that do not wait have been resolved. -/
structure Visited (c : Context) (w : Walk) : Prop where
  nodup : (Fields.keys w.style).Nodup
  resolved : ∀ key value, Fields.get? w.style key = some value → key ∉ w.pending →
    Resolved c key value

theorem visited_start {style : Fields Value} (hn : (Fields.keys style).Nodup) :
    Visited c (Walk.start style) :=
  ⟨hn, fun _ _ hv hk => absurd (Fields.mem_keys_of_get? hv) hk⟩

theorem visited_visit {w w' : Walk} {rest : List String} (h : Visited c w)
    (hp : w.pending = key :: rest) (hv : visit c key { w with pending := rest } = .ok w') :
    Visited c w' := by
  have hother : ∀ j v, j ≠ key → j ∉ rest → Fields.get? w.style j = some v → Resolved c j v := by
    intro j v hj hr hg
    refine h.resolved j v hg ?_
    rw [hp, List.mem_cons, not_or]
    exact ⟨hj, hr⟩
  rcases visit_cases hv with
    ⟨hg, rfl⟩ | ⟨value, hg, ⟨rfl, sh, -, rfl⟩ | ⟨hd, rfl⟩ | ⟨hd, v, hpr, rfl⟩⟩
  · refine ⟨h.nodup, fun j u hu hj => hother j u ?_ hj hu⟩
    rintro rfl
    rw [hu] at hg
    cases hg
  · refine ⟨Fields.nodup_keys_merge h.nodup sh, fun j u hu hj => ?_⟩
    by_cases hk : j = Attribute.elevation
    · exact hk ▸ resolved_elevation c u
    · -- what the shadow brings waits now, so the others still hold what they held
      have hj : j ∉ enqueue Attribute.elevation (Fields.keys sh) rest := hj
      rw [mem_enqueue, not_or] at hj
      have hs : j ∉ Fields.keys sh := fun hs => hj.2 ⟨hs, hk⟩
      exact hother j u hk hj.1 ((Fields.get?_merge_of_not_mem w.style hs).symm.trans hu)
  · refine ⟨Fields.nodup_keys_erase h.nodup key, fun j u hu hj => ?_⟩
    have hk : j ≠ key := by
      rintro rfl
      cases (Fields.get?_erase_self h.nodup j).symm.trans hu
    exact hother j u hk hj ((Fields.get?_erase_of_ne w.style hk).symm.trans hu)
  · refine ⟨Fields.nodup_keys_set h.nodup key v, fun j u hu hj => ?_⟩
    by_cases hk : j = key
    · subst hk
      have hset := Fields.get?_set_self w.style j v
      rw [Option.some.inj (hset.symm.trans hu)] at hpr
      exact resolved_property hd hpr
    · exact hother j u hk hj ((Fields.get?_set_of_ne w.style key j v hk).symm.trans hu)

theorem resolved_of_run {style : Fields Value} (hn : (Fields.keys style).Nodup) {w : Walk}
    (hw : run c (Walk.start style) = .ok w) (hv : Fields.get? w.style key = some value) :
    Resolved c key value := by
  obtain ⟨h, hp⟩ := (run_invariant (fun _ _ _ _ h hp hv => visited_visit h hp hv)
    (visited_start hn)).1 w hw
  exact h.resolved key value hv (hp ▸ List.not_mem_nil)

/-! ## Whole styles -/

theorem resolved_of_refit {m r : Fields Value} {dimension : String}
    (hm : ∀ key value, Fields.get? m key = some value → Resolved c key value)
    (hd : role? dimension = some .length) (h : refit c m dimension = .ok r)
    (hv : Fields.get? r key = some value) : Resolved c key value := by
  by_cases hk : key = dimension
  · subst hk
    rcases refit_eq_ok_iff.1 h with ⟨-, rfl⟩ | ⟨text, v, -, hl, rfl⟩
    · exact hm key value hv
    · rw [Fields.get?_set_self, Option.some.injEq] at hv
      subst hv
      refine ⟨fun _ => resolvedLength_length hl, fun _ => isPrintable_length rfl hl, fun hc => ?_,
        drops_of_role? hd⟩
      rw [role?_of_isColor hc] at hd
      cases hd
  · rw [get?_refit h hk] at hv
    exact hm key value hv

theorem resolved_of_resolve {style r : Fields Value} (hn : (Fields.keys style).Nodup)
    (h : resolve c style = .ok r) (hv : Fields.get? r key = some value) : Resolved c key value := by
  obtain ⟨_, ⟨w, hw, rfl⟩, hf⟩ := resolve_eq_ok_iff.1 h
  have hm : ∀ key value, Fields.get? w.style key = some value → Resolved c key value :=
    fun _ _ => resolved_of_run hn hw
  rcases fit_eq_ok_iff.1 hf with ⟨-, rfl⟩ | ⟨-, m, hwidth, hheight⟩
  · exact hm key value hv
  · have hm' : ∀ key value, Fields.get? m key = some value → Resolved c key value :=
      fun _ _ => resolved_of_refit hm (by decide) hwidth
    exact resolved_of_refit hm' (by decide) hheight hv

/-- No expression is left where a length has been resolved. -/
theorem ResolvedLength.looksLike_eq_false (h : ResolvedLength value) :
    Expression.looksLike value = false := by
  rcases h with hf | hn | ⟨s, l, rfl, hl, -⟩
  · cases value with
    | null => rfl
    | bool b => cases b <;> rfl
    | number n => exact Expression.looksLike_number n
    | text s =>
      have he : s.isEmpty = true := by simpa [Value.isTruthy] using hf
      rw [String.isEmpty_iff.1 he]
      decide
    | list items =>
      have he : items = [] := by simpa [Value.isTruthy] using hf
      rw [he]
      rfl
    | map entries =>
      have he : entries = [] := by simpa [Value.isTruthy] using hf
      rw [he]
      rfl
  · cases value with
    | bool b => cases b <;> rfl
    | number n => exact Expression.looksLike_number n
    | _ => cases hn
  · refine Bool.eq_false_iff.2 fun hf => ?_
    rw [Length.parse?_eq_none_of_looksLike hf] at hl
    cases hl

/-- A style that resolves has no unresolved value left, whether the property was there from the
start, came with an elevation or was refitted: each length is falsy, a number or a percentage, and
so no expression; a color that is still a placeholder of a variable is a value of the theme itself;
and there is a cursor only on a platform that keeps it. -/
theorem resolve_leaves_resolved (c : Context) (style r : Fields Value)
    (hn : (Fields.keys style).Nodup) (h : resolve c style = .ok r) :
    (∀ key value, Attribute.isLength key = true → Fields.get? r key = some value →
      ResolvedLength value ∧ ∀ s, value = .text s → Expression.looksLike value = false) ∧
    (∀ key p name, Attribute.isColor key = true → Fields.get? r key = some (.text p) →
      c.registry.nameFor? p = some name → ∃ given, (given, .text p) ∈ c.theme.table) ∧
    (c.keepsCursor = false → Attribute.cursor ∉ Fields.keys r) := by
  refine ⟨fun key value hk hv => ?_, fun key p name hk hv hp => ?_, fun hc hk => ?_⟩
  · have hl := (resolved_of_resolve hn h hv).length hk
    refine ⟨hl, ?_⟩
    rintro s rfl
    exact hl.looksLike_eq_false
  · rcases (resolved_of_resolve hn h hv).color hk p rfl with hnone | htable
    · rw [hp] at hnone
      cases hnone
    · exact htable
  · obtain ⟨value, hv⟩ := Fields.exists_get?_of_mem_keys hk
    have hd : c.drops Attribute.cursor = false := (resolved_of_resolve hn h hv).kept
    rw [Context.drops, hc] at hd
    exact absurd hd (by decide)

/-- A shadow that brings a cursor, a placeholder and a length that was resolved before. -/
def badgeContext : Context where
  theme :=
    { colors := [("ink", .text "#112233")]
      elevation := some fun _ => .ok (some [("cursor", .text "pointer"),
        ("shadowColor", .text "#00000100"), ("padding", .text "4px")]) }
  viewport := ⟨390, 844⟩
  units := {}
  registry :=
    { source := .ofInt "tokens" 1000
      placeholders := [("$ink", "#00000100")]
      names := [("#00000100", "ink")] }

set_option maxRecDepth 2000 in
theorem badge_resolves :
    let style : Fields Value :=
      [("padding", .text "50%"), ("elevation", .int 2), ("width", .text "20%")]
    let r : Fields Value :=
      [("padding", .float 4), ("elevation", .int 2), ("width", .text "20%"),
       ("shadowColor", .text "#112233")]
    (Fields.keys style).Nodup ∧ resolve badgeContext style = .ok r ∧
      ResolvedLength (.text "20%") ∧ Attribute.cursor ∉ Fields.keys r := by
  intro style r
  have hn : (Fields.keys style).Nodup := by decide
  have hok : resolve badgeContext style = .ok r := rfl
  have hr := resolve_leaves_resolved badgeContext style r hn hok
  exact ⟨hn, hok, (hr.1 "width" (.text "20%") (by decide) rfl).1, hr.2.2 (by decide)⟩

end StyleEngine.Resolution
