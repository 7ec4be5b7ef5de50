import StyleEngine.Proofs.Resolution.Pointwise
import StyleEngine.Proofs.Resolution.Resolved

/-!
# Resolved styles are fixed points

A value that has been resolved is left alone by every stage that it goes through a second time: it
is no placeholder, it does not look like an expression, and as a length it is taken as it is.  None
of that depends on a theme, a viewport, units or an evaluator, so a style that has been resolved in
one context resolves to itself in every other.

    ResolvedLength value → value.isPrintable → measure c key value = .ok value
                                                                         (measure_of_resolved)
    (no property fails or changes) → resolve c m = .ok m                 (resolve_eq_self)
-/

namespace StyleEngine.Resolution

variable {c : Context} {key : String} {value : Value} {m r : Fields Value}

/-! ## Values -/

/-- A length that has been resolved is taken as it is, a percentage by its own text. -/
theorem length_of_resolved (h : ResolvedLength value) : c.length value = .ok value := by
  unfold Context.length Length.resolve
  by_cases hv : (!value.isTruthy || value.number?.isSome) = true
  · rw [if_pos hv]
  · rw [if_neg hv]
    rw [Bool.or_eq_true, Bool.not_eq_true', not_or] at hv
    rcases h with hf | hn | ⟨s, l, rfl, hl, hfinite, hzero, hunit⟩
    · exact absurd hf hv.1
    · exact absurd hn hv.2
    · simp [Length.resolveText, hl, hfinite, hzero, hunit]

theorem measure_of_resolved (h : ResolvedLength value) (hp : value.isPrintable = true) :
    measure c key value = .ok value := by
  rw [measure_of_not_looksLike hp h.looksLike_eq_false, length_of_resolved h]
  rfl

theorem substitute_of_unbound {role : VariableRole}
    (h : ∀ p, candidate? role value = some p → c.registry.nameFor? p = none) :
    substitute c role value = .ok value := by
  have hv : variableOf? c role value = none := by
    unfold variableOf?
    rw [Option.bind_eq_none_iff]
    exact h
  unfold substitute
  rw [hv]

/-- A property keeps its value if it is no placeholder and, as a length, has been resolved. -/
theorem property_of_resolved
    (hp : ∀ role p, role? key = some role → candidate? role value = some p →
      c.registry.nameFor? p = none)
    (hl : Attribute.isLength key = true → ResolvedLength value ∧ value.isPrintable = true) :
    property c key value = .ok value := by
  cases hr : role? key with
  | none => exact property_of_role?_none hr value
  | some role =>
    have hs := substitute_of_unbound (hp role · hr)
    unfold property
    rw [hr]
    cases role with
    | color =>
      show (substitute c .color value).mapError _ = _
      rw [hs]
      rfl
    | length =>
      show (substitute c .length value).mapError _ >>= _ = _
      rw [hs]
      obtain ⟨hlength, hprintable⟩ := hl (isLength_of_role? hr)
      exact measure_of_resolved hlength hprintable

/-! ## Styles -/

theorem nodup_keys_resolve (hm : (Fields.keys m).Nodup) (h : resolve c m = .ok r) :
    (Fields.keys r).Nodup := by
  obtain ⟨_, ⟨w, hw, rfl⟩, hf⟩ := resolve_eq_ok_iff.1 h
  obtain ⟨hvisited, -⟩ := (run_invariant (fun _ _ _ _ h hp hv => visited_visit h hp hv)
    (visited_start hm)).1 w hw
  rw [keys_fit hf]
  exact hvisited.nodup

/-- Where no property changes and no dimension has to make room, nothing does. -/
theorem resolve_eq_self (hm : (Fields.keys m).Nodup)
    (he : Attribute.elevation ∈ Fields.keys m → c.theme.elevation = none)
    (hd : ∀ e ∈ m, c.drops e.1 = false) (hp : ∀ e ∈ m, property c e.1 e.2 = .ok e.2)
    (hmargins : hasMargins m = false) : resolve c m = .ok m := by
  obtain ⟨w, hw⟩ := (exists_run_start_iff hm he).2 fun e hmem => ⟨e.2, hp e hmem⟩
  have hkeys : Fields.keys w.style = Fields.keys m := by
    rw [keys_run_start hm he hw, List.filter_eq_self]
    intro key hk
    obtain ⟨e, hmem, rfl⟩ := List.mem_map.1 hk
    rw [hd e hmem]
    rfl
  have hsame : w.style = m := by
    refine Fields.ext_of_get? (hkeys ▸ hm) hkeys fun key => ?_
    cases hv : Fields.get? m key with
    | none => rwa [Fields.get?_eq_none_iff, hkeys, ← Fields.get?_eq_none_iff]
    | some value =>
      have hmem := (Fields.get?_eq_some_iff_mem hm).1 hv
      obtain ⟨v, hpv, hg⟩ := get?_run_start hm he hw hv (hd _ hmem)
      rw [hg, Except.ok.inj (hpv.symm.trans (hp _ hmem))]
  exact resolve_eq_ok_iff.2 ⟨m, ⟨w, hw, hsame⟩, fit_of_not_hasMargins hmargins⟩

/-- What a style resolves to, resolves to itself on the same platform and with the same registry,
whatever the theme, the viewport, the units and the evaluator are the second time: unless it has
an elevation to expand or dimensions that make room for margins again, or a value in it happens to
be a placeholder. -/
theorem resolved_style_is_fixed (c again : Context) (style r : Fields Value)
    (hn : (Fields.keys style).Nodup) (hr : resolve c style = .ok r)
    (hplatform : again.platform = c.platform) (hregistry : again.registry = c.registry)
    (helevation : Attribute.elevation ∈ Fields.keys r → again.theme.elevation = none)
    (hmargins : hasMargins r = false)
    (hcolor : ∀ key p, Attribute.isColor key = true → Fields.get? r key = some (.text p) →
      c.registry.nameFor? p = none)
    (hlength : ∀ key value p, Attribute.isLength key = true → Fields.get? r key = some value →
      candidate? .length value = some p → c.registry.nameFor? p = none) :
    resolve again r = .ok r := by
  have hnodup := nodup_keys_resolve hn hr
  have hget : ∀ e ∈ r, Fields.get? r e.1 = some e.2 := fun e he =>
    (Fields.get?_eq_some_iff_mem hnodup).2 he
  have hresolved : ∀ e ∈ r, Resolved c e.1 e.2 := fun e he => resolved_of_resolve hn hr (hget e he)
  have hdrops : again.drops = c.drops := by
    funext key
    unfold Context.drops Context.keepsCursor
    rw [hplatform]
  refine resolve_eq_self hnodup helevation (fun e he => ?_) (fun e he => ?_) hmargins
  · rw [hdrops]
    exact (hresolved e he).kept
  · refine property_of_resolved (fun role p hrole hp => ?_) fun hl =>
      ⟨(hresolved e he).length hl, (hresolved e he).printable hl⟩
    rw [hregistry]
    cases role with
    | color =>
      cases hv : e.2 with
      | text s =>
        rw [hv] at hp
        rw [← Option.some.inj hp]
        exact hcolor e.1 s (isColor_of_role? hrole) (hv ▸ hget e he)
      | _ =>
        rw [hv] at hp
        cases hp
    | length => exact hlength e.1 e.2 p (isLength_of_role? hrole) (hget e he) hp

def menuRegistry : Registry where
  source := .ofInt "tokens" 1000
  placeholders := [("$ink", "#00000100"), ("$gap", "1000px")]
  names := [("#00000100", "ink"), ("1000px", "gap")]

def menuContext : Context where
  theme :=
    { sizes := [("gap", .text "6px")]
      colors := [("ink", .text "#112233")]
      elevation := some fun _ => .ok (some [("shadowRadius", .text "4px")]) }
  viewport := ⟨390, 844⟩
  units := {}
  registry := menuRegistry
  platform := "web"

/-- Other sizes, no elevation, and an evaluator that finds the same number everywhere. -/
def otherContext : Context where
  theme := { rem := .float 99 }
  viewport := ⟨1, 2⟩
  units := {}
  registry := menuRegistry
  platform := "web"
  evaluator := fun _ _ _ => .float 7

set_option maxRecDepth 2000 in
/-- A percentage in blanks, a zero, a cursor and the elevation itself are still there. -/
theorem menu_is_fixed :
    let style : Fields Value :=
      [("color", .text "#00000100"), ("gap", .int 1000), ("width", .text " 12.5 % "),
       ("cursor", .text "pointer"), ("padding", .text "0vw"), ("elevation", .int 2)]
    let r : Fields Value :=
      [("color", .text "#112233"), ("gap", .float 6), ("width", .text " 12.5 % "),
       ("cursor", .text "pointer"), ("padding", .int 0), ("elevation", .int 2),
       ("shadowRadius", .float 4)]
    resolve menuContext style = .ok r ∧ resolve otherContext r = .ok r := by
  intro style r
  have hok : resolve menuContext style = .ok r := rfl
  have hnodup : (Fields.keys r).Nodup := by decide
  refine ⟨hok, resolved_style_is_fixed menuContext otherContext style r (by decide) hok rfl rfl
    (fun _ => rfl) (by decide) (fun key p hk hv => ?_) (fun key value p hk hv hp => ?_)⟩
  · have hmem := (Fields.get?_eq_some_iff_mem hnodup).1 hv
    simp only [r, List.mem_cons, Prod.mk.injEq, Value.text.injEq, reduceCtorEq, and_false,
      List.not_mem_nil, or_self, or_false, false_or] at hmem
    rcases hmem with ⟨-, rfl⟩ | ⟨-, rfl⟩ | ⟨-, rfl⟩ <;> decide
  · have hmem := (Fields.get?_eq_some_iff_mem hnodup).1 hv
    simp only [r, List.mem_cons, Prod.mk.injEq, List.not_mem_nil, or_false] at hmem
    rcases hmem with
      ⟨rfl, rfl⟩ | ⟨-, rfl⟩ | ⟨-, rfl⟩ | ⟨rfl, rfl⟩ | ⟨-, rfl⟩ | ⟨rfl, rfl⟩ | ⟨-, rfl⟩
    · exact absurd hk (by decide)
    · obtain rfl := Option.some.inj hp
      decide +kernel
    · obtain rfl := Option.some.inj hp
      decide +kernel
    · exact absurd hk (by decide)
    · obtain rfl := Option.some.inj hp
      decide +kernel
    · exact absurd hk (by decide)
    · obtain rfl := Option.some.inj hp
      decide +kernel

end StyleEngine.Resolution
