import StyleEngine.Proofs.Resolution.Fit
import StyleEngine.Proofs.Resolution.Walk

/-!
# Walks without elevation are pointwise

Where no elevation is expanded, a walk does to each property what `property` makes of its value
alone, and it fails as the first property does that fails.  So neither the order of the properties
nor any of the others matters to what becomes of one.

    run c (Walk.start m) = .error f ↔ FailsFirst c m f                   (run_start_eq_error_iff)
    m ~ n → resolve c m = .ok r → ∃ s, resolve c n = .ok s ∧ SameValues r s        (resolve_perm)
-/

namespace StyleEngine.Resolution

variable {c : Context} {m n : Fields Value} {f : Failure}

/-! ## The first failure -/

/-- The first property that fails, in the order of the style, fails with `f`. -/
def FailsFirst (c : Context) (m : Fields Value) (f : Failure) : Prop :=
  ∃ before key value after, m = before ++ (key, value) :: after ∧
    (∀ e ∈ before, ∃ v, property c e.1 e.2 = .ok v) ∧ property c key value = .error f

theorem succeeds_or_failsFirst (c : Context) (m : Fields Value) :
    (∀ e ∈ m, ∃ v, property c e.1 e.2 = .ok v) ∨ ∃ f, FailsFirst c m f := by
  induction m with
  | nil => exact Or.inl fun e he => absurd he List.not_mem_nil
  | cons e m ih =>
    cases hp : property c e.1 e.2 with
    | error f => exact Or.inr ⟨f, [], e.1, e.2, m, rfl, fun e he => absurd he List.not_mem_nil, hp⟩
    | ok v =>
      rcases ih with hm | ⟨f, before, key, value, after, rfl, hb, hf⟩
      · exact Or.inl (List.forall_mem_cons.2 ⟨⟨v, hp⟩, hm⟩)
      · exact Or.inr ⟨f, e :: before, key, value, after, rfl,
          List.forall_mem_cons.2 ⟨⟨v, hp⟩, hb⟩, hf⟩

/-! ## Walks -/

theorem succeeds_iff (hm : (Fields.keys m).Nodup) :
    Succeeds c (Fields.keys m) m ↔ ∀ e ∈ m, ∃ v, property c e.1 e.2 = .ok v := by
  constructor
  · intro h e he
    have hv := (Fields.get?_eq_some_iff_mem hm).2 he
    exact exists_outcome_iff.1 (h e.1 e.2 hv (Fields.mem_keys_of_get? hv))
  · intro h key value hv _
    exact exists_outcome_iff.2 (h (key, value) ((Fields.get?_eq_some_iff_mem hm).1 hv))

section
variable (hm : (Fields.keys m).Nodup)
  (he : Attribute.elevation ∈ Fields.keys m → c.theme.elevation = none)

include hm he

theorem exists_run_start_iff :
    (∃ w, run c (Walk.start m) = .ok w) ↔ ∀ e ∈ m, ∃ v, property c e.1 e.2 = .ok v := by
  rw [← succeeds_iff hm]
  constructor
  · rintro ⟨w, hw⟩
    exact ((run_start_eq_ok_iff hm he).1 ⟨w, hw, rfl⟩).1
  · intro hs
    obtain ⟨w, hw, -⟩ := (run_start_eq_ok_iff hm he).2 ⟨hs, rfl⟩
    exact ⟨w, hw⟩

/-- What stands behind the first failure is not looked at. -/
theorem run_start_of_failsFirst (h : FailsFirst c m f) : run c (Walk.start m) = .error f := by
  obtain ⟨before, key, value, after, rfl, hb, hf⟩ := h
  have hkeys : Fields.keys (before ++ (key, value) :: after) =
      Fields.keys before ++ key :: Fields.keys after := Fields.keys_append _ _
  have hstart : Walk.start (before ++ (key, value) :: after) =
      ⟨before ++ (key, value) :: after, Fields.keys before ++ key :: Fields.keys after, []⟩ := by
    unfold Walk.start
    rw [hkeys]
  have hnodup := hm
  rw [hkeys] at he hnodup
  have hkey : key ∉ Fields.keys before := fun hk =>
    (List.nodup_append.1 hnodup).2.2 key hk key List.mem_cons_self rfl
  have hs : Succeeds c (Fields.keys before) (before ++ (key, value) :: after) := by
    intro j v hv hj
    obtain ⟨u, hu⟩ := Fields.exists_get?_of_mem_keys hj
    rw [Fields.get?_append, hu, Option.some_or, Option.some.injEq] at hv
    subst hv
    exact exists_outcome_iff.2 (hb (j, u) (Fields.mem_of_get? hu))
  have hv : Fields.get? (settle c (Fields.keys before) (before ++ (key, value) :: after)) key =
      some value := by
    have hmem : (key, value) ∈ before ++ (key, value) :: after :=
      List.mem_append_right _ List.mem_cons_self
    rw [get?_settle hm, (Fields.get?_eq_some_iff_mem hm).2 hmem]
    exact settled_of_not_mem hkey
  obtain ⟨evaluated, hr, -⟩ := run_through hm hnodup.of_append_left
    (fun h => he (List.mem_append_left _ h)) hs (key :: Fields.keys after) []
  obtain ⟨evaluated', hvis⟩ := visit_eq hv
    (fun h => he (List.mem_append_right _ (h ▸ List.mem_cons_self))) (Fields.keys after) evaluated
  rw [hstart, hr, run_cons rfl, hvis, outcome_eq_error_iff.2 hf]
  rfl

theorem run_start_eq_error_iff : run c (Walk.start m) = .error f ↔ FailsFirst c m f := by
  constructor
  · intro h
    rcases succeeds_or_failsFirst c m with hs | ⟨f', hf⟩
    · obtain ⟨w, hw⟩ := (exists_run_start_iff hm he).2 hs
      rw [hw] at h
      cases h
    · have hf' := run_start_of_failsFirst hm he hf
      rw [h] at hf'
      rwa [Except.error.inj hf']
  · exact run_start_of_failsFirst hm he

theorem keys_run_start {w : Walk} (hw : run c (Walk.start m) = .ok w) :
    Fields.keys w.style = (Fields.keys m).filter fun key => !c.drops key := by
  obtain ⟨hs, hst⟩ := (run_start_eq_ok_iff hm he).1 ⟨w, hw, rfl⟩
  rw [← hst, keys_settle hm hs]
  refine List.filter_congr fun key hk => ?_
  simp [hk]

theorem get?_run_start {w : Walk} (hw : run c (Walk.start m) = .ok w) {key : String} {value : Value}
    (hv : Fields.get? m key = some value) (hd : c.drops key = false) :
    ∃ v, property c key value = .ok v ∧ Fields.get? w.style key = some v := by
  obtain ⟨hs, hst⟩ := (run_start_eq_ok_iff hm he).1 ⟨w, hw, rfl⟩
  have hk := Fields.mem_keys_of_get? hv
  obtain ⟨o, ho⟩ := hs key value hv hk
  have hg : Fields.get? w.style key = o := by
    rw [← hst, get?_settle hm, hv]
    exact settled_of_mem hk ho
  rw [outcome_of_not_drops hd] at ho
  obtain ⟨v, hp, rfl⟩ := map_eq_ok ho
  exact ⟨v, hp, hg⟩

/-! ## Reordering -/

/-- In another order the walk ends just as well, and with the same values. -/
theorem run_start_perm (h : n.Perm m) {w : Walk} (hw : run c (Walk.start m) = .ok w) :
    ∃ w', run c (Walk.start n) = .ok w' ∧ SameValues w.style w'.style := by
  have hkeys := Fields.keys_perm h
  have hn : (Fields.keys n).Nodup := hkeys.nodup_iff.2 hm
  have he' : Attribute.elevation ∈ Fields.keys n → c.theme.elevation = none := fun hk =>
    he (hkeys.mem_iff.1 hk)
  obtain ⟨hs, hst⟩ := (run_start_eq_ok_iff hm he).1 ⟨w, hw, rfl⟩
  have hs' : Succeeds c (Fields.keys n) n := (succeeds_iff hn).2 fun e hen =>
    (succeeds_iff hm).1 hs e (h.mem_iff.1 hen)
  obtain ⟨w', hw', hst'⟩ := (run_start_eq_ok_iff hn he').2 ⟨hs', rfl⟩
  refine ⟨w', hw', fun key => ?_⟩
  have hdue : settled c (Fields.keys n) key = settled c (Fields.keys m) key := by
    funext value
    unfold settled
    simp only [hkeys.mem_iff]
  rw [← hst, hst', get?_settle hm, get?_settle hn, Fields.get?_perm hm h, hdue]

theorem resolve_perm (h : n.Perm m) {r : Fields Value} (hr : resolve c m = .ok r) :
    ∃ s, resolve c n = .ok s ∧ SameValues r s := by
  obtain ⟨_, ⟨w, hw, rfl⟩, hf⟩ := resolve_eq_ok_iff.1 hr
  obtain ⟨w', hw', hsame⟩ := run_start_perm hm he h hw
  obtain ⟨s, hs, hrs⟩ := fit_congr hsame hf
  exact ⟨s, resolve_eq_ok_iff.2 ⟨w'.style, ⟨w', hw', rfl⟩, hs⟩, hrs⟩

/-- A property that is no color, no length and no cursor keeps its value. -/
theorem get?_resolve_of_unclassified {r : Fields Value} (hr : resolve c m = .ok r) {key : String}
    (hc : Attribute.isColor key = false) (hl : Attribute.isLength key = false)
    (hk : key ≠ Attribute.cursor) : Fields.get? r key = Fields.get? m key := by
  obtain ⟨_, ⟨w, hw, rfl⟩, hf⟩ := resolve_eq_ok_iff.1 hr
  have hd : c.drops key = false := Bool.eq_false_iff.2 fun hd => hk (eq_cursor_of_drops hd)
  have hfit : Fields.get? r key = Fields.get? w.style key := by
    refine get?_fit hf ?_ ?_
    · rintro rfl
      exact absurd hl (by decide)
    · rintro rfl
      exact absurd hl (by decide)
  rw [hfit]
  cases hv : Fields.get? m key with
  | some value =>
    obtain ⟨v, hp, hg⟩ := get?_run_start hm he hw hv hd
    rw [property_of_role?_none (role?_of_unclassified hc hl)] at hp
    rw [hg, Except.ok.inj hp]
  | none =>
    rw [Fields.get?_eq_none_iff, keys_run_start hm he hw, List.mem_filter]
    exact fun h => Fields.get?_eq_none_iff.1 hv h.1

end

/-! ## All together -/

/-- Without an elevation to expand, the walk is `property` at each name: it ends well just if no
property fails, it leaves the names as they are except for a dropped cursor, with what `property`
makes of each value, and it fails as the first property does that fails.  So a style in another
order resolves just as well and to the same values, dimensions beside margins included, and what is
no color, no length and no cursor keeps its value. -/
theorem walk_is_pointwise (c : Context) (style : Fields Value)
    (hn : (Fields.keys style).Nodup)
    (he : Attribute.elevation ∈ Fields.keys style → c.theme.elevation = none) :
    ((∃ w, run c (Walk.start style) = .ok w) ↔ ∀ e ∈ style, ∃ v, property c e.1 e.2 = .ok v) ∧
    (∀ w, run c (Walk.start style) = .ok w →
      Fields.keys w.style = (Fields.keys style).filter (fun key => !c.drops key) ∧
      ∀ e ∈ style, c.drops e.1 = false →
        ∃ v, property c e.1 e.2 = .ok v ∧ Fields.get? w.style e.1 = some v) ∧
    (∀ f, run c (Walk.start style) = .error f ↔
      ∃ before key value after, style = before ++ (key, value) :: after ∧
        (∀ e ∈ before, ∃ v, property c e.1 e.2 = .ok v) ∧ property c key value = .error f) ∧
    (∀ other : Fields Value, other.Perm style →
      ((∃ s, resolve c other = .ok s) ↔ ∃ r, resolve c style = .ok r) ∧
      ∀ r s, resolve c style = .ok r → resolve c other = .ok s →
        ∀ key, Fields.get? s key = Fields.get? r key) ∧
    ∀ r, resolve c style = .ok r → ∀ key, Attribute.isColor key = false →
      Attribute.isLength key = false → key ≠ Attribute.cursor →
      Fields.get? r key = Fields.get? style key := by
  refine ⟨exists_run_start_iff hn he, fun w hw => ⟨keys_run_start hn he hw, fun e hmem hd => ?_⟩,
    fun f => run_start_eq_error_iff hn he, fun other h => ⟨⟨?_, ?_⟩, fun r s hr hs key => ?_⟩,
    fun r hr key => get?_resolve_of_unclassified hn he hr⟩
  · exact get?_run_start hn he hw ((Fields.get?_eq_some_iff_mem hn).2 hmem) hd
  · rintro ⟨s, hs⟩
    have hkeys := Fields.keys_perm h
    obtain ⟨r, hr, -⟩ := resolve_perm (hkeys.nodup_iff.2 hn)
      (fun hk => he (hkeys.mem_iff.1 hk)) h.symm hs
    exact ⟨r, hr⟩
  · rintro ⟨r, hr⟩
    obtain ⟨s, hs, -⟩ := resolve_perm hn he h hr
    exact ⟨s, hs⟩
  · obtain ⟨s', hs', hsame⟩ := resolve_perm hn he h hr
    rw [hs'] at hs
    rw [hsame key, Except.ok.inj hs]

def bannerContext : Context where
  theme := { colors := [("ink", .text "#112233")] }
  viewport := ⟨400, 800⟩
  units := {}
  registry :=
    { source := .ofInt "tokens" 700
      placeholders := [("$ink", "#00000100"), ("$gone", "#00000200")]
      names := [("#00000100", "ink"), ("#00000200", "gone")] }

set_option maxRecDepth 2000 in
/-- The width makes room for margins that may stand in front of it or behind it; of two failures
the first is reported. -/
theorem banner_in_any_order :
    let style : Fields Value :=
      [("cursor", .text "pointer"), ("width", .text "100px"), ("marginLeft", .text "1rem"),
       ("marginRight", .text "12px"), ("marginTop", .text "1px"), ("marginBottom", .text "1px"),
       ("color", .text "#00000100")]
    let broken : Fields Value :=
      [("display", .text "flex"), ("color", .text "#00000200"), ("width", .text "1furlong")]
    (∃ s, resolve bannerContext style.reverse = .ok s ∧
      Fields.get? s "width" = some (.float 95) ∧ Fields.get? s "cursor" = none ∧
      Fields.get? s "color" = some (.text "#112233")) ∧
    run bannerContext (Walk.start broken) =
      .error (.resolution (.undefinedVariable "gone" .color)) := by
  intro style broken
  have hs := walk_is_pointwise bannerContext style (by decide) fun _ => rfl
  have hb := walk_is_pointwise bannerContext broken (by decide) fun _ => rfl
  constructor
  · obtain ⟨hdefined, hsame⟩ := hs.2.2.2.1 style.reverse style.reverse_perm
    obtain ⟨s, hr⟩ := hdefined.2 ⟨_, rfl⟩
    have hsame := hsame _ s rfl hr
    exact ⟨s, hr, hsame "width", hsame "cursor", hsame "color"⟩
  · refine (hb.2.2.1 _).2 ⟨[("display", .text "flex")], "color", .text "#00000200",
      [("width", .text "1furlong")], rfl, fun e he => ?_, rfl⟩
    rw [List.mem_singleton.1 he]
    exact ⟨.text "flex", rfl⟩

end StyleEngine.Resolution
