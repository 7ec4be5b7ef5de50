import StyleEngine.Proofs.Resolution.Walk

/-!
# Elevation as a merge

Expanding an elevation in the middle of a walk comes to the same as merging its shadow into the
style before the walk.  Names that were visited before the elevation are visited again, names that
wait are not visited twice, and a dropped name that the shadow brings back is dropped again.  The
one difference: a name that is visited before the elevation must not fail on its first value, even
if the shadow replaces that.

    resolve c style = .ok r ↔
      resolve c.flat (merge style shadow) = .ok r ∧ (the early visits succeed)
                                                                  (resolve_elevation_iff_merged)
-/

namespace StyleEngine.Resolution

/-- The context without elevation; the root metric, and with it derived units, stay the same. -/
def Context.flat (c : Context) : Context := { c with theme := { c.theme with elevation := none } }

theorem fit_flat (c : Context) : fit c.flat = fit c := rfl

theorem settle_flat (c : Context) : settle c.flat = settle c := rfl

theorem succeeds_flat (c : Context) : Succeeds c.flat = Succeeds c := rfl

/-! ## Names before and behind an elevation -/

/-- The names of a style, `early` before its elevation and `late` behind it. -/
structure Split (style : Fields Value) (early late : List String) : Prop where
  nodup : (Fields.keys style).Nodup
  keys_eq : Fields.keys style = early ++ Attribute.elevation :: late

namespace Split

variable {style : Fields Value} {early late : List String} (h : Split style early late)

include h

theorem nodup_append : (early ++ Attribute.elevation :: late).Nodup := h.keys_eq ▸ h.nodup

theorem early_nodup : early.Nodup := h.nodup_append.of_append_left

theorem late_nodup : late.Nodup := h.nodup_append.of_append_right.of_cons

theorem elevation_not_mem_early : Attribute.elevation ∉ early := fun he =>
  (List.nodup_append.1 h.nodup_append).2.2 _ he _ List.mem_cons_self rfl

theorem elevation_not_mem_late : Attribute.elevation ∉ late :=
  (List.nodup_cons.1 h.nodup_append.of_append_right).1

theorem not_mem_early_of_mem_late {key : String} (hl : key ∈ late) : key ∉ early := fun he =>
  (List.nodup_append.1 h.nodup_append).2.2 key he key (List.mem_cons_of_mem _ hl) rfl

theorem mem_keys {key : String} :
    key ∈ Fields.keys style ↔ key ∈ early ∨ key = Attribute.elevation ∨ key ∈ late := by
  rw [h.keys_eq, List.mem_append, List.mem_cons]

end Split

/-! ## Merging in the middle of a walk -/

/-- The style when the walk has expanded its elevation. -/
def expanded (c : Context) (style : Fields Value) (early : List String) (shadow : Fields Value) :
    Fields Value := Fields.merge (settle c early style) shadow

/-- The names that wait at that moment. -/
def waiting (late : List String) (shadow : Fields Value) : List String :=
  enqueue Attribute.elevation (Fields.keys shadow) late

section
variable {c : Context} {style shadow : Fields Value} {early late : List String}

/-- Only what was not dropped early is still there to be expanded. -/
theorem mem_keys_settle_early (h : Split style early late) (h₁ : Succeeds c early style)
    {key : String} :
    key ∈ Fields.keys (settle c early style) ↔
      key ∈ Fields.keys style ∧ ¬(key ∈ early ∧ c.drops key = true) := by
  rw [keys_settle h.nodup h₁, List.mem_filter]
  by_cases he : key ∈ early <;> simp [he]

/-- The elevation is met with its own level, since no visit before it writes to it. -/
theorem get?_settle_elevation (h : Split style early late) {level : Value}
    (hv : Fields.get? style Attribute.elevation = some level) :
    Fields.get? (settle c early style) Attribute.elevation = some level := by
  rw [get?_settle h.nodup, hv]
  show settled c early Attribute.elevation level = some level
  exact settled_of_not_mem h.elevation_not_mem_early

theorem nodup_keys_expanded (h : Split style early late) (c : Context) (shadow : Fields Value) :
    (Fields.keys (expanded c style early shadow)).Nodup :=
  Fields.nodup_keys_merge (nodup_keys_settle h.nodup early) shadow

theorem mem_waiting {key : String} :
    key ∈ waiting late shadow ↔
      key ∈ late ∨ (key ∈ Fields.keys shadow ∧ key ≠ Attribute.elevation) := mem_enqueue

variable (h : Split style early late) (hsh : (Fields.keys shadow).Nodup)

include hsh

theorem keys_expanded : Fields.keys (expanded c style early shadow) =
    Fields.keys (settle c early style) ++
      (Fields.keys shadow).filter (· ∉ Fields.keys (settle c early style)) :=
  Fields.keys_merge _ _ hsh

include h

omit hsh in
theorem nodup_waiting : (waiting late shadow).Nodup := nodup_enqueue _ _ h.late_nodup

omit hsh in
theorem elevation_not_mem_waiting : Attribute.elevation ∉ waiting late shadow := by
  rw [mem_waiting]
  rintro (he | ⟨-, he⟩)
  · exact h.elevation_not_mem_late he
  · exact he rfl

theorem get?_expanded (key : String) :
    Fields.get? (expanded c style early shadow) key =
      (Fields.get? shadow key).or ((Fields.get? style key).bind (settled c early key)) := by
  unfold expanded
  rw [Fields.get?_merge _ hsh, get?_settle h.nodup]

/-- Names that have not been visited early hold what the merged style holds. -/
theorem get?_expanded_of_not_mem {key : String} (hk : key ∉ early) :
    Fields.get? (expanded c style early shadow) key =
      Fields.get? (Fields.merge style shadow) key := by
  rw [get?_expanded h hsh, bind_settled_of_not_mem hk, Fields.get?_merge _ hsh]

/-- So do the names of the shadow. -/
theorem get?_expanded_of_mem {key : String} (hk : key ∈ Fields.keys shadow) :
    Fields.get? (expanded c style early shadow) key =
      Fields.get? (Fields.merge style shadow) key := by
  obtain ⟨v, hv⟩ := Fields.exists_get?_of_mem_keys hk
  rw [get?_expanded h hsh, Fields.get?_merge _ hsh, hv]
  rfl

theorem get?_expanded_of_mem_waiting {key : String} (hk : key ∈ waiting late shadow) :
    Fields.get? (expanded c style early shadow) key =
      Fields.get? (Fields.merge style shadow) key := by
  rcases mem_waiting.1 hk with hl | ⟨hs, -⟩
  · exact get?_expanded_of_not_mem h hsh (h.not_mem_early_of_mem_late hl)
  · exact get?_expanded_of_mem h hsh hs

omit hsh in
/-- A name that does not wait is the elevation, or it was visited early and is not replaced. -/
theorem eq_elevation_or_mem_early {key : String} {value : Value}
    (hv : Fields.get? (Fields.merge style shadow) key = some value)
    (hw : key ∉ waiting late shadow) :
    key = Attribute.elevation ∨ (key ∈ early ∧ key ∉ Fields.keys shadow) := by
  by_cases hk : key = Attribute.elevation
  · exact Or.inl hk
  · have hs : key ∉ Fields.keys shadow := fun hs => hw (mem_waiting.2 (Or.inr ⟨hs, hk⟩))
    rw [Fields.get?_merge_of_not_mem _ hs] at hv
    rcases h.mem_keys.1 (Fields.mem_keys_of_get? hv) with he | he | hl
    · exact Or.inr ⟨he, hs⟩
    · exact absurd he hk
    · exact absurd (mem_waiting.2 (Or.inl hl)) hw

/-- The visits before and after an expansion succeed just if all visits to the merged style do,
and the early ones to names that the shadow replaces. -/
theorem succeeds_expanded_iff :
    (Succeeds c early style ∧ Succeeds c (waiting late shadow) (expanded c style early shadow)) ↔
      Succeeds c (Fields.keys (Fields.merge style shadow)) (Fields.merge style shadow) ∧
      ∀ key value, Fields.get? style key = some value → key ∈ early → key ∈ Fields.keys shadow →
        ∃ o, outcome c key value = .ok o := by
  constructor
  · rintro ⟨h₁, h₂⟩
    refine ⟨fun key value hv _ => ?_, fun key value hv he _ => h₁ key value hv he⟩
    by_cases hw : key ∈ waiting late shadow
    · exact h₂ key value (by rw [get?_expanded_of_mem_waiting h hsh hw]; exact hv) hw
    · rcases eq_elevation_or_mem_early h hv hw with hk | ⟨he, hs⟩
      · exact ⟨some value, hk ▸ outcome_elevation c value⟩
      · rw [Fields.get?_merge_of_not_mem _ hs] at hv
        exact h₁ key value hv he
  · rintro ⟨h₃, h₄⟩
    refine ⟨fun key value hv he => ?_, fun key value hv hw => ?_⟩
    · by_cases hs : key ∈ Fields.keys shadow
      · exact h₄ key value hv he hs
      · have hm : Fields.get? (Fields.merge style shadow) key = some value := by
          rw [Fields.get?_merge_of_not_mem _ hs, hv]
        exact h₃ key value hm (Fields.mem_keys_of_get? hm)
    · rw [get?_expanded_of_mem_waiting h hsh hw] at hv
      exact h₃ key value hv (Fields.mem_keys_of_get? hv)

/-- Both orders keep the same names in the same order. -/
theorem keys_settle_expanded (h₁ : Succeeds c early style)
    (h₂ : Succeeds c (waiting late shadow) (expanded c style early shadow))
    (h₃ : Succeeds c (Fields.keys (Fields.merge style shadow)) (Fields.merge style shadow)) :
    Fields.keys (settle c (waiting late shadow) (expanded c style early shadow)) =
      Fields.keys
        (settle c (Fields.keys (Fields.merge style shadow)) (Fields.merge style shadow)) := by
  rw [keys_settle (nodup_keys_expanded h c shadow) h₂,
    keys_settle (Fields.nodup_keys_merge h.nodup shadow) h₃,
    keys_expanded hsh, Fields.keys_merge _ _ hsh, List.filter_append, List.filter_append]
  congr 1
  · rw [keys_settle h.nodup h₁, List.filter_filter]
    refine List.filter_congr fun key hk => ?_
    cases hd : c.drops key with
    | false => simp
    | true =>
      have hne : key ≠ Attribute.elevation := ne_elevation_of_drops hd
      have hdue : key ∈ waiting late shadow ∨ key ∈ early := by
        rcases h.mem_keys.1 hk with he | he | hl
        · exact Or.inr he
        · exact absurd he hne
        · exact Or.inl (mem_waiting.2 (Or.inl hl))
      rcases hdue with hw | he <;> simp [*]
  · rw [List.filter_filter, List.filter_filter]
    refine List.filter_congr fun key hk => ?_
    cases hd : c.drops key with
    | false => simp [mem_keys_settle_early h h₁, hd]
    | true =>
      have hne : key ≠ Attribute.elevation := ne_elevation_of_drops hd
      have hw : key ∈ waiting late shadow := mem_waiting.2 (Or.inr ⟨hk, hne⟩)
      simp [hw, hk]

/-- Settling what waits after an expansion gives what settling the merged style gives. -/
theorem settle_expanded (h₁ : Succeeds c early style)
    (h₂ : Succeeds c (waiting late shadow) (expanded c style early shadow))
    (h₃ : Succeeds c (Fields.keys (Fields.merge style shadow)) (Fields.merge style shadow)) :
    settle c (waiting late shadow) (expanded c style early shadow) =
      settle c (Fields.keys (Fields.merge style shadow)) (Fields.merge style shadow) := by
  have hn := nodup_keys_expanded h c shadow
  refine Fields.ext_of_get? (nodup_keys_settle hn _) (keys_settle_expanded h hsh h₁ h₂ h₃)
    fun key => ?_
  rw [get?_settle hn, get?_settle (Fields.nodup_keys_merge h.nodup shadow)]
  by_cases hw : key ∈ waiting late shadow
  · rw [get?_expanded_of_mem_waiting h hsh hw]
    cases hv : Fields.get? (Fields.merge style shadow) key with
    | none => rfl
    | some v =>
      have hk := Fields.mem_keys_of_get? hv
      obtain ⟨o, ho⟩ := h₃ key v hv hk
      show settled c _ key v = settled c _ key v
      rw [settled_of_mem hw ho, settled_of_mem hk ho]
  · rw [bind_settled_of_not_mem hw]
    cases hv : Fields.get? (Fields.merge style shadow) key with
    | none =>
      rw [Fields.get?_merge _ hsh, Option.or_eq_none_iff] at hv
      rw [get?_expanded h hsh, hv.1, hv.2]
      rfl
    | some v =>
      have hk := Fields.mem_keys_of_get? hv
      rcases eq_elevation_or_mem_early h hv hw with rfl | ⟨he, hs⟩
      · rw [get?_expanded_of_not_mem h hsh h.elevation_not_mem_early, hv]
        exact (settled_of_mem hk (outcome_elevation c v)).symm
      · rw [Fields.get?_merge_of_not_mem _ hs] at hv
        obtain ⟨o, ho⟩ := h₁ key v hv he
        rw [get?_expanded h hsh, Fields.get?_eq_none_iff.2 hs, Option.none_or, hv]
        show settled c _ key v = settled c _ key v
        rw [settled_of_mem he ho, settled_of_mem hk ho]

end

/-! ## Runs with an elevation -/

theorem visit_elevation {c : Context} {m shadow : Fields Value} {level : Value}
    (hv : Fields.get? m Attribute.elevation = some level)
    (hs : Resolution.shadow c level = .ok shadow) (rest : List String)
    (evaluated : List (String × Value)) :
    visit c Attribute.elevation ⟨m, rest, evaluated⟩ =
      .ok ⟨Fields.merge m shadow, waiting rest shadow, evaluated⟩ := by
  unfold visit
  simp only [hv, if_pos, hs]
  rfl

section
variable {c : Context} {style shadow : Fields Value} {early late : List String} {level : Value}
  (h : Split style early late) (hsh : (Fields.keys shadow).Nodup)
  (hv : Fields.get? style Attribute.elevation = some level)
  (hs : Resolution.shadow c level = .ok shadow)

include h hv hs

/-- A walk whose visits succeed before and after the expansion ends with what they settle. -/
theorem run_split (h₁ : Succeeds c early style)
    (h₂ : Succeeds c (waiting late shadow) (expanded c style early shadow)) :
    ∃ w, run c (Walk.start style) = .ok w ∧
      w.style = settle c (waiting late shadow) (expanded c style early shadow) ∧
      Visits c (Walk.start style) (met style early ++ (Attribute.elevation, level) ::
        met (expanded c style early shadow) (waiting late shadow)) w := by
  have hstart : Walk.start style = ⟨style, early ++ Attribute.elevation :: late, []⟩ := by
    unfold Walk.start
    rw [h.keys_eq]
  obtain ⟨evaluated₁, hr₁, hl₁⟩ := run_through h.nodup h.early_nodup
    (fun he => absurd he h.elevation_not_mem_early) h₁ (Attribute.elevation :: late) []
  obtain ⟨evaluated₂, hr₂, hl₂⟩ := run_through (nodup_keys_expanded h c shadow)
    (nodup_waiting h) (fun he => absurd he (elevation_not_mem_waiting h)) h₂ []
    evaluated₁
  rw [List.append_nil] at hr₂ hl₂
  have hlevel := get?_settle_elevation (c := c) h hv
  have hvis := visit_elevation hlevel hs late evaluated₁
  refine ⟨⟨settle c (waiting late shadow) (expanded c style early shadow), [], evaluated₂⟩,
    ?_, rfl, ?_⟩
  · rw [hstart, hr₁, run_cons rfl, hvis]
    show run c ⟨expanded c style early shadow, waiting late shadow, evaluated₁⟩ = _
    rw [hr₂, run_nil rfl]
  · rw [hstart]
    refine hl₁ _ _ (.visit rfl hlevel hvis ?_)
    have hd := hl₂ [] _ (.done rfl)
    rwa [List.append_nil] at hd

theorem succeeds_of_run_split {w : Walk} (hw : run c (Walk.start style) = .ok w) :
    Succeeds c early style ∧
      Succeeds c (waiting late shadow) (expanded c style early shadow) := by
  have hstart : Walk.start style = ⟨style, early ++ Attribute.elevation :: late, []⟩ := by
    unfold Walk.start
    rw [h.keys_eq]
  rw [hstart] at hw
  have h₁ := succeeds_of_run h.nodup h.early_nodup
    (fun he => absurd he h.elevation_not_mem_early) hw
  obtain ⟨evaluated₁, hr₁, -⟩ := run_through h.nodup h.early_nodup
    (fun he => absurd he h.elevation_not_mem_early) h₁ (Attribute.elevation :: late) []
  have hvis := visit_elevation (get?_settle_elevation (c := c) h hv) hs late evaluated₁
  rw [hr₁, run_cons rfl, hvis] at hw
  have hrest : run c ⟨expanded c style early shadow, waiting late shadow ++ [], evaluated₁⟩ =
      .ok w := by
    rw [List.append_nil]
    exact hw
  exact ⟨h₁, succeeds_of_run (nodup_keys_expanded h c shadow) (nodup_waiting h)
    (fun he => absurd he (elevation_not_mem_waiting h)) hrest⟩

include hsh

/-- The walk ends well, and with the same style, just if the walk over the merged style does and
the early visits succeed. -/
theorem run_split_iff {r : Fields Value} :
    (∃ w, run c (Walk.start style) = .ok w ∧ w.style = r) ↔
      (∃ w, run c.flat (Walk.start (Fields.merge style shadow)) = .ok w ∧ w.style = r) ∧
      ∀ key value, Fields.get? style key = some value → key ∈ early → key ∈ Fields.keys shadow →
        ∃ o, outcome c key value = .ok o := by
  rw [run_start_eq_ok_iff (c := c.flat) (Fields.nodup_keys_merge h.nodup shadow) fun _ => rfl,
    settle_flat, succeeds_flat]
  constructor
  · rintro ⟨w, hw, rfl⟩
    obtain ⟨h₁, h₂⟩ := succeeds_of_run_split h hv hs hw
    obtain ⟨h₃, h₄⟩ := (succeeds_expanded_iff h hsh).1 ⟨h₁, h₂⟩
    obtain ⟨w', hw', hst, -⟩ := run_split h hv hs h₁ h₂
    have he : w = w' := Except.ok.inj (hw.symm.trans hw')
    refine ⟨⟨h₃, ?_⟩, h₄⟩
    rw [he, hst, settle_expanded h hsh h₁ h₂ h₃]
  · rintro ⟨⟨h₃, rfl⟩, h₄⟩
    obtain ⟨h₁, h₂⟩ := (succeeds_expanded_iff h hsh).2 ⟨h₃, h₄⟩
    obtain ⟨w, hw, hst, -⟩ := run_split h hv hs h₁ h₂
    exact ⟨w, hw, by rw [hst, settle_expanded h hsh h₁ h₂ h₃]⟩

end

/-! ## Whole styles -/

theorem shadow_eq {c : Context} {elevation : Elevation} {level : Value}
    {answer : Option (Fields Value)} (hc : c.theme.elevation = some elevation)
    (ha : elevation level = .ok answer) : shadow c level = .ok (answer.getD []) := by
  unfold shadow
  rw [hc]
  show (elevation level).map _ = _
  rw [ha]
  rfl

section
variable {before after : Fields Value} {level : Value}
  (hs : (Fields.keys (before ++ (Attribute.elevation, level) :: after)).Nodup)

include hs

theorem split_at_elevation :
    Split (before ++ (Attribute.elevation, level) :: after) (Fields.keys before)
      (Fields.keys after) :=
  ⟨hs, by rw [Fields.keys_append]; rfl⟩

/-- What stands before the elevation is what the names before it hold. -/
theorem mem_before_iff {key : String} {value : Value} :
    (key, value) ∈ before ↔
      Fields.get? (before ++ (Attribute.elevation, level) :: after) key = some value ∧
        key ∈ Fields.keys before := by
  have h := split_at_elevation hs
  rw [Fields.get?_eq_some_iff_mem hs]
  constructor
  · intro he
    exact ⟨List.mem_append_left _ he, List.mem_map_of_mem he⟩
  · rintro ⟨he, hk⟩
    rcases List.mem_append.1 he with he | he
    · exact he
    · rcases List.mem_cons.1 he with he | he
      · obtain ⟨rfl, -⟩ := Prod.mk.inj he
        exact absurd hk h.elevation_not_mem_early
      · exact absurd hk (h.not_mem_early_of_mem_late (List.mem_map_of_mem he))

/-- A walk meets the part before the elevation as it stands. -/
theorem met_before :
    met (before ++ (Attribute.elevation, level) :: after) (Fields.keys before) = before := by
  have hg : ∀ key ∈ Fields.keys before,
      Fields.get? (before ++ (Attribute.elevation, level) :: after) key =
        Fields.get? before key := by
    intro key hk
    obtain ⟨v, hv⟩ := Fields.exists_get?_of_mem_keys hk
    rw [Fields.get?_append, hv]
    rfl
  rw [met_congr hg, met_keys (split_at_elevation hs).early_nodup]

end

/-- Resolving a style with an elevation gives what resolving the style merged with the shadow gives
without elevation; and it succeeds just if, besides, every name that the shadow replaces and that
comes before the elevation resolves from its own value.  Each property of the shadow is visited
exactly once after the merge, with its merged value. -/
theorem resolve_elevation_iff_merged (c : Context) (elevation : Elevation)
    (before after : Fields Value) (level : Value) (answer : Option (Fields Value))
    (hc : c.theme.elevation = some elevation) (ha : elevation level = .ok answer)
    (hs : (Fields.keys (before ++ (Attribute.elevation, level) :: after)).Nodup)
    (hn : (Fields.keys (answer.getD [])).Nodup) :
    let style := before ++ (Attribute.elevation, level) :: after
    let shadow := answer.getD []
    (∀ r, resolve c style = .ok r ↔
      resolve c.flat (Fields.merge style shadow) = .ok r ∧
        ∀ e ∈ before, e.1 ∈ Fields.keys shadow → ∃ v, property c e.1 e.2 = .ok v) ∧
    ∀ w, run c (Walk.start style) = .ok w →
      ∃ log, Visits c (Walk.start style) (before ++ (Attribute.elevation, level) :: log) w ∧
        ∀ e ∈ shadow, e.1 ≠ Attribute.elevation →
          log.filter (fun visited => visited.1 = e.1) = [e] := by
  intro style shadow
  have h : Split style (Fields.keys before) (Fields.keys after) := split_at_elevation hs
  have hmem : (Attribute.elevation, level) ∈ style := List.mem_append_right _ List.mem_cons_self
  have hv := (Fields.get?_eq_some_iff_mem hs).2 hmem
  have hsh : Resolution.shadow c level = .ok shadow := shadow_eq hc ha
  refine ⟨fun r => ?_, fun w hw => ?_⟩
  · simp only [resolve_eq_ok_iff, run_split_iff h hn hv hsh, fit_flat]
    constructor
    · rintro ⟨m, ⟨hm, he⟩, hf⟩
      refine ⟨⟨m, hm, hf⟩, fun e hb hk => exists_outcome_iff.1 ?_⟩
      obtain ⟨hg, hb⟩ := (mem_before_iff hs).1 hb
      exact he e.1 e.2 hg hb hk
    · rintro ⟨⟨m, hm, hf⟩, he⟩
      exact ⟨m, ⟨hm, fun key value hg hb hk =>
        exists_outcome_iff.2 (he (key, value) ((mem_before_iff hs).2 ⟨hg, hb⟩) hk)⟩, hf⟩
  · obtain ⟨h₁, h₂⟩ := succeeds_of_run_split h hv hsh hw
    obtain ⟨w', hw', -, hlog⟩ := run_split h hv hsh h₁ h₂
    obtain rfl : w = w' := Except.ok.inj (hw.symm.trans hw')
    rw [met_before hs] at hlog
    refine ⟨_, hlog, fun e he hne => ?_⟩
    have hk : e.1 ∈ Fields.keys shadow := List.mem_map_of_mem he
    refine filter_met (nodup_waiting h) (mem_waiting.2 (Or.inr ⟨hk, hne⟩)) ?_
    rw [get?_expanded_of_mem h hn hk, Fields.get?_merge _ hn, (Fields.get?_eq_some_iff_mem hn).2 he]
    rfl

/-- A shadow that brings back a dropped cursor and replaces a name on each side of the elevation. -/
def cardShadow : Fields Value :=
  [("cursor", .text "default"), ("padding", .text "4px"), ("elevation", .int 3),
   ("width", .text "50%"), ("shadowRadius", .text "2px")]

def cardContext : Context where
  theme := { elevation := some fun _ => .ok (some cardShadow) }
  viewport := ⟨390, 844⟩
  units := {}
  registry := { source := .ofInt "tokens" 1000 }

theorem card_resolves_merged :
    let before : Fields Value := [("padding", .text "1rem"), ("cursor", .text "pointer")]
    let style := before ++ ("elevation", .int 2) :: [("width", .text "10px")]
    resolve cardContext.flat (Fields.merge style cardShadow) =
        .ok [("padding", .float 4), ("elevation", .int 3), ("width", .text "50%"),
          ("shadowRadius", .float 2)] ∧
      ∀ e ∈ before, e.1 ∈ Fields.keys cardShadow → ∃ v, property cardContext e.1 e.2 = .ok v :=
  ((resolve_elevation_iff_merged cardContext (fun _ => .ok (some cardShadow))
    [("padding", .text "1rem"), ("cursor", .text "pointer")] [("width", .text "10px")] (.int 2)
    (some cardShadow) rfl rfl (by decide) (by decide)).1 _).1 rfl

end StyleEngine.Resolution
