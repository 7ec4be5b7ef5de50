import StyleEngine.Proofs.Resolution.Elevation

/-!
# The names that wait

A walk takes its names from a list that grows while it is walked, over a style that loses names
meanwhile.  At the head of each iteration the names that wait differ from each other and are all in
the style, so none is passed over.  An elevation that was visited does not wait again, so the theme
is asked for one shadow at most, and no more names can join than that shadow has.

    Reaches c (Walk.start style) visited w → WorkList c style visited w  (workList_of_reaches)
    visited.length ≤ style.length + (shadowOf c style).length            (WorkList.length_le)
    run c w = .ok w' ∨ run c w = .error f, at the end of its iterations  (run_cases)
-/

namespace StyleEngine.Resolution

/-! ## Iterations -/

/-- A walk from the head of one iteration to the head of another, and the names it visits in
between. -/
inductive Reaches (c : Context) (w : Walk) : List String → Walk → Prop where
  | start : Reaches c w [] w
  | visit {w₁ w₂ : Walk} {visited : List String} {key : String} {rest : List String} :
      Reaches c w visited w₁ → w₁.pending = key :: rest →
      visit c key { w₁ with pending := rest } = .ok w₂ → Reaches c w (visited ++ [key]) w₂

/-- The iterations of a run lead to a walk in which no name waits, or to a visit that fails. -/
theorem run_cases (c : Context) (w : Walk) :
    (∃ visited w', Reaches c w visited w' ∧ w'.pending = [] ∧ run c w = .ok w') ∨
    ∃ visited w₁ key rest f, Reaches c w visited w₁ ∧ w₁.pending = key :: rest ∧
      visit c key { w₁ with pending := rest } = .error f ∧ run c w = .error f := by
  have hstep : ∀ w₁ w₂ key rest, (∃ visited, Reaches c w visited w₁) →
      w₁.pending = key :: rest → visit c key { w₁ with pending := rest } = .ok w₂ →
      ∃ visited, Reaches c w visited w₂ := by
    rintro w₁ w₂ key rest ⟨visited, h⟩ hp hv
    exact ⟨visited ++ [key], .visit h hp hv⟩
  obtain ⟨hok, herror⟩ := run_invariant hstep ⟨[], .start⟩
  cases hr : run c w with
  | ok w' =>
    obtain ⟨⟨visited, h⟩, hp⟩ := hok w' hr
    exact .inl ⟨visited, w', h, hp, rfl⟩
  | error f =>
    obtain ⟨w₁, key, rest, ⟨visited, h⟩, hp, hv⟩ := herror f hr
    exact .inr ⟨visited, w₁, key, rest, f, h, hp, hv, rfl⟩

/-! ## The invariant -/

/-- The shadow of the level that a style has; none without a level, or if the theme fails on it. -/
def shadowOf (c : Context) (style : Fields Value) : Fields Value :=
  match (Fields.get? style Attribute.elevation).map (shadow c) with
  | some (.ok sh) => sh
  | _ => []

/-- What is true of the names that wait when those in `visited` have been visited. -/
structure WorkList (c : Context) (style : Fields Value) (visited : List String) (w : Walk) :
    Prop where
  nodup : w.pending.Nodup
  present : ∀ key ∈ w.pending, key ∈ Fields.keys w.style
  elevation : (visited ++ w.pending).count Attribute.elevation ≤ 1
  /-- Until it is visited, the elevation has the level that it had at the start. -/
  level : Attribute.elevation ∉ visited →
    Fields.get? w.style Attribute.elevation = Fields.get? style Attribute.elevation
  length : visited.length + w.pending.length ≤
    style.length + if Attribute.elevation ∈ visited then (shadowOf c style).length else 0

theorem workList_start (c : Context) {style : Fields Value} (hs : (Fields.keys style).Nodup) :
    WorkList c style [] (Walk.start style) where
  nodup := hs
  present _ hk := hk
  elevation := List.nodup_iff_count_le_one.1 hs _
  level _ := rfl
  length := by
    show 0 + (Fields.keys style).length ≤ _
    rw [Fields.keys, List.length_map]
    omega

section
variable {c : Context} {style : Fields Value} {visited : List String} {w w' : Walk}
  {key : String} {rest : List String}

theorem shadowOf_eq {level : Value} {sh : Fields Value}
    (hlevel : Fields.get? style Attribute.elevation = some level)
    (hsh : shadow c level = .ok sh) : shadowOf c style = sh := by
  unfold shadowOf
  rw [hlevel, Option.map_some, hsh]

theorem exists_shadow_of_visit {level : Value}
    (hlevel : Fields.get? w.style Attribute.elevation = some level)
    (hv : visit c Attribute.elevation w = .ok w') :
    ∃ sh, shadow c level = .ok sh ∧ w' = w.expand sh := by
  unfold visit at hv
  simp only [hlevel, if_pos] at hv
  obtain ⟨sh, hsh, rfl⟩ := map_eq_ok hv
  exact ⟨sh, mapError_eq_ok hsh, rfl⟩

/-- No name has to be passed over. -/
theorem WorkList.exists_value (h : WorkList c style visited w) (hp : w.pending = key :: rest) :
    ∃ value, Fields.get? w.style key = some value :=
  Fields.exists_get?_of_mem_keys (h.present key (hp ▸ List.mem_cons_self))

theorem WorkList.not_mem_of_mem (h : WorkList c style visited w)
    (he : Attribute.elevation ∈ visited) : Attribute.elevation ∉ w.pending := by
  intro hp
  have hcount := h.elevation
  have hvisited := List.count_pos_iff.2 he
  have hpending := List.count_pos_iff.2 hp
  rw [List.count_append] at hcount
  omega

theorem WorkList.length_le (h : WorkList c style visited w) :
    visited.length + w.pending.length ≤ style.length + (shadowOf c style).length := by
  have hlength := h.length
  split at hlength <;> omega

/-- A visit that lets no name join, and takes away no other name than its own. -/
theorem WorkList.next (h : WorkList c style visited w) (hp : w.pending = key :: rest)
    (hpending : w'.pending = rest)
    (hother : ∀ j, j ≠ key → Fields.get? w'.style j = Fields.get? w.style j) :
    WorkList c style (visited ++ [key]) w' := by
  have hnodup := h.nodup
  rw [hp, List.nodup_cons] at hnodup
  refine ⟨?_, fun j hj => ?_, ?_, fun he => ?_, ?_⟩
  · rw [hpending]
    exact hnodup.2
  · rw [hpending] at hj
    have hne : j ≠ key := fun he => hnodup.1 (he ▸ hj)
    obtain ⟨v, hv⟩ := Fields.exists_get?_of_mem_keys
      (h.present j (hp ▸ List.mem_cons_of_mem _ hj))
    exact Fields.mem_keys_of_get? ((hother j hne).trans hv)
  · have hcount := h.elevation
    rwa [hp, List.append_cons, ← hpending] at hcount
  · rw [List.mem_append, List.mem_singleton, not_or] at he
    rw [hother _ he.2, h.level he.1]
  · have hlength := h.length
    rw [hp, List.length_cons] at hlength
    rw [hpending, List.length_append, List.length_singleton]
    split at hlength
    · next he => rw [if_pos (List.mem_append_left _ he)]; omega
    · omega

/-- The elevation has its first level when it is visited, so what it merges is `shadowOf`. -/
theorem WorkList.expand (h : WorkList c style visited w)
    (hp : w.pending = Attribute.elevation :: rest) {level : Value} {sh : Fields Value}
    (hlevel : Fields.get? w.style Attribute.elevation = some level)
    (hsh : shadow c level = .ok sh) :
    shadowOf c style = sh ∧
      WorkList c style (visited ++ [Attribute.elevation])
        (Walk.expand { w with pending := rest } sh) := by
  have hfirst : Attribute.elevation ∉ visited := fun he =>
    h.not_mem_of_mem he (hp ▸ List.mem_cons_self)
  have hshadow : shadowOf c style = sh := by
    rw [h.level hfirst] at hlevel
    exact shadowOf_eq hlevel hsh
  have hnodup := h.nodup
  rw [hp, List.nodup_cons] at hnodup
  refine ⟨hshadow, nodup_enqueue _ _ hnodup.2, fun j hj => ?_, ?_, fun he => ?_, ?_⟩
  · show j ∈ Fields.keys (Fields.merge w.style sh)
    rw [Fields.mem_keys_merge]
    rcases mem_enqueue.1 hj with hj | ⟨hj, -⟩
    · exact .inl (h.present j (hp ▸ List.mem_cons_of_mem _ hj))
    · exact .inr hj
  · have hcount := h.elevation
    rw [hp, List.append_cons, List.count_append] at hcount
    rw [List.count_append]
    show _ + (enqueue _ _ rest).count _ ≤ 1
    rwa [count_enqueue]
  · exact absurd (List.mem_append_right _ (List.mem_singleton_self _)) he
  · have hlength := h.length
    have hjoin := length_enqueue_le Attribute.elevation (Fields.keys sh) rest
    rw [Fields.keys, List.length_map] at hjoin
    rw [hp, List.length_cons, if_neg hfirst] at hlength
    rw [if_pos (List.mem_append_right _ (List.mem_singleton_self _)), hshadow,
      List.length_append, List.length_singleton]
    show _ + (enqueue _ (Fields.keys sh) rest).length ≤ _
    rw [Fields.keys]
    omega

theorem WorkList.visit (h : WorkList c style visited w) (hp : w.pending = key :: rest)
    (hv : visit c key { w with pending := rest } = .ok w') :
    WorkList c style (visited ++ [key]) w' := by
  rcases visit_cases hv with
    ⟨hnone, -⟩ | ⟨value, hvalue, ⟨rfl, sh, hsh, rfl⟩ | ⟨-, rfl⟩ | ⟨-, v, -, rfl⟩⟩
  · obtain ⟨value, hvalue⟩ := h.exists_value hp
    rw [hvalue] at hnone
    cases hnone
  · exact (h.expand hp hvalue hsh).2
  · exact h.next hp rfl fun j hj => Fields.get?_erase_of_ne w.style hj
  · exact h.next hp rfl fun j hj => Fields.get?_set_of_ne w.style key j v hj

/-- The invariant holds at the head of every iteration. -/
theorem workList_of_reaches (hs : (Fields.keys style).Nodup)
    (h : Reaches c (Walk.start style) visited w) : WorkList c style visited w := by
  induction h with
  | start => exact workList_start c hs
  | visit _ hp hv ih => exact ih.visit hp hv

/-- Only a visit to the elevation asks the theme for a shadow. -/
theorem visit_congr_elevation (hk : key ≠ Attribute.elevation) (elevation : Option Elevation)
    (w : Walk) :
    visit { c with theme := { c.theme with elevation := elevation } } key w = visit c key w := by
  unfold visit
  split
  · rfl
  · rw [if_neg hk, if_neg hk]
    rfl

end

/-! ## Whole walks -/

/-- At the head of every iteration the names that wait are distinct and in the style, so that none
is passed over, and the elevation is at most once among them and those visited.  So the theme is
asked for a shadow at most once, which is that of the style's own level, and the walk ends, well or
with a visit that fails, after at most as many iterations as the style and that shadow have names.
-/
theorem pending_names_distinct_and_present (c : Context) (style : Fields Value)
    (hs : (Fields.keys style).Nodup) :
    (∀ visited w, Reaches c (Walk.start style) visited w →
      w.pending.Nodup ∧ (∀ key ∈ w.pending, key ∈ Fields.keys w.style) ∧
      (∀ key rest, w.pending = key :: rest → ∃ value, Fields.get? w.style key = some value) ∧
      w.pending.count Attribute.elevation ≤ 1 ∧
      (Attribute.elevation ∈ visited → Attribute.elevation ∉ w.pending) ∧
      (visited ++ w.pending).count Attribute.elevation ≤ 1 ∧
      visited.length + w.pending.length ≤ style.length + (shadowOf c style).length) ∧
    (∀ key elevation w, key ≠ Attribute.elevation →
      visit { c with theme := { c.theme with elevation := elevation } } key w = visit c key w) ∧
    (∀ visited w rest w', Reaches c (Walk.start style) visited w →
      w.pending = Attribute.elevation :: rest →
      visit c Attribute.elevation { w with pending := rest } = .ok w' →
      w' = Walk.expand { w with pending := rest } (shadowOf c style)) ∧
    ((∃ visited w, Reaches c (Walk.start style) visited w ∧ w.pending = [] ∧
        run c (Walk.start style) = .ok w ∧
        visited.length ≤ style.length + (shadowOf c style).length) ∨
      ∃ visited w key rest f, Reaches c (Walk.start style) visited w ∧ w.pending = key :: rest ∧
        visit c key { w with pending := rest } = .error f ∧
        run c (Walk.start style) = .error f ∧
        visited.length + 1 ≤ style.length + (shadowOf c style).length) := by
  refine ⟨fun visited w h => ?_, fun key elevation w hk => visit_congr_elevation hk elevation w,
    fun visited w rest w' h hp hv => ?_, ?_⟩
  · have hw := workList_of_reaches hs h
    exact ⟨hw.nodup, hw.present, fun _ _ => hw.exists_value,
      List.nodup_iff_count_le_one.1 hw.nodup _, hw.not_mem_of_mem, hw.elevation, hw.length_le⟩
  · have hw := workList_of_reaches hs h
    obtain ⟨level, hlevel⟩ := hw.exists_value hp
    obtain ⟨sh, hsh, rfl⟩ := exists_shadow_of_visit (w := { w with pending := rest }) hlevel hv
    rw [(hw.expand hp hlevel hsh).1]
  · rcases run_cases c (Walk.start style) with ⟨visited, w, h, hp, hr⟩ |
      ⟨visited, w, key, rest, f, h, hp, hv, hr⟩
    · have hlength := (workList_of_reaches hs h).length_le
      exact .inl ⟨visited, w, h, hp, hr, by omega⟩
    · have hlength := (workList_of_reaches hs h).length_le
      rw [hp, List.length_cons] at hlength
      exact .inr ⟨visited, w, key, rest, f, h, hp, hv, hr, by omega⟩

def cardStyle : Fields Value :=
  [("cursor", .text "pointer"), ("flex", .int 1), ("elevation", .int 2), ("width", .text "10px")]

/-- After the elevation a name waits again that was visited and left the style, and the elevation
in the shadow does not wait. -/
theorem card_waits_for_four_names :
    (Fields.keys cardStyle).Nodup ∧
    ∃ w, Reaches cardContext (Walk.start cardStyle) ["cursor", "flex", "elevation"] w ∧
      w.pending = ["width", "cursor", "padding", "shadowRadius"] ∧
      (∀ key ∈ w.pending, key ∈ Fields.keys w.style) ∧
      shadowOf cardContext cardStyle = cardShadow ∧ 3 + w.pending.length ≤ 4 + 5 := by
  have hs : (Fields.keys cardStyle).Nodup := by decide
  have hcursor : Reaches cardContext (Walk.start cardStyle) ["cursor"]
      ⟨[("flex", .int 1), ("elevation", .int 2), ("width", .text "10px")],
        ["flex", "elevation", "width"], []⟩ := .visit .start rfl rfl
  have hflex : Reaches cardContext (Walk.start cardStyle) ["cursor", "flex"]
      ⟨[("flex", .int 1), ("elevation", .int 2), ("width", .text "10px")],
        ["elevation", "width"], []⟩ := .visit hcursor rfl rfl
  have helevation : Reaches cardContext (Walk.start cardStyle) ["cursor", "flex", "elevation"]
      ⟨[("flex", .int 1), ("elevation", .int 3), ("width", .text "50%"),
        ("cursor", .text "default"), ("padding", .text "4px"), ("shadowRadius", .text "2px")],
        ["width", "cursor", "padding", "shadowRadius"], []⟩ := .visit hflex rfl rfl
  obtain ⟨-, hpresent, -, -, -, -, hlength⟩ :=
    (pending_names_distinct_and_present cardContext cardStyle hs).1 _ _ helevation
  exact ⟨hs, _, helevation, rfl, hpresent, rfl, hlength⟩

end StyleEngine.Resolution
