import StyleEngine.Proofs.Theme.Table
import StyleEngine.Theme.Defaults

/-!
# Overriding default tokens

Overrides are merged over the default sizes and over the default colors, each group by itself.
Groups that are flat are their own leaves, so the table of such a theme is read off its two groups:
the sizes first, those of the overrides before the default ones, and then the colors likewise.

    t.lookup? name = (get? t.sizes name).or (get? t.colors name)         (FlatTexts.lookup?_eq)
    FlatTexts m → FlatTexts n → FlatTexts (merge m n)                    (FlatTexts.merge)
-/

namespace StyleEngine

/-- What is merged comes from either side. -/
theorem Fields.mem_merge {α : Type} {m n : Fields α} (hm : (keys m).Nodup) (hn : (keys n).Nodup)
    {e : String × α} (h : e ∈ merge m n) : e ∈ m ∨ e ∈ n := by
  obtain ⟨k, v⟩ := e
  rw [← get?_eq_some_iff_mem (nodup_keys_merge hm n), get?_merge m hn] at h
  rcases Option.or_eq_some_iff.1 h with hv | ⟨-, hv⟩
  · exact Or.inr ((get?_eq_some_iff_mem hn).1 hv)
  · exact Or.inl ((get?_eq_some_iff_mem hm).1 hv)

namespace Theme

/-! ## Flat groups -/

/-- Distinct names, each with a text that is not empty. -/
structure FlatTexts (m : Fields Value) : Prop where
  nodup : (Fields.keys m).Nodup
  text : ∀ e ∈ m, ∃ s, e.2 = .text s ∧ s.isEmpty = false

theorem FlatTexts.nil : FlatTexts [] := ⟨List.nodup_nil, fun _ h => absurd h List.not_mem_nil⟩

theorem FlatTexts.merge {m n : Fields Value} (hm : FlatTexts m) (hn : FlatTexts n) :
    FlatTexts (Fields.merge m n) where
  nodup := Fields.nodup_keys_merge hm.nodup n
  text e he := (Fields.mem_merge hm.nodup hn.nodup he).elim (hm.text e) (hn.text e)

theorem FlatTexts.leaves_eq {m : Fields Value} (h : FlatTexts m) : leaves [m] = m := by
  refine leaves_singleton fun e he => ?_
  obtain ⟨s, hs, hne⟩ := h.text e he
  rw [hs]
  refine ⟨by rw [isGiven, hne]; rfl, nofun⟩

/-- Where sizes and colors are flat, a variable is a size or else a color. -/
theorem FlatTexts.lookup?_eq {t : Theme} (hs : FlatTexts t.sizes) (hc : FlatTexts t.colors)
    (name : String) :
    t.lookup? name = (Fields.get? t.sizes name).or (Fields.get? t.colors name) := by
  have hleaves : leaves [t.sizes, t.colors] = t.sizes ++ t.colors := by
    have happend := leaves_append [t.sizes] [t.colors]
    rwa [hs.leaves_eq, hc.leaves_eq] at happend
  unfold lookup? table
  rw [get?_flatten, hleaves, Fields.get?_append]

namespace Defaults

/-! ## Defaults with overrides -/

theorem flatTexts_sizes : FlatTexts sizes := ⟨by decide, by simp [sizes]⟩

theorem flatTexts_palette : FlatTexts palette := ⟨by decide, by simp [palette, shadowColor]⟩

variable {overrides entries : Fields Value}

/-- A group that the overrides leave out counts as an empty one. -/
theorem group_eq {name : String} (defaults : Fields Value)
    (h : (Fields.get? overrides name).getD (.map []) = .map entries) :
    group defaults overrides name = .ok (Fields.merge defaults entries) := by
  unfold group
  cases hv : Fields.get? overrides name with
  | none =>
    rw [hv] at h
    cases h
    rfl
  | some value =>
    rw [hv] at h
    cases h
    rfl

/-- Only the root metric of flat overrides can keep them from giving a theme. -/
theorem build_eq {ownSizes ownColors : Fields Value}
    (hsizes : (Fields.get? overrides "sizes").getD (.map []) = .map ownSizes)
    (hcolors : (Fields.get? overrides "colors").getD (.map []) = .map ownColors) :
    build overrides = ((rem overrides).mapError Flaw.issues).map fun r =>
      ⟨r, Fields.merge sizes ownSizes, Fields.merge palette ownColors, some defaultElevation⟩ := by
  unfold build
  rw [group_eq sizes hsizes, group_eq palette hcolors]
  cases rem overrides <;> rfl

/-- Overrides that are flat give a theme, or else the issues of their root metric.  In the theme a
size that they give is the value of its variable, and so is a color that they give unless there is
a size with its name, be it theirs or a default one. -/
theorem overrides_resolve (overrides ownSizes ownColors : Fields Value)
    (hsizes : (Fields.get? overrides "sizes").getD (.map []) = .map ownSizes)
    (hcolors : (Fields.get? overrides "colors").getD (.map []) = .map ownColors)
    (hs : FlatTexts ownSizes) (hc : FlatTexts ownColors) :
    (∃ issues, rem overrides = .error issues ∧ build overrides = .error (.issues issues)) ∨
    ∃ t, build overrides = .ok t ∧
      (∀ name value, Fields.get? ownSizes name = some value → t.lookup? name = some value) ∧
      ∀ name value, Fields.get? ownColors name = some value → name ∉ Fields.keys ownSizes →
        name ∉ Fields.keys sizes → t.lookup? name = some value := by
  have hbuild := build_eq hsizes hcolors
  cases hr : rem overrides with
  | error issues =>
    rw [hr] at hbuild
    exact Or.inl ⟨issues, rfl, hbuild⟩
  | ok r =>
    rw [hr] at hbuild
    have hlookup := fun name => FlatTexts.lookup?_eq
      (t := ⟨r, Fields.merge sizes ownSizes, Fields.merge palette ownColors, some defaultElevation⟩)
      (flatTexts_sizes.merge hs) (flatTexts_palette.merge hc) name
    refine Or.inr ⟨_, hbuild, fun name value hv => ?_, fun name value hv hown hdefault => ?_⟩
    · rw [hlookup, Fields.get?_merge _ hs.nodup, hv, Option.some_or, Option.some_or]
    · rw [hlookup, Fields.get?_merge _ hs.nodup, Fields.get?_eq_none_iff.2 hown,
        Fields.get?_eq_none_iff.2 hdefault, Fields.get?_merge _ hc.nodup, hv]
      rfl

/-- A new size that hides a color, and a default color in another shade. -/
theorem shade_resolves :
    let ownSizes : Fields Value := [("gutter", .text "1rem"), ("primary", .text "9px")]
    let ownColors : Fields Value := [("accent", .text "#123456"), ("primary", .text "#000000")]
    let overrides : Fields Value := [("sizes", .map ownSizes), ("colors", .map ownColors)]
    FlatTexts ownSizes ∧ FlatTexts ownColors ∧
      ∃ t, build overrides = .ok t ∧ t.lookup? "gutter" = some (.text "1rem") ∧
        t.lookup? "primary" = some (.text "9px") ∧ t.lookup? "accent" = some (.text "#123456") := by
  intro ownSizes ownColors overrides
  have hs : FlatTexts ownSizes := ⟨by decide, by simp [ownSizes]⟩
  have hc : FlatTexts ownColors := ⟨by decide, by simp [ownColors]⟩
  refine ⟨hs, hc, ?_⟩
  rcases overrides_resolve overrides ownSizes ownColors rfl rfl hs hc with
    ⟨issues, hrem, -⟩ | ⟨t, ht, hsize, hcolor⟩
  · cases hrem
  · exact ⟨t, ht, hsize "gutter" _ rfl, hsize "primary" _ rfl,
      hcolor "accent" _ rfl (by decide) (by decide)⟩

/-- A color does not become the value of its variable if a default size has the same name. -/
theorem color_hidden_by_default_size :
    let ownColors : Fields Value := [("medium", .text "#123456")]
    let overrides : Fields Value := [("colors", .map ownColors)]
    (Fields.get? overrides "sizes").getD (.map []) = .map [] ∧ FlatTexts ownColors ∧
      Fields.get? ownColors "medium" = some (.text "#123456") ∧
      ∃ t, build overrides = .ok t ∧ t.lookup? "medium" = some (.text "1rem") ∧
        t.lookup? "medium" ≠ some (.text "#123456") := by
  intro ownColors overrides
  have hc : FlatTexts ownColors := ⟨by decide, by simp [ownColors]⟩
  have hsizes : (Fields.get? overrides "sizes").getD (.map []) = .map [] := rfl
  have hcolors : (Fields.get? overrides "colors").getD (.map []) = .map ownColors := rfl
  have hbuild := build_eq hsizes hcolors
  have hlookup : Theme.lookup? ⟨.float 8, Fields.merge sizes [], Fields.merge palette ownColors,
      some defaultElevation⟩ "medium" = some (.text "1rem") := by
    rw [FlatTexts.lookup?_eq (flatTexts_sizes.merge FlatTexts.nil) (flatTexts_palette.merge hc)]
    rfl
  refine ⟨hsizes, hc, rfl, _, hbuild, hlookup, ?_⟩
  rw [hlookup]
  simp

end Defaults

end Theme

end StyleEngine
