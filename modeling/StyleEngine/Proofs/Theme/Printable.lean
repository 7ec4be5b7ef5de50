import StyleEngine.Proofs.Outcome
import StyleEngine.Proofs.Printable
import StyleEngine.Proofs.Theme.Table
import StyleEngine.Theme.Defaults

/-!
# Themes that can be printed

What a theme has to give to a style is printable if its data is, and so it is for the default theme.

    check value = .ok d → value.isPrintable → d.toTheme.Printable            (printable_toTheme)
    Defaults.theme.Printable                                                 (Defaults.printable)
-/

namespace StyleEngine.Theme

/-- Every value of a variable and every property of a shadow can be printed. -/
structure Printable (t : Theme) : Prop where
  table : Fields.Printable t.table
  shadow : ∀ elevation level sh, t.elevation = some elevation → elevation level = .ok (some sh) →
    Fields.Printable sh

/-! ## Tables -/

mutual

theorem printable_entriesOf (name : String) : ∀ (value : Value), value.isPrintable = true →
    Fields.Printable (entriesOf name value)
  | .map entries => fun h => printable_entriesIn entries (Value.isPrintable_map_iff.1 h)
  | .null | .bool _ | .number _ | .text _ | .list _ => fun h => List.forall_mem_singleton.2 h

theorem printable_entriesIn : ∀ (entries : List (String × Value)), Fields.Printable entries →
    Fields.Printable (entriesIn entries)
  | [] => id
  | (name, value) :: rest => by
    intro h
    obtain ⟨hvalue, hrest⟩ := List.forall_mem_cons.1 h
    exact List.forall_mem_append.2
      ⟨printable_entriesOf name value hvalue, printable_entriesIn rest hrest⟩

end

theorem printable_flatten {groups : List (Fields Value)}
    (h : ∀ group ∈ groups, Fields.Printable group) : Fields.Printable (flatten groups) := by
  intro e he
  have hleaf := List.mem_of_mem_filter (mem_leaves_of_mem_flatten he)
  obtain ⟨group, hgroup, he⟩ := List.mem_flatMap.1 hleaf
  exact printable_entriesIn group (h group hgroup) e he

theorem printable_table {t : Theme} (hsizes : Fields.Printable t.sizes)
    (hcolors : Fields.Printable t.colors) : Fields.Printable t.table :=
  printable_flatten (List.forall_mem_cons.2 ⟨hsizes, List.forall_mem_singleton.2 hcolors⟩)

/-! ## Checked data -/

section
open Schema (Checked map mapOf record)

section
variable {value : Value} (hp : value.isPrintable = true)

include hp

theorem printable_of_map {entries : Fields Value} (h : map value = .ok entries) :
    Fields.Printable entries := by
  unfold map at h
  split at h
  · rw [← Except.ok.inj h]
    exact Value.isPrintable_map_iff.1 hp
  · cases h

theorem printable_of_record {fields : Fields Value} (h : record value = .ok fields) :
    Fields.Printable fields := by
  unfold record at h
  split at h
  · rw [← Except.ok.inj h]
    exact Value.isPrintable_map_iff.1 hp
  · cases h

end

theorem printable_of_entriesOf {entries : Fields Value} {table : Fields (Fields Value)}
    (hp : Fields.Printable entries) (h : Schema.entriesOf map entries = .ok table) :
    ∀ e ∈ table, Fields.Printable e.2 := by
  induction entries generalizing table with
  | nil =>
    rw [← Except.ok.inj h]
    exact fun e he => absurd he List.not_mem_nil
  | cons e rest ih =>
    obtain ⟨hfirst, hrest⟩ := List.forall_mem_cons.1 hp
    obtain ⟨_, more, hcons, hmore, rfl⟩ := Checked.ap_eq_ok.1 h
    obtain ⟨first, hchecked, hjoin⟩ := Checked.map_eq_ok hcons
    rw [← hjoin]
    have hmap : map e.2 = .ok first := Checked.under_eq_ok hchecked
    exact List.forall_mem_cons.2 ⟨printable_of_map hfirst hmap, ih hrest hmore⟩

theorem printable_groupOf {fields group : Fields Value} {name : String}
    (hp : Fields.Printable fields) (h : groupOf fields name = .ok group) :
    Fields.Printable group := by
  rcases Schema.optional_eq_ok h with rfl | ⟨value, hv, hmap⟩
  · exact Fields.Printable.nil
  · exact printable_of_map (hp.of_get? hv) hmap

end

/-! ## Documents -/

/-- A document that was printable as data makes a printable theme. -/
theorem printable_toTheme {value : Value} {d : Document} (hp : value.isPrintable = true)
    (h : Document.check value = .ok d) : d.toTheme.Printable := by
  obtain ⟨fields, hfields, h⟩ := bind_eq_ok h
  obtain ⟨_, elevation, h₃, helevation, rfl⟩ := Schema.Checked.ap_eq_ok.1 h
  obtain ⟨_, colors, h₂, hcolors, rfl⟩ := Schema.Checked.ap_eq_ok.1 h₃
  obtain ⟨_, sizes, h₁, hsizes, rfl⟩ := Schema.Checked.ap_eq_ok.1 h₂
  obtain ⟨rem, -, rfl⟩ := Schema.Checked.map_eq_ok h₁
  have hp := printable_of_record hp hfields
  refine ⟨printable_table (printable_groupOf hp hsizes) (printable_groupOf hp hcolors), ?_⟩
  have hshadows : ∀ e ∈ elevation, Fields.Printable e.2 := by
    rcases Schema.optional_eq_ok helevation with rfl | ⟨value, hv, hmap⟩
    · exact fun e he => absurd he List.not_mem_nil
    · obtain ⟨entries, hentries, hmap⟩ := bind_eq_ok hmap
      exact printable_of_entriesOf (printable_of_map (hp.of_get? hv) hentries) hmap
  intro shadowOf level sh he hsh
  unfold Document.toTheme at he
  dsimp only at he
  split at he
  · cases he
  · rw [← Option.some.inj he, Document.shadowOf] at hsh
    cases hlevel : level.printCompact with
    | error f =>
      rw [hlevel] at hsh
      cases hsh
    | ok text =>
      rw [hlevel] at hsh
      exact hshadows (text, sh) (Fields.mem_of_get? (Except.ok.inj hsh))

/-! ## Default theme -/

theorem printable_toFields (s : Shadow) (h : (Number.int s.offset).isPrintable = true) :
    Fields.Printable s.toFields := by
  simp only [Fields.Printable, Shadow.toFields, List.forall_mem_cons, List.not_mem_nil,
    false_implies, implies_true, and_true]
  refine ⟨rfl, rfl, rfl, Value.isPrintable_map_iff.2 ?_⟩
  simp only [Fields.Printable, List.forall_mem_cons, List.not_mem_nil, false_implies, implies_true,
    and_true]
  exact ⟨rfl, h⟩

theorem printable_shadowAt (level : Number) : Fields.Printable (shadowAt level).toFields := by
  refine printable_toFields _ ?_
  have hoffset : ∀ s ∈ noShadow :: shadows, (Number.int s.offset).isPrintable = true := by
    decide +kernel
  refine hoffset _ ?_
  unfold shadowAt
  cases h : (shadows.filter fun s => (Number.int s.level).le level).getLast? with
  | none => exact List.mem_cons_self
  | some s =>
    exact List.mem_cons_of_mem _ (List.mem_of_mem_filter (List.mem_of_getLast? h))

theorem Defaults.printable : Defaults.theme.Printable := by
  have htexts : ∀ e ∈ Defaults.sizes ++ Defaults.palette, e.2.isPrintable = true := by
    decide +kernel
  obtain ⟨hsizes, hcolors⟩ := List.forall_mem_append.1 htexts
  refine ⟨printable_table hsizes hcolors, ?_⟩
  intro elevation level sh he hsh
  rw [← Option.some.inj he, defaultElevation, shadowFor] at hsh
  cases hnumber : level.number? with
  | none =>
    rw [hnumber] at hsh
    cases hsh
  | some n =>
    rw [hnumber] at hsh
    rw [← Option.some.inj (Except.ok.inj hsh)]
    exact printable_shadowAt n

end StyleEngine.Theme
