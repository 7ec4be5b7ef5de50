import StyleEngine.Proofs.Resolution.Resolved
import StyleEngine.Proofs.Theme.Printable

/-!
# What makes a resolution fault

Where every integer can be printed and the default evaluator is in use, whose answers are floats, no
property faults.  Two things are left: the elevation of the style may have no shadow, and the
margins beside a dimension may be integers out of the range of floats.

    c.evaluator = defaultEvaluator → c.theme.Printable → value.isPrintable →
      property c key value ≠ .error (.fault f)                       (property_ne_fault)
    Fields.Printable m → fit c m = .error (.fault f) →
      f = .integerTooLarge ∧ MarginsTooLarge m                       (marginsTooLarge_of_fit)
-/

namespace StyleEngine.Resolution

variable {c : Context} {key : String} {value : Value} {f : Fault}

/-! ## Steps that fail -/

/-- A step that can only fail with a resolution error does not fault. -/
theorem mapError_ne_fault {α : Type} (x : Except ResolutionError α) (f : Fault) :
    x.mapError Failure.resolution ≠ .error (.fault f) := by
  intro h
  cases x with
  | error e => cases h
  | ok a => cases h

/-! ## Printable values -/

theorem printable_shadow {sh : Fields Value} (hc : c.theme.Printable)
    (h : shadow c value = .ok sh) : Fields.Printable sh := by
  unfold shadow at h
  split at h
  · next elevation he =>
    obtain ⟨given, hgiven, rfl⟩ := map_eq_ok h
    cases given with
    | none => exact Fields.Printable.nil
    | some sh => exact hc.shadow elevation value sh he hgiven
  · exact Except.ok.inj h ▸ Fields.Printable.nil

section
variable {role : VariableRole} {out : Value} (hc : c.theme.Printable)
  (hp : value.isPrintable = true)

include hc hp

theorem isPrintable_substitute (h : substitute c role value = .ok out) :
    out.isPrintable = true := by
  unfold substitute at h
  split at h
  · rw [← Except.ok.inj h]
    exact hp
  · split at h
    · next v hv =>
      rw [← Except.ok.inj h]
      exact hc.table.of_get? hv
    · cases h

theorem isPrintable_property (h : property c key value = .ok out) : out.isPrintable = true := by
  unfold property at h
  split at h
  · rw [← Except.ok.inj h]
    exact hp
  · exact isPrintable_substitute hc hp (mapError_eq_ok h)
  · obtain ⟨v, -, h⟩ := bind_eq_ok h
    unfold measure at h
    obtain ⟨u, hu, h⟩ := bind_eq_ok h
    exact isPrintable_length (isPrintable_evaluate (mapError_eq_ok hu)) (mapError_eq_ok h)

/-! ## Properties -/

theorem property_ne_fault (he : c.evaluator = defaultEvaluator) (key : String) (f : Fault) :
    property c key value ≠ .error (.fault f) := by
  intro h
  unfold property at h
  split at h
  · cases h
  · exact mapError_ne_fault _ f h
  · rcases bind_eq_error h with h | ⟨v, hv, h⟩
    · exact mapError_ne_fault _ f h
    · have hv : v.isPrintable = true := isPrintable_substitute hc hp (mapError_eq_ok hv)
      have hok : ∃ u, evaluate c key v = .ok u := by
        rw [evaluate_of_isPrintable hv, he]
        split <;> exact ⟨_, rfl⟩
      obtain ⟨u, hu⟩ := hok
      unfold measure at h
      rw [hu] at h
      exact mapError_ne_fault _ f h

end

/-! ## Margins -/

/-- The two margins on an axis have no sum, or one whose hundredfold is no float. -/
def SumTooLarge (style : Fields Value) (first second : String) : Prop :=
  ∃ a b, Dimension.margin style first = .ok a ∧ Dimension.margin style second = .ok b ∧
    (a.add? b).bind Dimension.hundredfold? = none

def MarginsTooLarge (style : Fields Value) : Prop :=
  SumTooLarge style Attribute.marginLeft Attribute.marginRight ∨
    SumTooLarge style Attribute.marginTop Attribute.marginBottom

/-- Floats always have a sum and a hundredfold, so one of the margins is an integer. -/
theorem MarginsTooLarge.exists_int {style : Fields Value} (h : MarginsTooLarge style) :
    ∃ margin ∈ Attribute.margins, ∃ n : Int, Dimension.margin style margin = .ok (.int n) := by
  have key : ∀ first ∈ Attribute.margins, ∀ second ∈ Attribute.margins,
      SumTooLarge style first second →
      ∃ margin ∈ Attribute.margins, ∃ n : Int, Dimension.margin style margin = .ok (.int n) := by
    rintro first hfirst second hsecond ⟨a, b, ha, hb, hab⟩
    cases a with
    | int n => exact ⟨first, hfirst, n, ha⟩
    | float x =>
      cases b with
      | int n => exact ⟨second, hsecond, n, hb⟩
      | float y => cases hab
  rcases h with h | h
  · exact key _ (by decide) _ (by decide) h
  · exact key _ (by decide) _ (by decide) h

theorem adjusted_eq_error {magnitude extent : Float} {sum : Number}
    (h : Dimension.adjusted magnitude sum extent = .error f) :
    f = .integerTooLarge ∧ Dimension.hundredfold? sum = none := by
  unfold Dimension.adjusted at h
  split at h
  · cases h
  · split at h
    · cases h
    · next hs => exact ⟨(Except.error.inj h).symm, hs⟩

theorem margin_ne_fault {style : Fields Value} (hs : Fields.Printable style) (key : String)
    (f : Fault) : Dimension.margin style key ≠ .error (.fault f) := by
  intro h
  unfold Dimension.margin at h
  split at h
  · cases h
  · next v hv =>
    rw [Value.print_of_isPrintable (hs.of_get? hv)] at h
    split at h
    · cases h
    · split at h
      · cases h
      · simp only [Except.mapError, bind, Except.bind] at h
        split at h <;> cases h

theorem declared_ne_fault (hp : value.isPrintable = true) (f : Fault) :
    Dimension.declared value ≠ .error (.fault f) := by
  intro h
  unfold Dimension.declared at h
  rw [Value.printCompact_of_isPrintable hp] at h
  simp only [Except.mapError, bind, Except.bind] at h
  split at h
  · cases h
  · split at h <;> cases h

theorem sumTooLarge_of_fitted {style : Fields Value} {first second : String} {extent : Float}
    (hs : Fields.Printable style) (hp : value.isPrintable = true)
    (h : Dimension.fitted style value first second extent = .error (.fault f)) :
    f = .integerTooLarge ∧ SumTooLarge style first second := by
  unfold Dimension.fitted at h
  rcases bind_eq_error h with h | ⟨l, -, h⟩
  · exact absurd h (declared_ne_fault hp f)
  rcases bind_eq_error h with h | ⟨a, ha, h⟩
  · exact absurd h (margin_ne_fault hs first f)
  rcases bind_eq_error h with h | ⟨b, hb, h⟩
  · exact absurd h (margin_ne_fault hs second f)
  have hsum : f = .integerTooLarge ∧ (a.add? b).bind Dimension.hundredfold? = none := by
    cases hs : a.add? b with
    | none =>
      rw [hs] at h
      exact ⟨(Failure.fault.inj (Except.error.inj h)).symm, rfl⟩
    | some sum =>
      rw [hs] at h
      cases hadj : Dimension.adjusted l.magnitude sum extent with
      | ok x =>
        simp only [hadj] at h
        cases h
      | error e =>
        simp only [hadj] at h
        obtain ⟨he, hh⟩ := adjusted_eq_error hadj
        exact ⟨by rw [← he]; exact (Failure.fault.inj (Except.error.inj h)).symm, hh⟩
  exact ⟨hsum.1, a, b, ha, hb, hsum.2⟩

theorem sumTooLarge_of_refit {m : Fields Value} (hs : Fields.Printable m)
    (h : refit c m key = .error (.fault f)) :
    f = .integerTooLarge ∧ ∃ first second, Dimension.margins? key = some (first, second) ∧
      SumTooLarge m first second := by
  unfold refit at h
  rcases bind_eq_error h with h | ⟨text, -, h⟩
  · unfold Dimension.format at h
    split at h
    · next first second v hm hv =>
      split at h
      · cases hf : Dimension.fitted m v first second (Dimension.extent c.viewport key) with
        | ok text =>
          rw [hf] at h
          cases h
        | error e =>
          rw [hf] at h
          obtain rfl : e = .fault f := Except.error.inj h
          obtain ⟨he, hsum⟩ := sumTooLarge_of_fitted hs (hs.of_get? hv) hf
          exact ⟨he, first, second, hm, hsum⟩
      · cases h
    · cases h
  · cases text with
    | none => cases h
    | some text =>
      rcases bind_eq_error h with h | ⟨v, -, h⟩
      · exact absurd h (mapError_ne_fault _ f)
      · cases h

theorem SumTooLarge.of_get?_eq {m n : Fields Value} {first second : String}
    (h : SumTooLarge m first second) (hf : Fields.get? m first = Fields.get? n first)
    (hs : Fields.get? m second = Fields.get? n second) : SumTooLarge n first second := by
  obtain ⟨a, b, ha, hb, hab⟩ := h
  unfold Dimension.margin at ha hb
  rw [hf] at ha
  rw [hs] at hb
  exact ⟨a, b, ha, hb, hab⟩

theorem printable_refit {m r : Fields Value} (hs : Fields.Printable m)
    (h : refit c m key = .ok r) : Fields.Printable r := by
  rcases refit_eq_ok_iff.1 h with ⟨-, rfl⟩ | ⟨text, v, -, hv, rfl⟩
  · exact hs
  · exact hs.set key (isPrintable_length rfl hv)

/-- Making room faults only when the margins on an axis are too large. -/
theorem marginsTooLarge_of_fit {m : Fields Value} (hp : Fields.Printable m)
    (h : fit c m = .error (.fault f)) :
    f = .integerTooLarge ∧ hasMargins m = true ∧ MarginsTooLarge m := by
  unfold fit at h
  split at h
  · next hm =>
    rcases bind_eq_error h with h | ⟨m', hm', h⟩
    · obtain ⟨hf, first, second, hax, hs⟩ := sumTooLarge_of_refit hp h
      obtain ⟨rfl, rfl⟩ := Prod.mk.inj (Option.some.inj hax)
      exact ⟨hf, hm, Or.inl hs⟩
    · obtain ⟨hf, first, second, hax, hs⟩ := sumTooLarge_of_refit (printable_refit hp hm') h
      obtain ⟨rfl, rfl⟩ := Prod.mk.inj (Option.some.inj hax)
      have hs' := hs.of_get?_eq (get?_refit hm' (by decide)) (get?_refit hm' (by decide))
      exact ⟨hf, hm, Or.inr hs'⟩
  · cases h

/-! ## Walks -/

/-- An elevation waits at most once, and while it does nothing is written to it. -/
structure Unexpanded (level : Option Value) (w : Walk) : Prop where
  once : w.pending.count Attribute.elevation ≤ 1
  given : Attribute.elevation ∈ w.pending → Fields.get? w.style Attribute.elevation = level

theorem unexpanded_start {style : Fields Value} (hn : (Fields.keys style).Nodup) :
    Unexpanded (Fields.get? style Attribute.elevation) (Walk.start style) :=
  ⟨List.nodup_iff_count_le_one.1 hn _, fun _ => rfl⟩

theorem unexpanded_visit {level : Option Value} {w w' : Walk} {rest : List String}
    (h : Unexpanded level w) (hp : w.pending = key :: rest)
    (hv : visit c key { w with pending := rest } = .ok w') : Unexpanded level w' := by
  have hcount : w'.pending.count Attribute.elevation = rest.count Attribute.elevation :=
    count_pending_visit hv
  have honce := h.once
  rw [hp, List.count_cons] at honce
  refine ⟨by omega, fun hw => ?_⟩
  have hrest : 0 < rest.count Attribute.elevation := hcount ▸ List.count_pos_iff.2 hw
  have hk : key ≠ Attribute.elevation := by
    rintro rfl
    rw [beq_self_eq_true, if_pos rfl] at honce
    omega
  have hlevel := h.given (hp ▸ List.mem_cons_of_mem _ (List.count_pos_iff.1 hrest))
  rw [← hlevel]
  rcases visit_cases hv with ⟨-, rfl⟩ | ⟨value, -, ⟨hke, -⟩ | ⟨-, rfl⟩ | ⟨-, v, -, rfl⟩⟩
  · rfl
  · exact absurd hke hk
  · exact Fields.get?_erase_of_ne w.style hk.symm
  · exact Fields.get?_set_of_ne w.style key Attribute.elevation v hk.symm

theorem printable_visit {w w' : Walk} {rest : List String} (hc : c.theme.Printable)
    (h : Fields.Printable w.style) (hv : visit c key { w with pending := rest } = .ok w') :
    Fields.Printable w'.style := by
  rcases visit_cases hv with
    ⟨-, rfl⟩ | ⟨value, hg, ⟨rfl, sh, hs, rfl⟩ | ⟨-, rfl⟩ | ⟨-, v, hpr, rfl⟩⟩
  · exact h
  · exact h.merge (printable_shadow hc hs)
  · exact h.erase key
  · exact h.set key (isPrintable_property hc (h.of_get? hg) hpr)

section
variable {style : Fields Value} (he : c.evaluator = defaultEvaluator) (hc : c.theme.Printable)
  (hs : Fields.Printable style) (hn : (Fields.keys style).Nodup)

include hc hs in
theorem printable_run {w : Walk} (hw : run c (Walk.start style) = .ok w) :
    Fields.Printable w.style :=
  ((run_invariant (fun _ _ _ _ h _ hv => printable_visit hc h hv) hs).1 w hw).1

include he hc hs hn

/-- A walk faults only at the elevation that the style was given. -/
theorem shadow_eq_error_of_run (h : run c (Walk.start style) = .error (.fault f)) :
    ∃ level, Fields.get? style Attribute.elevation = some level ∧ shadow c level = .error f := by
  let P (w : Walk) := Unexpanded (Fields.get? style Attribute.elevation) w ∧
    Fields.Printable w.style
  have hstep : ∀ w w' key rest, P w → w.pending = key :: rest →
      visit c key { w with pending := rest } = .ok w' → P w' :=
    fun w w' key rest h hp hv => ⟨unexpanded_visit h.1 hp hv, printable_visit hc h.2 hv⟩
  obtain ⟨w, key, rest, ⟨hw, hprint⟩, hp, hv⟩ :=
    (run_invariant hstep ⟨unexpanded_start hn, hs⟩).2 _ h
  obtain ⟨value, hg, ⟨rfl, e, hs, he⟩ | hprop⟩ := visit_error_cases hv
  · obtain rfl := Failure.fault.inj he
    exact ⟨value, (hw.given (hp ▸ List.mem_cons_self)).symm.trans hg, hs⟩
  · exact absurd hprop (property_ne_fault hc (hprint.of_get? hg) he key f)

/-! ## Whole styles -/

/-- Where everything is printable, resolving a style faults only at its elevation or at its
margins. -/
theorem fault_cases (h : resolve c style = .error (.fault f)) :
    (∃ level, Fields.get? style Attribute.elevation = some level ∧ shadow c level = .error f) ∨
    (f = .integerTooLarge ∧ ∃ w, run c (Walk.start style) = .ok w ∧ hasMargins w.style = true ∧
      MarginsTooLarge w.style) := by
  unfold resolve trace at h
  cases hr : run c (Walk.start style) with
  | error e =>
    rw [hr] at h
    obtain rfl : e = .fault f := Except.error.inj h
    exact Or.inl (shadow_eq_error_of_run he hc hs hn hr)
  | ok w =>
    cases hfit : fit c w.style with
    | ok m =>
      simp only [hr, hfit, bind, Except.bind] at h
      cases h
    | error e =>
      simp only [hr, hfit, bind, Except.bind] at h
      obtain rfl : e = .fault f := Except.error.inj h
      obtain ⟨hf, hm, hlarge⟩ := marginsTooLarge_of_fit (printable_run hc hs hr) hfit
      exact Or.inr ⟨hf, w, rfl, hm, hlarge⟩

end

end StyleEngine.Resolution
