import StyleEngine.Proofs.Fields
import StyleEngine.Proofs.Resolution.Property
import StyleEngine.Resolution

/-!
# What a walk does

Away from elevations a visit reads and writes one property only, so a walk through distinct names
resolves each of their properties once, from the value that it had at the start, and leaves the
others alone.

    Succeeds c p m → run c ⟨m, p ++ q, _⟩ = run c ⟨settle c p m, q, _⟩   (run_through)
    run c ⟨m, p ++ q, _⟩ = .ok w → Succeeds c p m                        (succeeds_of_run)
-/

namespace StyleEngine.Resolution

/-! ## The outcome of a visit -/

/-- Whether a property does not belong on the platform. -/
def Context.drops (c : Context) (key : String) : Bool :=
  key = Attribute.cursor && !c.keepsCursor

/-- What a visit leaves of a property: its resolved value, or nothing if it is dropped. -/
def outcome (c : Context) (key : String) (value : Value) : Except Failure (Option Value) :=
  if c.drops key then .ok none else (property c key value).map some

/-- The value that is left when the names `due` are visited. -/
def settled (c : Context) (due : List String) (key : String) (value : Value) : Option Value :=
  if key ∈ due then
    match outcome c key value with
    | .ok o => o
    | .error _ => none
  else some value

/-- A style after visits to the names `due`. -/
def settle (c : Context) (due : List String) (m : Fields Value) : Fields Value :=
  Fields.amend (settled c due) m

/-- No visit to one of the names `due` fails. -/
def Succeeds (c : Context) (due : List String) (m : Fields Value) : Prop :=
  ∀ key value, Fields.get? m key = some value → key ∈ due → ∃ o, outcome c key value = .ok o

/-- A style in which one property has been visited. -/
def put (m : Fields Value) (key : String) : Option Value → Fields Value
  | some value => Fields.set m key value
  | none => Fields.erase m key

variable {c : Context} {m : Fields Value} {key : String} {value : Value}

theorem outcome_of_drops (h : c.drops key = true) (value : Value) :
    outcome c key value = .ok none := if_pos h

theorem outcome_of_not_drops (h : c.drops key = false) (value : Value) :
    outcome c key value = (property c key value).map some := by
  unfold outcome
  rw [h]
  rfl

theorem isSome_outcome {o : Option Value} (h : outcome c key value = .ok o) :
    o.isSome = !c.drops key := by
  cases hd : c.drops key with
  | true =>
    rw [outcome_of_drops hd] at h
    rw [← Except.ok.inj h]
    rfl
  | false =>
    rw [outcome_of_not_drops hd] at h
    obtain ⟨v, -, rfl⟩ := map_eq_ok h
    rfl

theorem settled_of_mem {due : List String} {o : Option Value} (hk : key ∈ due)
    (h : outcome c key value = .ok o) : settled c due key value = o := by
  unfold settled
  rw [if_pos hk, h]

theorem settled_of_not_mem {due : List String} (hk : key ∉ due) :
    settled c due key value = some value := if_neg hk

theorem bind_settled_of_not_mem {due : List String} (hk : key ∉ due) (held : Option Value) :
    held.bind (settled c due key) = held := by
  cases held with
  | none => rfl
  | some v => exact settled_of_not_mem hk

theorem settle_nil (c : Context) (m : Fields Value) : settle c [] m = m := by
  unfold settle Fields.amend
  simp [settled]

theorem nodup_keys_settle (hm : (Fields.keys m).Nodup) (due : List String) :
    (Fields.keys (settle c due m)).Nodup := Fields.nodup_keys_amend hm _

theorem get?_settle (hm : (Fields.keys m).Nodup) (due : List String) (key : String) :
    Fields.get? (settle c due m) key = (Fields.get? m key).bind (settled c due key) :=
  Fields.get?_amend hm _ key

/-- Only names that are dropped leave the style. -/
theorem keys_settle {due : List String} (hm : (Fields.keys m).Nodup) (hs : Succeeds c due m) :
    Fields.keys (settle c due m) =
      (Fields.keys m).filter fun key => !(decide (key ∈ due) && c.drops key) := by
  refine Fields.keys_amend fun e he => ?_
  by_cases hk : e.1 ∈ due
  · obtain ⟨o, ho⟩ := hs e.1 e.2 ((Fields.get?_eq_some_iff_mem hm).2 he) hk
    rw [settled_of_mem hk ho, isSome_outcome ho]
    simp [hk]
  · rw [settled_of_not_mem hk]
    simp [hk]

/-! ## The names that wait -/

theorem mem_enqueue {name : String} {names pending : List String} :
    name ∈ enqueue key names pending ↔ name ∈ pending ∨ (name ∈ names ∧ name ≠ key) := by
  unfold enqueue
  induction names generalizing pending with
  | nil => simp
  | cons other names ih =>
    rw [List.foldl_cons, ih]
    by_cases hn : name = other
    · subst hn
      by_cases hk : name = key <;> by_cases hp : name ∈ pending <;> simp [hk, hp]
    · split <;> simp [hn]

theorem nodup_enqueue (key : String) (names : List String) {pending : List String}
    (hp : pending.Nodup) : (enqueue key names pending).Nodup := by
  unfold enqueue
  induction names generalizing pending with
  | nil => exact hp
  | cons name names ih =>
    rw [List.foldl_cons]
    refine ih ?_
    split
    · exact hp
    · next h =>
      rw [Bool.or_eq_true, not_or, List.contains_iff_mem] at h
      rw [← List.concat_eq_append]
      exact hp.concat h.2

/-- At most as many names join as there are. -/
theorem length_enqueue_le (key : String) (names pending : List String) :
    (enqueue key names pending).length ≤ pending.length + names.length := by
  unfold enqueue
  induction names generalizing pending with
  | nil => exact Nat.le_refl _
  | cons name names ih =>
    rw [List.foldl_cons, List.length_cons]
    refine Nat.le_trans (ih _) ?_
    split
    · omega
    · rw [List.length_append, List.length_singleton]
      omega

/-! ## One visit -/

/-- Nothing but a cursor is dropped. -/
theorem eq_cursor_of_drops (hd : c.drops key = true) : key = Attribute.cursor := by
  unfold Context.drops at hd
  rw [Bool.and_eq_true, decide_eq_true_eq] at hd
  exact hd.1

theorem ne_elevation_of_drops (hd : c.drops key = true) : key ≠ Attribute.elevation := by
  rw [eq_cursor_of_drops hd]
  decide

theorem drops_of_role? {role : VariableRole} (h : role? key = some role) : c.drops key = false := by
  cases hd : c.drops key with
  | false => rfl
  | true =>
    rw [eq_cursor_of_drops hd, role?_cursor] at h
    cases h

theorem ne_elevation_of_role? {role : VariableRole} (h : role? key = some role) :
    key ≠ Attribute.elevation := by
  rintro rfl
  rw [role?_elevation] at h
  cases h

/-- Elevation keeps its value. -/
theorem outcome_elevation (c : Context) (value : Value) :
    outcome c Attribute.elevation value = .ok (some value) := by
  have hd : c.drops Attribute.elevation = false :=
    Bool.eq_false_iff.2 fun hd => ne_elevation_of_drops hd rfl
  rw [outcome_of_not_drops hd, property_of_role?_none role?_elevation]
  rfl

/-- A visit fails just as resolving the value does, for what is dropped has a value too. -/
theorem outcome_eq_error_iff {f : Failure} :
    outcome c key value = .error f ↔ property c key value = .error f := by
  cases hd : c.drops key with
  | true =>
    rw [outcome_of_drops hd, eq_cursor_of_drops hd, property_of_role?_none role?_cursor]
    exact ⟨nofun, nofun⟩
  | false =>
    rw [outcome_of_not_drops hd]
    cases property c key value with
    | error e =>
      exact ⟨fun h => congrArg _ (Except.error.inj h), fun h => congrArg _ (Except.error.inj h)⟩
    | ok v => exact ⟨nofun, nofun⟩

theorem exists_outcome_iff : (∃ o, outcome c key value = .ok o) ↔
    ∃ v, property c key value = .ok v := by
  constructor
  · rintro ⟨o, ho⟩
    cases hp : property c key value with
    | ok v => exact ⟨v, rfl⟩
    | error f =>
      rw [outcome_eq_error_iff.2 hp] at ho
      cases ho
  · rintro ⟨v, hv⟩
    cases ho : outcome c key value with
    | ok o => exact ⟨o, rfl⟩
    | error f =>
      rw [outcome_eq_error_iff.1 ho] at hv
      cases hv

theorem set_get? (h : Fields.get? m key = some value) : Fields.set m key value = m := by
  obtain ⟨a, b, rfl, ha⟩ := Fields.exists_split_of_get? h
  exact Fields.set_split ha value value

/-- All that a visit can do: pass over an absent name, expand an elevation, drop a name, or settle
a property. -/
theorem visit_cases {w w' : Walk} (h : visit c key w = .ok w') :
    (Fields.get? w.style key = none ∧ w' = w) ∨
    ∃ value, Fields.get? w.style key = some value ∧
      ((key = Attribute.elevation ∧ ∃ sh, shadow c value = .ok sh ∧ w' = w.expand sh) ∨
        (c.drops key = true ∧ w' = w.drop key) ∨
        (c.drops key = false ∧ ∃ v, property c key value = .ok v ∧
          w' = w.settle key v (expression? c key value))) := by
  unfold visit at h
  split at h
  · next hg => exact Or.inl ⟨hg, (Except.ok.inj h).symm⟩
  · next value hg =>
    refine Or.inr ⟨value, hg, ?_⟩
    split at h
    · next hk =>
      obtain ⟨sh, hs, rfl⟩ := map_eq_ok h
      exact Or.inl ⟨hk, sh, mapError_eq_ok hs, rfl⟩
    · split at h
      · next hd => exact Or.inr (Or.inl ⟨hd, (Except.ok.inj h).symm⟩)
      · next hd =>
        obtain ⟨v, hp, rfl⟩ := map_eq_ok h
        exact Or.inr (Or.inr ⟨by rwa [Bool.not_eq_true] at hd, v, hp, rfl⟩)

/-- A visit fails with the elevation that it expands or with the property that it resolves. -/
theorem visit_error_cases {w : Walk} {f : Failure} (h : visit c key w = .error f) :
    ∃ value, Fields.get? w.style key = some value ∧
      ((key = Attribute.elevation ∧ ∃ e, shadow c value = .error e ∧ f = .fault e) ∨
        property c key value = .error f) := by
  unfold visit at h
  split at h
  · cases h
  · next value hg =>
    refine ⟨value, hg, ?_⟩
    split at h
    · next hk =>
      cases hs : shadow c value with
      | ok sh =>
        rw [hs] at h
        cases h
      | error e =>
        rw [hs] at h
        exact Or.inl ⟨hk, e, rfl, (Except.error.inj h).symm⟩
    · split at h
      · cases h
      · cases hp : property c key value with
        | ok v =>
          rw [hp] at h
          cases h
        | error e =>
          rw [hp] at h
          exact Or.inr (congrArg _ (Except.error.inj h))

/-- A visit that expands no elevation writes the outcome of its own property, or fails with it. -/
theorem visit_eq (hv : Fields.get? m key = some value)
    (hk : key = Attribute.elevation → c.theme.elevation = none) (rest : List String)
    (evaluated : List (String × Value)) :
    ∃ evaluated', visit c key ⟨m, rest, evaluated⟩ =
      (outcome c key value).map fun o => ⟨put m key o, rest, evaluated'⟩ := by
  unfold visit
  simp only [hv]
  by_cases he : key = Attribute.elevation
  · subst he
    refine ⟨evaluated, ?_⟩
    rw [if_pos rfl, outcome_elevation, shadow, hk rfl]
    show Except.ok _ =
      Except.ok ({ style := Fields.set m _ value, pending := rest, evaluated } : Walk)
    rw [set_get? hv]
    rfl
  · rw [if_neg he]
    show ∃ evaluated', (if c.drops key = true then _ else _) = _
    cases hd : c.drops key with
    | true =>
      rw [outcome_of_drops hd, if_pos rfl]
      exact ⟨evaluated, rfl⟩
    | false =>
      rw [outcome_of_not_drops hd, if_neg Bool.false_ne_true]
      cases property c key value with
      | error e => exact ⟨evaluated, rfl⟩
      | ok v => exact ⟨_, rfl⟩

theorem nodup_keys_put (hm : (Fields.keys m).Nodup) (key : String) (o : Option Value) :
    (Fields.keys (put m key o)).Nodup := by
  cases o with
  | some v => exact Fields.nodup_keys_set hm key v
  | none => exact Fields.nodup_keys_erase hm key

theorem get?_put_of_ne {j : String} (hj : j ≠ key) (o : Option Value) :
    Fields.get? (put m key o) j = Fields.get? m j := by
  cases o with
  | some v => exact Fields.get?_set_of_ne m key j v hj
  | none => exact Fields.get?_erase_of_ne m hj

/-- A name that is visited first need not be due any more. -/
theorem settle_put (hm : (Fields.keys m).Nodup) (hv : Fields.get? m key = some value)
    {o : Option Value} (ho : outcome c key value = .ok o) {rest : List String}
    (hr : key ∉ rest) : settle c rest (put m key o) = settle c (key :: rest) m := by
  obtain ⟨a, b, rfl, ha⟩ := Fields.exists_split_of_get? hv
  have hb : key ∉ Fields.keys b := by
    rw [Fields.keys_append] at hm
    exact (List.nodup_cons.1 hm.of_append_right).1
  have hput : put (a ++ (key, value) :: b) key o = a ++ ((o.map (key, ·)).toList ++ b) := by
    cases o with
    | some v => exact Fields.set_split ha value v
    | none => exact Fields.erase_split ha value
  have hother : ∀ n : Fields Value, key ∉ Fields.keys n →
      settle c rest n = settle c (key :: rest) n := by
    intro n hn
    refine Fields.amend_congr fun e he => ?_
    have hne : e.1 ≠ key := fun h => hn (h ▸ List.mem_map_of_mem he)
    simp [settled, hne]
  have hown : settle c rest (o.map (key, ·)).toList = (o.map (key, ·)).toList := by
    cases o with
    | none => rfl
    | some v => simp [settle, Fields.amend, settled, hr]
  unfold settle at *
  rw [hput, Fields.amend_append, Fields.amend_append, Fields.amend_append, Fields.amend_cons,
    hother a ha, hother b hb, hown, settled_of_mem List.mem_cons_self ho]

theorem succeeds_cons_iff (hv : Fields.get? m key = some value) {o : Option Value}
    (ho : outcome c key value = .ok o) {rest : List String} (hr : key ∉ rest) :
    Succeeds c (key :: rest) m ↔ Succeeds c rest (put m key o) := by
  have hne : ∀ j ∈ rest, j ≠ key := fun j hj he => hr (he ▸ hj)
  constructor
  · intro h j v hj hm
    rw [get?_put_of_ne (hne j hm)] at hj
    exact h j v hj (List.mem_cons_of_mem _ hm)
  · intro h j v hj hm
    rcases List.mem_cons.1 hm with rfl | hm
    · rw [hv] at hj
      exact ⟨o, Option.some.inj hj ▸ ho⟩
    · exact h j v (by rw [get?_put_of_ne (hne j hm)]; exact hj) hm

/-! ## Whole walks -/

/-- Each visit takes away an elevation that waits, or else one name. -/
theorem pending_decreases {w w' : Walk} {rest : List String} (hp : w.pending = key :: rest)
    (hv : visit c key { w with pending := rest } = .ok w') :
    Prod.Lex (· < ·) (· < ·) (w'.pending.count Attribute.elevation, w'.pending.length)
      (w.pending.count Attribute.elevation, w.pending.length) := by
  rw [hp, Prod.lex_def]
  by_cases hk : key = Attribute.elevation
  · left
    rw [count_pending_visit hv, hk, List.count_cons_self]
    exact Nat.lt_succ_self _
  · right
    rw [pending_visit hv hk, List.count_cons_of_ne hk]
    exact ⟨rfl, Nat.lt_succ_self _⟩

/-- What is true of a walk if it is true of it after the next visit is true of all walks. -/
theorem Walk.induction (c : Context) {motive : Walk → Prop}
    (step : ∀ w, (∀ key rest w', w.pending = key :: rest →
      visit c key { w with pending := rest } = .ok w' → motive w') → motive w)
    (w : Walk) : motive w :=
  step w fun _ _ w' hp hv =>
    have := pending_decreases hp hv
    induction c step w'
termination_by (w.pending.count Attribute.elevation, w.pending.length)
decreasing_by exact this

section
variable {P : Walk → Prop} (step : ∀ w w' key rest, P w → w.pending = key :: rest →
  visit c key { w with pending := rest } = .ok w' → P w')

include step

/-- What every visit preserves holds when a walk ends, and where it fails. -/
theorem run_invariant {w : Walk} (hw : P w) :
    (∀ w', run c w = .ok w' → P w' ∧ w'.pending = []) ∧
      ∀ f, run c w = .error f → ∃ w₁ key rest, P w₁ ∧ w₁.pending = key :: rest ∧
        visit c key { w₁ with pending := rest } = .error f := by
  induction w using Walk.induction c with
  | step w ih =>
    match hp : w.pending with
    | [] =>
      rw [run_nil hp]
      exact ⟨fun w' h => Except.ok.inj h ▸ ⟨hw, hp⟩, nofun⟩
    | key :: rest =>
      cases hv : visit c key { w with pending := rest } with
      | error f =>
        rw [run_cons hp, hv]
        refine ⟨nofun, fun f' h => ⟨w, key, rest, hw, hp, ?_⟩⟩
        rw [hv]
        exact congrArg _ (Except.error.inj h)
      | ok w₁ =>
        rw [run_cons hp, hv]
        exact ih key rest w₁ hp hv (step w w₁ key rest hw hp hv)

/-- Two contexts in which each visit goes the same way have the same walks. -/
theorem run_congr {d : Context} (same : ∀ w key rest, P w → w.pending = key :: rest →
      visit c key { w with pending := rest } = visit d key { w with pending := rest })
    {w : Walk} (hw : P w) : run c w = run d w := by
  induction w using Walk.induction c with
  | step w ih =>
    match hp : w.pending with
    | [] => rw [run_nil hp, run_nil hp]
    | key :: rest =>
      have hsame := same w key rest hw hp
      rw [run_cons hp, run_cons hp, ← hsame]
      cases hv : visit c key { w with pending := rest } with
      | error f => rfl
      | ok w₁ => exact ih key rest w₁ hp hv (step w w₁ key rest hw hp hv)

end

/-- A walk that ends well, and the properties it visits, each with the value found there. -/
inductive Visits (c : Context) : Walk → List (String × Value) → Walk → Prop where
  | done {w : Walk} : w.pending = [] → Visits c w [] w
  | pass {w w' : Walk} {key : String} {rest : List String} {log : List (String × Value)} :
      w.pending = key :: rest → Fields.get? w.style key = none →
      Visits c { w with pending := rest } log w' → Visits c w log w'
  | visit {w w₁ w' : Walk} {key : String} {rest : List String} {value : Value}
      {log : List (String × Value)} :
      w.pending = key :: rest → Fields.get? w.style key = some value →
      visit c key { w with pending := rest } = .ok w₁ → Visits c w₁ log w' →
      Visits c w ((key, value) :: log) w'

theorem visit_of_absent (hv : Fields.get? m key = none) (rest : List String)
    (evaluated : List (String × Value)) :
    visit c key ⟨m, rest, evaluated⟩ = .ok ⟨m, rest, evaluated⟩ := by
  unfold visit
  simp only [hv]

theorem Visits.run_eq {w w' : Walk} {log : List (String × Value)} (h : Visits c w log w') :
    run c w = .ok w' := by
  induction h with
  | done hp => exact run_nil hp
  | pass hp hv _ ih =>
    rw [run_cons hp, visit_of_absent hv]
    exact ih
  | visit hp _ hv _ ih =>
    rw [run_cons hp, hv]
    exact ih

/-- The names of a list with the values that a style has for them. -/
def met (m : Fields Value) (names : List String) : List (String × Value) :=
  names.filterMap fun name => (Fields.get? m name).map (name, ·)

theorem met_congr {n : Fields Value} {names : List String}
    (h : ∀ name ∈ names, Fields.get? n name = Fields.get? m name) : met n names = met m names :=
  List.filterMap_congr fun name hn => by rw [h name hn]

theorem met_cons_of_get? (hv : Fields.get? m key = some value) (names : List String) :
    met m (key :: names) = (key, value) :: met m names := by
  unfold met
  simp [hv]

theorem met_cons_of_absent (hv : Fields.get? m key = none) (names : List String) :
    met m (key :: names) = met m names := by
  unfold met
  simp [hv]

theorem met_keys (hm : (Fields.keys m).Nodup) : met m (Fields.keys m) = m := by
  unfold met Fields.keys
  rw [List.filterMap_map]
  have h : ∀ e ∈ m,
      ((fun name => (Fields.get? m name).map (name, ·)) ∘ fun e => e.1) e = some e := by
    intro e he
    show (Fields.get? m e.1).map (e.1, ·) = some e
    rw [(Fields.get?_eq_some_iff_mem hm).2 he]
    rfl
  rw [List.filterMap_congr h, List.filterMap_some]

/-- A name occurs once among what is met under distinct names. -/
theorem filter_met {names : List String} (hn : names.Nodup) (hk : key ∈ names)
    (hv : Fields.get? m key = some value) :
    (met m names).filter (fun visited => visited.1 = key) = [(key, value)] := by
  have hother : ∀ names : List String, key ∉ names →
      (met m names).filter (fun visited => visited.1 = key) = [] := by
    intro names hk
    refine List.filter_eq_nil_iff.2 fun visited hvisited => ?_
    obtain ⟨name, hname, he⟩ := List.mem_filterMap.1 hvisited
    obtain ⟨v, -, rfl⟩ := Option.map_eq_some_iff.1 he
    have hne : name ≠ key := fun h => hk (h ▸ hname)
    simpa using hne
  obtain ⟨a, b, rfl⟩ := List.append_of_mem hk
  have hd := List.nodup_append.1 hn
  have ha : key ∉ a := fun h => hd.2.2 key h key List.mem_cons_self rfl
  have hb : key ∉ b := (List.nodup_cons.1 hd.2.1).1
  have hsplit : met m (a ++ key :: b) = met m a ++ (key, value) :: met m b := by
    rw [← met_cons_of_get? hv]
    exact List.filterMap_append
  rw [hsplit, List.filter_append, List.filter_cons_of_pos (by simp), hother a ha, hother b hb]
  rfl

section
variable {p q : List String} {evaluated : List (String × Value)}

theorem succeeds_cons_of_absent (hv : Fields.get? m key = none) {rest : List String} :
    Succeeds c (key :: rest) m ↔ Succeeds c rest m := by
  constructor
  · exact fun h j v hj hm => h j v hj (List.mem_cons_of_mem _ hm)
  · intro h j v hj hm
    rcases List.mem_cons.1 hm with rfl | hm
    · rw [hv] at hj
      cases hj
    · exact h j v hj hm

theorem settle_cons_of_absent (hv : Fields.get? m key = none) (rest : List String) :
    settle c (key :: rest) m = settle c rest m := by
  refine Fields.amend_congr fun e he => ?_
  have hne : e.1 ≠ key := fun h =>
    Fields.get?_eq_none_iff.1 hv (h ▸ List.mem_map_of_mem he)
  simp [settled, hne]

/-- A walk through distinct names, none of which expands an elevation, settles them in the style
and goes on.  Each is met once, with the value that it has at the start. -/
theorem run_through (hm : (Fields.keys m).Nodup) (hp : p.Nodup)
    (he : Attribute.elevation ∈ p → c.theme.elevation = none) (hs : Succeeds c p m)
    (q : List String) (evaluated : List (String × Value)) :
    ∃ evaluated', run c ⟨m, p ++ q, evaluated⟩ = run c ⟨settle c p m, q, evaluated'⟩ ∧
      ∀ log w', Visits c ⟨settle c p m, q, evaluated'⟩ log w' →
        Visits c ⟨m, p ++ q, evaluated⟩ (met m p ++ log) w' := by
  induction p generalizing m evaluated with
  | nil =>
    rw [settle_nil]
    exact ⟨evaluated, rfl, fun log w' h => h⟩
  | cons key p ih =>
    obtain ⟨hkey, hp⟩ := List.nodup_cons.1 hp
    have he' : Attribute.elevation ∈ p → c.theme.elevation = none := fun h =>
      he (List.mem_cons_of_mem _ h)
    have hcons : run c ⟨m, key :: p ++ q, evaluated⟩ =
        (visit c key ⟨m, p ++ q, evaluated⟩).bind (run c) := run_cons rfl
    cases hv : Fields.get? m key with
    | none =>
      rw [succeeds_cons_of_absent hv] at hs
      obtain ⟨evaluated', hr, hl⟩ := ih hm hp he' hs evaluated
      refine ⟨evaluated', ?_, fun log w' h => ?_⟩
      · rw [hcons, visit_of_absent hv, settle_cons_of_absent hv, ← hr]
        rfl
      · rw [met_cons_of_absent hv]
        rw [settle_cons_of_absent hv] at h
        exact .pass rfl hv (hl log w' h)
    | some value =>
      obtain ⟨o, ho⟩ := hs key value hv List.mem_cons_self
      obtain ⟨evaluated₁, hvis⟩ :=
        visit_eq hv (fun h => he (h ▸ List.mem_cons_self)) (p ++ q) evaluated
      rw [ho] at hvis
      rw [succeeds_cons_iff hv ho hkey] at hs
      obtain ⟨evaluated', hr, hl⟩ :=
        ih (nodup_keys_put hm key o) hp he' hs evaluated₁
      rw [settle_put hm hv ho hkey] at hr hl
      have hmet : met (put m key o) p = met m p :=
        met_congr fun name hn => get?_put_of_ne (fun h : name = key => hkey (h ▸ hn)) o
      rw [hmet] at hl
      refine ⟨evaluated', ?_, fun log w' h => ?_⟩
      · rw [hcons, hvis, ← hr]
        rfl
      · rw [met_cons_of_get? hv]
        exact .visit rfl hv hvis (hl log w' h)

/-- A walk that ends well has failed at none of its names. -/
theorem succeeds_of_run (hm : (Fields.keys m).Nodup) (hp : p.Nodup)
    (he : Attribute.elevation ∈ p → c.theme.elevation = none) {w : Walk}
    (h : run c ⟨m, p ++ q, evaluated⟩ = .ok w) : Succeeds c p m := by
  induction p generalizing m evaluated with
  | nil => exact fun j v _ hj => absurd hj List.not_mem_nil
  | cons key p ih =>
    obtain ⟨hkey, hp⟩ := List.nodup_cons.1 hp
    have he' : Attribute.elevation ∈ p → c.theme.elevation = none := fun h =>
      he (List.mem_cons_of_mem _ h)
    have hcons : run c ⟨m, key :: p ++ q, evaluated⟩ =
        (visit c key ⟨m, p ++ q, evaluated⟩).bind (run c) := run_cons rfl
    rw [hcons] at h
    cases hv : Fields.get? m key with
    | none =>
      rw [visit_of_absent hv] at h
      exact (succeeds_cons_of_absent hv).2 (ih hm hp he' h)
    | some value =>
      obtain ⟨evaluated₁, hvis⟩ :=
        visit_eq hv (fun h => he (h ▸ List.mem_cons_self)) (p ++ q) evaluated
      rw [hvis] at h
      cases ho : outcome c key value with
      | error e =>
        rw [ho] at h
        cases h
      | ok o =>
        rw [ho] at h
        exact (succeeds_cons_iff hv ho hkey).2 (ih (nodup_keys_put hm key o) hp he' h)

end

/-- Without elevation to expand, a walk over a whole style ends well just if no property fails,
and it settles every property. -/
theorem run_start_eq_ok_iff (hm : (Fields.keys m).Nodup)
    (he : Attribute.elevation ∈ Fields.keys m → c.theme.elevation = none) {r : Fields Value} :
    (∃ w, run c (Walk.start m) = .ok w ∧ w.style = r) ↔
      Succeeds c (Fields.keys m) m ∧ settle c (Fields.keys m) m = r := by
  have hstart : Walk.start m = ⟨m, Fields.keys m ++ [], []⟩ := by
    rw [List.append_nil]
    rfl
  rw [hstart]
  constructor
  · rintro ⟨w, hw, rfl⟩
    have hs := succeeds_of_run hm hm he hw
    obtain ⟨evaluated', hr, -⟩ := run_through hm hm he hs [] []
    rw [hr, run_nil rfl] at hw
    exact ⟨hs, congrArg Walk.style (Except.ok.inj hw)⟩
  · rintro ⟨hs, rfl⟩
    obtain ⟨evaluated', hr, -⟩ := run_through hm hm he hs [] []
    exact ⟨_, hr.trans (run_nil rfl), rfl⟩

/-! ## Whole styles -/

/-- A style is resolved when its walk ends well and its dimensions fit beside its margins. -/
theorem resolve_eq_ok_iff {style r : Fields Value} :
    resolve c style = .ok r ↔
      ∃ m, (∃ w, run c (Walk.start style) = .ok w ∧ w.style = m) ∧ fit c m = .ok r := by
  unfold resolve trace
  constructor
  · intro h
    obtain ⟨w, hw, rfl⟩ := map_eq_ok h
    obtain ⟨w₁, hr, hw⟩ := bind_eq_ok hw
    obtain ⟨m, hf, hw⟩ := bind_eq_ok hw
    refine ⟨w₁.style, ⟨w₁, hr, rfl⟩, ?_⟩
    rw [hf, ← Except.ok.inj hw]
  · rintro ⟨m, ⟨w, hw, rfl⟩, hf⟩
    rw [hw]
    show ((fit c w.style).bind _).map _ = _
    rw [hf]
    rfl

end StyleEngine.Resolution
