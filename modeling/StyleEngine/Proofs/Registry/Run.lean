import StyleEngine.Proofs.Registry.Request

/-!
# Runs of a registry

A run is any sequence of requests, also ones that fail, and resets.  The two maps of a registry
mirror each other after every run: the entries of `names` are those of `placeholders` the other
way round, in the same order, and neither map has a name or a placeholder twice.

    Mirrored (start source)                                              (mirrored_start)
    Mirrored r → Mirrored (act r a)                                      (mirrored_act)
    Mirrored (run (start source) actions)                                (mirrored_run)
-/

namespace StyleEngine.Registry

/-! ## Runs -/

inductive Action where
  /-- A request for the placeholder of a name. -/
  | encode (discipline : Discipline) (name fallback : Value)
  | reset

/-- The registry after a request, answered or failed, or after a reset. -/
def act (r : Registry) : Action → Registry
  | .encode discipline name fallback => (r.encode discipline name fallback).2
  | .reset => r.reset

def run (r : Registry) (actions : List Action) : Registry := actions.foldl act r

def start (source : TokenSource) : Registry := { source := source }

theorem run_append (r : Registry) (before after : List Action) :
    run r (before ++ after) = run (run r before) after := List.foldl_append

/-! ## The two maps -/

/-- The entries of one map are those of the other the other way round; nothing occurs twice. -/
structure Mirrored (r : Registry) : Prop where
  names_eq : r.names = r.placeholders.map fun e => (e.2, stripSigil e.1)
  names_nodup : (Fields.keys r.placeholders).Nodup
  placeholders_nodup : (Fields.keys r.names).Nodup

variable {r r' : Registry}

theorem mirrored_start (source : TokenSource) : Mirrored (start source) :=
  ⟨rfl, List.nodup_nil, List.nodup_nil⟩

theorem Mirrored.of_sameBindings (h : Mirrored r) (hs : SameBindings r r') : Mirrored r' := by
  refine ⟨?_, ?_, ?_⟩
  · rw [hs.names, hs.placeholders]
    exact h.names_eq
  · rw [hs.placeholders]
    exact h.names_nodup
  · rw [hs.names]
    exact h.placeholders_nodup

/-- Binding adds one entry at the end of each map. -/
theorem bind_eq {n p : String} (hn : n ∉ Fields.keys r.placeholders)
    (hp : p ∉ Fields.keys r.names) :
    r.bind n p = { r with
      placeholders := r.placeholders ++ [(n, p)]
      names := r.names ++ [(p, stripSigil n)] } := by
  unfold bind
  rw [Fields.set_of_not_mem hn, Fields.set_of_not_mem hp]

theorem Mirrored.bind (h : Mirrored r) {n p : String} (hn : n ∉ Fields.keys r.placeholders)
    (hp : p ∉ Fields.keys r.names) : Mirrored (r.bind n p) := by
  refine ⟨?_, Fields.nodup_keys_set h.names_nodup n p,
    Fields.nodup_keys_set h.placeholders_nodup p (stripSigil n)⟩
  rw [bind_eq hn hp]
  simp only [List.map_append, List.map_cons, List.map_nil, h.names_eq]

theorem mirrored_reset (r : Registry) : Mirrored r.reset := ⟨rfl, List.nodup_nil, List.nodup_nil⟩

theorem mirrored_act (h : Mirrored r) (a : Action) : Mirrored (act r a) := by
  cases a with
  | reset => exact mirrored_reset r
  | encode d name fallback =>
    have hs := allocate_sameBindings r d
    show Mirrored (r.encode d name fallback).2
    rcases encode_cases r d name fallback with he | ⟨e, -, he⟩ | ⟨n, p, -, -, hn, hp, he⟩
    · rw [he]; exact h
    · rw [he]; exact h.of_sameBindings hs
    · rw [he]
      refine (h.of_sameBindings hs).bind ?_ ?_
      · rw [hs.placeholders]
        exact Fields.get?_eq_none_iff.1 hn
      · rw [hs.names]
        exact allocate_unbound hp

theorem mirrored_run (source : TokenSource) (actions : List Action) :
    Mirrored (run (start source) actions) := by
  have go : ∀ r, Mirrored r → Mirrored (run r actions) := by
    induction actions with
    | nil => intro r h; exact h
    | cons a actions ih => intro r h; exact ih (act r a) (mirrored_act h a)
  exact go _ (mirrored_start source)

/-! ## Look-ups in both directions -/

theorem Mirrored.placeholderFor?_eq_some_iff (h : Mirrored r) {n p : String} :
    r.placeholderFor? n = some p ↔ (n, p) ∈ r.placeholders :=
  Fields.get?_eq_some_iff_mem h.names_nodup

theorem Mirrored.nameFor?_eq_some_iff (h : Mirrored r) {p v : String} :
    r.nameFor? p = some v ↔ ∃ n, (n, p) ∈ r.placeholders ∧ stripSigil n = v := by
  unfold nameFor?
  rw [Fields.get?_eq_some_iff_mem h.placeholders_nodup, h.names_eq, List.mem_map]
  constructor
  · rintro ⟨⟨n, q⟩, hm, he⟩
    obtain ⟨rfl, rfl⟩ := Prod.mk.inj he
    exact ⟨n, hm, rfl⟩
  · rintro ⟨n, hm, rfl⟩
    exact ⟨(n, p), hm, rfl⟩

/-- A placeholder leads back to its name. -/
theorem Mirrored.nameFor?_of_placeholderFor? (h : Mirrored r) {n p : String}
    (hp : r.placeholderFor? n = some p) : r.nameFor? p = some (stripSigil n) :=
  h.nameFor?_eq_some_iff.2 ⟨n, h.placeholderFor?_eq_some_iff.1 hp, rfl⟩

/-- The placeholders, in the order of their names, have no duplicates. -/
theorem Mirrored.placeholderFor?_injective (h : Mirrored r) {m n p : String}
    (hm : r.placeholderFor? m = some p) (hn : r.placeholderFor? n = some p) : m = n := by
  rw [h.placeholderFor?_eq_some_iff] at hm hn
  have hd : (r.placeholders.map (·.2)).Nodup := by
    have hp := h.placeholders_nodup
    rwa [Fields.keys, h.names_eq, List.map_map] at hp
  exact (Prod.mk.inj (List.inj_on_of_nodup_map hd hm hn rfl)).1

/-- Names and placeholders are in one-to-one correspondence after every run, and both maps have
the same number of entries. -/
theorem bindings_one_to_one (source : TokenSource) (actions : List Action) :
    let r := run (start source) actions
    (∀ m n p, r.placeholderFor? m = some p → r.placeholderFor? n = some p → m = n) ∧
      (∀ n p, r.placeholderFor? n = some p → r.nameFor? p = some (stripSigil n)) ∧
      (∀ p v, r.nameFor? p = some v → ∃! n, r.placeholderFor? n = some p) ∧
      r.size = r.names.length := by
  intro r
  have h : Mirrored r := mirrored_run source actions
  refine ⟨fun m n p => h.placeholderFor?_injective,
    fun n p => h.nameFor?_of_placeholderFor?, fun p v hv => ?_, ?_⟩
  · obtain ⟨n, hn, -⟩ := h.nameFor?_eq_some_iff.1 hv
    rw [← h.placeholderFor?_eq_some_iff] at hn
    exact ⟨n, hn, fun m hm => h.placeholderFor?_injective hm hn⟩
  · unfold size
    rw [h.names_eq, List.length_map]

end StyleEngine.Registry
