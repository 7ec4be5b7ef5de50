import Mathlib.Data.List.Nodup
import StyleEngine.Fields

/-!
# Laws of ordered maps

A map has distinct names when `keys` has no duplicates; then its entries and its look-ups say the
same, and it is determined by its names in order and its look-ups.

    get? m k = some v ↔ (k, v) ∈ m                                       (get?_eq_some_iff_mem)
    keys m = keys n → (∀ k, get? m k = get? n k) → m = n                 (ext_of_get?)
    get? (merge m n) k = (get? n k).or (get? m k)                        (get?_merge)
    keys (merge m n) = keys m ++ (keys n).filter (· ∉ keys m)            (keys_merge)
    get? (fill m n) k = (get? m k).or (get? n k)                         (get?_fill)
    keys (fill m n) = keys m ++ ((keys n).filter (· ∉ keys m)).eraseDups (keys_fill)
    get? (amend f m) k = (get? m k).bind (f k)                           (get?_amend)
-/

namespace StyleEngine.Fields

variable {α : Type}

/-! ## Look-ups and entries -/

theorem get?_eq_none_iff {m : Fields α} {k : String} : get? m k = none ↔ k ∉ keys m := by
  induction m with
  | nil => simp [get?, keys]
  | cons e rest ih =>
    unfold get?
    split
    · next he => simp [keys, he]
    · next he =>
      rw [ih]
      simp only [keys, List.map_cons, List.mem_cons, not_or]
      exact ⟨fun h => ⟨fun hk => he hk.symm, h⟩, fun h => h.2⟩

theorem has_iff_mem_keys {m : Fields α} {k : String} : has m k = true ↔ k ∈ keys m := by
  rw [has, Option.isSome_iff_ne_none, ne_eq, get?_eq_none_iff, not_not]

theorem has_eq_false_iff {m : Fields α} {k : String} : has m k = false ↔ k ∉ keys m := by
  rw [← has_iff_mem_keys, Bool.not_eq_true]

theorem mem_keys_of_get? {m : Fields α} {k : String} {v : α} (h : get? m k = some v) :
    k ∈ keys m := by
  by_contra hk
  rw [get?_eq_none_iff.2 hk] at h
  cases h

theorem exists_get?_of_mem_keys {m : Fields α} {k : String} (h : k ∈ keys m) :
    ∃ v, get? m k = some v := by
  cases hv : get? m k with
  | some v => exact ⟨v, rfl⟩
  | none => exact absurd h (get?_eq_none_iff.1 hv)

theorem get?_append (m n : Fields α) (k : String) : get? (m ++ n) k = (get? m k).or (get? n k) := by
  induction m with
  | nil => rfl
  | cons e rest ih =>
    obtain ⟨k', v⟩ := e
    rw [List.cons_append]
    by_cases he : k' = k
    · simp [get?, he]
    · simp only [get?, if_neg he, ih]

theorem get?_filter {p : String → Bool} {k : String} (hp : p k = true) (m : Fields α) :
    get? (m.filter fun e => p e.1) k = get? m k := by
  induction m with
  | nil => rfl
  | cons e m ih =>
    obtain ⟨k', v⟩ := e
    by_cases hk : k' = k
    · simp [get?, hk, hp]
    · cases hp' : p k' with
      | true => simp [get?, hk, hp', ih]
      | false => simp [get?, hk, hp', ih]

/-- The first entry of a name is the one that is looked up. -/
theorem exists_split_of_get? {m : Fields α} {k : String} {v : α} (h : get? m k = some v) :
    ∃ a b, m = a ++ (k, v) :: b ∧ k ∉ keys a := by
  induction m with
  | nil => cases h
  | cons e rest ih =>
    obtain ⟨k', v'⟩ := e
    unfold get? at h
    split at h
    · next he =>
      subst he
      rw [← Option.some.inj h]
      exact ⟨[], rest, rfl, by simp [keys]⟩
    · next he =>
      obtain ⟨a, b, rfl, ha⟩ := ih h
      refine ⟨(k', v') :: a, b, rfl, ?_⟩
      simp only [keys, List.map_cons, List.mem_cons, not_or]
      exact ⟨fun hk => he hk.symm, ha⟩

theorem mem_of_get? {m : Fields α} {k : String} {v : α} (h : get? m k = some v) : (k, v) ∈ m := by
  obtain ⟨a, b, rfl, -⟩ := exists_split_of_get? h
  exact List.mem_append_right _ List.mem_cons_self

theorem get?_eq_some_iff_mem {m : Fields α} (hm : (keys m).Nodup) {k : String} {v : α} :
    get? m k = some v ↔ (k, v) ∈ m := by
  constructor
  · exact mem_of_get?
  · intro h
    obtain ⟨a, b, rfl⟩ := List.append_of_mem h
    have ha : k ∉ keys a := by
      intro hk
      unfold keys at hm hk
      rw [List.map_append, List.nodup_append] at hm
      exact hm.2.2 k hk k List.mem_cons_self rfl
    rw [get?_append, get?_eq_none_iff.2 ha]
    simp [get?]

theorem keys_perm {m n : Fields α} (h : n.Perm m) : (keys n).Perm (keys m) :=
  List.Perm.map Prod.fst h

/-- The order of the entries does not matter to look-ups. -/
theorem get?_perm {m n : Fields α} (hm : (keys m).Nodup) (h : n.Perm m) (k : String) :
    get? n k = get? m k := by
  have hn : (keys n).Nodup := (keys_perm h).nodup_iff.2 hm
  ext v
  rw [get?_eq_some_iff_mem hn, get?_eq_some_iff_mem hm, h.mem_iff]

/-- A map with distinct names is determined by their order and their values. -/
theorem ext_of_get? {m n : Fields α} (hm : (keys m).Nodup) (hk : keys m = keys n)
    (hv : ∀ k, get? m k = get? n k) : m = n := by
  induction m generalizing n with
  | nil =>
    cases n with
    | nil => rfl
    | cons e n => simp [keys] at hk
  | cons d m ih =>
    obtain ⟨k, v⟩ := d
    cases n with
    | nil => simp [keys] at hk
    | cons e n =>
      obtain ⟨k', v'⟩ := e
      simp only [keys, List.map_cons, List.cons.injEq] at hk
      obtain ⟨rfl, hk⟩ := hk
      have he : v = v' := by simpa [get?] using hv k
      rw [keys, List.map_cons, List.nodup_cons] at hm
      have hn : k ∉ keys n := by rw [keys, ← hk]; exact hm.1
      subst he
      rw [ih hm.2 hk fun j => ?_]
      by_cases hj : k = j
      · subst hj
        rw [get?_eq_none_iff.2 hm.1, get?_eq_none_iff.2 hn]
      · simpa [get?, hj] using hv j

/-! ## Writing -/

theorem set_of_not_mem {m : Fields α} {k : String} (h : k ∉ keys m) (v : α) :
    set m k v = m ++ [(k, v)] := by
  induction m with
  | nil => rfl
  | cons e rest ih =>
    simp only [keys, List.map_cons, List.mem_cons, not_or] at h
    unfold set
    rw [if_neg fun he => h.1 he.symm, ih h.2]
    rfl

theorem set_split {a b : Fields α} {k : String} (ha : k ∉ keys a) (v v' : α) :
    set (a ++ (k, v) :: b) k v' = a ++ (k, v') :: b := by
  induction a with
  | nil => simp [set]
  | cons e a ih =>
    simp only [keys, List.map_cons, List.mem_cons, not_or] at ha
    rw [List.cons_append]
    unfold set
    rw [if_neg fun he => ha.1 he.symm, ih ha.2]
    rfl

theorem erase_split {a b : Fields α} {k : String} (ha : k ∉ keys a) (v : α) :
    erase (a ++ (k, v) :: b) k = a ++ b := by
  induction a with
  | nil => simp [erase]
  | cons e a ih =>
    simp only [keys, List.map_cons, List.mem_cons, not_or] at ha
    rw [List.cons_append]
    unfold erase
    rw [if_neg fun he => ha.1 he.symm, ih ha.2]
    rfl

theorem keys_append (m n : Fields α) : keys (m ++ n) = keys m ++ keys n := List.map_append

theorem keys_set (m : Fields α) (k : String) (v : α) :
    keys (set m k v) = keys m ++ [k].filter (· ∉ keys m) := by
  by_cases h : k ∈ keys m
  · rw [keys_set_of_mem m k v h]; simp [h]
  · rw [keys_set_of_not_mem m k v h]; simp [h]

/-- Names that are written one after the other stand in the order of their first occurrences. -/
theorem keys_set_append_eraseDups (m : Fields α) (k : String) (v : α) (rest : List String) :
    keys (set m k v) ++ (rest.filter (· ∉ keys (set m k v))).eraseDups =
      keys m ++ ((k :: rest).filter (· ∉ keys m)).eraseDups := by
  by_cases h : k ∈ keys m
  · rw [keys_set_of_mem m k v h, List.filter_cons_of_neg (by simpa using h)]
  · rw [keys_set_of_not_mem m k v h, List.filter_cons_of_pos (by simpa using h),
      List.eraseDups_cons, List.filter_filter, List.append_assoc, List.singleton_append]
    congr 3
    refine List.filter_congr fun j _ => ?_
    by_cases hj : j = k <;> simp [hj]

theorem nodup_keys_set {m : Fields α} (hm : (keys m).Nodup) (k : String) (v : α) :
    (keys (set m k v)).Nodup := by
  by_cases h : k ∈ keys m
  · rwa [keys_set_of_mem m k v h]
  · rw [keys_set_of_not_mem m k v h, ← List.concat_eq_append]
    exact hm.concat h

theorem get?_set (m : Fields α) (k j : String) (v : α) :
    get? (set m k v) j = if j = k then some v else get? m j := by
  split
  · next h => rw [h, get?_set_self]
  · next h => exact get?_set_of_ne m k j v h

theorem get?_erase_of_ne (m : Fields α) {k j : String} (h : j ≠ k) :
    get? (erase m k) j = get? m j := by
  induction m with
  | nil => rfl
  | cons e rest ih =>
    unfold erase
    split
    · next he => simp [get?, he, h.symm]
    · simp only [get?, ih]

theorem get?_erase_self {m : Fields α} (hm : (keys m).Nodup) (k : String) :
    get? (erase m k) k = none := by
  induction m with
  | nil => rfl
  | cons e rest ih =>
    rw [keys, List.map_cons, List.nodup_cons] at hm
    unfold erase
    split
    · next he => exact get?_eq_none_iff.2 (he ▸ hm.1)
    · next he => rw [get?, if_neg he, ih hm.2]

theorem nodup_keys_erase {m : Fields α} (hm : (keys m).Nodup) (k : String) :
    (keys (erase m k)).Nodup := by
  refine hm.sublist (List.Sublist.map _ ?_)
  induction m with
  | nil => exact List.Sublist.refl _
  | cons e rest ih =>
    unfold erase
    split
    · exact List.sublist_cons_self _ _
    · exact (ih hm.of_cons).cons_cons _

/-! ## Merging -/

theorem keys_merge (m n : Fields α) (hn : (keys n).Nodup) :
    keys (merge m n) = keys m ++ (keys n).filter (· ∉ keys m) := by
  induction n generalizing m with
  | nil => simp [merge, keys]
  | cons e n ih =>
    obtain ⟨k, v⟩ := e
    rw [keys, List.map_cons, List.nodup_cons] at hn
    have hs : merge m ((k, v) :: n) = merge (set m k v) n := rfl
    rw [hs, ih _ hn.2, keys_set, List.append_assoc]
    congr 1
    have hk : keys ((k, v) :: n) = [k] ++ keys n := rfl
    rw [hk, List.filter_append]
    congr 1
    apply List.filter_congr
    intro j hj
    have hne : j ≠ k := fun he => hn.1 (he ▸ hj)
    simp [hne]

theorem mem_keys_merge (m n : Fields α) (j : String) :
    j ∈ keys (merge m n) ↔ j ∈ keys m ∨ j ∈ keys n := by
  induction n generalizing m with
  | nil => exact (or_iff_left List.not_mem_nil).symm
  | cons e n ih =>
    have hs : merge m (e :: n) = merge (set m e.1 e.2) n := rfl
    have hk : keys (e :: n) = e.1 :: keys n := rfl
    rw [hs, ih, keys_set, List.mem_append, hk, List.mem_cons, List.mem_filter,
      List.mem_singleton, decide_eq_true_eq, or_assoc]
    by_cases hj : j ∈ keys m <;> simp [hj]

theorem nodup_keys_merge {m : Fields α} (hm : (keys m).Nodup) (n : Fields α) :
    (keys (merge m n)).Nodup := by
  induction n generalizing m with
  | nil => exact hm
  | cons e n ih => exact ih (nodup_keys_set hm e.1 e.2)

/-- The entries that are merged win. -/
theorem get?_merge (m : Fields α) {n : Fields α} (hn : (keys n).Nodup) (j : String) :
    get? (merge m n) j = (get? n j).or (get? m j) := by
  induction n generalizing m with
  | nil => rfl
  | cons e n ih =>
    obtain ⟨k, v⟩ := e
    rw [keys, List.map_cons, List.nodup_cons] at hn
    have hs : merge m ((k, v) :: n) = merge (set m k v) n := rfl
    rw [hs, ih _ hn.2, get?_set]
    by_cases hj : j = k
    · subst hj
      rw [if_pos rfl, get?_eq_none_iff.2 hn.1]
      simp [get?]
    · have hkj : k ≠ j := fun h => hj h.symm
      simp only [get?, if_neg hj, if_neg hkj]

theorem get?_merge_of_not_mem (m : Fields α) {n : Fields α} {j : String} (hj : j ∉ keys n) :
    get? (merge m n) j = get? m j := by
  induction n generalizing m with
  | nil => rfl
  | cons e n ih =>
    simp only [keys, List.map_cons, List.mem_cons, not_or] at hj
    have hs : merge m (e :: n) = merge (set m e.1 e.2) n := rfl
    rw [hs, ih _ hj.2, get?_set_of_ne m e.1 j e.2 hj.1]

/-! ## Filling -/

/-- Writes the entries of `n` whose names are new, in the order of `n`. -/
def fill (m n : Fields α) : Fields α := n.foldl (fun m e => setDefault m e.1 e.2) m

theorem fill_append (m n n' : Fields α) : fill m (n ++ n') = fill (fill m n) n' :=
  List.foldl_append

theorem setDefault_of_mem {m : Fields α} {k : String} (h : k ∈ keys m) (v : α) :
    setDefault m k v = m := if_pos (has_iff_mem_keys.2 h)

theorem setDefault_of_not_mem {m : Fields α} {k : String} (h : k ∉ keys m) (v : α) :
    setDefault m k v = m ++ [(k, v)] := by
  unfold setDefault
  rw [has_eq_false_iff.2 h]
  rfl

/-- A default puts a name where writing it would. -/
theorem keys_setDefault (m : Fields α) (k : String) (v : α) :
    keys (setDefault m k v) = keys (set m k v) := by
  by_cases h : k ∈ keys m
  · rw [setDefault_of_mem h, keys_set_of_mem m k v h]
  · rw [setDefault_of_not_mem h, set_of_not_mem h]

theorem get?_setDefault (m : Fields α) (k : String) (v : α) (j : String) :
    get? (setDefault m k v) j = (get? m j).or (get? [(k, v)] j) := by
  by_cases h : k ∈ keys m
  · rw [setDefault_of_mem h]
    by_cases hj : k = j
    · obtain ⟨u, hu⟩ := exists_get?_of_mem_keys (hj ▸ h)
      rw [hu, Option.some_or]
    · simp [get?, hj]
  · rw [setDefault_of_not_mem h, get?_append]

/-- The entries that are there already win. -/
theorem get?_fill (m n : Fields α) (j : String) :
    get? (fill m n) j = (get? m j).or (get? n j) := by
  induction n generalizing m with
  | nil => simp [fill, get?]
  | cons e n ih =>
    have hs : fill m (e :: n) = fill (setDefault m e.1 e.2) n := rfl
    have hn : get? (e :: n) j = (get? [e] j).or (get? n j) := get?_append [e] n j
    rw [hs, ih, get?_setDefault, Option.or_assoc, hn]

theorem keys_fill (m n : Fields α) :
    keys (fill m n) = keys m ++ ((keys n).filter (· ∉ keys m)).eraseDups := by
  induction n generalizing m with
  | nil => simp [fill, keys]
  | cons e n ih =>
    have hs : fill m (e :: n) = fill (setDefault m e.1 e.2) n := rfl
    rw [hs, ih, keys_setDefault]
    exact keys_set_append_eraseDups m e.1 e.2 (keys n)

theorem nodup_keys_fill {m : Fields α} (hm : (keys m).Nodup) (n : Fields α) :
    (keys (fill m n)).Nodup := by
  induction n generalizing m with
  | nil => exact hm
  | cons e n ih =>
    have hs : (keys (setDefault m e.1 e.2)).Nodup := by
      rw [keys_setDefault]
      exact nodup_keys_set hm e.1 e.2
    exact ih hs

section
variable (m : Fields α)

/-- What is left out because `m` has the name already changes nothing. -/
theorem setDefault_append_filter (n : Fields α) (k : String) (v : α) :
    setDefault (m ++ n.filter fun e => decide (e.1 ∉ keys m)) k v =
      m ++ (setDefault n k v).filter fun e => decide (e.1 ∉ keys m) := by
  have hmem : k ∈ keys (m ++ n.filter fun e => decide (e.1 ∉ keys m)) ↔
      k ∈ keys m ∨ k ∈ keys n := by
    rw [keys_append, List.mem_append]
    refine or_congr_right' fun hk => ?_
    simp only [keys] at hk ⊢
    simp [hk]
  by_cases hm : k ∈ keys m
  · rw [setDefault_of_mem (hmem.2 (Or.inl hm))]
    by_cases hn : k ∈ keys n
    · rw [setDefault_of_mem hn]
    · simp [setDefault_of_not_mem hn, hm]
  · by_cases hn : k ∈ keys n
    · rw [setDefault_of_mem (hmem.2 (Or.inr hn)), setDefault_of_mem hn]
    · rw [setDefault_of_not_mem fun h => (hmem.1 h).elim hm hn, setDefault_of_not_mem hn]
      simp [hm]

theorem fill_append_filter (n o : Fields α) :
    fill (m ++ n.filter fun e => decide (e.1 ∉ keys m)) o =
      m ++ (fill n o).filter fun e => decide (e.1 ∉ keys m) := by
  induction o generalizing n with
  | nil => rfl
  | cons e o ih =>
    have hs : ∀ n : Fields α, fill n (e :: o) = fill (setDefault n e.1 e.2) o := fun _ => rfl
    rw [hs, setDefault_append_filter, ih, hs]

/-- Filling adds at the end what filling an empty map gives, less the names that are there. -/
theorem fill_eq_append (n : Fields α) :
    fill m n = m ++ (fill [] n).filter fun e => decide (e.1 ∉ keys m) := by
  simpa using fill_append_filter m [] n

end

/-- Where all names are new and distinct, nothing is left out. -/
theorem fill_of_nodup {m n : Fields α} (h : (keys (m ++ n)).Nodup) : fill m n = m ++ n := by
  induction n generalizing m with
  | nil => simp [fill]
  | cons e n ih =>
    have hs : fill m (e :: n) = fill (setDefault m e.1 e.2) n := rfl
    have hsplit : m ++ e :: n = (m ++ [e]) ++ n := by simp
    have he : e.1 ∉ keys m := by
      rw [keys_append] at h
      exact fun hk => (List.nodup_append.1 h).2.2 e.1 hk e.1 List.mem_cons_self rfl
    rw [hs, setDefault_of_not_mem he, hsplit]
    exact ih (hsplit ▸ h)

/-! ## Amending -/

/-- Replaces the value of each entry, or removes the entry. -/
def amend (f : String → α → Option α) (m : Fields α) : Fields α :=
  m.filterMap fun e => (f e.1 e.2).map (e.1, ·)

theorem amend_append (f : String → α → Option α) (m n : Fields α) :
    amend f (m ++ n) = amend f m ++ amend f n := List.filterMap_append

theorem amend_cons (f : String → α → Option α) (k : String) (v : α) (m : Fields α) :
    amend f ((k, v) :: m) = ((f k v).map (k, ·)).toList ++ amend f m := by
  unfold amend
  cases h : f k v <;> simp [h]

theorem amend_congr {f g : String → α → Option α} {m : Fields α}
    (h : ∀ e ∈ m, f e.1 e.2 = g e.1 e.2) : amend f m = amend g m :=
  List.filterMap_congr fun e he => by rw [h e he]

/-- Where entries go by their names alone, so do the names. -/
theorem keys_amend {f : String → α → Option α} {p : String → Bool} {m : Fields α}
    (h : ∀ e ∈ m, (f e.1 e.2).isSome = p e.1) : keys (amend f m) = (keys m).filter p := by
  induction m with
  | nil => rfl
  | cons e m ih =>
    obtain ⟨k, v⟩ := e
    have hk : (f k v).isSome = p k := h (k, v) List.mem_cons_self
    have hm := ih fun e he => h e (List.mem_cons_of_mem _ he)
    rw [amend_cons, keys_append, hm]
    show _ = (k :: keys m).filter p
    cases hf : f k v with
    | none =>
      rw [hf] at hk
      rw [List.filter_cons_of_neg (by simp [← hk])]
      rfl
    | some v' =>
      rw [hf] at hk
      rw [List.filter_cons_of_pos (by simp [← hk])]
      rfl

theorem keys_amend_sublist (f : String → α → Option α) (m : Fields α) :
    (keys (amend f m)).Sublist (keys m) := by
  induction m with
  | nil => exact List.Sublist.refl _
  | cons e m ih =>
    obtain ⟨k, v⟩ := e
    rw [amend_cons, keys_append]
    cases f k v with
    | none => exact ih.cons k
    | some v' => exact ih.cons_cons k

theorem nodup_keys_amend {m : Fields α} (hm : (keys m).Nodup) (f : String → α → Option α) :
    (keys (amend f m)).Nodup := hm.sublist (keys_amend_sublist f m)

theorem get?_amend {m : Fields α} (hm : (keys m).Nodup) (f : String → α → Option α) (k : String) :
    get? (amend f m) k = (get? m k).bind (f k) := by
  induction m with
  | nil => rfl
  | cons e m ih =>
    obtain ⟨k', v⟩ := e
    rw [keys, List.map_cons, List.nodup_cons] at hm
    rw [amend_cons, get?_append, ih hm.2]
    by_cases hk : k' = k
    · subst hk
      rw [get?_eq_none_iff.2 hm.1]
      cases hf : f k' v <;> simp [get?, hf]
    · have hn : get? ((f k' v).map (k', ·)).toList k = none := by
        cases f k' v <;> simp [get?, hk]
      rw [hn]
      simp [get?, hk]

end StyleEngine.Fields
