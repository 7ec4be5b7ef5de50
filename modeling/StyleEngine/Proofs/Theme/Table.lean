import StyleEngine.Proofs.Fields
import StyleEngine.Theme

/-!
# What a token table holds

The leaves of some token groups are the named values in them that are no maps and say something,
in the order in which one reads them.  The table of the groups has each name that a leaf has, once,
with the value of its first leaf.

    flatten groups = fill [] (leaves groups)                             (flatten_eq_fill)
    get? (flatten groups) name = get? (leaves groups) name               (get?_flatten)
    keys (flatten groups) = (keys (leaves groups)).eraseDups             (keys_flatten)
-/

namespace StyleEngine.Theme

/-! ## Leaves -/

/-- Null and the empty text say nothing. -/
def isGiven : Value → Bool
  | .null => false
  | .text s => !s.isEmpty
  | _ => true

mutual

/-- The entries of a named value: its own, or those in the map that it is. -/
def entriesOf (name : String) : Value → Fields Value
  | .map entries => entriesIn entries
  | value => [(name, value)]

/-- The entries in a map, those of maps in it at their places. -/
def entriesIn : List (String × Value) → Fields Value
  | [] => []
  | (name, value) :: rest => entriesOf name value ++ entriesIn rest

end

/-- The entries in all groups that say something, the earlier groups first. -/
def leaves (groups : List (Fields Value)) : Fields Value :=
  (groups.flatMap entriesIn).filter fun e => isGiven e.2

theorem leaves_append (groups more : List (Fields Value)) :
    leaves (groups ++ more) = leaves groups ++ leaves more := by
  unfold leaves
  rw [List.flatMap_append, List.filter_append]

mutual

theorem not_map_of_mem_entriesOf (name : String) : ∀ (value : Value), ∀ e ∈ entriesOf name value,
    ∀ entries, e.2 ≠ .map entries
  | .map entries => not_map_of_mem_entriesIn entries
  | .null | .bool _ | .number _ | .text _ | .list _ => by
    intro e he entries h
    obtain rfl := List.mem_singleton.1 he
    cases h

theorem not_map_of_mem_entriesIn : ∀ (entries : List (String × Value)), ∀ e ∈ entriesIn entries,
    ∀ inner, e.2 ≠ .map inner
  | [] => fun _ he => absurd he List.not_mem_nil
  | (name, value) :: rest => by
    intro e he
    rw [entriesIn, List.mem_append] at he
    rcases he with he | he
    · exact not_map_of_mem_entriesOf name value e he
    · exact not_map_of_mem_entriesIn rest e he

end

/-- A leaf says something and is no map. -/
theorem leaf_of_mem_leaves {groups : List (Fields Value)} {e : String × Value}
    (h : e ∈ leaves groups) : isGiven e.2 = true ∧ ∀ entries, e.2 ≠ .map entries := by
  obtain ⟨hm, hg⟩ := List.mem_filter.1 h
  obtain ⟨entries, -, he⟩ := List.mem_flatMap.1 hm
  exact ⟨hg, not_map_of_mem_entriesIn entries e he⟩

theorem entriesOf_of_not_map {value : Value} (h : ∀ entries, value ≠ .map entries)
    (name : String) : entriesOf name value = [(name, value)] := by
  cases value with
  | map entries => exact absurd rfl (h entries)
  | _ => rfl

theorem entriesIn_of_not_map {m : Fields Value} (h : ∀ e ∈ m, ∀ entries, e.2 ≠ .map entries) :
    entriesIn m = m := by
  induction m with
  | nil => rfl
  | cons e m ih =>
    obtain ⟨he, hm⟩ := List.forall_mem_cons.1 h
    obtain ⟨name, value⟩ := e
    rw [entriesIn, entriesOf_of_not_map he, ih hm]
    rfl

/-- Groups that hold nothing but leaves are their own leaves. -/
theorem leaves_singleton {m : Fields Value}
    (h : ∀ e ∈ m, isGiven e.2 = true ∧ ∀ entries, e.2 ≠ .map entries) : leaves [m] = m := by
  unfold leaves
  rw [List.flatMap_singleton, entriesIn_of_not_map fun e he => (h e he).2]
  exact List.filter_eq_self.2 fun e he => (h e he).1

/-! ## Tables -/

mutual

/-- Entering a value fills in its leaves. -/
theorem enter_eq_fill (table : Fields Value) (name : String) : ∀ value,
    enter table name value =
      Fields.fill table ((entriesOf name value).filter fun e => isGiven e.2)
  | .map entries => enterAll_eq_fill table entries
  | .null => rfl
  | .bool _ | .number _ | .list _ => rfl
  | .text s => by
    have he : entriesOf name (.text s) = [(name, .text s)] := rfl
    rw [enter, he]
    by_cases hs : s.isEmpty = true <;> simp [isGiven, hs, Fields.fill]

theorem enterAll_eq_fill (table : Fields Value) : ∀ entries,
    enterAll table entries = Fields.fill table ((entriesIn entries).filter fun e => isGiven e.2)
  | [] => rfl
  | (name, value) :: rest => by
    rw [enterAll, entriesIn, enter_eq_fill, enterAll_eq_fill _ rest, List.filter_append,
      Fields.fill_append]

end

theorem foldl_enterAll (table : Fields Value) (groups : List (Fields Value)) :
    groups.foldl enterAll table = Fields.fill table (leaves groups) := by
  induction groups generalizing table with
  | nil => rfl
  | cons group groups ih =>
    have hl : leaves (group :: groups) = leaves [group] ++ leaves groups :=
      leaves_append [group] groups
    have hg : leaves [group] = (entriesIn group).filter fun e => isGiven e.2 := by simp [leaves]
    rw [List.foldl_cons, ih, enterAll_eq_fill, hl, hg, Fields.fill_append]

theorem flatten_eq_fill (groups : List (Fields Value)) :
    flatten groups = Fields.fill [] (leaves groups) := foldl_enterAll [] groups

theorem get?_flatten (groups : List (Fields Value)) (name : String) :
    Fields.get? (flatten groups) name = Fields.get? (leaves groups) name := by
  rw [flatten_eq_fill, Fields.get?_fill]
  rfl

theorem keys_flatten (groups : List (Fields Value)) :
    Fields.keys (flatten groups) = (Fields.keys (leaves groups)).eraseDups := by
  rw [flatten_eq_fill, Fields.keys_fill]
  simp [Fields.keys]

theorem nodup_keys_flatten (groups : List (Fields Value)) :
    (Fields.keys (flatten groups)).Nodup := by
  rw [flatten_eq_fill]
  exact Fields.nodup_keys_fill (m := []) List.nodup_nil _

theorem mem_leaves_of_mem_flatten {groups : List (Fields Value)} {e : String × Value}
    (h : e ∈ flatten groups) : e ∈ leaves groups := by
  rw [← Fields.get?_eq_some_iff_mem (nodup_keys_flatten groups), get?_flatten] at h
  exact Fields.mem_of_get? h

theorem flatten_append (groups more : List (Fields Value)) :
    flatten (groups ++ more) = flatten groups ++
      (flatten more).filter fun e => decide (e.1 ∉ Fields.keys (flatten groups)) := by
  have hsplit : flatten (groups ++ more) = Fields.fill (flatten groups) (leaves more) := by
    rw [flatten_eq_fill, leaves_append, Fields.fill_append, ← flatten_eq_fill]
  rw [hsplit, Fields.fill_eq_append, ← flatten_eq_fill]

/-- A table is flat. -/
theorem flatten_flatten (groups : List (Fields Value)) :
    flatten [flatten groups] = flatten groups := by
  have hl : leaves [flatten groups] = flatten groups :=
    leaves_singleton fun e he => leaf_of_mem_leaves (mem_leaves_of_mem_flatten he)
  rw [flatten_eq_fill [flatten groups], hl]
  exact Fields.fill_of_nodup (nodup_keys_flatten groups)

/-- A variable is unknown when no leaf of the sizes or of the colors has its name. -/
theorem lookup?_eq_none_iff {t : Theme} {name : String} :
    t.lookup? name = none ↔ ∀ value, (name, value) ∉ leaves [t.sizes, t.colors] := by
  unfold lookup? table
  rw [get?_flatten, Fields.get?_eq_none_iff]
  constructor
  · exact fun h value hv => h (List.mem_map_of_mem hv)
  · intro h hk
    obtain ⟨e, he, rfl⟩ := List.mem_map.1 hk
    exact h e.2 he

/-! ## All together -/

/-- A table has the names of the leaves in the order of their first occurrences, each with the
value of its first leaf, and so no null, no empty text and no map.  More groups add what their own
table has under new names, a table is its own table, and a theme knows the variables that its
sizes or its colors have a leaf for. -/
theorem flatten_keeps_first_leaves (groups : List (Fields Value)) :
    Fields.keys (flatten groups) = (Fields.keys (leaves groups)).eraseDups ∧
    (Fields.keys (flatten groups)).Nodup ∧
    (∀ name value, Fields.get? (flatten groups) name = some value ↔
      ∃ before after, leaves groups = before ++ (name, value) :: after ∧
        name ∉ Fields.keys before) ∧
    (∀ e ∈ flatten groups, e.2 ≠ .null ∧ e.2 ≠ .text "" ∧ ∀ entries, e.2 ≠ .map entries) ∧
    (∀ more, flatten (groups ++ more) = flatten groups ++
      (flatten more).filter fun e => decide (e.1 ∉ Fields.keys (flatten groups))) ∧
    flatten [flatten groups] = flatten groups ∧
    ∀ (t : Theme) (name : String),
      t.lookup? name = none ↔ ∀ value, (name, value) ∉ leaves [t.sizes, t.colors] := by
  refine ⟨keys_flatten groups, nodup_keys_flatten groups, fun name value => ?_, fun e he => ?_,
    flatten_append groups, flatten_flatten groups, fun t name => lookup?_eq_none_iff⟩
  · rw [get?_flatten]
    constructor
    · exact Fields.exists_split_of_get?
    · rintro ⟨before, after, hl, hb⟩
      rw [hl, Fields.get?_append, Fields.get?_eq_none_iff.2 hb, Option.none_or]
      simp [Fields.get?]
  · obtain ⟨hg, hm⟩ := leaf_of_mem_leaves (mem_leaves_of_mem_flatten he)
    refine ⟨fun h => ?_, fun h => ?_, hm⟩
    · rw [h] at hg
      cases hg
    · rw [h] at hg
      exact absurd hg (by decide)

/-- An empty definition does not stand in the way of a later one, but a zero does. -/
example : flatten [[("gap", .text ""), ("page", .map [("edge", .int 0), ("gap", .text "2rem")])],
      [("edge", .text "1px"), ("ink", .null)]] =
    [("edge", .int 0), ("gap", .text "2rem")] := rfl

end StyleEngine.Theme
