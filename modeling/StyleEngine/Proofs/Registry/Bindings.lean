import StyleEngine.Proofs.Registry.Counting

/-!
# What a run binds

A run binds names one by one, each by the discipline of the request that was the first to ask for
it.  The bindings of a discipline are listed in the order in which they are made, also across
resets; between them the source only goes forward.

    (newBindings d r (a :: rest))[i]? = some b → the action makes it, or
      the rest does, at i less what the action has made                  (getElem?_newBindings)
    r.tokensUsed ≤ (run r actions).tokensUsed                            (tokensUsed_run)
-/

namespace StyleEngine.Registry

/-- The name that an action binds by the discipline `d`, with the placeholder that it gets. -/
def newBinding? (d : Discipline) (r : Registry) : Action → Option (String × String)
  | .encode discipline (.text name) fallback =>
    if discipline = d ∧ r.placeholderFor? name = none then
      ((r.encode discipline (.text name) fallback).2.placeholderFor? name).map (name, ·)
    else none
  | _ => none

/-- All that a run binds by the discipline `d`. -/
def newBindings (d : Discipline) (r : Registry) : List Action → List (String × String)
  | [] => []
  | a :: rest => (newBinding? d r a).toList ++ newBindings d (act r a) rest

variable {r r' : Registry} {d : Discipline}

/-- A binding of a run is made by its first action, or by the rest of it and counted from there. -/
theorem getElem?_newBindings {a : Action} {rest : List Action} {i : Nat} {b : String × String}
    (h : (newBindings d r (a :: rest))[i]? = some b) :
    newBinding? d r a = some b ∧ i = 0 ∨
      ∃ j, i = (newBinding? d r a).toList.length + j ∧
        (newBindings d (act r a) rest)[j]? = some b := by
  rw [newBindings] at h
  cases hnew : newBinding? d r a with
  | none =>
    rw [hnew] at h
    exact Or.inr ⟨i, (Nat.zero_add i).symm, h⟩
  | some first =>
    rw [hnew] at h
    cases i with
    | zero => exact Or.inl ⟨h, rfl⟩
    | succ j => exact Or.inr ⟨j, Nat.add_comm j 1, h⟩

/-! ## Single actions -/

theorem newBinding?_encode (d : Discipline) (r : Registry) (discipline : Discipline) (n : String)
    (fallback : Value) :
    newBinding? d r (.encode discipline (.text n) fallback) =
      if discipline = d ∧ r.placeholderFor? n = none then
        ((r.encode discipline (.text n) fallback).2.placeholderFor? n).map (n, ·)
      else none := rfl

theorem newBinding?_eq_none {name fallback : Value} {discipline : Discipline}
    (h : ∀ n, name = .text n → r.placeholderFor? n = none →
      (r.encode discipline name fallback).2.placeholderFor? n = none) :
    newBinding? d r (.encode discipline name fallback) = none := by
  cases name with
  | text n =>
    rw [newBinding?_encode]
    split
    · next hn => rw [h n rfl hn.2, Option.map_none]
    · rfl
  | _ => rfl

/-- An action forgets everything, or binds nothing and at most uses up tokens, or binds one name
by one discipline. -/
theorem act_cases (r : Registry) (a : Action) :
    (a = .reset ∧ ∀ d, newBinding? d r a = none) ∨
    ((∀ d, newBinding? d r a = none) ∧
      (act r a = r ∨ ∃ d e r', r.allocate d = (.error e, r') ∧ act r a = r')) ∨
    ∃ d n p r', r.placeholderFor? n = none ∧ r.allocate d = (.ok p, r') ∧ act r a = r'.bind n p ∧
      ∀ d', newBinding? d' r a = if d' = d then some (n, p) else none := by
  cases a with
  | reset => exact Or.inl ⟨rfl, fun _ => rfl⟩
  | encode d name fallback =>
    right
    have hsame : ∀ n, (r.allocate d).2.placeholderFor? n = r.placeholderFor? n := by
      intro n
      unfold placeholderFor?
      rw [(allocate_sameBindings r d).placeholders]
    rcases encode_cases r d name fallback with he | ⟨e, ha, he⟩ | ⟨n, p, rfl, -, hn, ha, he⟩
    · left
      refine ⟨fun d' => newBinding?_eq_none fun n _ hn => ?_, Or.inl he⟩
      rw [he, hn]
    · left
      refine ⟨fun d' => newBinding?_eq_none fun n _ hn => ?_, Or.inr ⟨d, e, _, ?_, he⟩⟩
      · rw [he, hsame, hn]
      · exact Prod.ext ha rfl
    · right
      refine ⟨d, n, p, _, hn, Prod.ext ha rfl, he, fun d' => ?_⟩
      rw [newBinding?_encode, he, placeholderFor?_bind, if_pos rfl, Option.map_some]
      by_cases hd : d' = d
      · rw [if_pos ⟨hd.symm, hn⟩, if_pos hd]
      · rw [if_neg fun h => hd h.1.symm, if_neg hd]

/-! ## The source goes forward -/

theorem tokensUsed_act (r : Registry) (a : Action) : r.tokensUsed ≤ (act r a).tokensUsed := by
  rcases act_cases r a with ⟨rfl, -⟩ | ⟨-, hr | ⟨d, e, r', ha, hr⟩⟩ | ⟨d, n, p, r', -, ha, hr, -⟩
  · exact Nat.le_refl _
  · exact Nat.le_of_eq (congrArg tokensUsed hr).symm
  · have hle := (allocate_tokensUsed r d).1
    rwa [ha, ← hr] at hle
  · have hle := (allocate_tokensUsed r d).1
    rw [ha] at hle
    rw [hr]
    exact hle

theorem tokensUsed_run (r : Registry) (actions : List Action) :
    r.tokensUsed ≤ (run r actions).tokensUsed := by
  induction actions generalizing r with
  | nil => exact Nat.le_refl _
  | cons a actions ih => exact Nat.le_trans (tokensUsed_act r a) (ih (act r a))

end StyleEngine.Registry
