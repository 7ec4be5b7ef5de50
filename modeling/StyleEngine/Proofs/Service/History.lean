import StyleEngine.Proofs.Registry.Origin
import StyleEngine.Service

/-!
# Histories of a service

The state of a service is a registry after some requests for placeholders, without a reset.  The
answer to a message depends on the messages before it only through that registry.

    (step server r m).2 = r.run actions, without a reset                 (exists_actions_step)
    (answers server r messages)[i]? = messages[i]?.map fun m =>
      (step server (after server r (messages.take i)) m).1               (getElem?_answers)
-/

namespace StyleEngine.Service

open Registry (Action)

variable {r : Registry}

/-! ## One message -/

theorem exists_actions_encodeAll (r : Registry) (d : Discipline) (fallback : Value)
    (placeholders : Fields String) (names : List String) :
    ∃ actions : List Action, .reset ∉ actions ∧
      (encodeAll d fallback r placeholders names).2 = r.run actions := by
  induction names generalizing r placeholders with
  | nil => exact ⟨[], List.not_mem_nil, rfl⟩
  | cons name rest ih =>
    have hact : (r.encode d (.text name) fallback).2 =
        r.act (.encode d (.text name) fallback) := rfl
    unfold encodeAll
    cases he : r.encode d (.text name) fallback with
    | mk answer r' =>
      rw [he] at hact
      cases answer with
      | error e => exact ⟨[.encode d (.text name) fallback], by simp, hact⟩
      | ok p =>
        obtain ⟨actions, hreset, hrun⟩ := ih r' (Fields.set placeholders name p)
        refine ⟨.encode d (.text name) fallback :: actions, by simpa using hreset, ?_⟩
        rw [Registry.run, List.foldl_cons, ← hact]
        exact hrun

theorem encode_registry (r : Registry) (request : PlaceholderRequest) :
    (encode r request).2 =
      (encodeAll request.discipline ((request.fallback.map Value.text).getD .null) r []
        request.names).2 := by
  unfold encode
  simp only
  split <;> simp_all

section
variable (server : Server)

theorem exists_actions_step (r : Registry) (m : Message) :
    ∃ actions : List Action, .reset ∉ actions ∧ (step server r m).2 = r.run actions := by
  have hsame : ∃ actions : List Action, .reset ∉ actions ∧ r = r.run actions :=
    ⟨[], List.not_mem_nil, rfl⟩
  unfold step
  split
  · exact hsame
  · next route _ =>
    cases route with
    | health => exact hsame
    | resolve =>
      simp only [serve_resolve_registry]
      exact hsame
    | placeholders =>
      simp only [serve]
      split
      · next request _ =>
        rw [encode_registry]
        exact exists_actions_encodeAll r _ _ _ _
      · exact hsame

/-! ## Many messages -/

/-- The registry after some messages. -/
def after (r : Registry) (messages : List Message) : Registry :=
  messages.foldl (fun r m => (step server r m).2) r

theorem after_cons (r : Registry) (m : Message) (messages : List Message) :
    after server r (m :: messages) = after server (step server r m).2 messages := List.foldl_cons ..

theorem after_append (r : Registry) (before more : List Message) :
    after server r (before ++ more) = after server (after server r before) more :=
  List.foldl_append

theorem exists_actions_after (r : Registry) (messages : List Message) :
    ∃ actions : List Action, .reset ∉ actions ∧ after server r messages = r.run actions := by
  induction messages generalizing r with
  | nil => exact ⟨[], List.not_mem_nil, rfl⟩
  | cons m messages ih =>
    obtain ⟨first, hfirst, hstep⟩ := exists_actions_step server r m
    obtain ⟨rest, hrest, hafter⟩ := ih (step server r m).2
    refine ⟨first ++ rest, by simp [hfirst, hrest], ?_⟩
    rw [after_cons, Registry.run_append, ← hstep, hafter]

theorem getElem?_answers (r : Registry) (messages : List Message) (i : Nat) :
    (answers server r messages)[i]? =
      messages[i]?.map fun m => (step server (after server r (messages.take i)) m).1 := by
  induction messages generalizing r i with
  | nil => rfl
  | cons m messages ih =>
    unfold answers
    cases i with
    | zero => rfl
    | succ i => rw [List.getElem?_cons_succ, List.getElem?_cons_succ, List.take_succ_cons,
        after_cons, ih]

end

section
variable {server : Server} {name p : String}

/-- What a name is bound to stays its placeholder. -/
theorem placeholderFor?_after (h : r.placeholderFor? name = some p) (messages : List Message) :
    (after server r messages).placeholderFor? name = some p := by
  obtain ⟨actions, hreset, hrun⟩ := exists_actions_after server r messages
  rw [hrun]
  exact Registry.placeholderFor?_run h hreset

/-- So does what it is bound to after a message somewhere in the history. -/
theorem placeholderFor?_after_of_take {messages : List Message} {i : Nat} {m : Message}
    (hi : messages[i]? = some m)
    (h : (after server r (messages.take i ++ [m])).placeholderFor? name = some p) :
    (after server r messages).placeholderFor? name = some p := by
  obtain ⟨hlt, hget⟩ := List.getElem?_eq_some_iff.1 hi
  have hsplit : messages = (messages.take i ++ [m]) ++ messages.drop (i + 1) := by
    rw [List.append_assoc, List.singleton_append, ← hget, List.getElem_cons_drop,
      List.take_append_drop]
  rw [hsplit, after_append]
  exact placeholderFor?_after h _

end

end StyleEngine.Service
