import Mathlib.Data.Finset.Card
import Mathlib.Data.Finset.Dedup
import StyleEngine.Proofs.Registry.Counting

/-!
# Names that are new to a registry

A request for several names binds those that are new, one after the other.  A color is always
there; for a length the source has to give one more token for each new name.

    n is bound in r → r.newNames (n :: rest) = r.newNames rest           (newNames_cons_of_bound)
    n is not bound in r → (r.newNames (n :: rest)).card =
      ((r'.bind n p).newNames rest).card + 1                             (card_newNames_bind)
    r.Supplies d (n :: rest) → the request for n binds it, and what it leaves supplies rest
                                                                         (encode_supplied)
-/

namespace StyleEngine.Registry

open TokenSource (Unrepeating)

variable {r r' : Registry} {d : Discipline} {n p : String} {rest : List String}

/-! ## New names -/

/-- The names that are not bound yet, each once. -/
def newNames (r : Registry) (names : List String) : Finset String :=
  names.toFinset.filter fun name => r.placeholderFor? name = none

theorem mem_newNames {names : List String} :
    n ∈ r.newNames names ↔ n ∈ names ∧ r.placeholderFor? n = none := by
  rw [newNames, Finset.mem_filter, List.mem_toFinset]

theorem newNames_cons_of_bound (h : r.placeholderFor? n = some p) (rest : List String) :
    r.newNames (n :: rest) = r.newNames rest := by
  ext name
  rw [mem_newNames, mem_newNames, List.mem_cons]
  constructor
  · rintro ⟨rfl | hname, hnone⟩
    · rw [h] at hnone
      cases hnone
    · exact ⟨hname, hnone⟩
  · exact fun ⟨hname, hnone⟩ => ⟨Or.inr hname, hnone⟩

theorem card_newNames_bind (h : r.placeholderFor? n = none) (hs : SameBindings r r')
    (p : String) (rest : List String) :
    (r.newNames (n :: rest)).card = ((r'.bind n p).newNames rest).card + 1 := by
  have hinsert : r.newNames (n :: rest) = insert n ((r'.bind n p).newNames rest) := by
    ext name
    have hsame : r'.placeholderFor? name = r.placeholderFor? name := by
      unfold placeholderFor?
      rw [hs.placeholders]
    rw [Finset.mem_insert, mem_newNames, mem_newNames, List.mem_cons, placeholderFor?_bind, hsame]
    by_cases hname : name = n
    · subst hname
      simp [h]
    · simp [hname]
  have hnew : n ∉ (r'.bind n p).newNames rest := by
    rw [mem_newNames, placeholderFor?_bind, if_pos rfl]
    exact fun hn => nomatch hn.2
  rw [hinsert, Finset.card_insert_of_notMem hnew]

/-! ## Supply -/

/-- There is a placeholder for every name: a color always, a length as long as the source gives one
more token for each new name. -/
def Supplies (r : Registry) (d : Discipline) (names : List String) : Prop :=
  d = .length → ∀ j < (r.newNames names).card, ∃ token, r.upcoming j = .ok token

/-- What the source gives later. -/
theorem upcoming_bind (r : Registry) (n p : String) (j : Nat) :
    (Registry.bind { r with tokensUsed := r.tokensUsed + 1 } n p).upcoming j =
      r.upcoming (j + 1) := by
  show r.source.token (r.tokensUsed + 1 + j) = r.source.token (r.tokensUsed + (j + 1))
  rw [Nat.add_assoc, Nat.add_comm 1 j]

section
variable (hsource : Unrepeating r.source) (hspent : r.Spent) (hn : n ≠ "") (fallback : Value)

include hsource hspent hn

/-- A name that is supplied is bound, and the names behind it are supplied then. -/
theorem encode_supplied (h : r.Supplies d (n :: rest)) :
    ∃ p r', r.encode d (.text n) fallback = (.ok (withFallback p fallback.isTruthy), r') ∧
      r'.placeholderFor? n = some p ∧ r'.Supplies d rest := by
  cases hbound : r.placeholderFor? n with
  | some p =>
    refine ⟨p, r, encode_of_bound hn hbound d fallback, hbound, fun hd j hj => h hd j ?_⟩
    rwa [newNames_cons_of_bound hbound]
  | none =>
    cases d with
    | color =>
      obtain ⟨id, hid, -⟩ := allocate_color r
      have ha : r.allocate .color = (.ok (colorToken id), (r.allocate .color).2) := Prod.ext hid rfl
      exact ⟨_, _, encode_of_allocated hn hbound ha fallback,
        (placeholderFor?_bind _ n _ n).trans (if_pos rfl), nofun⟩
    | length =>
      have hs : SameBindings r { r with tokensUsed := r.tokensUsed + 1 } := ⟨rfl, rfl, rfl⟩
      have hcard := fun p => card_newNames_bind hbound hs p rest
      obtain ⟨p, hp⟩ := h rfl 0 (by rw [hcard ""]; exact Nat.succ_pos _)
      refine ⟨p, _, encode_of_drawn hsource hspent hn hbound fallback hp,
        (placeholderFor?_bind _ n _ n).trans (if_pos rfl), fun _ j hj => ?_⟩
      rw [upcoming_bind]
      exact h rfl (j + 1) (by rw [hcard p]; exact Nat.succ_lt_succ hj)

/-- If there is no supply for all names, a request for the first one fails as the source does, or
there is none for the names behind it. -/
theorem encode_unsupplied (h : ¬r.Supplies .length (n :: rest)) :
    (∃ e r', r.upcoming 0 = .error e ∧ r.encode .length (.text n) fallback = (.error e, r')) ∨
      ∃ answer r', r.encode .length (.text n) fallback = (.ok answer, r') ∧
        ¬r'.Supplies .length rest := by
  cases hbound : r.placeholderFor? n with
  | some p =>
    refine Or.inr ⟨_, r, encode_of_bound hn hbound .length fallback, fun hrest => ?_⟩
    refine h fun hd j hj => ?_
    rw [newNames_cons_of_bound hbound] at hj
    exact hrest hd j hj
  | none =>
    have hs : SameBindings r { r with tokensUsed := r.tokensUsed + 1 } := ⟨rfl, rfl, rfl⟩
    cases hdraw : r.upcoming 0 with
    | error e =>
      exact Or.inl ⟨e, _, rfl, encode_of_not_drawn hsource hspent hn hbound fallback hdraw⟩
    | ok p =>
      refine Or.inr ⟨_, _, encode_of_drawn hsource hspent hn hbound fallback hdraw, fun hrest => ?_⟩
      refine h fun hd j hj => ?_
      cases j with
      | zero => exact ⟨p, hdraw⟩
      | succ j =>
        rw [← upcoming_bind r n p j]
        rw [card_newNames_bind hbound hs p] at hj
        exact hrest hd j (Nat.lt_of_succ_lt_succ hj)

end

end StyleEngine.Registry
