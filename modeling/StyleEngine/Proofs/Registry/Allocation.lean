import Mathlib.Data.List.Perm.Subperm
import StyleEngine.Proofs.Fields
import StyleEngine.Registry
import StyleEngine.Text.Hex

/-!
# Allocation of placeholders

Color tokens of different numbers differ, since the number can be read from the token; so among
one more token than there are bindings one is unbound, and the search for it cannot run out.  The
search for a length token passes over bound tokens; the first draw that is none of them decides.

    colorToken i = colorToken j → i = j                                  (colorToken_injective)
    nameFor? r (the token that allocate r d makes) = none                (allocate_unbound)
-/

namespace StyleEngine

open Text

/-! ## Color tokens -/

theorem hexNumber?_append_singleton (cs : List Char) (c : Char) :
    hexNumber? (cs ++ [c]) = (hexNumber? cs).bind fun n => (hexValue? c).map (n * 16 + ·) := by
  unfold hexNumber?
  rw [List.foldlM_append]
  simp

theorem hexValue?_digitChar : ∀ d, d < 16 → hexValue? (Nat.digitChar d).toUpper = some d := by
  decide +kernel

/-- Upper-case hexadecimal digits read back to their number. -/
theorem hexNumber?_toDigits (n : Nat) :
    hexNumber? ((Nat.toDigits 16 n).map Char.toUpper) = some n := by
  induction n using Nat.strongRecOn with
  | ind n ih =>
    rw [Nat.toDigits_eq_if (by decide)]
    split
    · next h => simp [hexNumber?, hexValue?_digitChar n h]
    · next h =>
      have hq := ih (n / 16) (by omega)
      have hr := hexValue?_digitChar (n % 16) (by omega)
      rw [List.map_append, List.map_singleton, hexNumber?_append_singleton, hq, hr]
      simp only [Option.bind_some, Option.map_some, Option.some.injEq]
      omega

theorem hexNumber?_padded (k : Nat) (cs : List Char) :
    hexNumber? (List.replicate k '0' ++ cs) = hexNumber? cs := by
  induction k with
  | zero => rfl
  | succ k ih =>
    rw [List.replicate_succ, List.cons_append, ← ih]
    rfl

namespace Registry

theorem toList_colorToken (id : Nat) : ∃ k, (colorToken id).toList =
    '#' :: (List.replicate k '0' ++ (Nat.toDigits 16 id).map Char.toUpper ++ ['0', '0']) :=
  ⟨_, by unfold colorToken; rw [String.toList_ofList]⟩

theorem colorToken_injective : Function.Injective colorToken := by
  intro i j h
  obtain ⟨k, hk⟩ := toList_colorToken i
  obtain ⟨l, hl⟩ := toList_colorToken j
  rw [h, hl, List.cons.injEq] at hk
  have he := congrArg hexNumber? (List.append_cancel_right hk.2)
  rw [hexNumber?_padded, hexNumber?_padded, hexNumber?_toDigits, hexNumber?_toDigits] at he
  exact (Option.some.inj he).symm

/-- The search skips bound tokens only, and it stops early at an unbound one. -/
theorem freeColorId_spec (names : Fields String) (fuel id : Nat) :
    ∃ k ≤ fuel, freeColorId names fuel id = id + k ∧
      (∀ j < k, Fields.has names (colorToken (id + j)) = true) ∧
      (k < fuel → Fields.has names (colorToken (id + k)) = false) := by
  induction fuel generalizing id with
  | zero => exact ⟨0, Nat.le_refl 0, rfl, fun j hj => by omega, fun h => by omega⟩
  | succ fuel ih =>
    unfold freeColorId
    split
    · next h =>
      obtain ⟨k, hk, he, hb, hf⟩ := ih (id + 1)
      refine ⟨k + 1, by omega, by rw [he]; omega, fun j hj => ?_, fun hlt => ?_⟩
      · cases j with
        | zero => exact h
        | succ j =>
          have := hb j (by omega)
          rwa [show id + 1 + j = id + (j + 1) by omega] at this
      · have := hf (by omega)
        rwa [show id + 1 + k = id + (k + 1) by omega] at this
    · next h =>
      refine ⟨0, by omega, rfl, fun j hj => by omega, fun _ => ?_⟩
      rwa [Bool.not_eq_true] at h

/-- There are not enough bindings for all the tokens that are tried. -/
theorem freeColorId_unbound (names : Fields String) (id : Nat) :
    colorToken (freeColorId names names.length id) ∉ Fields.keys names := by
  obtain ⟨k, hk, he, hb, hf⟩ := freeColorId_spec names names.length id
  rw [he]
  rcases Nat.lt_or_eq_of_le hk with hlt | heq
  · exact Fields.has_eq_false_iff.1 (hf hlt)
  · intro hmem
    let tried := (List.range (k + 1)).map fun j => colorToken (id + j)
    have hnd : tried.Nodup := by
      refine List.Nodup.map (fun i j h => ?_) List.nodup_range
      have := colorToken_injective h
      omega
    have hsub : tried ⊆ Fields.keys names := by
      intro t ht
      obtain ⟨j, hj, rfl⟩ := List.mem_map.1 ht
      rw [List.mem_range] at hj
      rcases Nat.lt_or_eq_of_le (Nat.le_of_lt_succ hj) with h | h
      · exact Fields.has_iff_mem_keys.1 (hb j h)
      · rw [h]; exact hmem
    have hlen := (List.subperm_of_subset hnd hsub).length_le
    simp only [tried, List.length_map, List.length_range, Fields.keys] at hlen
    omega

/-! ## Length tokens -/

/-- A draw that is passed over: it gives a token that is bound. -/
def PassedOver (names : Fields String) (draw : Except Fault String) : Prop :=
  ∃ token ∈ Fields.keys names, draw = .ok token

/-- The first draw that is not passed over decides, whether it gives a token or fails; the position
is then just behind it. -/
theorem freeToken_spec (source : TokenSource) (names : Fields String) (attempts position : Nat) :
    (∃ k < attempts, freeToken source names attempts position =
        (source.token (position + k), position + k + 1) ∧
      (∀ j < k, PassedOver names (source.token (position + j))) ∧
      ¬PassedOver names (source.token (position + k))) ∨
    (freeToken source names attempts position =
        (.error (.tokensExhausted source.label maxAttempts), position + attempts) ∧
      ∀ j < attempts, PassedOver names (source.token (position + j))) := by
  induction attempts generalizing position with
  | zero => exact Or.inr ⟨rfl, fun j hj => by omega⟩
  | succ attempts ih =>
    unfold freeToken
    have hfirst : ¬PassedOver names (source.token position) →
        (∀ j < 0, PassedOver names (source.token (position + j))) ∧
          ¬PassedOver names (source.token (position + 0)) :=
      fun h => ⟨fun j hj => by omega, h⟩
    cases hd : source.token position with
    | error fault =>
      refine Or.inl ⟨0, by omega, ?_, hfirst ?_⟩
      · simp only [Nat.add_zero, hd]
      · rintro ⟨token, -, he⟩
        rw [hd] at he
        cases he
    | ok token =>
      cases hb : Fields.has names token with
      | false =>
        refine Or.inl ⟨0, by omega, ?_, hfirst ?_⟩
        · simp only [hb, Bool.false_eq_true, if_false, Nat.add_zero, hd]
        · rintro ⟨t, ht, he⟩
          rw [hd] at he
          exact Fields.has_eq_false_iff.1 hb (Except.ok.inj he ▸ ht)
      | true =>
        have hp : PassedOver names (source.token position) :=
          ⟨token, Fields.has_iff_mem_keys.1 hb, hd⟩
        have hshift : ∀ j, position + 1 + j = position + (j + 1) := fun j => by omega
        have hbelow : ∀ k, (∀ j < k, PassedOver names (source.token (position + 1 + j))) →
            ∀ j < k + 1, PassedOver names (source.token (position + j)) := by
          intro k hk j hj
          cases j with
          | zero => exact hp
          | succ j => rw [← hshift]; exact hk j (by omega)
        simp only [hb, if_true]
        rcases ih (position + 1) with ⟨k, hk, he, hb, hf⟩ | ⟨he, hb⟩
        · refine Or.inl ⟨k + 1, by omega, ?_, hbelow k hb, ?_⟩
          · rw [he, hshift]
          · rwa [← hshift]
        · refine Or.inr ⟨?_, hbelow attempts hb⟩
          rw [he, hshift]

/-! ## Allocation -/

variable {r r' : Registry} {d : Discipline}

/-- A registry with the same source and bindings; only counters may have moved. -/
structure SameBindings (r r' : Registry) : Prop where
  source : r'.source = r.source
  placeholders : r'.placeholders = r.placeholders
  names : r'.names = r.names

theorem allocate_sameBindings (r : Registry) (d : Discipline) :
    SameBindings r (r.allocate d).2 := by
  cases d with
  | color => exact ⟨rfl, rfl, rfl⟩
  | length => exact ⟨rfl, rfl, rfl⟩

/-- What a color gets is a color token, and it is unbound. -/
theorem allocate_color (r : Registry) :
    ∃ id, (r.allocate .color).1 = .ok (colorToken id) ∧ colorToken id ∉ Fields.keys r.names :=
  ⟨_, rfl, freeColorId_unbound _ _⟩

/-- The draw after the next `i` ones. -/
def upcoming (r : Registry) (i : Nat) : Except Fault String := r.source.token (r.tokensUsed + i)

/-- The first of the next draws that is not passed over is what a length gets, and the source goes
on behind it; if all that are tried are passed over, it gets none, and the source goes on behind
them. -/
theorem allocate_length_cases (r : Registry) :
    (∃ k < maxAttempts, (∀ i < k, PassedOver r.names (r.upcoming i)) ∧
      ¬PassedOver r.names (r.upcoming k) ∧
      r.allocate .length = (r.upcoming k, { r with tokensUsed := r.tokensUsed + k + 1 })) ∨
    ((∀ i < maxAttempts, PassedOver r.names (r.upcoming i)) ∧
      r.allocate .length =
        (.error (.tokensExhausted r.source.label maxAttempts),
          { r with tokensUsed := r.tokensUsed + maxAttempts })) := by
  rcases freeToken_spec r.source r.names maxAttempts r.tokensUsed with
    ⟨k, hk, he, hbound, hfree⟩ | ⟨he, hbound⟩
  · left
    refine ⟨k, hk, hbound, hfree, ?_⟩
    simp only [allocate, he, upcoming]
  · right
    refine ⟨hbound, ?_⟩
    simp only [allocate, he]

/-- What a length gets is one of the tokens that the source gives for it, and it is unbound. -/
theorem allocate_length {p : String} (h : (r.allocate .length).1 = .ok p) :
    (∃ i, r.tokensUsed ≤ i ∧ i < (r.allocate .length).2.tokensUsed ∧ r.source.token i = .ok p) ∧
      p ∉ Fields.keys r.names := by
  rcases allocate_length_cases r with ⟨k, -, -, hfree, he⟩ | ⟨-, he⟩
  · rw [he] at h ⊢
    have hp : r.upcoming k = .ok p := h
    refine ⟨⟨r.tokensUsed + k, Nat.le_add_right _ _, Nat.lt_succ_self _, hp⟩, fun hbound => ?_⟩
    exact hfree ⟨p, hbound, hp⟩
  · rw [he] at h
    cases h

theorem allocate_unbound {p : String} (h : (r.allocate d).1 = .ok p) :
    p ∉ Fields.keys r.names := by
  cases d with
  | color =>
    obtain ⟨id, hid, hf⟩ := allocate_color r
    rw [hid] at h
    exact Except.ok.inj h ▸ hf
  | length => exact (allocate_length h).2

end Registry

end StyleEngine
