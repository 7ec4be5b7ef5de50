import StyleEngine.Proofs.Expression.Grammar

/-!
# One tree for a list of tokens

A phrase is a kind of trees together with what may follow them.  Where two of its trees begin the
same list of tokens, and what follows each may follow it, the trees are the same.  Chains inherit
this from their operands, and factors have it by induction on their nesting.

    L.Unique → (L.chain token).Unique                                  (Phrase.Unique.chain)
    (expressions n).Unique                                             (unique_expressions)
-/

namespace StyleEngine.Expression

variable {Op α : Type}

/-! ## Phrases -/

structure Phrase (α : Type) where
  Valid : α → Prop
  tokens : α → List Token
  /-- What may follow the tokens of a tree. -/
  Ends : List Token → Prop

/-- A chain goes on as long as an operator follows. -/
def Phrase.chain (L : Phrase α) (token : Op → Token) : Phrase (Chain Op α) where
  Valid c := c.All L.Valid
  tokens c := (c.map L.tokens).spell token
  Ends ts := L.Ends ts ∧ ∀ op rest, ts ≠ token op :: rest

/-- The operators are told apart by their tokens, and may follow an operand. -/
structure Phrase.Joined (L : Phrase α) (token : Op → Token) : Prop where
  injective : Function.Injective token
  ends : ∀ op ts, L.Ends (token op :: ts)

/-- Operators and their right operands. -/
def Phrase.tail (L : Phrase α) (token : Op → Token) (xs : List (Op × α)) : List Token :=
  spellRest token (xs.map fun x => (x.1, L.tokens x.2))

/-- Factors with less than `n` levels. -/
def factors (n : Nat) : Phrase Factor where
  Valid f := f.nesting < n
  tokens := Factor.tokens
  Ends _ := True

def terms (n : Nat) : Phrase Term := (factors n).chain Multiplicative.token

def expressions (n : Nat) : Phrase Expr := (terms n).chain Additive.token

def arguments (n : Nat) : Phrase Arguments := (expressions n).chain Comma.token

theorem joined_factors (n : Nat) : (factors n).Joined Multiplicative.token where
  injective op op' h := by cases op <;> cases op' <;> first | rfl | cases h
  ends _ _ := trivial

theorem joined_terms (n : Nat) : (terms n).Joined Additive.token where
  injective op op' h := by cases op <;> cases op' <;> first | rfl | cases h
  ends op ts := by
    refine ⟨trivial, ?_⟩
    intro op' rest h
    cases op <;> cases op' <;> cases h

theorem joined_expressions (n : Nat) : (expressions n).Joined Comma.token where
  injective _ _ _ := rfl
  ends op ts := by
    refine ⟨⟨trivial, ?_⟩, ?_⟩
    · intro op' rest h
      cases op' <;> cases h
    · intro op' rest h
      cases op' <;> cases h

theorem valid_expressions_iff (n : Nat) (e : Expr) : (expressions n).Valid e ↔ e.nesting < n :=
  (e.nesting_lt_iff n).symm

theorem valid_arguments_iff (n : Nat) (es : Arguments) :
    (arguments n).Valid es ↔ es.nesting < n :=
  (es.nesting_lt_iff n).symm

/-- A closing parenthesis may follow an expression. -/
theorem ends_closeParen (n : Nat) (ts : List Token) :
    (arguments n).Ends (.symbol .closeParen :: ts) := by
  refine ⟨⟨⟨trivial, ?_⟩, ?_⟩, ?_⟩
  · intro op rest h
    cases op <;> cases h
  · intro op rest h
    cases op <;> cases h
  · intro op rest h
    cases op
    cases h

/-- An expression may stand at the end. -/
theorem ends_nil (n : Nat) : (expressions n).Ends [] := by
  refine ⟨⟨trivial, ?_⟩, ?_⟩
  · intro op rest h
    cases h
  · intro op rest h
    cases h

/-! ## Chains -/

section Chains

variable {L : Phrase α} {token : Op → Token}

theorem Phrase.tokens_chain (c : Chain Op α) :
    (L.chain token).tokens c = L.tokens c.first ++ L.tail token c.rest := rfl

theorem Phrase.tail_cons (op : Op) (a : α) (xs : List (Op × α)) :
    L.tail token ((op, a) :: xs) = token op :: (L.tokens a ++ L.tail token xs) := by
  unfold tail spellRest
  simp only [List.map_cons, List.flatMap_cons, List.cons_append]

/-- What may follow a chain may follow its operands, whichever of them is the last. -/
theorem Phrase.Joined.ends_tail (hL : L.Joined token) (xs : List (Op × α)) {ts : List Token}
    (hts : L.Ends ts) : L.Ends (L.tail token xs ++ ts) := by
  cases xs with
  | nil => exact hts
  | cons x xs =>
    rw [Phrase.tail_cons]
    exact hL.ends x.1 _

def Phrase.Unique (L : Phrase α) : Prop :=
  ∀ a a' ts ts', L.Valid a → L.Valid a' → L.Ends ts → L.Ends ts' →
    L.tokens a ++ ts = L.tokens a' ++ ts' → a = a' ∧ ts = ts'

theorem Phrase.Unique.tail (hL : L.Unique) (hj : L.Joined token) :
    ∀ (xs xs' : List (Op × α)) (ts ts' : List Token),
      (∀ x ∈ xs, L.Valid x.2) → (∀ x ∈ xs', L.Valid x.2) →
      (L.chain token).Ends ts → (L.chain token).Ends ts' →
      L.tail token xs ++ ts = L.tail token xs' ++ ts' → xs = xs' ∧ ts = ts' := by
  intro xs
  induction xs with
  | nil =>
    intro xs' ts ts' _ _ hts _ h
    cases xs' with
    | nil => exact ⟨rfl, h⟩
    | cons x' xs' =>
      rw [tail_cons] at h
      exact absurd h (hts.2 x'.1 _)
  | cons x xs ih =>
    intro xs' ts ts' hxs hxs' hts hts' h
    rw [List.forall_mem_cons] at hxs
    cases xs' with
    | nil =>
      rw [tail_cons] at h
      exact absurd h.symm (hts'.2 x.1 _)
    | cons x' xs' =>
      rw [List.forall_mem_cons] at hxs'
      rw [tail_cons, tail_cons, List.cons_append, List.cons_append, List.cons.injEq,
        List.append_assoc, List.append_assoc] at h
      have hop : x.1 = x'.1 := hj.injective h.1
      obtain ⟨ha, h⟩ := hL _ _ _ _ hxs.1 hxs'.1 (hj.ends_tail xs hts.1)
        (hj.ends_tail xs' hts'.1) h.2
      obtain ⟨rfl, rfl⟩ := ih xs' ts ts' hxs.2 hxs'.2 hts hts' h
      exact ⟨congrArg (· :: xs) (Prod.ext hop ha), rfl⟩

/-- An operator after an operand belongs to the chain, so the operands are read off in turn. -/
theorem Phrase.Unique.chain (hL : L.Unique) (hj : L.Joined token) : (L.chain token).Unique := by
  rintro ⟨a, xs⟩ ⟨a', xs'⟩ ts ts' hc hc' hts hts' h
  rw [tokens_chain, tokens_chain, List.append_assoc, List.append_assoc] at h
  obtain ⟨rfl, htail⟩ :=
    hL _ _ _ _ hc.1 hc'.1 (hj.ends_tail xs hts.1) (hj.ends_tail xs' hts'.1) h
  obtain ⟨rfl, rfl⟩ := hL.tail hj xs xs' ts ts' hc.2 hc'.2 hts hts' htail
  exact ⟨rfl, rfl⟩

end Chains

/-! ## Factors and expressions -/

/-- The first token of a factor tells its kind, and what is in it ends by itself. -/
theorem unique_factors (n : Nat) : (factors n).Unique := by
  induction n with
  | zero =>
    intro f f' ts ts' hf
    exact absurd hf (Nat.not_lt_zero _)
  | succ n ih =>
    have he : (expressions n).Unique := (ih.chain (joined_factors n)).chain (joined_terms n)
    have hes : (arguments n).Unique := he.chain (joined_expressions n)
    intro f f' ts ts' hf hf' _ _ h
    change f.nesting < n + 1 at hf
    change f'.nesting < n + 1 at hf'
    change f.tokens ++ ts = f'.tokens ++ ts' at h
    cases f with
    | number m unit =>
      cases f' with
      | number m' unit' =>
        cases h
        exact ⟨rfl, rfl⟩
      | signed sign g => cases sign <;> cases h
      | call k es => cases h
      | group e => cases h
    | signed sign g =>
      cases f' with
      | number m unit => cases sign <;> cases h
      | signed sign' g' =>
        rw [Factor.tokens_signed, Factor.tokens_signed, List.cons_append, List.cons_append,
          List.cons.injEq] at h
        have hsign : sign = sign' := (joined_terms n).injective h.1
        obtain ⟨rfl, rfl⟩ := ih g g' ts ts' (Nat.lt_of_succ_lt_succ hf)
          (Nat.lt_of_succ_lt_succ hf') trivial trivial h.2
        exact ⟨congrArg (Factor.signed · g) hsign, rfl⟩
      | call k es => cases sign <;> cases h
      | group e => cases sign <;> cases h
    | call k es =>
      cases f' with
      | number m unit => cases h
      | signed sign g => cases sign <;> cases h
      | call k' es' =>
        rw [Factor.nesting_call, Nat.succ_lt_succ_iff, ← valid_arguments_iff] at hf hf'
        rw [Factor.tokens_call, Factor.tokens_call, List.cons_append, List.cons_append,
          List.cons.injEq, Token.function.injEq, List.append_assoc, List.append_assoc] at h
        obtain ⟨rfl, h⟩ := h
        obtain ⟨rfl, hclose⟩ :=
          hes es es' _ _ hf hf' (ends_closeParen n ts) (ends_closeParen n ts') h
        exact ⟨rfl, (List.cons.inj hclose).2⟩
      | group e => cases h
    | group e =>
      cases f' with
      | number m unit => cases h
      | signed sign g => cases sign <;> cases h
      | call k es => cases h
      | group e' =>
        rw [Factor.nesting_group, Nat.succ_lt_succ_iff, ← valid_expressions_iff] at hf hf'
        rw [Factor.tokens_group, Factor.tokens_group, List.cons_append, List.cons_append,
          List.cons.injEq, List.append_assoc, List.append_assoc] at h
        obtain ⟨rfl, hclose⟩ :=
          he e e' _ _ hf hf' (ends_closeParen n ts).1 (ends_closeParen n ts').1 h.2
        exact ⟨rfl, (List.cons.inj hclose).2⟩

theorem unique_expressions (n : Nat) : (expressions n).Unique :=
  ((unique_factors n).chain (joined_factors n)).chain (joined_terms n)

/-- No list of tokens is spelled by two trees. -/
theorem Expr.eq_of_tokens_eq {e e' : Expr} (h : e.tokens = e'.tokens) : e = e' := by
  have hn : e.nesting < e.nesting + e'.nesting + 1 := by omega
  have hn' : e'.nesting < e.nesting + e'.nesting + 1 := by omega
  have hts : e.tokens ++ [] = e'.tokens ++ [] := by rw [h]
  exact (unique_expressions _ e e' [] [] ((valid_expressions_iff _ e).2 hn)
    ((valid_expressions_iff _ e').2 hn') (ends_nil _) (ends_nil _) hts).1

end StyleEngine.Expression
