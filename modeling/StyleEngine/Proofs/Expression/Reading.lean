import StyleEngine.Proofs.Expression.Grammar

/-!
# What one step of the evaluator reads

Each function of the evaluator returns a value and the rest of its tokens if the functions it calls
do, in the order in which it calls them.

    Reads (chain operator? operand) ts v rest ↔ ∃ x ts₁, ...           (reads_chain_iff)
    Reads (call factor f) ts v rest ↔ ∃ x ts₁ xs, ...                  (reads_call_iff)
    Reads (factor size? (n + 1)) ts v rest → ...                       (Reads.first)
-/

namespace StyleEngine.Expression

/-! ## Readings -/

def Reads (operand : Operand) (ts : List Token) (v : Float) (rest : List Token) : Prop :=
  ∃ h, operand ts = .ok (v, ⟨rest, h⟩)

def ReadsTail (operator? : Operators) (operand : Operand) (x : Float) (ts : List Token)
    (v : Float) (rest : List Token) : Prop :=
  ∃ h, chainTail operator? operand x ts = .ok (v, ⟨rest, h⟩)

def ReadsArguments (factor : Operand) (ts : List Token) (xs : List Float) (rest : List Token) :
    Prop :=
  ∃ h, argumentsTail factor ts = .ok (xs, ⟨rest, h⟩)

theorem Reads.length_lt {operand : Operand} {ts rest : List Token} {v : Float}
    (h : Reads operand ts v rest) : rest.length < ts.length := h.1

/-! ## Chains -/

section Chains

variable {operator? : Operators} {operand : Operand}

theorem readsTail_nil_iff (x v : Float) (rest : List Token) :
    ReadsTail operator? operand x [] v rest ↔ v = x ∧ rest = [] := by
  unfold ReadsTail
  rw [chainTail]
  constructor
  · rintro ⟨h, heq⟩
    cases heq
    exact ⟨rfl, rfl⟩
  · rintro ⟨rfl, rfl⟩
    exact ⟨_, rfl⟩

/-- A chain stops before a token that is no operator. -/
theorem readsTail_stop_iff {token : Token} (hop : operator? token = none) (x v : Float)
    (ts rest : List Token) :
    ReadsTail operator? operand x (token :: ts) v rest ↔ v = x ∧ rest = token :: ts := by
  unfold ReadsTail
  rw [chainTail]
  simp only [hop]
  constructor
  · rintro ⟨h, heq⟩
    cases heq
    exact ⟨rfl, rfl⟩
  · rintro ⟨rfl, rfl⟩
    exact ⟨Nat.le_refl _, rfl⟩

theorem readsTail_operator_iff {token : Token} {combine : Float → Float → Except Error Float}
    (hop : operator? token = some combine) (x v : Float) (ts rest : List Token) :
    ReadsTail operator? operand x (token :: ts) v rest ↔
      ∃ y ts₁ z, Reads operand ts y ts₁ ∧ combine x y = .ok z ∧
        ReadsTail operator? operand z ts₁ v rest := by
  unfold ReadsTail
  rw [chainTail]
  simp only [hop]
  constructor
  · rintro ⟨h, heq⟩
    split at heq
    · cases heq
    · next y ts₁ h₁ hy =>
      split at heq
      · cases heq
      · next z hz =>
        split at heq
        · cases heq
        · next w ts₂ h₂ hw =>
          cases heq
          exact ⟨y, ts₁, z, ⟨h₁, hy⟩, hz, h₂, hw⟩
  · rintro ⟨y, ts₁, z, ⟨h₁, hy⟩, hz, h₂, hw⟩
    refine ⟨by rw [List.length_cons]; omega, ?_⟩
    simp only [hy, hz, hw]

theorem reads_chain_iff (ts : List Token) (v : Float) (rest : List Token) :
    Reads (chain operator? operand) ts v rest ↔
      ∃ x ts₁, Reads operand ts x ts₁ ∧ ReadsTail operator? operand x ts₁ v rest := by
  unfold Reads chain
  constructor
  · rintro ⟨h, heq⟩
    split at heq
    · cases heq
    · next x ts₁ h₁ hx =>
      split at heq
      · cases heq
      · next w ts₂ h₂ hw =>
        cases heq
        exact ⟨x, ts₁, ⟨h₁, hx⟩, h₂, hw⟩
  · rintro ⟨x, ts₁, ⟨h₁, hx⟩, h₂, hw⟩
    refine ⟨by omega, ?_⟩
    simp only [hx, hw]

end Chains

/-! ## Calls -/

section Calls

variable {factor : Operand}

theorem close_eq_ok_iff (x v : Float) (ts rest : List Token) :
    (∃ h, close x ts = .ok (v, ⟨rest, h⟩)) ↔ v = x ∧ ts = .symbol .closeParen :: rest := by
  unfold close
  constructor
  · rintro ⟨h, heq⟩
    split at heq
    · cases heq
      exact ⟨rfl, rfl⟩
    · cases heq
  · rintro ⟨rfl, rfl⟩
    exact ⟨_, rfl⟩

theorem readsArguments_comma_iff (ts : List Token) (vs : List Float) (rest : List Token) :
    ReadsArguments factor (.symbol .comma :: ts) vs rest ↔
      ∃ x ts₁ xs, Reads (expression factor) ts x ts₁ ∧ ReadsArguments factor ts₁ xs rest ∧
        vs = x :: xs := by
  unfold ReadsArguments
  rw [argumentsTail]
  constructor
  · rintro ⟨h, heq⟩
    split at heq
    · cases heq
    · next x ts₁ h₁ hx =>
      split at heq
      · cases heq
      · next xs ts₂ h₂ hxs =>
        cases heq
        exact ⟨x, ts₁, xs, ⟨h₁, hx⟩, ⟨h₂, hxs⟩, rfl⟩
  · rintro ⟨x, ts₁, xs, ⟨h₁, hx⟩, ⟨h₂, hxs⟩, rfl⟩
    refine ⟨by rw [List.length_cons]; omega, ?_⟩
    simp only [hx, hxs]

theorem readsArguments_stop_iff {ts : List Token} (hts : ∀ ts', ts ≠ .symbol .comma :: ts')
    (vs : List Float) (rest : List Token) :
    ReadsArguments factor ts vs rest ↔ vs = [] ∧ rest = ts := by
  unfold ReadsArguments
  rw [argumentsTail.eq_2 factor ts hts]
  constructor
  · rintro ⟨h, heq⟩
    cases heq
    exact ⟨rfl, rfl⟩
  · rintro ⟨rfl, rfl⟩
    exact ⟨_, rfl⟩

theorem reads_call_iff (f : Function) (ts : List Token) (v : Float) (rest : List Token) :
    Reads (call factor f) ts v rest ↔
      ∃ x ts₁ xs, Reads (expression factor) ts x ts₁ ∧
        ReadsArguments factor ts₁ xs (.symbol .closeParen :: rest) ∧ apply f x xs = .ok v := by
  unfold Reads call
  constructor
  · rintro ⟨h, heq⟩
    split at heq
    · cases heq
    · next x ts₁ h₁ hx =>
      split at heq
      · cases heq
      · next xs ts₂ h₂ hxs =>
        split at heq
        · cases heq
        · next w ts₃ h₃ hw =>
          split at heq
          · cases heq
          · next hv =>
            cases heq
            obtain ⟨rfl, rfl⟩ := (close_eq_ok_iff _ _ _ _).1 ⟨h₃, hw⟩
            exact ⟨w, ts₁, xs, ⟨h₁, hx⟩, ⟨h₂, hxs⟩, hv⟩
  · rintro ⟨x, ts₁, xs, ⟨h₁, hx⟩, ⟨h₂, hxs⟩, hv⟩
    obtain ⟨h₃, hw⟩ := (close_eq_ok_iff x x _ rest).2 ⟨rfl, rfl⟩
    refine ⟨by omega, ?_⟩
    simp only [hx, hxs, hw, hv]

end Calls

/-! ## Factors -/

variable {size? : String → Option Float}

theorem not_reads_factor_zero (ts : List Token) (v : Float) (rest : List Token) :
    ¬ Reads (factor size? 0) ts v rest := by
  rintro ⟨h, heq⟩
  rw [factor] at heq
  cases heq

theorem quantity_eq_ok_iff (n : Numeral) (unit : List Char) (v : Float) :
    quantity size? n unit = .ok v ↔ quantity? size? n unit = some v := by
  unfold quantity quantity?
  cases unit with
  | nil => simp only [List.isEmpty_nil, if_true, Except.ok.injEq, Option.some.injEq]
  | cons c cs =>
    simp only [List.isEmpty_cons, Bool.false_eq_true, if_false, reduceCtorEq]
    cases size? (String.ofList (c :: cs)) with
    | none => simp only [reduceCtorEq, Option.map_none]
    | some size => simp only [Except.ok.injEq, Option.map_some, Option.some.injEq]

section Steps

variable {n : Nat} {ts rest : List Token} {v : Float}

theorem reads_number_iff (m : Numeral) (unit : List Char) :
    Reads (factor size? (n + 1)) (.number m unit :: ts) v rest ↔
      rest = ts ∧ quantity? size? m unit = some v := by
  rw [← quantity_eq_ok_iff]
  unfold Reads
  rw [factor]
  constructor
  · rintro ⟨h, heq⟩
    split at heq
    · cases heq
    · next hx =>
      cases heq
      exact ⟨rfl, hx⟩
  · rintro ⟨rfl, hx⟩
    refine ⟨Nat.lt_succ_self _, ?_⟩
    simp only [hx]

theorem factor_signed (sign : Additive) :
    factor size? (n + 1) (sign.token :: ts) =
      (factor size? n ts).map fun r => (sign.sign r.1, ⟨r.2.1, Nat.lt_succ_of_lt r.2.2⟩) := by
  cases sign with
  | plus =>
    rw [Additive.token, factor]
    cases factor size? n ts <;> rfl
  | minus =>
    rw [Additive.token, factor]
    cases factor size? n ts <;> rfl

theorem reads_signed_iff (sign : Additive) :
    Reads (factor size? (n + 1)) (sign.token :: ts) v rest ↔
      ∃ x, Reads (factor size? n) ts x rest ∧ v = sign.sign x := by
  unfold Reads
  rw [factor_signed]
  constructor
  · rintro ⟨h, heq⟩
    cases hx : factor size? n ts with
    | error e =>
      rw [hx] at heq
      cases heq
    | ok r =>
      rw [hx] at heq
      cases heq
      exact ⟨r.1, ⟨r.2.2, rfl⟩, rfl⟩
  · rintro ⟨x, ⟨h₁, hx⟩, rfl⟩
    refine ⟨Nat.lt_succ_of_lt h₁, ?_⟩
    rw [hx]
    rfl

theorem reads_function_iff (f : Function) :
    Reads (factor size? (n + 1)) (.function f :: ts) v rest ↔
      Reads (call (factor size? n) f) ts v rest := by
  unfold Reads
  rw [factor]
  constructor
  · rintro ⟨h, heq⟩
    split at heq
    · cases heq
    · next h₁ hx =>
      cases heq
      exact ⟨h₁, hx⟩
  · rintro ⟨h₁, hx⟩
    refine ⟨Nat.lt_succ_of_lt h₁, ?_⟩
    simp only [hx]

theorem reads_group_iff :
    Reads (factor size? (n + 1)) (.symbol .openParen :: ts) v rest ↔
      Reads (expression (factor size? n)) ts v (.symbol .closeParen :: rest) := by
  unfold Reads
  rw [factor]
  constructor
  · rintro ⟨h, heq⟩
    split at heq
    · cases heq
    · next x ts₁ h₁ hx =>
      split at heq
      · cases heq
      · next w ts₂ h₂ hw =>
        cases heq
        obtain ⟨rfl, rfl⟩ := (close_eq_ok_iff _ _ _ _).1 ⟨h₂, hw⟩
        exact ⟨h₁, hx⟩
  · rintro ⟨h₁, hx⟩
    obtain ⟨h₂, hw⟩ := (close_eq_ok_iff v v _ rest).2 ⟨rfl, rfl⟩
    refine ⟨by rw [List.length_cons] at h₁ ⊢; omega, ?_⟩
    simp only [hx, hw]

/-- A factor starts with a number, a sign, a function or an opening parenthesis. -/
theorem Reads.first (h : Reads (factor size? (n + 1)) ts v rest) :
    (∃ m unit ts₁, ts = .number m unit :: ts₁) ∨
      (∃ (sign : Additive) (ts₁ : List Token), ts = sign.token :: ts₁) ∨
      (∃ f ts₁, ts = .function f :: ts₁) ∨ ∃ ts₁, ts = .symbol .openParen :: ts₁ := by
  obtain ⟨h, heq⟩ := h
  rcases ts with _ | ⟨t, ts⟩
  · simp only [factor, reduceCtorEq] at heq
  · cases t with
    | number m unit => exact .inl ⟨m, unit, ts, rfl⟩
    | function f => exact .inr (.inr (.inl ⟨f, ts, rfl⟩))
    | symbol s =>
      cases s with
      | plus => exact .inr (.inl ⟨.plus, ts, rfl⟩)
      | minus => exact .inr (.inl ⟨.minus, ts, rfl⟩)
      | openParen => exact .inr (.inr (.inr ⟨ts, rfl⟩))
      | times => simp only [factor, reduceCtorEq] at heq
      | divide => simp only [factor, reduceCtorEq] at heq
      | closeParen => simp only [factor, reduceCtorEq] at heq
      | comma => simp only [factor, reduceCtorEq] at heq

end Steps

end StyleEngine.Expression
