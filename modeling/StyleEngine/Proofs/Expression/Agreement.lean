import StyleEngine.Proofs.Expression.Procedure

/-!
# Procedures end as the evaluator does

Wherever a procedure is called, it comes to the value or the error that the evaluator has for the
tokens from the index on, with as many levels as there are left, and what the evaluator leaves of
the tokens is what stands from the new index on.  So every call comes to an end.

    Answers (.call .factor .value) s (plain (factor size? n (tokens.drop s.index)))
                                                                         (answers_factor)
    ∃ s', Runs parse {} (evaluateTokens size? tokens) s'                 (exists_runs_parse)
-/

namespace StyleEngine.Expression

variable {α : Type}

/-! ## Results without their proofs -/

/-- A result and what is left of the tokens. -/
def plain {P : List Token → Prop} (x : Except Error (α × { rest : List Token // P rest })) :
    Except Error (α × List Token) :=
  x.map fun r => (r.1, r.2.1)

theorem except_bind_bind {ε β γ : Type} (x : Except ε α) (f : α → Except ε β)
    (g : β → Except ε γ) : (x.bind f).bind g = x.bind fun a => (f a).bind g := by
  cases x <;> rfl

theorem except_bind_ok {ε : Type} (x : Except ε α) : x.bind .ok = x := by
  cases x <;> rfl

theorem except_map_eq_bind {ε β : Type} (x : Except ε α) (f : α → β) :
    x.map f = x.bind fun a => .ok (f a) := by
  cases x <;> rfl

theorem except_map_bind {ε β γ : Type} (x : Except ε α) (f : α → β) (g : β → Except ε γ) :
    (x.map f).bind g = x.bind fun a => g (f a) := by
  cases x <;> rfl

section Plain

variable {operator? : Operators} {operand : Operand} {size? : String → Option Float} {n : Nat}
  {ts : List Token} {x : Float}

theorem property_of_plain {P : List Token → Prop}
    {y : Except Error (α × { rest : List Token // P rest })} {v : α} {rest : List Token}
    (h : plain y = .ok (v, rest)) : P rest := by
  cases y with
  | error e => cases h
  | ok r =>
    cases h
    exact r.2.2

theorem plain_chainTail_stop (h : ts.head?.bind operator? = none) :
    plain (chainTail operator? operand x ts) = .ok (x, ts) := by
  cases ts with
  | nil =>
    rw [chainTail]
    rfl
  | cons t ts =>
    have ht : operator? t = none := h
    rw [chainTail]
    simp only [ht]
    rfl

theorem plain_chainTail_operator {combine : Float → Float → Except Error Float}
    (h : ts.head?.bind operator? = some combine) :
    plain (chainTail operator? operand x ts) =
      (plain (operand ts.tail)).bind fun y => (combine x y.1).bind fun z =>
        plain (chainTail operator? operand z y.2) := by
  cases ts with
  | nil => cases h
  | cons t ts =>
    have ht : operator? t = some combine := h
    rw [chainTail]
    simp only [ht, List.tail_cons]
    rcases operand ts with e | ⟨y, rest, hy⟩
    · rfl
    · cases hz : combine x y with
      | error e => simp only [plain, Except.map, Except.bind, hz]
      | ok z =>
        simp only [plain, Except.map, Except.bind, hz]
        cases chainTail operator? operand z rest <;> rfl

theorem plain_chain :
    plain (chain operator? operand ts) =
      (plain (operand ts)).bind fun y => plain (chainTail operator? operand y.1 y.2) := by
  unfold chain
  rcases operand ts with e | ⟨y, rest, hy⟩
  · rfl
  · simp only [plain, Except.map, Except.bind]
    cases chainTail operator? operand y rest <;> rfl

theorem plain_argumentsTail_comma {factor : Operand} (h : ts.head? = some (.symbol .comma)) :
    plain (argumentsTail factor ts) =
      (plain (expression factor ts.tail)).bind fun y =>
        (plain (argumentsTail factor y.2)).map fun q => (y.1 :: q.1, q.2) := by
  obtain ⟨ts, rfl⟩ := List.head?_eq_some_iff.1 h
  rw [argumentsTail, List.tail_cons]
  rcases expression factor ts with e | ⟨y, rest, hy⟩
  · rfl
  · simp only [plain, Except.map, Except.bind]
    cases argumentsTail factor rest <;> rfl

theorem plain_argumentsTail_stop {factor : Operand} (h : ts.head? ≠ some (.symbol .comma)) :
    plain (argumentsTail factor ts) = .ok ([], ts) := by
  rw [argumentsTail.eq_2 factor ts fun rest hts => h (hts ▸ rfl)]
  rfl

theorem plain_close (h : ts.head? = some (.symbol .closeParen)) :
    plain (close x ts) = .ok (x, ts.tail) := by
  obtain ⟨ts, rfl⟩ := List.head?_eq_some_iff.1 h
  rfl

theorem plain_close_unclosed (h : ts.head? ≠ some (.symbol .closeParen)) :
    plain (close x ts) = .error (.unclosed ts.head?) := by
  unfold close
  split
  · exact absurd rfl h
  · rfl

theorem plain_call {factor : Operand} (f : Function) :
    plain (call factor f ts) =
      (plain (expression factor ts)).bind fun y => (plain (argumentsTail factor y.2)).bind fun q =>
        (plain (close y.1 q.2)).bind fun c => (apply f y.1 q.1).map fun v => (v, c.2) := by
  unfold call
  rcases expression factor ts with e | ⟨y, rest, hy⟩
  · rfl
  · simp only [plain, Except.map, Except.bind]
    rcases argumentsTail factor rest with e | ⟨ys, rest', hys⟩
    · rfl
    · simp only
      rcases close y rest' with e | ⟨c, rest'', hc⟩
      · rfl
      · simp only
        cases apply f y ys <;> rfl

theorem plain_factor_succ :
    plain (factor size? (n + 1) ts) =
      match ts.head? with
      | some (.symbol .plus) => plain (factor size? n ts.tail)
      | some (.symbol .minus) => (plain (factor size? n ts.tail)).map fun y => (-y.1, y.2)
      | some (.number m unit) => (quantity size? m unit).map fun v => (v, ts.tail)
      | some (.function f) => plain (call (factor size? n) f ts.tail)
      | some (.symbol .openParen) =>
        (plain (expression (factor size? n) ts.tail)).bind fun y => plain (close y.1 y.2)
      | found => .error (.unexpected found) := by
  rw [factor.eq_def]
  cases ts with
  | nil => rfl
  | cons t ts =>
    cases t with
    | number m unit =>
      simp only [List.head?_cons, List.tail_cons]
      cases quantity size? m unit <;> rfl
    | function f =>
      simp only [List.head?_cons, List.tail_cons]
      cases call (factor size? n) f ts <;> rfl
    | symbol s =>
      cases s with
      | plus =>
        simp only [List.head?_cons, List.tail_cons]
        cases factor size? n ts <;> rfl
      | minus =>
        simp only [List.head?_cons, List.tail_cons]
        cases factor size? n ts <;> rfl
      | openParen =>
        simp only [List.head?_cons, List.tail_cons]
        rcases expression (factor size? n) ts with e | ⟨y, rest, hy⟩
        · rfl
        · simp only [plain, Except.map, Except.bind]
          cases close y rest <;> rfl
      | times => rfl
      | divide => rfl
      | closeParen => rfl
      | comma => rfl

theorem evaluateTokens_eq_plain :
    evaluateTokens size? ts =
      (plain (expression (factor size? maxNesting) ts)).bind fun y =>
        match y.2.head? with
        | none => .ok y.1
        | some token => .error (.trailing token) := by
  unfold evaluateTokens
  rcases expression (factor size? maxNesting) ts with e | ⟨y, rest, hy⟩
  · rfl
  · cases rest <;> rfl

end Plain

/-! ## Answers -/

/-- The program `p`, started at `s`, comes to the error, or to the value and to the tokens left. -/
inductive Answers (size? : String → Option Float) (tokens : List Token) (p : Program) (s : Cursor) :
    Except Error (Float × List Token) → Prop
  | returned {v s'} (h : Runs size? tokens p s (.ok v) s')
      (hwithin : s'.index ≤ max s.index tokens.length) :
      Answers size? tokens p s (.ok (v, tokens.drop s'.index))
  | raised {e s'} (h : Runs size? tokens p s (.error e) s') : Answers size? tokens p s (.error e)

section Answers

variable {size? : String → Option Float} {tokens : List Token} {p : Program} {c : Call}
  {k : Float → Program} {s : Cursor} {x : Except Error (Float × List Token)}

theorem Answers.look {k : Option Token → Program}
    (h : Answers size? tokens (k tokens[s.index]?) s x) : Answers size? tokens (.look k) s x := by
  cases h with
  | returned h hwithin => exact .returned (.look h) hwithin
  | raised h => exact .raised (.look h)

theorem Answers.advance (hs : s.index < tokens.length) (h : Answers size? tokens p s.next x) :
    Answers size? tokens (.advance p) s x := by
  cases h with
  | @returned v s' h hwithin =>
    have hnext : s'.index ≤ max (s.index + 1) tokens.length := hwithin
    exact .returned (.advance h) (by omega)
  | raised h => exact .raised (.advance h)

/-- What follows a call answers for what the call has left. -/
theorem Answers.call {f : Float × List Token → Except Error (Float × List Token)}
    (h : Answers size? tokens (.call c .value) s x)
    (hk : ∀ v s', Calls size? tokens c s (.ok v) s' →
      Answers size? tokens (k v) s' (f (v, tokens.drop s'.index))) :
    Answers size? tokens (.call c k) s (x.bind f) := by
  cases h with
  | raised h => exact .raised (Calls.raised h)
  | @returned v s' h hwithin =>
    show Answers size? tokens (.call c k) s (f (v, tokens.drop s'.index))
    have hanswer := hk v s' h
    generalize f (v, tokens.drop s'.index) = y at hanswer ⊢
    cases hanswer with
    | raised hrest => exact .raised (Calls.returned h hrest)
    | returned hrest hwithin' => exact .returned (Calls.returned h hrest) (by omega)

/-- A call answers as its body does where the call starts. -/
theorem Answers.of_body {s₁ : Cursor} (henter : c.enter s = some s₁)
    (h : Answers size? tokens (c.body size?) s₁ x) : Answers size? tokens (.call c .value) s x := by
  cases h with
  | raised h => exact .raised (.raised henter h)
  | @returned v s' h hwithin =>
    rw [Call.index_enter henter] at hwithin
    rw [← c.index_leave s'] at hwithin ⊢
    exact .returned (.returned henter h (.value v _)) hwithin

theorem answers_ofExcept (y : Except Error Float) (s : Cursor) :
    Answers size? tokens (.ofExcept y) s (y.map fun v => (v, tokens.drop s.index)) := by
  cases y with
  | error e => exact .raised (.raise e s)
  | ok v => exact .returned (.value v s) (Nat.le_max_left _ _)

theorem lt_length_of_getElem? {t : Token} (h : tokens[s.index]? = some t) :
    s.index < tokens.length := (List.getElem?_eq_some_iff.1 h).1

theorem answers_close {v : Float} {f : Float × List Token → Except Error (Float × List Token)}
    (h : Answers size? tokens p s.next (f (v, tokens.drop s.next.index))) :
    Answers size? tokens (.close p) s ((plain (close v (tokens.drop s.index))).bind f) := by
  refine .look ?_
  by_cases hclose : tokens[s.index]? = some (.symbol .closeParen)
  · rw [plain_close (by rwa [List.head?_drop]), List.tail_drop, hclose]
    exact .advance (lt_length_of_getElem? hclose) h
  · rw [plain_close_unclosed (by rwa [List.head?_drop]), List.head?_drop]
    split
    · next heq => exact absurd heq hclose
    · exact .raised (.raise _ s)

theorem answers_close_value (v : Float) (s : Cursor) :
    Answers size? tokens (.close (.value v)) s (plain (close v (tokens.drop s.index))) := by
  rw [← except_bind_ok (plain _)]
  exact answers_close (.returned (.value v s.next) (Nat.le_max_left _ _))

end Answers

/-! ## Loops and chains -/

section Chains

variable {size? : String → Option Float} {tokens : List Token} {l : Level}
  {operand factor : Operand} {d : Nat}

/-- Every round moves forward, so the induction is on the number of tokens left. -/
theorem answers_loop (hoperand : ∀ s : Cursor, s.depth = d →
      Answers size? tokens (.call l.operand .value) s (plain (operand (tokens.drop s.index))))
    {s : Cursor} (v : Float) (hs : s.depth = d) :
    Answers size? tokens (.call (.loop l v) .value) s
      (plain (chainTail l.operator? operand v (tokens.drop s.index))) := by
  induction hm : tokens.length - s.index using Nat.strongRecOn generalizing s v with
  | _ m ih =>
    refine .of_body rfl (.look ?_)
    cases hop : tokens[s.index]?.bind l.operator? with
    | none =>
      rw [plain_chainTail_stop (by rwa [List.head?_drop])]
      exact .returned (.value v s) (Nat.le_max_left _ _)
    | some combine =>
      obtain ⟨t, ht, -⟩ := Option.bind_eq_some_iff.1 hop
      have hlt := lt_length_of_getElem? ht
      rw [plain_chainTail_operator (by rwa [List.head?_drop]), List.tail_drop]
      refine .advance hlt (.call (hoperand s.next hs) fun w s' hw => ?_)
      have hkeeps : Keeps s.next s' := hw.keeps
      have hforward : s.index + 1 ≤ s'.index := hkeeps.forward
      cases hz : combine v w with
      | error e => exact .raised (.raise e s')
      | ok z => exact ih _ (by omega) z (hkeeps.depth.trans hs) rfl

theorem answers_chain (hoperand : ∀ s : Cursor, s.depth = d →
      Answers size? tokens (.call l.operand .value) s (plain (operand (tokens.drop s.index))))
    {s : Cursor} (hs : s.depth = d) :
    Answers size? tokens (.call (.chain l) .value) s
      (plain (chain l.operator? operand (tokens.drop s.index))) := by
  rw [plain_chain]
  refine .of_body rfl (.call (hoperand s hs) fun v s' hv => ?_)
  exact answers_loop hoperand v (hv.keeps.depth.trans hs)

section Factors

variable (hfactor : ∀ s : Cursor, s.depth = d →
  Answers size? tokens (.call .factor .value) s (plain (factor (tokens.drop s.index))))
  {s : Cursor} (hs : s.depth = d)

include hfactor hs

theorem answers_term :
    Answers size? tokens (.call .term .value) s (plain (term factor (tokens.drop s.index))) :=
  answers_chain hfactor hs

theorem answers_expression :
    Answers size? tokens (.call .expression .value) s
      (plain (expression factor (tokens.drop s.index))) :=
  answers_chain (fun _ h => answers_term hfactor h) hs

/-- The arguments that were read before are those in front. -/
theorem answers_arguments (f : Function) (first : Float) (others : List Float) :
    Answers size? tokens (.call (.arguments f first others) .value) s
      ((plain (argumentsTail factor (tokens.drop s.index))).bind fun q =>
        (plain (close first q.2)).bind fun y =>
          (apply f first (others ++ q.1)).map fun v => (v, y.2)) := by
  induction hm : tokens.length - s.index using Nat.strongRecOn generalizing s others with
  | _ m ih =>
    refine .of_body rfl (.look ?_)
    by_cases hcomma : tokens[s.index]? = some (.symbol .comma)
    · have hlt := lt_length_of_getElem? hcomma
      rw [plain_argumentsTail_comma (by rwa [List.head?_drop]), List.tail_drop, hcomma,
        except_bind_bind]
      refine .advance hlt (.call (answers_expression hfactor hs) fun v s' hv => ?_)
      have hkeeps : Keeps s.next s' := hv.keeps
      have hforward : s.index + 1 ≤ s'.index := hkeeps.forward
      have hnext := ih _ (by omega) (hkeeps.depth.trans hs) (others ++ [v]) rfl
      simp only [List.append_assoc, List.singleton_append] at hnext
      rwa [except_map_bind]
    · rw [plain_argumentsTail_stop (by rwa [List.head?_drop])]
      show Answers size? tokens _ s ((plain (close first (tokens.drop s.index))).bind fun y =>
        (apply f first (others ++ [])).map fun v => (v, y.2))
      rw [List.append_nil]
      split
      · next heq => exact absurd heq hcomma
      · exact answers_close (answers_ofExcept (apply f first others) s.next)

end Factors

end Chains

/-! ## Factors -/

section Factors

variable {size? : String → Option Float} {tokens : List Token}

/-- What a factor does once it is opened, by the token under the index. -/
theorem answers_body_factor {n d : Nat} (ih : ∀ s : Cursor, s.depth = d →
      Answers size? tokens (.call .factor .value) s
        (plain (factor size? n (tokens.drop s.index))))
    {s : Cursor} (hs : s.depth = d) :
    Answers size? tokens (Call.factor.body size?) s
      (plain (factor size? (n + 1) (tokens.drop s.index))) := by
  rw [plain_factor_succ, List.head?_drop, List.tail_drop]
  refine .look ?_
  cases htoken : tokens[s.index]? with
  | none => exact .raised (.raise _ s)
  | some t =>
    have hlt := lt_length_of_getElem? htoken
    cases t with
    | number m unit => exact .advance hlt (answers_ofExcept (quantity size? m unit) s.next)
    | function f =>
      dsimp only
      rw [plain_call]
      refine .advance hlt ?_
      refine .call (answers_expression ih hs) fun v s' hv => ?_
      have hkeeps : Keeps s.next s' := hv.keeps
      exact answers_arguments ih (hkeeps.depth.trans hs) f v []
    | symbol t =>
      cases t with
      | plus => exact .advance hlt (ih s.next hs)
      | minus =>
        dsimp only
        rw [except_map_eq_bind]
        refine .advance hlt (.call (ih s.next hs) fun v s' _ => ?_)
        exact .returned (.value (-v) s') (Nat.le_max_left _ _)
      | openParen =>
        dsimp only
        refine .advance hlt (.call (answers_expression ih hs) fun v s' _ => ?_)
        exact answers_close_value v s'
      | times => exact .raised (.raise _ s)
      | divide => exact .raised (.raise _ s)
      | closeParen => exact .raised (.raise _ s)
      | comma => exact .raised (.raise _ s)

/-- By induction on the levels that are left. -/
theorem answers_factor (n : Nat) (s : Cursor) (hn : maxNesting - s.depth = n) :
    Answers size? tokens (.call .factor .value) s
      (plain (factor size? n (tokens.drop s.index))) := by
  induction n generalizing s with
  | zero =>
    have henter : Call.factor.enter s = none := if_pos (Nat.le_of_sub_eq_zero hn)
    exact .raised (.refused henter)
  | succ n ih =>
    have hlt : s.depth < maxNesting := by omega
    have henter : Call.factor.enter s = some s.opened := if_neg (Nat.not_le.2 hlt)
    have hdeeper : ∀ s' : Cursor, s'.depth = s.depth + 1 →
        Answers size? tokens (.call .factor .value) s'
          (plain (factor size? n (tokens.drop s'.index))) := fun s' hs' => ih s' (by omega)
    exact .of_body henter (answers_body_factor hdeeper rfl)

/-! ## Whole lists of tokens -/

theorem exists_runs_parse :
    ∃ s', Runs size? tokens parse {} (evaluateTokens size? tokens) s' ∧
      ∀ v, evaluateTokens size? tokens = .ok v → s'.index = tokens.length := by
  have hexpression : Answers size? tokens (.call .expression .value) {}
      (plain (expression (factor size? maxNesting) tokens)) :=
    answers_expression (fun s hs => answers_factor maxNesting s (by rw [hs]; rfl)) rfl
  rw [evaluateTokens_eq_plain]
  generalize plain (expression (factor size? maxNesting) tokens) = x at hexpression ⊢
  cases hexpression with
  | @raised e s' h => exact ⟨s', Calls.raised h, nofun⟩
  | @returned v s' h hwithin =>
    simp only [Except.bind, List.head?_drop]
    cases htoken : tokens[s'.index]? with
    | none =>
      refine ⟨s', Calls.returned h (.look ?_), fun _ _ => ?_⟩
      · rw [htoken]
        exact .value v s'
      · have hout := List.getElem?_eq_none_iff.1 htoken
        have hlast : s'.index ≤ max 0 tokens.length := hwithin
        omega
    | some t =>
      refine ⟨s', Calls.returned h (.look ?_), nofun⟩
      rw [htoken]
      exact .raise _ s'

end Factors

end StyleEngine.Expression
