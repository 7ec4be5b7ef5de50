import StyleEngine.Proofs.Expression.Agreement

/-!
# Procedures make progress

A call of an expression, a term or a factor comes to an end from every cursor.  If it returns it has
moved forward and is not past the end, it has closed what it opened, and it would return the same
wherever the same tokens stand with the same token behind them.  So each round of a loop moves
forward by two tokens at least, and a list of tokens is read to a value or an error with no more
than 100 factors open at once.

    Calls c s (.ok v) s' → s.index < s'.index ∧ s'.index ≤ tokens.length (Progresses.advances)
    Round c s c' s' → s.index + 2 ≤ s'.index                             (Round.advances)
-/

namespace StyleEngine.Expression

variable {size? : String → Option Float} {tokens : List Token} {c c' : Call} {s s' : Cursor}

/-! ## Every call ends -/

theorem Answers.exists_runs {p : Program} {x : Except Error (Float × List Token)}
    (h : Answers size? tokens p s x) : ∃ r s', Runs size? tokens p s r s' := by
  cases h with
  | returned h _ => exact ⟨_, _, h⟩
  | raised h => exact ⟨_, _, h⟩

/-- What the evaluator reads for an operand, with the levels that are left. -/
def Level.reader (size? : String → Option Float) (levels : Nat) : Level → Operand
  | .sum => term (factor size? levels)
  | .product => factor size? levels

theorem answers_operand (l : Level) {n : Nat} (s : Cursor) (hn : maxNesting - s.depth = n) :
    Answers size? tokens (.call l.operand .value) s
      (plain (l.reader size? n (tokens.drop s.index))) := by
  cases l with
  | product => exact answers_factor n s hn
  | sum =>
    have hfactor : ∀ s' : Cursor, s'.depth = s.depth →
        Answers size? tokens (.call .factor .value) s'
          (plain (factor size? n (tokens.drop s'.index))) := fun s' hs' =>
      answers_factor n s' (hs' ▸ hn)
    exact answers_term hfactor rfl

theorem exists_calls (c : Call) (s : Cursor) : ∃ r s', Calls size? tokens c s r s' := by
  have hoperand : ∀ (l : Level) (s' : Cursor), s'.depth = s.depth →
      Answers size? tokens (.call l.operand .value) s'
        (plain (l.reader size? (maxNesting - s.depth) (tokens.drop s'.index))) :=
    fun l s' hs' => answers_operand l s' (by rw [hs'])
  cases c with
  | chain l => exact (answers_chain (hoperand l) rfl).exists_runs
  | loop l v => exact (answers_loop (hoperand l) v rfl).exists_runs
  | factor => exact (hoperand .product s rfl).exists_runs
  | arguments f first others =>
    exact (answers_arguments (hoperand .product) rfl f first others).exists_runs

/-! ## Calls -/

/-- What holds of a procedure that reads an operand, from every cursor in every list of tokens;
`operand` is the evaluator's, with the levels that are left. -/
structure Progresses (size? : String → Option Float) (c : Call) (operand : Nat → Operand) :
    Prop where
  /-- A call ends as the evaluator does for the levels and tokens that are left. -/
  evaluates : ∀ tokens s, ∃ s',
    Calls size? tokens c s
        ((operand (maxNesting - s.depth) (tokens.drop s.index)).map Prod.fst) s' ∧
      ∀ x, operand (maxNesting - s.depth) (tokens.drop s.index) = .ok x →
        tokens.drop s'.index = x.2
  advances : ∀ {tokens s v s'}, Calls size? tokens c s (.ok v) s' →
    s.index < s'.index ∧ s'.index ≤ tokens.length
  restores : ∀ {tokens s r s'}, Calls size? tokens c s r s' → s'.depth = s.depth
  /-- With the same tokens up to the one behind it, and no more factors open, a call returns the
  same. -/
  repeats : ∀ {tokens s v s' tokens' t}, Calls size? tokens c s (.ok v) s' →
    SameWindow tokens s tokens' t (s'.index - s.index) → t.depth ≤ s.depth →
      ∃ t', Calls size? tokens' c t (.ok v) t' ∧ t'.index - t.index = s'.index - s.index
  /-- With any number of factors open it returns nothing else. -/
  agrees : ∀ {tokens s v s' tokens' t w t'}, Calls size? tokens c s (.ok v) s' →
    SameWindow tokens s tokens' t (s'.index - s.index) → Calls size? tokens' c t (.ok w) t' →
      w = v ∧ t'.index - t.index = s'.index - s.index

theorem Answers.evaluates {P : List Token → Prop} {p : Program}
    {y : Except Error (Float × { rest : List Token // P rest })}
    (h : Answers size? tokens p s (plain y)) :
    ∃ s', Runs size? tokens p s (y.map Prod.fst) s' ∧
      ∀ x, y = .ok x → tokens.drop s'.index = x.2 := by
  cases y with
  | error e =>
    have h : Answers size? tokens p s (.error e) := h
    cases h with
    | raised h => exact ⟨_, h, nofun⟩
  | ok x =>
    obtain ⟨v, rest, hrest⟩ := x
    have h : Answers size? tokens p s (.ok (v, rest)) := h
    cases h with
    | @returned _ s' hrun _ =>
      refine ⟨s', hrun, fun x hx => ?_⟩
      cases hx
      rfl

/-- What the evaluator leaves is shorter, so the index has moved forward. -/
theorem Answers.advances {p : Program} {operand : Operand} {v : Float}
    (h : Answers size? tokens p s (plain (operand (tokens.drop s.index))))
    (hv : Runs size? tokens p s (.ok v) s') : s.index < s'.index ∧ s'.index ≤ tokens.length := by
  generalize hx : plain (operand (tokens.drop s.index)) = x at h
  cases h with
  | raised h => cases (h.unique hv).1
  | returned h hwithin =>
    obtain ⟨-, rfl⟩ := h.unique hv
    have hshorter : (tokens.drop _).length < (tokens.drop s.index).length := property_of_plain hx
    rw [List.length_drop, List.length_drop] at hshorter
    omega

theorem progresses_of_answers {operand : Nat → Operand} (h : ∀ tokens s,
    Answers size? tokens (.call c .value) s
      (plain (operand (maxNesting - s.depth) (tokens.drop s.index)))) :
    Progresses size? c operand where
  evaluates tokens s := (h tokens s).evaluates
  advances {tokens s _ _} hv := (h tokens s).advances hv
  restores hr := hr.keeps.depth
  repeats hv hsame hdepth := by
    obtain ⟨t', ht, hindex⟩ :=
      hv.relocate rfl (Nat.add_sub_of_le hv.keeps.forward).symm hsame hdepth
    exact ⟨t', ht, by omega⟩
  agrees hv hsame hw := hv.eq_of_sameWindow hw hsame

theorem progresses_operand (l : Level) :
    Progresses size? l.operand fun levels => l.reader size? levels :=
  progresses_of_answers fun _ s => answers_operand l s rfl

theorem progresses_factor : Progresses size? .factor (factor size?) := progresses_operand .product

theorem progresses_term : Progresses size? .term fun levels => term (factor size? levels) :=
  progresses_operand .sum

theorem progresses_expression :
    Progresses size? .expression fun levels => expression (factor size? levels) :=
  progresses_of_answers fun _ s =>
    answers_chain (l := .sum) (fun s' hs' => answers_operand .sum s' (by rw [hs'])) rfl

/-! ## Loops -/

/-- One round of a loop, after which the loop goes on. -/
inductive Round (size? : String → Option Float) (tokens : List Token) :
    Call → Cursor → Call → Cursor → Prop
  | operator {l v combine w x s s'} (h : tokens[s.index]?.bind l.operator? = some combine)
      (hoperand : Calls size? tokens l.operand s.next (.ok w) s') (hx : combine v w = .ok x) :
      Round size? tokens (.loop l v) s (.loop l x) s'
  | argument {f first others v s s'} (h : tokens[s.index]? = some (.symbol .comma))
      (hargument : Calls size? tokens .expression s.next (.ok v) s') :
      Round size? tokens (.arguments f first others) s (.arguments f first (others ++ [v])) s'

theorem Round.advances (h : Round size? tokens c s c' s') :
    s.index + 2 ≤ s'.index ∧ s'.index ≤ tokens.length := by
  cases h with
  | @operator l _ _ _ _ _ _ _ hoperand _ => exact (progresses_operand l).advances hoperand
  | argument _ hargument => exact progresses_expression.advances hargument

/-- The loop ends as it does from its next round on. -/
theorem Round.calls_iff (h : Round size? tokens c s c' s') (r : Except Error Float) (t : Cursor) :
    Calls size? tokens c s r t ↔ Calls size? tokens c' s' r t := by
  have hgoes : ∀ r t, Calls size? tokens c' s' r t → Calls size? tokens c s r t := by
    intro r t hc'
    cases h with
    | operator h hoperand hx =>
      refine calls_of_body rfl (fun _ => rfl) (.look ?_)
      rw [h]
      refine .advance (Calls.returned hoperand ?_)
      rwa [hx]
    | argument h hargument =>
      refine calls_of_body rfl (fun _ => rfl) (.look ?_)
      rw [h]
      exact .advance (Calls.returned hargument hc')
  constructor
  · intro hc
    obtain ⟨r', t', hc'⟩ := @exists_calls size? tokens c' s'
    obtain ⟨rfl, rfl⟩ := (hgoes r' t' hc').unique hc
    exact hc'
  · exact hgoes r t

/-! ## Lists of tokens -/

/-- Expressions, terms and factors make progress, return the same for the same tokens, and close
what they open; every round of a loop makes progress, and the loop goes on from there; and a list of
tokens comes to its value, at the end of the list, or to its error with no more than 100 factors
open at once. -/
theorem procedures_make_progress (size? : String → Option Float) :
    (Progresses size? .expression (fun levels => expression (factor size? levels)) ∧
      Progresses size? .term (fun levels => term (factor size? levels)) ∧
      Progresses size? .factor (factor size?)) ∧
    (∀ tokens c s c' s', Round size? tokens c s c' s' →
      s.index + 2 ≤ s'.index ∧ s'.index ≤ tokens.length ∧
        ∀ r t, Calls size? tokens c s r t ↔ Calls size? tokens c' s' r t) ∧
    ∀ tokens, ∃ s', s'.depth = 0 ∧ s'.deepest ≤ 100 ∧
      (∀ v, evaluateTokens size? tokens = .ok v → s'.index = tokens.length) ∧
        ∀ r t, Runs size? tokens parse {} r t ↔ r = evaluateTokens size? tokens ∧ t = s' := by
  refine ⟨⟨progresses_expression, progresses_term, progresses_factor⟩, ?_, ?_⟩
  · intro tokens c s c' s' h
    exact ⟨h.advances.1, h.advances.2, h.calls_iff⟩
  · intro tokens
    obtain ⟨s', hrun, hlast⟩ := @exists_runs_parse size? tokens
    refine ⟨s', hrun.keeps.depth, hrun.keeps.deepest, hlast, fun r t => ?_⟩
    constructor
    · intro h
      obtain ⟨rfl, rfl⟩ := hrun.unique h
      exact ⟨rfl, rfl⟩
    · rintro ⟨rfl, rfl⟩
      exact hrun

end StyleEngine.Expression
