import StyleEngine.Expression.Evaluate

/-!
# The evaluator as procedures that share an index

The same grammar, read by procedures that call each other while they move one index along the
tokens and count the factors that are open.  What a procedure does up to its end is a program, in
which a call stands as it is written; so nothing bounds the recursion, and only what comes to an end
has an outcome.  An error ends all programs that are under way, and a factor is closed on that way
out as well.

    Runs p s r s' → Runs p s r' t → r = r' ∧ s' = t                      (Runs.unique)
    Runs p s r s' → s'.depth = s.depth ∧ s'.deepest ≤ max s.deepest 100  (Runs.keeps)
    Runs p s (.ok v) s' → SameWindow tokens s tokens' t (s'.index - s.index) →
      t.depth ≤ s.depth → ∃ t', Runs p t (.ok v) t' ∧ ...                (Runs.relocate)
-/

namespace StyleEngine.Expression

/-! ## Cursors -/

structure Cursor where
  index : Nat := 0
  /-- How many factors are open. -/
  depth : Nat := 0
  /-- The most factors that have been open at once. -/
  deepest : Nat := 0

namespace Cursor

def next (s : Cursor) : Cursor := { s with index := s.index + 1 }

def opened (s : Cursor) : Cursor :=
  { s with depth := s.depth + 1, deepest := max s.deepest (s.depth + 1) }

def closed (s : Cursor) : Cursor := { s with depth := s.depth - 1 }

end Cursor

/-! ## Programs -/

/-- What operators join: terms to sums, or factors to products. -/
inductive Level where
  | sum
  | product

def Level.operator? : Level → Operators
  | .sum => additive?
  | .product => multiplicative?

inductive Call where
  /-- An expression or a term: an operand and the loop behind it. -/
  | chain (l : Level)
  /-- The loop over operators and their right operands. -/
  | loop (l : Level) (value : Float)
  | factor
  /-- The loop over the arguments behind the first, up to the parenthesis. -/
  | arguments (f : Function) (first : Float) (others : List Float)

abbrev Call.expression : Call := .chain .sum

abbrev Call.term : Call := .chain .product

def Level.operand : Level → Call
  | .sum => .term
  | .product => .factor

inductive Program where
  | value (v : Float)
  | raise (e : Error)
  /-- Looks at the token under the index. -/
  | look (k : Option Token → Program)
  | advance (p : Program)
  | call (c : Call) (k : Float → Program)

namespace Program

def ofExcept : Except Error Float → Program
  | .ok v => .value v
  | .error e => .raise e

/-- Moves past a closing parenthesis. -/
def close (p : Program) : Program :=
  .look fun
    | some (.symbol .closeParen) => .advance p
    | found => .raise (.unclosed found)

end Program

section Runs

variable (size? : String → Option Float) (tokens : List Token)

/-- What a procedure does when it is called.  A round of a loop ends in the next one. -/
def Call.body : Call → Program
  | .chain l => .call l.operand fun v => .call (.loop l v) .value
  | .loop l v => .look fun found =>
    match found.bind l.operator? with
    | none => .value v
    | some combine => .advance (.call l.operand fun w =>
      match combine v w with
      | .ok x => .call (.loop l x) .value
      | .error e => .raise e)
  | .factor => .look fun
    | some (.symbol .plus) => .advance (.call .factor .value)
    | some (.symbol .minus) => .advance (.call .factor fun v => .value (-v))
    | some (.number n unit) => .advance (.ofExcept (quantity size? n unit))
    | some (.function f) =>
      .advance (.call .expression fun v => .call (.arguments f v []) .value)
    | some (.symbol .openParen) => .advance (.call .expression fun v => .close (.value v))
    | found => .raise (.unexpected found)
  | .arguments f first others => .look fun
    | some (.symbol .comma) =>
      .advance (.call .expression fun v => .call (.arguments f first (others ++ [v])) .value)
    | _ => .close (.ofExcept (apply f first others))

/-- A whole list of tokens as one expression. -/
def parse : Program :=
  .call .expression fun v => .look fun
    | none => .value v
    | some token => .raise (.trailing token)

/-! ## Runs -/

/-- Where a call starts: a factor is opened, unless too many are. -/
def Call.enter : Call → Cursor → Option Cursor
  | .factor, s => if maxNesting ≤ s.depth then none else some s.opened
  | _, s => some s

/-- Where a call ends, with a value or an error. -/
def Call.leave : Call → Cursor → Cursor
  | .factor, s => s.closed
  | _, s => s

/-- The program `p`, started at `s`, comes to its end at `s'` with the outcome `r`. -/
inductive Runs : Program → Cursor → Except Error Float → Cursor → Prop
  | value (v : Float) (s : Cursor) : Runs (.value v) s (.ok v) s
  | raise (e : Error) (s : Cursor) : Runs (.raise e) s (.error e) s
  | look {k s r s'} (h : Runs (k tokens[s.index]?) s r s') : Runs (.look k) s r s'
  | advance {p s r s'} (h : Runs p s.next r s') : Runs (.advance p) s r s'
  | refused {c k s} (h : c.enter s = none) : Runs (.call c k) s (.error .tooDeep) s
  | raised {c k s s₁ e s₂} (h : c.enter s = some s₁)
      (hbody : Runs (c.body size?) s₁ (.error e) s₂) :
      Runs (.call c k) s (.error e) (c.leave s₂)
  | returned {c k s s₁ v s₂ r s₃} (h : c.enter s = some s₁)
      (hbody : Runs (c.body size?) s₁ (.ok v) s₂) (hrest : Runs (k v) (c.leave s₂) r s₃) :
      Runs (.call c k) s r s₃

/-- A call comes to its end. -/
def Calls (c : Call) (s : Cursor) (r : Except Error Float) (s' : Cursor) : Prop :=
  Runs size? tokens (.call c .value) s r s'

end Runs

variable {size? : String → Option Float} {tokens tokens' : List Token} {p : Program} {c : Call}
  {s s' s₁ s₂ t : Cursor} {r r' : Except Error Float}

/-! ## Calls -/

theorem Calls.returned {k : Float → Program} {v : Float} (h : Calls size? tokens c s (.ok v) s')
    (hrest : Runs size? tokens (k v) s' r t) : Runs size? tokens (.call c k) s r t := by
  cases h with
  | returned henter hbody hvalue =>
    cases hvalue
    exact .returned henter hbody hrest

theorem Calls.raised {k : Float → Program} {e : Error} (h : Calls size? tokens c s (.error e) s') :
    Runs size? tokens (.call c k) s (.error e) s' := by
  cases h with
  | refused henter => exact .refused henter
  | raised henter hbody => exact .raised henter hbody
  | returned henter hbody hvalue => cases hvalue

/-- A call that opens no factor ends as its body does. -/
theorem calls_of_body (henter : c.enter s = some s) (hleave : ∀ s', c.leave s' = s')
    (h : Runs size? tokens (c.body size?) s r s') : Calls size? tokens c s r s' := by
  rw [← hleave s']
  cases r with
  | error e => exact Runs.raised henter h
  | ok v => exact Runs.returned henter h (.value v _)

/-! ## What every run keeps -/

theorem Call.enter_cases (h : c.enter s = some s₁) :
    (s₁ = s ∧ ∀ s₂, c.leave s₂ = s₂) ∨
      s.depth < maxNesting ∧ s₁ = s.opened ∧ ∀ s₂, c.leave s₂ = s₂.closed := by
  cases c with
  | factor =>
    right
    rw [Call.enter] at h
    split at h
    · cases h
    · next hlt => exact ⟨Nat.lt_of_not_le hlt, (Option.some.inj h).symm, fun _ => rfl⟩
  | chain l => exact .inl ⟨(Option.some.inj h).symm, fun _ => rfl⟩
  | loop l v => exact .inl ⟨(Option.some.inj h).symm, fun _ => rfl⟩
  | arguments f first others => exact .inl ⟨(Option.some.inj h).symm, fun _ => rfl⟩

/-- What a run changes in a cursor: the index goes forward, all factors that were opened are closed
again, and no more than 100 were open at once if no more were before. -/
structure Keeps (s s' : Cursor) : Prop where
  depth : s'.depth = s.depth
  forward : s.index ≤ s'.index
  deepest : s'.deepest ≤ max s.deepest maxNesting

theorem Keeps.refl (s : Cursor) : Keeps s s := ⟨rfl, Nat.le_refl _, Nat.le_max_left _ _⟩

theorem Keeps.trans (h : Keeps s s') (h' : Keeps s' t) : Keeps s t where
  depth := h'.depth.trans h.depth
  forward := Nat.le_trans h.forward h'.forward
  deepest := by
    have h₁ := h.deepest
    have h₂ := h'.deepest
    omega

theorem Keeps.of_next (h : Keeps s.next s') : Keeps s s' :=
  ⟨h.depth, Nat.le_of_succ_le h.forward, h.deepest⟩

/-- A call keeps what its body keeps, the factor that it opens being closed again. -/
theorem Keeps.leave (h : c.enter s = some s₁) (hbody : Keeps s₁ s₂) : Keeps s (c.leave s₂) := by
  rcases Call.enter_cases h with ⟨rfl, hleave⟩ | ⟨hlt, rfl, hleave⟩
  · rw [hleave]
    exact hbody
  · rw [hleave]
    have hdepth : s₂.depth = s.depth + 1 := hbody.depth
    have hdeepest : s₂.deepest ≤ max (max s.deepest (s.depth + 1)) maxNesting := hbody.deepest
    refine ⟨?_, hbody.forward, ?_⟩
    · show s₂.depth - 1 = s.depth
      omega
    · show s₂.deepest ≤ max s.deepest maxNesting
      omega

theorem Runs.keeps (h : Runs size? tokens p s r s') : Keeps s s' := by
  induction h with
  | value v s => exact .refl s
  | raise e s => exact .refl s
  | look _ ih => exact ih
  | advance _ ih => exact ih.of_next
  | refused _ => exact .refl _
  | raised h _ ih => exact ih.leave h
  | returned h _ _ ih ih' => exact (ih.leave h).trans ih'

/-- A program has one outcome at most. -/
theorem Runs.unique (h : Runs size? tokens p s r s') (h' : Runs size? tokens p s r' t) :
    r = r' ∧ s' = t := by
  induction h generalizing r' t with
  | value v s =>
    cases h'
    exact ⟨rfl, rfl⟩
  | raise e s =>
    cases h'
    exact ⟨rfl, rfl⟩
  | look _ ih =>
    cases h' with
    | look h' => exact ih h'
  | advance _ ih =>
    cases h' with
    | advance h' => exact ih h'
  | refused h =>
    cases h' with
    | refused _ => exact ⟨rfl, rfl⟩
    | raised h' _ => cases h.symm.trans h'
    | returned h' _ _ => cases h.symm.trans h'
  | raised h _ ih =>
    cases h' with
    | refused h' => cases h.symm.trans h'
    | raised h' hbody =>
      cases h.symm.trans h'
      obtain ⟨he, rfl⟩ := ih hbody
      exact ⟨congrArg _ (Except.error.inj he), rfl⟩
    | returned h' hbody _ =>
      cases h.symm.trans h'
      cases (ih hbody).1
  | returned h _ _ ih ih' =>
    cases h' with
    | refused h' => cases h.symm.trans h'
    | raised h' hbody =>
      cases h.symm.trans h'
      cases (ih hbody).1
    | returned h' hbody hrest =>
      cases h.symm.trans h'
      obtain ⟨hv, rfl⟩ := ih hbody
      cases hv
      exact ih' hrest

/-! ## What a run depends on -/

/-- From `s` and from `t` on, `n` tokens and the one behind them are the same. -/
def SameWindow (tokens : List Token) (s : Cursor) (tokens' : List Token) (t : Cursor) (n : Nat) :
    Prop :=
  ∀ k ≤ n, tokens'[t.index + k]? = tokens[s.index + k]?

theorem SameWindow.shift {t' : Cursor} {n m k : Nat} (h : SameWindow tokens s tokens' t n)
    (hs : s'.index = s.index + k) (ht : t'.index = t.index + k) (hm : k + m ≤ n) :
    SameWindow tokens s' tokens' t' m := by
  intro i hi
  rw [hs, ht, Nat.add_assoc, Nat.add_assoc]
  exact h (k + i) (by omega)

theorem Call.index_enter (h : c.enter s = some s₁) : s₁.index = s.index := by
  rcases Call.enter_cases h with ⟨rfl, -⟩ | ⟨-, rfl, -⟩ <;> rfl

theorem Call.index_leave (c : Call) (s : Cursor) : (c.leave s).index = s.index := by
  cases c <;> rfl

/-- Where less factors are open, a call starts as well. -/
theorem Call.exists_enter (h : c.enter s = some s₁) (hdepth : t.depth ≤ s.depth) :
    ∃ t₁, c.enter t = some t₁ ∧ t₁.depth ≤ s₁.depth := by
  cases c with
  | factor =>
    rcases Call.enter_cases h with ⟨-, hleave⟩ | ⟨hlt, rfl, -⟩
    · cases congrArg Cursor.depth (hleave { depth := 1 })
    · exact ⟨t.opened, if_neg (by omega), Nat.succ_le_succ hdepth⟩
  | chain l => exact ⟨t, rfl, Option.some.inj h ▸ hdepth⟩
  | loop l v => exact ⟨t, rfl, Option.some.inj h ▸ hdepth⟩
  | arguments f first others => exact ⟨t, rfl, Option.some.inj h ▸ hdepth⟩

/-- A run that returns looks at the tokens that it moves past and at the one behind them, so it can
be repeated wherever the same tokens stand and as many factors may be opened. -/
theorem Runs.relocate (h : Runs size? tokens p s r s') {v : Float} {n : Nat} (hr : r = .ok v)
    (hn : s'.index = s.index + n) (hsame : SameWindow tokens s tokens' t n)
    (hdepth : t.depth ≤ s.depth) :
    ∃ t', Runs size? tokens' p t (.ok v) t' ∧ t'.index = t.index + n := by
  induction h generalizing t v n with
  | value w s =>
    cases hr
    exact ⟨t, .value w t, by omega⟩
  | raise e s => cases hr
  | @look k s r s' _ ih =>
    have htoken : tokens'[t.index]? = tokens[s.index]? := hsame 0 (Nat.zero_le n)
    obtain ⟨t', ht, hindex⟩ := ih hr hn hsame hdepth
    exact ⟨t', .look (htoken ▸ ht), hindex⟩
  | @advance p s r s' hrun ih =>
    have hforward : s.index + 1 ≤ s'.index := hrun.keeps.forward
    obtain ⟨m, rfl⟩ : ∃ m, n = 1 + m := Nat.exists_eq_add_of_le (by omega)
    have hnext : SameWindow tokens s.next tokens' t.next m := hsame.shift rfl rfl (Nat.le_refl _)
    obtain ⟨t', ht, hindex⟩ := ih hr (hn.trans (Nat.add_assoc _ _ _).symm) hnext hdepth
    exact ⟨t', .advance ht, hindex.trans (Nat.add_assoc _ _ _)⟩
  | refused _ => cases hr
  | raised _ _ _ => cases hr
  | @returned c k s s₁ w s₂ r s₃ h hbody hrest ih ih' =>
    obtain ⟨t₁, ht₁, hdepth₁⟩ := Call.exists_enter h hdepth
    obtain ⟨a, ha⟩ := Nat.exists_eq_add_of_le hbody.keeps.forward
    obtain ⟨b, hb⟩ := Nat.exists_eq_add_of_le hrest.keeps.forward
    have hs₁ := Call.index_enter h
    have hs₂ := c.index_leave s₂
    have hab : n = a + b := by omega
    obtain ⟨t₂, ht₂, ha'⟩ := ih rfl ha
      (hsame.shift (hs₁.trans (Nat.add_zero _).symm)
        ((Call.index_enter ht₁).trans (Nat.add_zero _).symm) (by omega)) hdepth₁
    have hleave : (c.leave t₂).index = t.index + a := by
      rw [Call.index_leave, ha', Call.index_enter ht₁]
    have hclosed : (c.leave t₂).depth ≤ (c.leave s₂).depth := by
      rw [(ht₂.keeps.leave ht₁).depth, (hbody.keeps.leave h).depth]
      exact hdepth
    obtain ⟨t₃, ht₃, hb'⟩ := ih' hr hb (hsame.shift (by omega) hleave (by omega)) hclosed
    exact ⟨t₃, .returned ht₁ ht₂ ht₃, by omega⟩

/-- Wherever the same tokens stand, what is returned is the same, and so is the number of tokens
moved past. -/
theorem Runs.eq_of_sameWindow {v w : Float} {t' : Cursor} (h : Runs size? tokens p s (.ok v) s')
    (h' : Runs size? tokens' p t (.ok w) t')
    (hsame : SameWindow tokens s tokens' t (s'.index - s.index)) :
    w = v ∧ t'.index - t.index = s'.index - s.index := by
  -- both runs can be repeated where no factor is open, and there is one outcome there
  obtain ⟨u, hu, hclosed⟩ : ∃ u : Cursor, u.index = t.index ∧ u.depth = 0 :=
    ⟨{ t with depth := 0 }, rfl, rfl⟩
  have hthere : SameWindow tokens s tokens' u (s'.index - s.index) := by
    rw [SameWindow, hu]
    exact hsame
  have hback : SameWindow tokens' t tokens' u (t'.index - t.index) := by
    rw [SameWindow, hu]
    exact fun _ _ => rfl
  obtain ⟨u₁, hu₁, hindex⟩ := h.relocate rfl (Nat.add_sub_of_le h.keeps.forward).symm hthere
    (hclosed ▸ Nat.zero_le _)
  obtain ⟨u₂, hu₂, hindex'⟩ := h'.relocate rfl (Nat.add_sub_of_le h'.keeps.forward).symm hback
    (hclosed ▸ Nat.zero_le _)
  obtain ⟨hvalue, rfl⟩ := hu₁.unique hu₂
  exact ⟨(Except.ok.inj hvalue).symm, by omega⟩

end StyleEngine.Expression
