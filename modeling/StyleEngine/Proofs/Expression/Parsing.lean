import StyleEngine.Proofs.Expression.Reading
import StyleEngine.Proofs.Expression.Unambiguous

/-!
# What the evaluator accepts

An operand parses a phrase if what it reads are the tokens of the trees of the phrase, and the
value it returns is the value of the tree.  A chain of operands parses the chains of the phrase, so
an evaluator for factors gives one for terms and for expressions, and factors follow by induction
on the levels they may open.

    Parses (factor size? n) (factors n) (Factor.value size?)           (parses_factors)
    evaluateTokens size? ts = .ok v ↔ Evaluates size? ts v             (evaluateTokens_eq_ok_iff)
-/

namespace StyleEngine.Expression

variable {Op α : Type}

/-! ## Chains -/

/-- What an operand reads are the tokens of valid trees, and what it returns is their value. -/
def Parses (operand : Operand) (L : Phrase α) (value : α → Option Float) : Prop :=
  ∀ ts v rest, Reads operand ts v rest ↔
    ∃ a, L.Valid a ∧ L.Ends rest ∧ ts = L.tokens a ++ rest ∧ value a = some v

/-- The tokens that join operands, and what they do to the values at their sides. -/
structure Operators.Mean (operator? : Operators) (token : Op → Token)
    (combine : Op → Float → Float → Option Float) : Prop where
  operator : ∀ op, ∃ f, operator? (token op) = some f ∧
    ∀ x y z, f x y = .ok z ↔ combine op x y = some z
  stop : ∀ t, (∀ op, t ≠ token op) → operator? t = none

section Chains

variable {L : Phrase α} {value : α → Option Float} {operator? : Operators} {operand : Operand}
  {token : Op → Token} {combine : Op → Float → Float → Option Float}

/-- What a chain reads after its first operand are operators with their right operands.  Every
operand shortens the tokens, so the induction is on a bound of their number. -/
theorem ReadsTail.sound (hp : Parses operand L value) (hm : operator?.Mean token combine) :
    ∀ (n : Nat) (ts : List Token) (x v : Float) (rest : List Token), ts.length ≤ n → L.Ends ts →
      ReadsTail operator? operand x ts v rest →
      ∃ xs : List (Op × α), (∀ a ∈ xs, L.Valid a.2) ∧ (L.chain token).Ends rest ∧
        ts = L.tail token xs ++ rest ∧
        valueRest combine x (xs.map fun a => (a.1, value a.2)) = some v := by
  intro n
  induction n with
  | zero =>
    intro ts x v rest hn hts h
    obtain rfl := List.length_eq_zero_iff.1 (Nat.le_zero.1 hn)
    obtain ⟨rfl, rfl⟩ := (readsTail_nil_iff x v rest).1 h
    exact ⟨[], by simp only [List.not_mem_nil, false_implies, implies_true],
      ⟨hts, by intro op rest h; cases h⟩, rfl, rfl⟩
  | succ n ih =>
    intro ts x v rest hn hts h
    rcases ts with _ | ⟨t, ts⟩
    · exact ih [] x v rest (Nat.zero_le _) hts h
    · by_cases ht : ∃ op, t = token op
      · obtain ⟨op, rfl⟩ := ht
        obtain ⟨f, hf, hcombine⟩ := hm.operator op
        obtain ⟨y, ts₁, z, hy, hz, hrest⟩ := (readsTail_operator_iff hf x v ts rest).1 h
        have hlt : ts₁.length ≤ n := by
          have := hy.length_lt
          rw [List.length_cons] at hn
          omega
        obtain ⟨a, ha, hends, rfl, hvalue⟩ := (hp ts y ts₁).1 hy
        obtain ⟨xs, hxs, hrests, rfl, hv⟩ := ih ts₁ z v rest hlt hends hrest
        refine ⟨(op, a) :: xs, List.forall_mem_cons.2 ⟨ha, hxs⟩, hrests, ?_, ?_⟩
        · rw [Phrase.tail_cons, List.cons_append, List.append_assoc]
        · simp only [List.map_cons, valueRest, hvalue, Option.bind_eq_bind, Option.bind_some,
            (hcombine x y z).1 hz, hv]
      · have hop : ∀ op, t ≠ token op := fun op h => ht ⟨op, h⟩
        obtain ⟨rfl, rfl⟩ := (readsTail_stop_iff (hm.stop t hop) x v ts rest).1 h
        refine ⟨[], by simp only [List.not_mem_nil, false_implies, implies_true], ⟨hts, ?_⟩,
          rfl, rfl⟩
        intro op rest h
        exact hop op (List.cons.inj h).1

/-- Operators with their right operands are read one by one, up to the first token that is none. -/
theorem ReadsTail.complete (hp : Parses operand L value) (hj : L.Joined token)
    (hm : operator?.Mean token combine) {v : Float} {rest : List Token}
    (hrest : (L.chain token).Ends rest) (xs : List (Op × α)) :
    ∀ x, (∀ a ∈ xs, L.Valid a.2) →
      valueRest combine x (xs.map fun a => (a.1, value a.2)) = some v →
      ReadsTail operator? operand x (L.tail token xs ++ rest) v rest := by
  induction xs with
  | nil =>
    intro x _ hv
    cases hv
    rcases rest with _ | ⟨t, rest⟩
    · exact (readsTail_nil_iff v v []).2 ⟨rfl, rfl⟩
    · refine (readsTail_stop_iff (hm.stop t ?_) v v rest _).2 ⟨rfl, rfl⟩
      intro op ht
      exact hrest.2 op rest (by rw [ht])
  | cons a xs ih =>
    intro x hxs hv
    rw [List.forall_mem_cons] at hxs
    rw [List.map_cons, valueRest] at hv
    obtain ⟨y, hy, hv⟩ := Option.bind_eq_some_iff.1 hv
    obtain ⟨z, hz, hv⟩ := Option.bind_eq_some_iff.1 hv
    obtain ⟨f, hf, hcombine⟩ := hm.operator a.1
    rw [Phrase.tail_cons, List.cons_append, List.append_assoc]
    exact (readsTail_operator_iff hf x v _ rest).2 ⟨y, _, z,
      (hp _ y _).2 ⟨a.2, hxs.1, hj.ends_tail xs hrest.1, rfl, hy⟩, (hcombine x y z).2 hz,
      ih z hxs.2 hv⟩

/-- An operand that parses a phrase gives a chain that parses its chains. -/
theorem parses_chain (hp : Parses operand L value) (hj : L.Joined token)
    (hm : operator?.Mean token combine) :
    Parses (chain operator? operand) (L.chain token) fun c => (c.map value).value combine := by
  intro ts v rest
  rw [reads_chain_iff]
  constructor
  · rintro ⟨x, ts₁, hx, htail⟩
    obtain ⟨a, ha, hends, rfl, hvalue⟩ := (hp ts x ts₁).1 hx
    obtain ⟨xs, hxs, hrest, rfl, hv⟩ := htail.sound hp hm _ ts₁ x v rest (Nat.le_refl _) hends
    refine ⟨⟨a, xs⟩, ⟨ha, hxs⟩, hrest, ?_, ?_⟩
    · rw [Phrase.tokens_chain, List.append_assoc]
    · simp only [Chain.value, Chain.map, hvalue, Option.bind_eq_bind, Option.bind_some, hv]
  · rintro ⟨⟨a, xs⟩, hc, hrest, rfl, hv⟩
    obtain ⟨x, hx, hv⟩ := Option.bind_eq_some_iff.1 hv
    rw [Phrase.tokens_chain, List.append_assoc]
    exact ⟨x, _, (hp _ x _).2 ⟨a, hc.1, hj.ends_tail xs hrest.1, rfl, hx⟩,
      ReadsTail.complete hp hj hm hrest xs x hc.2 hv⟩

end Chains

/-! ## Terms and expressions -/

theorem divide_eq_ok_iff (x y z : Float) :
    divide x y = .ok z ↔ Multiplicative.combine .divide x y = some z := by
  unfold divide Multiplicative.combine
  by_cases hy : (y == 0) = true
  · rw [if_pos hy]
    simp only [hy, if_true, reduceCtorEq]
  · rw [if_neg hy]
    simp only [hy, Bool.false_eq_true, if_false, Except.ok.injEq, Option.some.injEq]

theorem mean_multiplicative :
    multiplicative?.Mean Multiplicative.token Multiplicative.combine where
  operator op := by
    cases op with
    | times => exact ⟨_, rfl, fun x y z => by simp only [Except.ok.injEq, Multiplicative.combine,
        Option.some.injEq]⟩
    | divide => exact ⟨_, rfl, divide_eq_ok_iff⟩
  stop t ht := by
    unfold multiplicative?
    split
    · exact absurd rfl (ht .times)
    · exact absurd rfl (ht .divide)
    · rfl

theorem mean_additive : additive?.Mean Additive.token Additive.combine where
  operator op := by
    cases op with
    | plus => exact ⟨_, rfl, fun x y z => by simp only [Except.ok.injEq, Additive.combine,
        Option.some.injEq]⟩
    | minus => exact ⟨_, rfl, fun x y z => by simp only [Except.ok.injEq, Additive.combine,
        Option.some.injEq]⟩
  stop t ht := by
    unfold additive?
    split
    · exact absurd rfl (ht .plus)
    · exact absurd rfl (ht .minus)
    · rfl

section Levels

variable {size? : String → Option Float} {n : Nat} {factor : Operand}

theorem parses_term (hf : Parses factor (factors n) (Factor.value size?)) :
    Parses (term factor) (terms n) (Term.value size?) :=
  parses_chain hf (joined_factors n) mean_multiplicative

theorem parses_expression (hf : Parses factor (factors n) (Factor.value size?)) :
    Parses (expression factor) (expressions n) (Expr.value size?) :=
  parses_chain (parses_term hf) (joined_terms n) mean_additive

/-! ## Arguments -/

theorem ReadsArguments.sound
    (he : Parses (expression factor) (expressions n) (Expr.value size?)) :
    ∀ (m : Nat) (ts : List Token) (vs : List Float) (rest : List Token), ts.length ≤ m →
      (expressions n).Ends ts → ReadsArguments factor ts vs rest →
      ∃ es : List (Comma × Expr), (∀ e ∈ es, (expressions n).Valid e.2) ∧
        (arguments n).Ends rest ∧ ts = (expressions n).tail Comma.token es ++ rest ∧
        es.mapM (fun e => e.2.value size?) = some vs := by
  intro m
  induction m with
  | zero =>
    intro ts vs rest hm hts h
    obtain rfl := List.length_eq_zero_iff.1 (Nat.le_zero.1 hm)
    obtain ⟨rfl, rfl⟩ := (readsArguments_stop_iff (fun ts' h => by cases h) vs rest).1 h
    exact ⟨[], by simp only [List.not_mem_nil, false_implies, implies_true],
      ⟨hts, by intro op rest h; cases h⟩, rfl, rfl⟩
  | succ m ih =>
    intro ts vs rest hm hts h
    by_cases hcomma : ∃ ts', ts = .symbol .comma :: ts'
    · obtain ⟨ts, rfl⟩ := hcomma
      obtain ⟨x, ts₁, xs, hx, hxs, rfl⟩ := (readsArguments_comma_iff ts vs rest).1 h
      have hlt : ts₁.length ≤ m := by
        have := hx.length_lt
        rw [List.length_cons] at hm
        omega
      obtain ⟨e, hvalid, hends, rfl, hvalue⟩ := (he ts x ts₁).1 hx
      obtain ⟨es, hes, hrest, rfl, hvs⟩ := ih ts₁ xs rest hlt hends hxs
      refine ⟨(.comma, e) :: es, List.forall_mem_cons.2 ⟨hvalid, hes⟩, hrest, ?_, ?_⟩
      · rw [Phrase.tail_cons, List.cons_append, List.append_assoc]
        rfl
      · simp only [List.mapM_cons, hvalue, hvs, Option.bind_eq_bind, Option.bind_some,
          Option.pure_def]
    · have hstop : ∀ ts', ts ≠ .symbol .comma :: ts' := fun ts' h => hcomma ⟨ts', h⟩
      obtain ⟨rfl, rfl⟩ := (readsArguments_stop_iff hstop vs rest).1 h
      refine ⟨[], by simp only [List.not_mem_nil, false_implies, implies_true], ⟨hts, ?_⟩,
        rfl, rfl⟩
      intro op
      exact hstop

theorem ReadsArguments.complete
    (he : Parses (expression factor) (expressions n) (Expr.value size?)) {rest : List Token}
    (hrest : (arguments n).Ends rest) (es : List (Comma × Expr)) :
    ∀ vs, (∀ e ∈ es, (expressions n).Valid e.2) →
      es.mapM (fun e => e.2.value size?) = some vs →
      ReadsArguments factor ((expressions n).tail Comma.token es ++ rest) vs rest := by
  induction es with
  | nil =>
    intro vs _ hvs
    cases hvs
    refine (readsArguments_stop_iff ?_ [] rest).2 ⟨rfl, rfl⟩
    exact hrest.2 .comma
  | cons e es ih =>
    intro vs hes hvs
    rw [List.forall_mem_cons] at hes
    rw [List.mapM_cons] at hvs
    obtain ⟨x, hx, hvs⟩ := Option.bind_eq_some_iff.1 hvs
    obtain ⟨xs, hxs, hvs⟩ := Option.bind_eq_some_iff.1 hvs
    cases hvs
    rw [Phrase.tail_cons, List.cons_append, List.append_assoc]
    exact (readsArguments_comma_iff _ _ rest).2 ⟨x, _, xs,
      (he _ x _).2 ⟨e.2, hes.1, (joined_expressions n).ends_tail es hrest.1, rfl, hx⟩,
      ih xs hes.2 hxs, rfl⟩

theorem apply_eq_ok_iff (f : Function) (x : Float) (xs : List Float) (v : Float) :
    apply f x xs = .ok v ↔ f.value x xs = some v := by
  rcases f with _ | _ | _
  · rcases xs with _ | ⟨y, ys⟩
    · show Except.ok x = .ok v ↔ some x = some v
      rw [Except.ok.injEq, Option.some.injEq]
    · show Except.error Error.calcArity = .ok v ↔ none = some v
      simp only [reduceCtorEq]
  · simp only [apply, Function.value, Except.ok.injEq, Option.some.injEq]
  · simp only [apply, Function.value, Except.ok.injEq, Option.some.injEq]

theorem reads_call_iff_exists
    (he : Parses (expression factor) (expressions n) (Expr.value size?)) (f : Function)
    (ts : List Token) (v : Float) (rest : List Token) :
    Reads (call factor f) ts v rest ↔
      ∃ es : Arguments, es.nesting < n ∧ ts = es.tokens ++ .symbol .closeParen :: rest ∧
        (es.map (Expr.value size?)).apply f = some v := by
  rw [reads_call_iff]
  constructor
  · rintro ⟨x, ts₁, xs, hx, hxs, hv⟩
    obtain ⟨e, hvalid, hends, rfl, hvalue⟩ := (he ts x ts₁).1 hx
    obtain ⟨es, hes, -, rfl, hvs⟩ := hxs.sound he _ ts₁ xs _ (Nat.le_refl _) hends
    refine ⟨⟨e, es⟩, (valid_arguments_iff n ⟨e, es⟩).1 ⟨hvalid, hes⟩, ?_, ?_⟩
    · exact (List.append_assoc _ _ _).symm
    · have hvs' : (Chain.map (Expr.value size?) ⟨e, es⟩).rest.mapM Prod.snd = some xs := by
        rw [Chain.map, List.mapM_map]
        exact hvs
      exact Option.bind_eq_some_iff.2 ⟨x, hvalue, Option.bind_eq_some_iff.2
        ⟨xs, hvs', (apply_eq_ok_iff f x xs v).1 hv⟩⟩
  · rintro ⟨⟨e, es⟩, hn, rfl, hv⟩
    have hvalid := (valid_arguments_iff n ⟨e, es⟩).2 hn
    obtain ⟨x, hx, hv⟩ := Option.bind_eq_some_iff.1 hv
    obtain ⟨xs, hxs, hv⟩ := Option.bind_eq_some_iff.1 hv
    rw [Chain.map, List.mapM_map] at hxs
    have hends := ends_closeParen n rest
    refine ⟨x, _, xs, (he _ x _).2 ⟨e, hvalid.1, ?_, ?_, hx⟩,
      ReadsArguments.complete he hends es xs hvalid.2 hxs, (apply_eq_ok_iff f x xs v).2 hv⟩
    · exact (joined_expressions n).ends_tail es hends.1
    · exact List.append_assoc _ _ _

end Levels

/-! ## Factors -/

variable {size? : String → Option Float}

section Factors

variable {n : Nat} {ts rest : List Token} {v : Float}
  (ih : Parses (factor size? n) (factors n) (Factor.value size?))

include ih

/-- What a factor reads is a tree, by its first token. -/
theorem Reads.sound (h : Reads (factor size? (n + 1)) ts v rest) :
    ∃ f : Factor, f.nesting < n + 1 ∧ ts = f.tokens ++ rest ∧ f.value size? = some v := by
  have he := parses_expression ih
  rcases h.first with ⟨m, unit, ts, rfl⟩ | ⟨sign, ts, rfl⟩ | ⟨f, ts, rfl⟩ | ⟨ts, rfl⟩
  · obtain ⟨rfl, hv⟩ := (reads_number_iff m unit).1 h
    exact ⟨.number m unit, Nat.succ_pos n, rfl, hv⟩
  · obtain ⟨x, hx, rfl⟩ := (reads_signed_iff sign).1 h
    obtain ⟨f, hf, -, rfl, hvalue⟩ := (ih ts x rest).1 hx
    refine ⟨.signed sign f, Nat.succ_lt_succ hf, rfl, ?_⟩
    show (f.value size?).map sign.sign = some (sign.sign x)
    rw [hvalue, Option.map_some]
  · obtain ⟨es, hn, rfl, hv⟩ :=
      (reads_call_iff_exists he f ts v rest).1 ((reads_function_iff f).1 h)
    refine ⟨.call f es, ?_, ?_, ?_⟩
    · rw [Factor.nesting_call]
      omega
    · rw [Factor.tokens_call, List.cons_append, List.append_assoc]
      rfl
    · rw [Factor.value_call]
      exact hv
  · obtain ⟨e, hvalid, -, rfl, hv⟩ := (he ts v _).1 (reads_group_iff.1 h)
    have hn := (valid_expressions_iff n e).1 hvalid
    refine ⟨.group e, ?_, ?_, ?_⟩
    · rw [Factor.nesting_group]
      omega
    · rw [Factor.tokens_group, List.cons_append, List.append_assoc]
      rfl
    · rw [Factor.value_group]
      exact hv

/-- Every tree with levels enough and a value is read. -/
theorem Reads.complete (f : Factor) (hn : f.nesting < n + 1) (hv : f.value size? = some v) :
    Reads (factor size? (n + 1)) (f.tokens ++ rest) v rest := by
  have he := parses_expression ih
  cases f with
  | number m unit => exact (reads_number_iff m unit).2 ⟨rfl, hv⟩
  | signed sign f =>
    obtain ⟨x, hx, rfl⟩ := Option.map_eq_some_iff.1 hv
    rw [Factor.tokens_signed]
    exact (reads_signed_iff sign).2 ⟨x, (ih _ x rest).2
      ⟨f, Nat.lt_of_succ_lt_succ hn, trivial, rfl, hx⟩, rfl⟩
  | call f es =>
    rw [Factor.nesting_call] at hn
    rw [Factor.value_call] at hv
    rw [Factor.tokens_call, List.cons_append, List.append_assoc]
    exact (reads_function_iff f).2 ((reads_call_iff_exists he f _ v rest).2
      ⟨es, Nat.lt_of_succ_lt_succ hn, rfl, hv⟩)
  | group e =>
    rw [Factor.nesting_group] at hn
    rw [Factor.value_group] at hv
    rw [Factor.tokens_group, List.cons_append, List.append_assoc]
    exact reads_group_iff.2 ((he _ v _).2
      ⟨e, (valid_expressions_iff n e).2 (Nat.lt_of_succ_lt_succ hn),
        (ends_closeParen n rest).1, rfl, hv⟩)

end Factors

/-- A factor with `n` levels to open reads the trees with less than `n` levels. -/
theorem parses_factors (n : Nat) :
    Parses (factor size? n) (factors n) (Factor.value size?) := by
  induction n with
  | zero =>
    intro ts v rest
    constructor
    · intro h
      exact absurd h (not_reads_factor_zero ts v rest)
    · rintro ⟨f, hf, -⟩
      exact absurd hf (Nat.not_lt_zero _)
  | succ n ih =>
    intro ts v rest
    constructor
    · intro h
      obtain ⟨f, hn, hts, hv⟩ := h.sound ih
      exact ⟨f, hn, trivial, hts, hv⟩
    · rintro ⟨f, hn, -, rfl, hv⟩
      exact Reads.complete ih f hn hv

/-! ## Whole expressions -/

/-- `v` is the value of a tree for the tokens `ts` that is nested less than 100 deep. -/
def Evaluates (size? : String → Option Float) (ts : List Token) (v : Float) : Prop :=
  ∃ e : Expr, e.tokens = ts ∧ e.nesting < 100 ∧ e.value size? = some v

theorem evaluateTokens_eq_ok_iff (ts : List Token) (v : Float) :
    evaluateTokens size? ts = .ok v ↔ Evaluates size? ts v := by
  have he : Parses (expression (factor size? maxNesting)) (expressions 100) (Expr.value size?) :=
    parses_expression (parses_factors 100)
  have hreads : evaluateTokens size? ts = .ok v ↔
      Reads (expression (factor size? maxNesting)) ts v [] := by
    unfold evaluateTokens Reads
    constructor
    · intro heq
      split at heq
      · cases heq
      · next h hx =>
        cases heq
        exact ⟨h, hx⟩
      · cases heq
    · rintro ⟨h, hx⟩
      simp only [hx]
  rw [hreads, he]
  constructor
  · rintro ⟨e, hvalid, -, rfl, hv⟩
    exact ⟨e, (List.append_nil _).symm, (valid_expressions_iff 100 e).1 hvalid, hv⟩
  · rintro ⟨e, rfl, hn, hv⟩
    exact ⟨e, (valid_expressions_iff 100 e).2 hn, ends_nil 100, (List.append_nil _).symm, hv⟩

theorem evaluateTokens_error {ts : List Token} (h : ∀ v, ¬ Evaluates size? ts v) :
    ∃ e, evaluateTokens size? ts = .error e := by
  cases hv : evaluateTokens size? ts with
  | error e => exact ⟨e, rfl⟩
  | ok v => exact absurd ((evaluateTokens_eq_ok_iff ts v).1 hv) (h v)

theorem convert_eq_nan {key text : String} {units : Units} {ts : List Token}
    (hts : tokenize text = .ok ts)
    (h : ∀ v, Evaluates (units.size? key) ts v → v.isFinite = false) :
    convert key (.text text) units = nan := by
  unfold convert evaluate
  simp only [hts]
  split
  · rfl
  · next v hv =>
    rw [if_neg]
    rw [h v ((evaluateTokens_eq_ok_iff ts v).1 hv)]
    exact Bool.false_ne_true

theorem convert_eq_value {key text : String} {units : Units} {ts : List Token} {v : Float}
    (hts : tokenize text = .ok ts) (h : Evaluates (units.size? key) ts v)
    (hv : v.isFinite = true) : convert key (.text text) units = v := by
  have heval : evaluate key text units = .ok v := by
    unfold evaluate
    rw [hts]
    exact (evaluateTokens_eq_ok_iff ts v).2 h
  unfold convert
  simp only [heval, hv, if_true]

section Trees

variable {key text : String} {units : Units} {e : Expr} (htext : tokenize text = .ok e.tokens)

include htext

/-- No other tree has the same tokens, so there is no other value. -/
theorem convert_of_value {v : Float} (hn : e.nesting < 100)
    (hv : e.value (units.size? key) = some v) :
    convert key (.text text) units = if v.isFinite then v else nan := by
  split
  · next hfinite => exact convert_eq_value htext ⟨e, rfl, hn, hv⟩ hfinite
  · next hfinite =>
    refine convert_eq_nan htext ?_
    rintro w ⟨e', htokens, -, hw⟩
    rw [Expr.eq_of_tokens_eq htokens, hv] at hw
    rw [← Option.some.inj hw]
    exact Bool.eq_false_iff.2 hfinite

theorem convert_of_no_value (h : e.nesting < 100 → e.value (units.size? key) = none) :
    convert key (.text text) units = nan := by
  refine convert_eq_nan htext ?_
  rintro v ⟨e', htokens, hn, hv⟩
  rw [Expr.eq_of_tokens_eq htokens] at hn hv
  rw [h hn] at hv
  cases hv

end Trees

/-- The evaluator implements its grammar: it returns the value of the only tree that spells the
tokens, it finds every tree nested less than 100 deep that has a value, and in every other case it
reports an error, which a conversion turns into NaN. -/
theorem evaluateTokens_implements_grammar (size? : String → Option Float) (ts : List Token) :
    (∀ v, evaluateTokens size? ts = .ok v →
      ∃ e : Expr, e.tokens = ts ∧ (∀ e' : Expr, e'.tokens = ts → e' = e) ∧ e.nesting < 100 ∧
        e.value size? = some v) ∧
    (∀ (e : Expr) (v : Float), e.tokens = ts → e.nesting < 100 → e.value size? = some v →
      evaluateTokens size? ts = .ok v) ∧
    ((∀ v, ¬ Evaluates size? ts v) → ∃ err, evaluateTokens size? ts = .error err) ∧
    (∀ (key text : String) (units : Units), units.size? key = size? → tokenize text = .ok ts →
      (∀ v, Evaluates size? ts v → v.isFinite = false) →
      convert key (.text text) units = nan) := by
  refine ⟨?_, ?_, evaluateTokens_error, ?_⟩
  · intro v hv
    obtain ⟨e, hts, hn, hvalue⟩ := (evaluateTokens_eq_ok_iff ts v).1 hv
    exact ⟨e, hts, fun e' he' => Expr.eq_of_tokens_eq (he'.trans hts.symm), hn, hvalue⟩
  · intro e v hts hn hvalue
    exact (evaluateTokens_eq_ok_iff ts v).2 ⟨e, hts, hn, hvalue⟩
  · rintro key text units rfl hts h
    exact convert_eq_nan hts h

end StyleEngine.Expression
