import StyleEngine.Proofs.Expression.Arguments
import StyleEngine.Proofs.Float.Rank

/-!
# The order of arguments

The least and the greatest of some numbers are the same in every order, and arguments that come to
NaN are passed over wherever they stand, but in front: an argument in front of all others is kept
beside NaN, so a call whose first argument comes to NaN comes to NaN.

    ComesToNaN key units a → convert key (callText f (a :: as)) units = nan
    (a :: as).Perm (b :: bs) → (ComesToNaN key units a ↔ ComesToNaN key units b) →
      SameNumber (convert key (callText f (a :: as)) units)
        (convert key (callText f (b :: bs)) units)                 (convert_reordered_arguments)
-/

namespace StyleEngine.Expression

open Text

/-! ## Functions of the same numbers -/

section Functions

variable {x y v : Float} {xs ys : List Float}

theorem Function.value_of_nan {f : Function} (hx : x.isNaN = true) (hv : f.value x xs = some v) :
    v = x := by
  have hnone := rank?_eq_none_iff.2 hx
  match f with
  | .calc =>
    change (if xs = [] then some x else none) = some v at hv
    split at hv
    · exact (Option.some.inj hv).symm
    · cases hv
  | .min => exact (Option.some.inj hv).symm.trans (selects_least.foldl_of_rank?_eq_none hnone xs)
  | .max => exact (Option.some.inj hv).symm.trans (selects_greatest.foldl_of_rank?_eq_none hnone xs)

theorem Function.sameNumber_value (f : Function) (hperm : (x :: xs).Perm (y :: ys))
    (hfirst : x.isNaN = true ↔ y.isNaN = true) :
    Option.Rel SameNumber (f.value x xs) (f.value y ys) := by
  match f with
  | .calc =>
    show Option.Rel SameNumber (if xs = [] then some x else none) (if ys = [] then some y else none)
    by_cases hxs : xs = []
    · subst hxs
      obtain ⟨rfl, rfl⟩ := List.cons.inj (List.singleton_perm.1 hperm)
      exact .some (sameNumber_refl _)
    · have hys : ys ≠ [] := by
        rintro rfl
        exact hxs (List.cons.inj (List.perm_singleton.1 hperm)).2
      rw [if_neg hxs, if_neg hys]
      exact .none
  | .min => exact .some (selects_least.sameNumber_perm hperm hfirst)
  | .max => exact .some (selects_greatest.sameNumber_perm hperm hfirst)

end Functions

/-! ## Calls of trees -/

section Trees

variable {size? : String → Option Float} {f : Function} {tree : String → Expr} {a : String}
  {as : List String}

theorem nesting_callTree_lt_iff (n : Nat) :
    (callTree f tree a as).alone.nesting < n + 1 ↔ ∀ b ∈ a :: as, (tree b).nesting < n := by
  have halone : (callTree f tree a as).alone.nesting = (callTree f tree a as).nesting := rfl
  have hothers : (∀ x ∈ as.map fun b => (Comma.comma, tree b), x.2.nesting < n) ↔
      ∀ b ∈ as, (tree b).nesting < n := List.forall_mem_map
  rw [halone, callTree, Factor.nesting_call, Nat.succ_lt_succ_iff, Arguments.nesting,
    Chain.highest_lt_iff, Chain.all_map, List.forall_mem_cons]
  exact and_congr_right fun _ => hothers

theorem mapM_eq_some_iff {α β : Type} {g : α → Option β} {l : List α} {ys : List β} :
    l.mapM g = some ys ↔ l.map g = ys.map some := by
  induction l generalizing ys with
  | nil => cases ys <;> simp
  | cons a l ih =>
    simp only [List.mapM_cons, Option.bind_eq_bind, Option.bind_eq_some_iff, ih, Option.pure_def,
      Option.some.injEq]
    constructor
    · rintro ⟨y, hy, ys, hys, rfl⟩
      rw [List.map_cons, List.map_cons, hy, hys]
    · intro h
      cases ys with
      | nil => cases h
      | cons y ys => exact ⟨y, (List.cons.inj h).1, ys, (List.cons.inj h).2, rfl⟩

/-- A call has a value if all its arguments have one and the function has one for them. -/
theorem value_callTree_eq_some_iff {v : Float} :
    (callTree f tree a as).value size? = some v ↔
      ∃ x xs, (a :: as).map (fun b => (tree b).value size?) = (x :: xs).map some ∧
        f.value x xs = some v := by
  rw [callTree, Factor.value_call, Chain.apply]
  simp only [Chain.map, List.map_map, Option.bind_eq_bind, Option.bind_eq_some_iff,
    mapM_eq_some_iff, List.map_cons, List.cons.injEq]
  constructor
  · rintro ⟨x, hx, xs, hxs, hv⟩
    exact ⟨x, xs, ⟨hx, hxs⟩, hv⟩
  · rintro ⟨x, xs, ⟨hx, hxs⟩, hv⟩
    exact ⟨x, hx, xs, hxs, hv⟩

theorem value_callTree {x : String → Float}
    (h : ∀ b ∈ a :: as, (tree b).value size? = some (x b)) :
    (callTree f tree a as).value size? = f.value (x a) (as.map x) := by
  have hvalues : (a :: as).map (fun b => (tree b).value size?) = (x a :: as.map x).map some := by
    rw [List.map_congr_left h, ← List.map_cons, List.map_map]
    rfl
  ext v
  rw [value_callTree_eq_some_iff, hvalues]
  constructor
  · rintro ⟨y, ys, hys, hv⟩
    cases List.map_injective_iff.2 (Option.some_injective Float) hys
    exact hv
  · intro hv
    exact ⟨x a, as.map x, rfl, hv⟩

end Trees

/-! ## Conversion -/

/-- The text is an expression. -/
def WellFormed (text : String) : Prop := ∃ e : Expr, tokenize text = .ok e.tokens

def ComesToNaN (key : String) (units : Units) (text : String) : Prop :=
  ∃ x, evaluate key text units = .ok x ∧ x.isNaN = true

section Conversion

variable {key : String} {units : Units} {f : Function} {tree : String → Expr} {a : String}
  {as : List String}

/-- Around an argument there is one level more than around the text alone. -/
theorem comesToNaN_iff {e : Expr} {x : Float} (htext : tokenize a = .ok e.tokens)
    (hn : e.nesting < 99) (hx : e.value (units.size? key) = some x) :
    ComesToNaN key units a ↔ x.isNaN = true := by
  have heval : evaluate key a units = .ok x := by
    unfold evaluate
    rw [htext]
    exact (evaluateTokens_eq_ok_iff _ x).2 ⟨e, rfl, by omega, hx⟩
  unfold ComesToNaN
  rw [heval]
  constructor
  · rintro ⟨y, hy, hnan⟩
    exact Except.ok.inj hy ▸ hnan
  · intro hnan
    exact ⟨x, rfl, hnan⟩

variable (htexts : ∀ b ∈ a :: as, tokenize b = .ok (tree b).tokens)

include htexts

theorem convert_call {x : String → Float}
    (h : ∀ b ∈ a :: as, (tree b).nesting < 99 ∧ (tree b).value (units.size? key) = some (x b)) :
    convert key (.text (callText f (a :: as))) units =
      (f.value (x a) (as.map x)).elim nan fun v => if v.isFinite then v else nan := by
  have htext := tokenize_callText f htexts
  have hn : (callTree f tree a as).alone.nesting < 100 :=
    (nesting_callTree_lt_iff 99).2 fun b hb => (h b hb).1
  have hvalue : (callTree f tree a as).alone.value (units.size? key) =
      f.value (x a) (as.map x) := by
    rw [Factor.value_alone, value_callTree fun b hb => (h b hb).2]
  cases hv : f.value (x a) (as.map x) with
  | none => exact convert_of_no_value htext fun _ => hvalue.trans hv
  | some v => exact convert_of_value htext hn (hvalue.trans hv)

theorem convert_call_eq_nan {b : String} (hb : b ∈ a :: as)
    (h : (tree b).nesting < 99 → (tree b).value (units.size? key) = none) :
    convert key (.text (callText f (a :: as))) units = nan := by
  refine convert_of_no_value (tokenize_callText f htexts) fun hn => ?_
  have hvalue := h ((nesting_callTree_lt_iff 99).1 hn b hb)
  rw [Factor.value_alone, Option.eq_none_iff_forall_ne_some]
  intro v hv
  obtain ⟨x, xs, hxs, -⟩ := value_callTree_eq_some_iff.1 hv
  have hmem : none ∈ (x :: xs).map some := by
    rw [← hxs, ← hvalue]
    exact List.mem_map_of_mem hb
  obtain ⟨y, -, hy⟩ := List.mem_map.1 hmem
  cases hy

end Conversion

/-- A call whose first argument comes to NaN is converted to NaN; the order of the others, and the
order of all arguments where no first argument comes to NaN, does not matter. -/
theorem convert_reordered_arguments (f : Function) (key : String) (units : Units) {a b : String}
    {as bs : List String} (hperm : (a :: as).Perm (b :: bs))
    (hformed : ∀ c ∈ a :: as, WellFormed c) :
    (ComesToNaN key units a → convert key (.text (callText f (a :: as))) units = nan) ∧
    ((ComesToNaN key units a ↔ ComesToNaN key units b) →
      SameNumber (convert key (.text (callText f (a :: as))) units)
        (convert key (.text (callText f (b :: bs))) units)) := by
  have : Nonempty Expr := ⟨(pixelIn 0).alone⟩
  have : Nonempty Float := ⟨nan⟩
  choose! tree htexts using hformed
  have htexts' : ∀ c ∈ b :: bs, tokenize c = .ok (tree c).tokens := fun c hc =>
    htexts c (hperm.mem_iff.2 hc)
  by_cases hdone : ∀ c ∈ a :: as, ∃ x, (tree c).nesting < 99 ∧
      (tree c).value (units.size? key) = some x
  · choose! x hx using hdone
    have hx' : ∀ c ∈ b :: bs, (tree c).nesting < 99 ∧
        (tree c).value (units.size? key) = some (x c) := fun c hc => hx c (hperm.mem_iff.2 hc)
    have ha := hx a List.mem_cons_self
    have hb := hx' b List.mem_cons_self
    rw [comesToNaN_iff (htexts a List.mem_cons_self) ha.1 ha.2,
      comesToNaN_iff (htexts' b List.mem_cons_self) hb.1 hb.2, convert_call htexts hx,
      convert_call htexts' hx']
    constructor
    · intro hnan
      have hnotfinite : ¬ (x a).isFinite = true := Bool.eq_false_iff.1 (isFinite_of_isNaN hnan)
      cases hv : f.value (x a) (as.map x) with
      | none => rfl
      | some v =>
        rw [Function.value_of_nan hnan hv]
        exact if_neg hnotfinite
    · intro hfirst
      have hsame := f.sameNumber_value (hperm.map x) hfirst
      revert hsame
      generalize f.value (x a) (as.map x) = v, f.value (x b) (bs.map x) = w
      rintro (h | -)
      · exact h.finite_or_nan
      · exact sameNumber_refl nan
  · simp only [not_forall, not_exists, not_and, exists_prop] at hdone
    obtain ⟨c, hc, hno⟩ := hdone
    have hnone : (tree c).nesting < 99 → (tree c).value (units.size? key) = none := fun hn =>
      Option.eq_none_iff_forall_ne_some.2 fun x => hno x hn
    rw [convert_call_eq_nan htexts hc hnone,
      convert_call_eq_nan htexts' (hperm.mem_iff.1 hc) hnone]
    exact ⟨fun _ => rfl, fun _ => sameNumber_refl nan⟩

/-! ## Beside an overflow -/

/-- The tree of `npx` for a digit `n`. -/
def pixels (n : Char) : Expr := (Factor.number ⟨none, [n], none, none⟩ ['p', 'x']).alone

def huge : Numeral := ⟨none, ['1'], none, some ⟨'e', none, ['3', '0', '8']⟩⟩

def ten : Numeral := ⟨none, ['1', '0'], none, none⟩

/-- The tree of `1e308 * 10`. -/
def overflow : Term := ⟨.number huge [], [(.times, .number ten [])]⟩

/-- The tree of `1e308 * 10 - 1e308 * 10`, an infinity less an infinity. -/
def lost : Expr := ⟨overflow, [(.minus, overflow)]⟩

theorem tokenize_pixels {n : Char} (hn : isDigit n = true) :
    tokenize (String.ofList [n, 'p', 'x']) = .ok (pixels n).tokens := by
  have htokens : (pixels n).tokens = [.number ⟨none, [n], none, none⟩ ['p', 'x']] :=
    Factor.tokens_alone _
  have hunit : ValidUnit ['p', 'x'] := by decide
  have hvalid : ∀ t ∈ [Token.number ⟨none, [n], none, none⟩ ['p', 'x']], t.Valid :=
    List.forall_mem_singleton.2 ⟨rfl, ⟨nofun, List.forall_mem_singleton.2 hn, nofun,
      .inl (List.cons_ne_nil _ _), nofun⟩, hunit⟩
  have hshown : spaceOut [Token.number ⟨none, [n], none, none⟩ ['p', 'x']] = [n, 'p', 'x'] := rfl
  rw [htokens, ← hshown]
  exact tokenize_spaceOut hvalid

theorem tokenize_lost : tokenize "1e308 * 10 - 1e308 * 10" = .ok lost.tokens := by
  have hdigits : ∀ {cs : List Char}, cs.all isDigit = true → ∀ c ∈ cs, isDigit c = true :=
    List.all_eq_true.1
  have hhuge : (Token.number huge []).Valid := by
    refine ⟨rfl, ⟨nofun, hdigits (by decide), nofun, by decide, ?_⟩, by decide⟩
    rintro e ⟨⟩
    exact ⟨.inl rfl, nofun, hdigits (by decide), List.cons_ne_nil _ _⟩
  have hten : (Token.number ten []).Valid :=
    ⟨rfl, ⟨nofun, hdigits (by decide), nofun, by decide, nofun⟩, by decide⟩
  have hvalid : ∀ t ∈ [Token.number huge [], .symbol .times, .number ten [], .symbol .minus,
      .number huge [], .symbol .times, .number ten []], t.Valid := by
    simp only [List.forall_mem_cons]
    exact ⟨hhuge, trivial, hten, trivial, hhuge, trivial, hten, nofun⟩
  exact (congrArg tokenize (by decide +kernel)).trans (tokenize_spaceOut hvalid)

/-- A pixel, two pixels, or what is lost in an overflow. -/
def sampleTree (text : String) : Expr :=
  if text = "1px" then pixels '1' else if text = "2px" then pixels '2' else lost

def sampleValue (text : String) : Float :=
  if text = "1px" then 1 else if text = "2px" then 2 else nan

def samples : List String := ["1px", "1e308 * 10 - 1e308 * 10", "2px"]

theorem tokenize_sample : ∀ a ∈ samples, tokenize a = .ok (sampleTree a).tokens := by
  have hone := tokenize_pixels (n := '1') (by decide)
  have htwo := tokenize_pixels (n := '2') (by decide)
  unfold samples
  simp only [List.forall_mem_cons]
  exact ⟨hone, tokenize_lost, htwo, nofun⟩

theorem value_sample : ∀ a ∈ samples, (sampleTree a).nesting < 99 ∧
    (sampleTree a).value (Units.size? {} "width") = some (sampleValue a) := by
  decide +kernel

/-- Without NaN in front three arguments may be permuted. -/
theorem least_of_three :
    ["1px", "1e308 * 10 - 1e308 * 10", "2px"].Perm ["2px", "1px", "1e308 * 10 - 1e308 * 10"] ∧
    SameNumber
      (convert "width" (.text (callText .min ["1px", "1e308 * 10 - 1e308 * 10", "2px"])) {})
      (convert "width" (.text (callText .min ["2px", "1px", "1e308 * 10 - 1e308 * 10"])) {}) := by
  have hperm : ["1px", "1e308 * 10 - 1e308 * 10", "2px"].Perm
      ["2px", "1px", "1e308 * 10 - 1e308 * 10"] := by decide
  have hfirst : ∀ a ∈ samples, (ComesToNaN "width" {} a ↔ (sampleValue a).isNaN = true) :=
    fun a ha => comesToNaN_iff (tokenize_sample a ha) (value_sample a ha).1 (value_sample a ha).2
  have hneither : ComesToNaN "width" {} "1px" ↔ ComesToNaN "width" {} "2px" := by
    rw [hfirst "1px" (by decide), hfirst "2px" (by decide)]
    decide +kernel
  exact ⟨hperm, (convert_reordered_arguments .min "width" {} hperm fun a ha =>
    ⟨sampleTree a, tokenize_sample a ha⟩).2 hneither⟩

/-- The pixel is the least in front of an overflow, and NaN behind it. -/
theorem least_beside_overflow :
    WellFormed "1px" ∧ WellFormed "1e308 * 10 - 1e308 * 10" ∧
    ["1px", "1e308 * 10 - 1e308 * 10"].Perm ["1e308 * 10 - 1e308 * 10", "1px"] ∧
    convert "width" (.text (callText .min ["1px", "1e308 * 10 - 1e308 * 10"])) {} = 1 ∧
    convert "width" (.text (callText .min ["1e308 * 10 - 1e308 * 10", "1px"])) {} = nan ∧
    ¬ SameNumber 1 nan := by
  have hleft : ∀ a ∈ ["1px", "1e308 * 10 - 1e308 * 10"], a ∈ samples := by decide
  have hright : ∀ a ∈ ["1e308 * 10 - 1e308 * 10", "1px"], a ∈ samples := by decide
  refine ⟨⟨_, tokenize_sample "1px" (by decide)⟩, ⟨_, tokenize_lost⟩, by decide, ?_, ?_, ?_⟩
  · have hconvert := convert_call (f := .min) (fun a ha => tokenize_sample a (hleft a ha))
      fun a ha => value_sample a (hleft a ha)
    rw [hconvert]
    decide +kernel
  · have hconvert := convert_call (f := .min) (fun a ha => tokenize_sample a (hright a ha))
      fun a ha => value_sample a (hright a ha)
    rw [hconvert]
    decide +kernel
  · unfold SameNumber
    decide +kernel

end StyleEngine.Expression
