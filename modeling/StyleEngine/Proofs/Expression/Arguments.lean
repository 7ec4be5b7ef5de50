import StyleEngine.Proofs.Expression.Nesting
import StyleEngine.Proofs.Number.Longest

/-!
# Arguments written one behind the other

What ends a number ends every token, so a text in front of it has the tokens that it has alone.  The
arguments of a call are therefore read one by one, white space around them or not, and the call has
the tokens of the tree over their trees.

    Token.scan? cs = some (t, rest) → (∀ c, after.head? = some c → EndsNumber c) →
      Token.scan? (cs ++ after) = some (t, rest ++ after)                (Token.scan?_append)
    tokenize (callText f (a :: as)) =
      .ok (callTree f tree a as).alone.tokens                            (tokenize_callText)
-/

namespace StyleEngine

open Text

/-! ## Numerals -/

namespace Numeral

variable {n : Numeral} {cs rest : List Char}

/-- Scanning goes on as far as a numeral goes. -/
theorem stops_of_scanUnsigned? (h : scanUnsigned? cs = some (n, rest)) : n.Stops rest := by
  obtain ⟨hsign, hn⟩ := wellFormed_scanUnsigned? h
  have hcs : n.spelling ++ rest = cs := spelling_scanUnsigned? h
  obtain ⟨m, rest', hm, hstops, htext, -⟩ : ReachesStop n rest := reachesStop hn
  have hfirst : ∀ c, cs.head? = some c → c ≠ '+' ∧ c ≠ '-' := by
    intro c hc
    rw [← hcs] at hc
    exact head_unsigned hn hsign hc
  have hnosign : ∀ c, (none : Option Char) = some c → c = '+' ∨ c = '-' := nofun
  have hunsigned : scanSign cs = (none, cs) := scanSign_spelling hnosign hfirst
  have hlongest : scan? cs = some (m, rest') := by
    rw [← hcs, ← htext]
    exact scan?_spelling hm hstops
  have hself : scan? cs = some ({ n with sign := none }, rest) := by
    simp only [scan?, hunsigned, h, Option.map_some]
  rw [hself, ← hsign] at hlongest
  cases hlongest
  exact hstops

end Numeral

namespace Expression

/-! ## Tokens in front of a separator -/

section Separators

variable {cs rest after : List Char} (hafter : ∀ c, after.head? = some c → EndsNumber c)

include hafter

theorem scanSign_append :
    Numeral.scanSign (cs ++ after) =
      ((Numeral.scanSign cs).1, (Numeral.scanSign cs).2 ++ after) := by
  cases cs with
  | nil =>
    have hnosign : ∀ c, (none : Option Char) = some c → c = '+' ∨ c = '-' := nofun
    exact Numeral.scanSign_spelling hnosign fun c hc =>
      ⟨(hafter c hc).ne.2.2.2.1, (hafter c hc).ne.2.2.2.2.1⟩
  | cons c cs =>
    simp only [List.cons_append, Numeral.scanSign]
    split <;> rfl

/-- No exponent gets its digits from behind a separator. -/
theorem scanExponent_append (h : (Numeral.scanExponent cs).1 = none) :
    (Numeral.scanExponent (cs ++ after)).1 = none := by
  cases cs with
  | nil =>
    have hnounit : ValidUnit [] := .inr fun c hc => absurd hc List.not_mem_nil
    exact congrArg Prod.fst (scanExponent_unit hnounit hafter)
  | cons c cs =>
    have hdigits := (span_append_of_stop (Numeral.scanSign cs).2 fun c hc =>
      (hafter c hc).ne.1).1
    simp only [List.cons_append, Numeral.scanExponent, scanSign_append hafter, hdigits] at h ⊢
    split at h
    · cases h
    · next hnone => rw [if_neg hnone]

theorem stops_append {n : Numeral} (h : n.Stops rest) : n.Stops (rest ++ after) where
  digit c hc := by
    rw [List.head?_append] at hc
    rcases Option.or_eq_some_iff.1 hc with hc | ⟨-, hc⟩
    · exact h.digit c hc
    · exact (hafter c hc).ne.1
  point hf he hc := by
    rw [List.head?_append] at hc
    rcases Option.or_eq_some_iff.1 hc with hc | ⟨-, hc⟩
    · exact h.point hf he hc
    · exact (hafter _ hc).ne.2.2.2.2.2 rfl
  exponent he := scanExponent_append hafter (h.exponent he)

theorem scanUnit_append_of_stop :
    scanUnit (cs ++ after) = ((scanUnit cs).1, (scanUnit cs).2 ++ after) := by
  have hletters := span_append_of_stop cs fun c hc => (hafter c hc).ne.2.1
  have hpercent : ∀ ds, after ≠ '%' :: ds := by
    rintro ds rfl
    exact (hafter '%' rfl).ne.2.2.1 rfl
  unfold scanUnit
  split
  · next ds hds =>
    rcases cs with _ | ⟨c, cs⟩
    · exact absurd hds (hpercent ds)
    · obtain ⟨rfl, rfl⟩ := List.cons.inj hds
      rfl
  · next hother =>
    rw [hletters.1, hletters.2]
    split
    · exact absurd rfl (hother _)
    · rfl

/-- A token is scanned in front of a separator as it is at the end. -/
theorem Token.scan?_append {t : Token} (h : Token.scan? cs = some (t, rest)) :
    Token.scan? (cs ++ after) = some (t, rest ++ after) := by
  unfold Token.scan? at h
  split at h
  · next n r hn =>
    obtain ⟨rfl, rfl⟩ := Prod.mk.inj (Option.some.inj h)
    obtain ⟨hsign, hwf⟩ := Numeral.wellFormed_scanUnsigned? hn
    have hstops := stops_append hafter (Numeral.stops_of_scanUnsigned? hn)
    have hscan : Numeral.scanUnsigned? (cs ++ after) = some (n, r ++ after) := by
      rw [← Numeral.spelling_scanUnsigned? hn, List.append_assoc]
      exact Numeral.scanUnsigned?_spelling hsign hwf hstops
    simp only [Token.scan?, hscan, scanUnit_append_of_stop hafter]
  · split at h
    · next r hr =>
      cases h
      obtain ⟨f, -, hf⟩ := List.exists_of_findSome?_eq_some hr
      obtain ⟨rfl, gap, hgap, rfl⟩ := exists_gap_of_afterFunction? hf
      rw [List.append_assoc, List.append_assoc, List.cons_append]
      exact scan?_function f hgap _
    · obtain ⟨s, rfl, rfl⟩ := exists_of_scanSymbol? h
      exact scan?_symbol s _

end Separators

/-! ## Texts in front of a separator -/

section Texts

variable {text text' cs after : List Char} {ts us : List Token}

/-- White space in front of a text that is not empty has no tokens. -/
theorem tokensFrom_gap {gap : List Char} (hgap : AllBlank gap) (hne : cs ≠ [])
    (h : tokensFrom text cs = .ok ts) : tokensFrom text (gap ++ cs) = .ok ts := by
  rcases tokensFrom_eq_ok h with ⟨hnil, -⟩ | ⟨t, rest, ts', hscan, hrest, rfl⟩
  · exact absurd hnil hne
  · rw [← List.dropWhile_append_of_pos hgap] at hscan
    rw [tokensFrom_of_scan? (List.append_ne_nil_of_right_ne_nil _ hne) hscan, hrest]
    rfl

/-- By induction on the tokens: each is scanned as it is without what follows. -/
theorem tokensFrom_append (h : tokensFrom text cs = .ok ts)
    (hafter : ∀ c, after.head? = some c → EndsNumber c) (hrest : tokensFrom text' after = .ok us) :
    tokensFrom text' (cs ++ after) = .ok (ts ++ us) := by
  induction ts generalizing cs with
  | nil =>
    rcases tokensFrom_eq_ok h with ⟨rfl, -⟩ | ⟨t, rest, ts', -, -, hts⟩
    · exact hrest
    · cases hts
  | cons t ts ih =>
    rcases tokensFrom_eq_ok h with ⟨-, hts⟩ | ⟨t', rest, ts', hscan, htail, hts⟩
    · cases hts
    · cases hts
      have hne : (cs.dropWhile isBlank).isEmpty = false := by
        rw [List.isEmpty_eq_false_iff]
        intro hnil
        rw [hnil] at hscan
        cases hscan
      have hdrop : (cs ++ after).dropWhile isBlank = cs.dropWhile isBlank ++ after := by
        rw [List.dropWhile_append, if_neg (by rw [hne]; exact Bool.false_ne_true)]
      have hscan' := Token.scan?_append hafter hscan
      rw [← hdrop] at hscan'
      have hcs : cs ++ after ≠ [] := by
        intro hnil
        rw [hnil] at hscan'
        cases hscan'
      rw [tokensFrom_of_scan? hcs hscan', ih htail]
      rfl

/-- White space at both ends of a text is no part of its tokens, wherever the text stands. -/
theorem tokensFrom_toList_append {s : String} (h : tokenize s = .ok ts)
    (hafter : ∀ c, after.head? = some c → EndsNumber c) (hne : after ≠ [])
    (hrest : tokensFrom text after = .ok us) :
    tokensFrom text (s.toList ++ after) = .ok (ts ++ us) := by
  obtain ⟨left, right, hleft, hright, hs⟩ := exists_blanks_strip s.toList
  have hends : ∀ c, (right ++ after).head? = some c → EndsNumber c := by
    intro c hc
    rw [List.head?_append] at hc
    rcases Option.or_eq_some_iff.1 hc with hc | ⟨-, hc⟩
    · exact .inl (hright c (List.mem_of_mem_head? hc))
    · exact hafter c hc
  have hread := tokensFrom_append h hends (tokensFrom_gap hright hne hrest)
  rw [hs, List.append_assoc, List.append_assoc]
  refine tokensFrom_gap hleft ?_ hread
  exact List.append_ne_nil_of_right_ne_nil _ (List.append_ne_nil_of_right_ne_nil _ hne)

theorem tokensFrom_symbol (s : Symbol) (h : tokensFrom text cs = .ok ts) :
    tokensFrom text (s.char :: cs) = .ok (.symbol s :: ts) := by
  have hblank : isBlank s.char = false := by cases s <;> decide
  have hscan : Token.scan? ((s.char :: cs).dropWhile isBlank) = some (.symbol s, cs) := by
    rw [List.dropWhile_cons_of_neg (Bool.eq_false_iff.1 hblank)]
    exact scan?_symbol s cs
  rw [tokensFrom_of_scan? (List.cons_ne_nil _ _) hscan, h]
  rfl

theorem endsNumber_symbol {s : Symbol} (hs : s.char ∈ [')', ',', '*', '/']) :
    ∀ c, (s.char :: cs).head? = some c → EndsNumber c := by
  intro c hc
  exact .inr (Option.some.inj hc ▸ hs)

/-- A text from the name of a function to a parenthesis at its end has nothing to strip off. -/
theorem tokenize_call {s : String} {f : Function}
    (hs : s.toList = f.name.toList ++ ('(' :: (cs ++ [')'])))
    (h : ∀ text, tokensFrom text (cs ++ [')']) = .ok ts) :
    tokenize s = .ok (.function f :: ts) := by
  have hfirst : ∀ c, s.toList.head? = some c → isBlank c = false := by
    intro c hc
    rw [hs, List.head?_append_of_ne_nil _ (by cases f <;> decide)] at hc
    exact isBlank_of_mem_name f (List.mem_of_mem_head? hc)
  have hlast : ∀ c, s.toList.getLast? = some c → isBlank c = false := by
    intro c hc
    rw [hs, ← List.cons_append, ← List.append_assoc, List.getLast?_concat] at hc
    rw [← Option.some.inj hc]
    decide
  have hne : s.toList ≠ [] := by
    rw [hs]
    exact List.append_ne_nil_of_right_ne_nil _ (List.cons_ne_nil _ _)
  have hscan : Token.scan? (s.toList.dropWhile isBlank) = some (.function f, cs ++ [')']) := by
    rw [dropWhile_eq_self hfirst, hs]
    exact scan?_function f AllBlank.nil _
  unfold tokenize
  rw [strip_eq_self hfirst hlast, tokensFrom_of_scan? hne hscan, h]
  rfl

end Texts

/-! ## Calls -/

/-- A call with its arguments joined by commas. -/
def callText (f : Function) (arguments : List String) : String :=
  f.name ++ "(" ++ ", ".intercalate arguments ++ ")"

/-- The call of `f` over the trees of its arguments. -/
def callTree (f : Function) (tree : String → Expr) (first : String) (others : List String) :
    Factor :=
  .call f ⟨tree first, others.map fun a => (.comma, tree a)⟩

variable {tree : String → Expr}

theorem tokens_arguments_cons (e e' : Expr) (es : List (Comma × Expr)) :
    Arguments.tokens ⟨e, (.comma, e') :: es⟩ =
      e.tokens ++ .symbol .comma :: Arguments.tokens ⟨e', es⟩ := rfl

/-- By induction on the arguments: each stands in front of a comma or the parenthesis. -/
theorem tokensFrom_arguments {text : List Char} {first : String} {others : List String}
    (h : ∀ a ∈ first :: others, tokenize a = .ok (tree a).tokens) :
    tokensFrom text ((", ".intercalate (first :: others)).toList ++ [')']) =
      .ok (Arguments.tokens ⟨tree first, others.map fun a => (.comma, tree a)⟩ ++
        [.symbol .closeParen]) := by
  induction others generalizing first with
  | nil =>
    have hclose := tokensFrom_symbol .closeParen (tokensFrom_nil text)
    have hread := tokensFrom_toList_append (h first List.mem_cons_self)
      (endsNumber_symbol (s := .closeParen) (by decide)) (List.cons_ne_nil _ _) hclose
    rw [String.intercalate_singleton]
    exact hread.trans (congrArg (fun ts => Except.ok (ts ++ _)) (List.append_nil _).symm)
  | cons a as ih =>
    rw [List.forall_mem_cons] at h
    have hblank : AllBlank [' '] := by decide
    have hne := List.append_ne_nil_of_right_ne_nil (", ".intercalate (a :: as)).toList
      (List.cons_ne_nil ')' [])
    have hcomma := tokensFrom_symbol .comma (tokensFrom_gap hblank hne (ih h.2))
    have htext : (", ".intercalate (first :: a :: as)).toList ++ [')'] =
        first.toList ++ Symbol.comma.char ::
          ([' '] ++ ((", ".intercalate (a :: as)).toList ++ [')'])) := by
      rw [String.intercalate_cons_cons, String.toList_append, String.toList_append,
        List.append_assoc, List.append_assoc]
      rfl
    rw [htext, tokensFrom_toList_append h.1 (endsNumber_symbol (by decide)) (List.cons_ne_nil _ _)
      hcomma, List.map_cons, tokens_arguments_cons, List.append_assoc]
    rfl

theorem tokenize_callText (f : Function) {first : String} {others : List String}
    (h : ∀ a ∈ first :: others, tokenize a = .ok (tree a).tokens) :
    tokenize (callText f (first :: others)) = .ok (callTree f tree first others).alone.tokens := by
  have htext : (callText f (first :: others)).toList =
      f.name.toList ++ ('(' :: ((", ".intercalate (first :: others)).toList ++ [')'])) := by
    rw [callText, String.toList_append, String.toList_append, String.toList_append,
      List.append_assoc, List.append_assoc]
    rfl
  rw [tokenize_call htext fun _ => tokensFrom_arguments h, Factor.tokens_alone, callTree,
    Factor.tokens_call]

end Expression

end StyleEngine
