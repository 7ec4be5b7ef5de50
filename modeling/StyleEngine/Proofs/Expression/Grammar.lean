import StyleEngine.Expression.Evaluate
import Mathlib.Logic.Function.Defs

/-!
# The trees of the expression grammar

    expression = term (("+" | "-") term)*
    term       = factor (("*" | "/") factor)*
    factor     = ("+" | "-") factor | number | function expression ("," expression)* ")"
               | "(" expression ")"

A list of operands with an operator before each but the first is a `Chain`.  Expressions and terms
are chains, and so are the arguments of a function, which commas join.  The tokens, the value and
the nesting of a tree are folds over it.

    e.tokens = e'.tokens → e = e'                                      (Expr.eq_of_tokens_eq)
-/

namespace StyleEngine.Expression

variable {Op α β : Type}

/-! ## Trees -/

inductive Additive where
  | plus
  | minus

inductive Multiplicative where
  | times
  | divide

inductive Comma where
  | comma

structure Chain (Op α : Type) where
  first : α
  rest : List (Op × α)

inductive Factor where
  | number (n : Numeral) (unit : List Char)
  | signed (sign : Additive) (f : Factor)
  | call (f : Function) (arguments : Chain Comma (Chain Additive (Chain Multiplicative Factor)))
  | group (e : Chain Additive (Chain Multiplicative Factor))

abbrev Term := Chain Multiplicative Factor

abbrev Expr := Chain Additive Term

abbrev Arguments := Chain Comma Expr

/-! ## Folding -/

/-- What a fold computes at each kind of node from its results below. -/
structure Algebra (α : Type) where
  number : Numeral → List Char → α
  signed : Additive → α → α
  call : Function → Chain Comma α → α
  group : α → α
  product : Chain Multiplicative α → α
  sum : Chain Additive α → α

mutual

def Factor.fold (A : Algebra α) : Factor → α
  | .number n unit => A.number n unit
  | .signed sign f => A.signed sign (f.fold A)
  | .call f es => A.call f (foldArguments A es)
  | .group e => A.group (foldExpr A e)

def foldTerm (A : Algebra α) : Term → α
  | ⟨f, fs⟩ => A.product ⟨f.fold A, foldFactors A fs⟩

def foldFactors (A : Algebra α) : List (Multiplicative × Factor) → List (Multiplicative × α)
  | [] => []
  | (op, f) :: fs => (op, f.fold A) :: foldFactors A fs

def foldExpr (A : Algebra α) : Expr → α
  | ⟨t, ts⟩ => A.sum ⟨foldTerm A t, foldTerms A ts⟩

def foldTerms (A : Algebra α) : List (Additive × Term) → List (Additive × α)
  | [] => []
  | (op, t) :: ts => (op, foldTerm A t) :: foldTerms A ts

def foldArguments (A : Algebra α) : Arguments → Chain Comma α
  | ⟨e, es⟩ => ⟨foldExpr A e, foldExprs A es⟩

def foldExprs (A : Algebra α) : List (Comma × Expr) → List (Comma × α)
  | [] => []
  | (op, e) :: es => (op, foldExpr A e) :: foldExprs A es

end

def Chain.map (f : α → β) (c : Chain Op α) : Chain Op β :=
  ⟨f c.first, c.rest.map fun x => (x.1, f x.2)⟩

theorem foldFactors_eq (A : Algebra α) (fs : List (Multiplicative × Factor)) :
    foldFactors A fs = fs.map fun x => (x.1, x.2.fold A) := by
  induction fs with
  | nil => simp only [foldFactors, List.map_nil]
  | cons x fs ih => simp only [foldFactors, ih, List.map_cons]

theorem foldTerms_eq (A : Algebra α) (ts : List (Additive × Term)) :
    foldTerms A ts = ts.map fun x => (x.1, foldTerm A x.2) := by
  induction ts with
  | nil => simp only [foldTerms, List.map_nil]
  | cons x ts ih => simp only [foldTerms, ih, List.map_cons]

theorem foldExprs_eq (A : Algebra α) (es : List (Comma × Expr)) :
    foldExprs A es = es.map fun x => (x.1, foldExpr A x.2) := by
  induction es with
  | nil => simp only [foldExprs, List.map_nil]
  | cons x es ih => simp only [foldExprs, ih, List.map_cons]

theorem foldTerm_eq (A : Algebra α) :
    foldTerm A = fun t => A.product (t.map (Factor.fold A)) := by
  funext ⟨f, fs⟩
  rw [foldTerm, foldFactors_eq]
  rfl

theorem foldExpr_eq (A : Algebra α) :
    foldExpr A = fun e => A.sum (e.map fun t => A.product (t.map (Factor.fold A))) := by
  funext ⟨t, ts⟩
  rw [foldExpr, foldTerms_eq, foldTerm_eq]
  rfl

theorem foldArguments_eq (A : Algebra α) (es : Arguments) :
    foldArguments A es = es.map (foldExpr A) := by
  rcases es with ⟨e, es⟩
  rw [foldArguments, foldExprs_eq]
  rfl

theorem Factor.fold_call (A : Algebra α) (f : Function) (es : Arguments) :
    (Factor.call f es).fold A =
      A.call f (es.map fun e => A.sum (e.map fun t => A.product (t.map (Factor.fold A)))) := by
  rw [Factor.fold, foldArguments_eq, foldExpr_eq]

theorem Factor.fold_group (A : Algebra α) (e : Expr) :
    (Factor.group e).fold A =
      A.group (A.sum (e.map fun t => A.product (t.map (Factor.fold A)))) := by
  rw [Factor.fold, foldExpr_eq]

/-! ## Tokens -/

def Additive.token : Additive → Token
  | .plus => .symbol .plus
  | .minus => .symbol .minus

def Multiplicative.token : Multiplicative → Token
  | .times => .symbol .times
  | .divide => .symbol .divide

def Comma.token : Comma → Token
  | .comma => .symbol .comma

/-- The tokens of operators, each before the tokens of its right operand. -/
def spellRest (token : Op → Token) (xs : List (Op × List Token)) : List Token :=
  xs.flatMap fun x => token x.1 :: x.2

def Chain.spell (token : Op → Token) (c : Chain Op (List Token)) : List Token :=
  c.first ++ spellRest token c.rest

def spelling : Algebra (List Token) where
  number n unit := [.number n unit]
  signed sign ts := sign.token :: ts
  call f c := .function f :: (c.spell Comma.token ++ [.symbol .closeParen])
  group ts := .symbol .openParen :: (ts ++ [.symbol .closeParen])
  product c := c.spell Multiplicative.token
  sum c := c.spell Additive.token

def Factor.tokens (f : Factor) : List Token := f.fold spelling

def Term.tokens (t : Term) : List Token := (t.map Factor.tokens).spell Multiplicative.token

def Expr.tokens (e : Expr) : List Token := (e.map Term.tokens).spell Additive.token

def Arguments.tokens (es : Arguments) : List Token := (es.map Expr.tokens).spell Comma.token

theorem Factor.tokens_signed (sign : Additive) (f : Factor) :
    (Factor.signed sign f).tokens = sign.token :: f.tokens := rfl

theorem Factor.tokens_call (f : Function) (es : Arguments) :
    (Factor.call f es).tokens = .function f :: (es.tokens ++ [.symbol .closeParen]) :=
  fold_call spelling f es

theorem Factor.tokens_group (e : Expr) :
    (Factor.group e).tokens = .symbol .openParen :: (e.tokens ++ [.symbol .closeParen]) :=
  fold_group spelling e

/-! ## Values -/

def Additive.sign : Additive → Float → Float
  | .plus, x => x
  | .minus, x => -x

def Additive.combine : Additive → Float → Float → Option Float
  | .plus, x, y => some (x + y)
  | .minus, x, y => some (x - y)

/-- A quotient by zero has no value. -/
def Multiplicative.combine : Multiplicative → Float → Float → Option Float
  | .times, x, y => some (x * y)
  | .divide, x, y => if y == 0 then none else some (x / y)

/-- Combines a value with each right operand in turn, the leftmost first. -/
def valueRest (combine : Op → Float → Float → Option Float) (x : Float) :
    List (Op × Option Float) → Option Float
  | [] => some x
  | (op, y) :: ys => do valueRest combine (← combine op x (← y)) ys

def Chain.value (combine : Op → Float → Float → Option Float) (c : Chain Op (Option Float)) :
    Option Float := do
  valueRest combine (← c.first) c.rest

/-- A numeral without a unit is a plain number, and an unknown unit has no value. -/
def quantity? (size? : String → Option Float) (n : Numeral) (unit : List Char) : Option Float :=
  if unit = [] then some n.value else (size? (String.ofList unit)).map (n.value * ·)

/-- `calc` has one argument; `min` and `max` keep the earlier of equal arguments. -/
def Function.value : Function → Float → List Float → Option Float
  | .calc, x, ys => if ys = [] then some x else none
  | .min, x, ys => some (ys.foldl (fun best y => if y < best then y else best) x)
  | .max, x, ys => some (ys.foldl (fun best y => if best < y then y else best) x)

/-- The arguments of a function all need a value. -/
def Chain.apply (f : Function) (c : Chain Comma (Option Float)) : Option Float := do
  f.value (← c.first) (← c.rest.mapM Prod.snd)

def evaluation (size? : String → Option Float) : Algebra (Option Float) where
  number := quantity? size?
  signed sign x := x.map sign.sign
  call f c := c.apply f
  group x := x
  product c := c.value Multiplicative.combine
  sum c := c.value Additive.combine

def Factor.value (size? : String → Option Float) (f : Factor) : Option Float :=
  f.fold (evaluation size?)

def Term.value (size? : String → Option Float) (t : Term) : Option Float :=
  (t.map (Factor.value size?)).value Multiplicative.combine

/-- The value of a tree: none if a unit is unknown, a `calc` has other than one argument, or a
divisor is zero. -/
def Expr.value (size? : String → Option Float) (e : Expr) : Option Float :=
  (e.map (Term.value size?)).value Additive.combine

theorem Factor.value_call (size? : String → Option Float) (f : Function) (es : Arguments) :
    (Factor.call f es).value size? = (es.map (Expr.value size?)).apply f :=
  fold_call (evaluation size?) f es

theorem Factor.value_group (size? : String → Option Float) (e : Expr) :
    (Factor.group e).value size? = e.value size? :=
  fold_group (evaluation size?) e

/-! ## Nesting -/

def Chain.highest (c : Chain Op Nat) : Nat := c.rest.foldr (fun x n => max x.2 n) c.first

def depths : Algebra Nat where
  number _ _ := 0
  signed _ n := n + 1
  call _ c := c.highest + 1
  group n := n + 1
  product c := c.highest
  sum c := c.highest

def Factor.nesting (f : Factor) : Nat := f.fold depths

def Term.nesting (t : Term) : Nat := (t.map Factor.nesting).highest

/-- The most signs, parentheses and function calls around one number of the tree. -/
def Expr.nesting (e : Expr) : Nat := (e.map Term.nesting).highest

def Arguments.nesting (es : Arguments) : Nat := (es.map Expr.nesting).highest

theorem Factor.nesting_call (f : Function) (es : Arguments) :
    (Factor.call f es).nesting = es.nesting + 1 :=
  fold_call depths f es

theorem Factor.nesting_group (e : Expr) : (Factor.group e).nesting = e.nesting + 1 :=
  fold_group depths e

/-- A property of every operand of a chain. -/
def Chain.All (P : α → Prop) (c : Chain Op α) : Prop := P c.first ∧ ∀ x ∈ c.rest, P x.2

theorem Chain.highest_lt_iff (c : Chain Op Nat) (n : Nat) : c.highest < n ↔ c.All (· < n) := by
  rcases c with ⟨m, xs⟩
  unfold highest All
  induction xs with
  | nil => simp only [List.foldr_nil, List.not_mem_nil, false_implies, implies_true, and_true]
  | cons x xs ih =>
    simp only [List.foldr_cons, List.forall_mem_cons, Nat.max_lt] at ih ⊢
    rw [ih]
    exact and_left_comm

theorem Chain.all_map (P : β → Prop) (f : α → β) (c : Chain Op α) :
    (c.map f).All P ↔ c.All fun x => P (f x) := by
  unfold All map
  simp only [List.forall_mem_map]

theorem Chain.All.imp {P Q : α → Prop} {c : Chain Op α} (hc : c.All P) (h : ∀ a, P a → Q a) :
    c.All Q :=
  ⟨h _ hc.1, fun x hx => h _ (hc.2 x hx)⟩

theorem Term.nesting_lt_iff (t : Term) (n : Nat) :
    t.nesting < n ↔ t.All fun f => f.nesting < n := by
  rw [Term.nesting, Chain.highest_lt_iff, Chain.all_map]

theorem Expr.nesting_lt_iff (e : Expr) (n : Nat) :
    e.nesting < n ↔ e.All fun t => t.All fun f => f.nesting < n := by
  rw [Expr.nesting, Chain.highest_lt_iff, Chain.all_map]
  simp only [Term.nesting_lt_iff]

theorem Arguments.nesting_lt_iff (es : Arguments) (n : Nat) :
    es.nesting < n ↔ es.All fun e => e.All fun t => t.All fun f => f.nesting < n := by
  rw [Arguments.nesting, Chain.highest_lt_iff, Chain.all_map]
  simp only [Expr.nesting_lt_iff]

/-! ## Induction -/

/-- A property that a factor has if the factors directly below it have it. -/
structure Hereditary (P : Factor → Prop) : Prop where
  number : ∀ n unit, P (.number n unit)
  signed : ∀ sign f, P f → P (.signed sign f)
  call : ∀ f (es : Arguments), es.All (fun e => e.All fun t => t.All P) → P (.call f es)
  group : ∀ e : Expr, e.All (fun t => t.All P) → P (.group e)

variable {P : Factor → Prop}

mutual

/-- Induction over trees. -/
theorem Hereditary.factor (h : Hereditary P) : ∀ f : Factor, P f
  | .number n unit => h.number n unit
  | .signed sign f => h.signed sign f (h.factor f)
  | .call f es => h.call f es (h.arguments es)
  | .group e => h.group e (h.expr e)

theorem Hereditary.term (h : Hereditary P) : ∀ t : Term, t.All P
  | ⟨f, fs⟩ => ⟨h.factor f, h.factors fs⟩

theorem Hereditary.factors (h : Hereditary P) :
    ∀ fs : List (Multiplicative × Factor), ∀ x ∈ fs, P x.2
  | [] => nofun
  | (_, f) :: fs => List.forall_mem_cons.2 ⟨h.factor f, h.factors fs⟩

theorem Hereditary.expr (h : Hereditary P) : ∀ e : Expr, e.All fun t => t.All P
  | ⟨t, ts⟩ => ⟨h.term t, h.terms ts⟩

theorem Hereditary.terms (h : Hereditary P) :
    ∀ ts : List (Additive × Term), ∀ x ∈ ts, x.2.All P
  | [] => nofun
  | (_, t) :: ts => List.forall_mem_cons.2 ⟨h.term t, h.terms ts⟩

theorem Hereditary.arguments (h : Hereditary P) :
    ∀ es : Arguments, es.All fun e => e.All fun t => t.All P
  | ⟨e, es⟩ => ⟨h.expr e, h.exprs es⟩

theorem Hereditary.exprs (h : Hereditary P) :
    ∀ es : List (Comma × Expr), ∀ x ∈ es, x.2.All fun t => t.All P
  | [] => nofun
  | (_, e) :: es => List.forall_mem_cons.2 ⟨h.expr e, h.exprs es⟩

end

end StyleEngine.Expression
