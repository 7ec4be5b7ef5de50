import StyleEngine.Proofs.Expression.Parsing
import StyleEngine.Proofs.Expression.Tokens

/-!
# The nesting limit

Around each number of an expression stand some signs, parentheses and function calls: its levels.
A factor takes a level while it is read, and a number is a factor, so an expression is given up as
soon as some number has as many levels around it as may be open.

    (∀ n, e.nesting < n ↔ ∀ k ∈ e.levels, k < n)                       (greatest_nesting)
    k ∈ e.levels → 100 ≤ k → convert key (.text text) units = nan      (convert_of_deep)
-/

namespace StyleEngine.Expression

open Text

variable {Op α : Type}

/-! ## Levels -/

/-- What is listed of the operands, in reading order. -/
def Chain.join (c : Chain Op (List α)) : List α := c.first ++ c.rest.flatMap Prod.snd

/-- A sign, a pair of parentheses and a call each count for all numbers in them. -/
def counting : Algebra (List Nat) where
  number _ _ := [0]
  signed _ ks := ks.map (· + 1)
  call _ c := c.join.map (· + 1)
  group ks := ks.map (· + 1)
  product c := c.join
  sum c := c.join

def Factor.levels (f : Factor) : List Nat := f.fold counting

def Term.levels (t : Term) : List Nat := (t.map Factor.levels).join

/-- How many signs, parentheses and function calls stand around each number of the tree, in
reading order. -/
def Expr.levels (e : Expr) : List Nat := (e.map Term.levels).join

def Arguments.levels (es : Arguments) : List Nat := (es.map Expr.levels).join

theorem Factor.levels_call (f : Function) (es : Arguments) :
    (Factor.call f es).levels = es.levels.map (· + 1) :=
  fold_call counting f es

theorem Factor.levels_group (e : Expr) : (Factor.group e).levels = e.levels.map (· + 1) :=
  fold_group counting e

/-! ## The deepest number -/

/-- `m` is the greatest of the numbers `ks`. -/
def Greatest (m : Nat) (ks : List Nat) : Prop := ∀ n, m < n ↔ ∀ k ∈ ks, k < n

theorem greatest_singleton (m : Nat) : Greatest m [m] := by
  intro n
  rw [List.forall_mem_singleton]

theorem Greatest.succ {m : Nat} {ks : List Nat} (h : Greatest m ks) :
    Greatest (m + 1) (ks.map (· + 1)) := by
  intro n
  have hm : m + 1 < n ↔ ∀ k ∈ ks, k < n - 1 := by
    rw [← h (n - 1)]
    omega
  rw [hm, List.forall_mem_map]
  refine forall₂_congr fun k _ => ?_
  omega

theorem Chain.forall_mem_join (P : α → Prop) (c : Chain Op (List α)) :
    (∀ a ∈ c.join, P a) ↔ c.All fun as => ∀ a ∈ as, P a := by
  unfold join All
  simp only [List.forall_mem_append, List.forall_mem_flatMap]

theorem Chain.greatest {m : α → Nat} {ks : α → List Nat} {c : Chain Op α}
    (h : c.All fun a => Greatest (m a) (ks a)) : Greatest (c.map m).highest (c.map ks).join := by
  intro n
  rw [Chain.highest_lt_iff, Chain.all_map, Chain.forall_mem_join, Chain.all_map]
  constructor
  · intro hm
    exact ⟨(h.1 n).1 hm.1, fun x hx => (h.2 x hx n).1 (hm.2 x hx)⟩
  · intro hk
    exact ⟨(h.1 n).2 hk.1, fun x hx => (h.2 x hx n).2 (hk.2 x hx)⟩

theorem Expr.greatest {e : Expr} (h : e.All fun t => t.All fun f => Greatest f.nesting f.levels) :
    Greatest e.nesting e.levels :=
  Chain.greatest (h.imp fun _ ht => Chain.greatest ht)

theorem hereditary_greatest : Hereditary fun f => Greatest f.nesting f.levels where
  number n unit := greatest_singleton 0
  signed sign f ih := ih.succ
  call f es ih := by
    have hes : Greatest es.nesting es.levels :=
      Chain.greatest (ih.imp fun _ he => Expr.greatest he)
    rw [Factor.nesting_call, Factor.levels_call]
    exact hes.succ
  group e ih := by
    rw [Factor.nesting_group, Factor.levels_group]
    exact (Expr.greatest ih).succ

theorem greatest_nesting (e : Expr) : Greatest e.nesting e.levels :=
  Expr.greatest (hereditary_greatest.expr e)

/-! ## Expressions of one factor -/

/-- An expression of one factor. -/
def Factor.alone (f : Factor) : Expr := ⟨⟨f, []⟩, []⟩

theorem Factor.tokens_alone (f : Factor) : f.alone.tokens = f.tokens := by
  show (f.tokens ++ []) ++ [] = f.tokens
  rw [List.append_nil, List.append_nil]

theorem Factor.levels_alone (f : Factor) : f.alone.levels = f.levels := by
  show (f.levels ++ []) ++ [] = f.levels
  rw [List.append_nil, List.append_nil]

theorem Factor.value_alone (size? : String → Option Float) (f : Factor) :
    f.alone.value size? = f.value size? := by
  show ((f.value size?).bind some).bind some = f.value size?
  rw [Option.bind_fun_some, Option.bind_fun_some]

/-- A factor in a call of `calc`. -/
def Factor.inCalc (f : Factor) : Expr := (Factor.call .calc ⟨f.alone, []⟩).alone

theorem Factor.tokens_inCalc (f : Factor) :
    f.inCalc.tokens = .function .calc :: (f.tokens ++ [.symbol .closeParen]) := by
  have hes : Arguments.tokens ⟨f.alone, []⟩ = f.tokens := by
    show f.alone.tokens ++ [] = f.tokens
    rw [List.append_nil, Factor.tokens_alone]
  rw [inCalc, Factor.tokens_alone, Factor.tokens_call, hes]

theorem Factor.levels_inCalc (f : Factor) : f.inCalc.levels = f.levels.map (· + 1) := by
  have hes : Arguments.levels ⟨f.alone, []⟩ = f.levels := by
    show f.alone.levels ++ [] = f.levels
    rw [List.append_nil, Factor.levels_alone]
  rw [inCalc, Factor.levels_alone, Factor.levels_call, hes]

theorem Factor.value_inCalc (size? : String → Option Float) (f : Factor) :
    f.inCalc.value size? = f.value size? := by
  have hes : Chain.apply .calc (Chain.map (Expr.value size?) (⟨f.alone, []⟩ : Arguments)) =
      f.alone.value size? := Option.bind_fun_some _
  rw [inCalc, Factor.value_alone, Factor.value_call, hes, Factor.value_alone]

/-! ## A pixel in parentheses -/

/-- `1px` in `n` pairs of parentheses. -/
def pixelIn : Nat → Factor
  | 0 => .number ⟨none, ['1'], none, none⟩ ['p', 'x']
  | n + 1 => .group (pixelIn n).alone

/-- `1px` in a call and `n` pairs of parentheses. -/
def calcPixelIn (n : Nat) : Expr := (Factor.call .calc ⟨(pixelIn n).alone, []⟩).alone

theorem levels_calcPixelIn (n : Nat) : (calcPixelIn n).levels = [n + 1] := by
  have hpixel : (pixelIn n).levels = [n] := by
    induction n with
    | zero => rfl
    | succ n ih =>
      rw [pixelIn, Factor.levels_group, Factor.levels_alone, ih]
      rfl
  have hcalc := (pixelIn n).levels_inCalc
  rwa [hpixel] at hcalc

theorem value_calcPixelIn (units : Units) (key : String) (n : Nat) :
    (calcPixelIn n).value (units.size? key) = some 1 := by
  have hpixel : (pixelIn n).value (units.size? key) = some 1 := by
    induction n with
    | zero =>
      show some (Numeral.value ⟨none, ['1'], none, none⟩ * 1) = some 1
      decide +kernel
    | succ n ih => rw [pixelIn, Factor.value_group, Factor.value_alone, ih]
  exact ((pixelIn n).value_inCalc _).trans hpixel

theorem valid_of_mem_calcPixelIn (n : Nat) : ∀ t ∈ (calcPixelIn n).tokens, t.Valid := by
  have hpixel : ∀ t ∈ (pixelIn n).tokens, t.Valid := by
    induction n with
    | zero =>
      intro t ht
      rw [List.mem_singleton.1 ht]
      have hdigits : ∀ c ∈ ['1'], isDigit c = true := List.forall_mem_singleton.2 (by decide)
      exact ⟨rfl, ⟨nofun, hdigits, nofun, by decide, nofun⟩, by decide⟩
    | succ n ih =>
      rw [pixelIn, Factor.tokens_group, Factor.tokens_alone, List.forall_mem_cons,
        List.forall_mem_append]
      exact ⟨trivial, ih, List.forall_mem_singleton.2 trivial⟩
  have hcalc : (calcPixelIn n).tokens = _ := (pixelIn n).tokens_inCalc
  rw [hcalc, List.forall_mem_cons, List.forall_mem_append]
  exact ⟨trivial, hpixel, List.forall_mem_singleton.2 trivial⟩

/-- The text `calc( ( ( 1px ) ) )` with `n` pairs of parentheses in the call. -/
def calcPixelText (n : Nat) : String := String.ofList (spaceOut (calcPixelIn n).tokens)

theorem tokenize_calcPixelText (n : Nat) :
    tokenize (calcPixelText n) = .ok (calcPixelIn n).tokens :=
  tokenize_spaceOut (valid_of_mem_calcPixelIn n)

/-! ## The limit -/

section Limit

variable {key text : String} {units : Units} {e : Expr} (htext : tokenize text = .ok e.tokens)

include htext

theorem convert_of_shallow {v : Float} (hlevels : ∀ k ∈ e.levels, k < 100)
    (hvalue : e.value (units.size? key) = some v) (hv : v.isFinite = true) :
    convert key (.text text) units = v := by
  have hn : e.nesting < 100 := (greatest_nesting e 100).2 hlevels
  exact (convert_of_value htext hn hvalue).trans (if_pos hv)

theorem convert_of_deep {k : Nat} (hk : k ∈ e.levels) (hlimit : 100 ≤ k) :
    convert key (.text text) units = nan := by
  refine convert_of_no_value htext fun hn => ?_
  have hlt : k < 100 := (greatest_nesting e 100).1 hn k hk
  omega

/-- An expression whose numbers all have less than 100 levels around them is converted to its
value, if that is finite; 100 levels around one number give NaN. -/
theorem convert_within_limit :
    (∀ v, (∀ k ∈ e.levels, k < 100) → e.value (units.size? key) = some v → v.isFinite = true →
      convert key (.text text) units = v) ∧
    ((∃ k ∈ e.levels, 100 ≤ k) → convert key (.text text) units = nan) := by
  constructor
  · intro v hlevels hvalue hv
    exact convert_of_shallow htext hlevels hvalue hv
  · rintro ⟨k, hk, hlimit⟩
    exact convert_of_deep htext hk hlimit

end Limit

/-- With 98 pairs of parentheses in the call the pixel has 99 levels around it. -/
theorem ninetyNine_levels_convert :
    tokenize (calcPixelText 98) = .ok (calcPixelIn 98).tokens ∧
    (∀ k ∈ (calcPixelIn 98).levels, k < 100) ∧
    convert "width" (.text (calcPixelText 98)) {} = 1 := by
  have htext := tokenize_calcPixelText 98
  have hlevels : ∀ k ∈ (calcPixelIn 98).levels, k < 100 := by
    rw [levels_calcPixelIn]
    decide
  have hvalue := value_calcPixelIn {} "width" 98
  have hfinite : (1 : Float).isFinite = true := by decide +kernel
  exact ⟨htext, hlevels, (convert_within_limit htext).1 1 hlevels hvalue hfinite⟩

/-- With one pair more it has 100 levels around it, no more, and its value is not given. -/
theorem hundred_levels_give_up :
    tokenize (calcPixelText 99) = .ok (calcPixelIn 99).tokens ∧
    (∀ k ∈ (calcPixelIn 99).levels, k ≤ 100) ∧
    (calcPixelIn 99).value (Units.size? {} "width") = some 1 ∧ (1 : Float).isFinite = true ∧
    convert "width" (.text (calcPixelText 99)) {} = nan ∧ nan ≠ 1 := by
  have htext := tokenize_calcPixelText 99
  have hlevels := levels_calcPixelIn 99
  refine ⟨htext, ?_, value_calcPixelIn {} "width" 99, by decide +kernel, ?_, by decide +kernel⟩
  · rw [hlevels]
    decide
  · refine convert_of_deep htext (k := 100) ?_ (Nat.le_refl _)
    rw [hlevels]
    exact List.mem_singleton_self _

end StyleEngine.Expression
