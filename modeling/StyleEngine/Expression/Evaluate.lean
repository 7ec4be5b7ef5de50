import StyleEngine.Expression.Token
import StyleEngine.Value
import StyleEngine.Viewport

/-!
# Evaluating expressions

    expression = term (("+" | "-") term)*
    term       = factor (("*" | "/") factor)*
    factor     = ("+" | "-") factor | number | function expression ("," expression)* ")"
               | "(" expression ")"

Values are computed while the tokens are read, so the first error in reading order is the one
reported.  Each step returns the rest of the tokens with a proof that it is shorter, and a factor
knows how many levels it may still open; both bound the recursion.
-/

namespace StyleEngine.Expression

/-! ## Steps -/

/-- A value and what is left of the tokens `ts`. -/
abbrev Step (ts : List Token) :=
  Except Error (Float × { rest : List Token // rest.length < ts.length })

/-- A value and what is left of the tokens `ts`, perhaps all of them. -/
abbrev Tail (ts : List Token) :=
  Except Error (Float × { rest : List Token // rest.length ≤ ts.length })

/-- Something that reads one operand. -/
abbrev Operand := (ts : List Token) → Step ts

/-- Reads a closing parenthesis. -/
def close (value : Float) (ts : List Token) : Step ts :=
  match ts with
  | .symbol .closeParen :: rest => .ok (value, ⟨rest, Nat.lt_succ_self _⟩)
  | ts => .error (.unclosed ts.head?)

/-! ## Chains of operators -/

/-- What a token does to the values on its left and right, if it is an operator. -/
abbrev Operators := Token → Option (Float → Float → Except Error Float)

def divide (x y : Float) : Except Error Float :=
  if y == 0 then .error .divisionByZero else .ok (x / y)

def multiplicative? : Operators
  | .symbol .times => some fun x y => .ok (x * y)
  | .symbol .divide => some divide
  | _ => none

def additive? : Operators
  | .symbol .plus => some fun x y => .ok (x + y)
  | .symbol .minus => some fun x y => .ok (x - y)
  | _ => none

/-- Applies operators and their right operands to a value, from left to right. -/
def chainTail (operator? : Operators) (operand : Operand) (value : Float) (ts : List Token) :
    Tail ts :=
  match ts with
  | [] => .ok (value, ⟨[], Nat.le_refl _⟩)
  | token :: rest =>
    match operator? token with
    | none => .ok (value, ⟨token :: rest, Nat.le_refl _⟩)
    | some combine =>
      match operand rest with
      | .error e => .error e
      | .ok (right, ⟨rest₁, h₁⟩) =>
        match combine value right with
        | .error e => .error e
        | .ok combined =>
          match chainTail operator? operand combined rest₁ with
          | .error e => .error e
          | .ok (result, ⟨rest₂, h₂⟩) =>
            .ok (result, ⟨rest₂, by simp only [List.length_cons]; omega⟩)
termination_by ts.length

/-- Operands joined by operators. -/
def chain (operator? : Operators) (operand : Operand) : Operand := fun ts =>
  match operand ts with
  | .error e => .error e
  | .ok (value, ⟨rest, h⟩) =>
    match chainTail operator? operand value rest with
    | .error e => .error e
    | .ok (result, ⟨rest₁, h₁⟩) => .ok (result, ⟨rest₁, by omega⟩)

def term (factor : Operand) : Operand := chain multiplicative? factor

def expression (factor : Operand) : Operand := chain additive? (term factor)

/-! ## Functions -/

/-- The arguments after the first, each behind a comma. -/
def argumentsTail (factor : Operand) (ts : List Token) :
    Except Error (List Float × { rest : List Token // rest.length ≤ ts.length }) :=
  match ts with
  | .symbol .comma :: rest =>
    match expression factor rest with
    | .error e => .error e
    | .ok (value, ⟨rest₁, h₁⟩) =>
      match argumentsTail factor rest₁ with
      | .error e => .error e
      | .ok (values, ⟨rest₂, h₂⟩) =>
        .ok (value :: values, ⟨rest₂, by simp only [List.length_cons]; omega⟩)
  | ts => .ok ([], ⟨ts, Nat.le_refl _⟩)
termination_by ts.length

/-- The value of a function: of equal values the earlier one is chosen. -/
def apply (f : Function) (first : Float) (others : List Float) : Except Error Float :=
  match f with
  | .calc => if others.isEmpty then .ok first else .error .calcArity
  | .min => .ok (others.foldl (fun best x => if x < best then x else best) first)
  | .max => .ok (others.foldl (fun best x => if best < x then x else best) first)

/-- The arguments of `f`, a closing parenthesis, and the value. -/
def call (factor : Operand) (f : Function) : Operand := fun ts =>
  match expression factor ts with
  | .error e => .error e
  | .ok (first, ⟨rest₁, h₁⟩) =>
    match argumentsTail factor rest₁ with
    | .error e => .error e
    | .ok (others, ⟨rest₂, h₂⟩) =>
      match close first rest₂ with
      | .error e => .error e
      | .ok (_, ⟨rest₃, h₃⟩) =>
        match apply f first others with
        | .error e => .error e
        | .ok value => .ok (value, ⟨rest₃, by omega⟩)

/-! ## Factors -/

/-- The value of a numeral with a unit. -/
def quantity (size? : String → Option Float) (n : Numeral) (unit : List Char) :
    Except Error Float :=
  if unit.isEmpty then .ok n.value
  else
    match size? (String.ofList unit) with
    | none => .error (.unknownUnit unit)
    | some size => .ok (n.value * size)

/-- A factor that may open `levels` levels, itself included. -/
def factor (size? : String → Option Float) : Nat → Operand
  | 0, _ => .error .tooDeep
  | levels + 1, ts =>
    match ts with
    | .symbol .plus :: rest =>
      match factor size? levels rest with
      | .error e => .error e
      | .ok (value, ⟨rest₁, h₁⟩) => .ok (value, ⟨rest₁, Nat.lt_succ_of_lt h₁⟩)
    | .symbol .minus :: rest =>
      match factor size? levels rest with
      | .error e => .error e
      | .ok (value, ⟨rest₁, h₁⟩) => .ok (-value, ⟨rest₁, Nat.lt_succ_of_lt h₁⟩)
    | .number n unit :: rest =>
      match quantity size? n unit with
      | .error e => .error e
      | .ok value => .ok (value, ⟨rest, Nat.lt_succ_self _⟩)
    | .function f :: rest =>
      match call (factor size? levels) f rest with
      | .error e => .error e
      | .ok (value, ⟨rest₁, h₁⟩) => .ok (value, ⟨rest₁, Nat.lt_succ_of_lt h₁⟩)
    | .symbol .openParen :: rest =>
      match expression (factor size? levels) rest with
      | .error e => .error e
      | .ok (value, ⟨rest₁, h₁⟩) =>
        match close value rest₁ with
        | .error e => .error e
        | .ok (value, ⟨rest₂, h₂⟩) =>
          .ok (value, ⟨rest₂, Nat.lt_succ_of_lt (Nat.lt_trans h₂ h₁)⟩)
    | ts => .error (.unexpected ts.head?)

/-! ## Whole expressions -/

/-- The value of a list of tokens that is one expression. -/
def evaluateTokens (size? : String → Option Float) (ts : List Token) : Except Error Float :=
  match expression (factor size? maxNesting) ts with
  | .error e => .error e
  | .ok (value, ⟨[], _⟩) => .ok value
  | .ok (_, ⟨token :: _, _⟩) => .error (.trailing token)

/-- The value of an expression of the property `key`. -/
def evaluate (key text : String) (units : Units) : Except Error Float :=
  match tokenize text with
  | .error e => .error e
  | .ok tokens => evaluateTokens (units.size? key) tokens

/-- The pixels of an expression: NaN if it is no text, has an error or no finite value. -/
def convert (key : String) (value : Value) (units : Units) : Float :=
  match value with
  | .text s =>
    match evaluate key s units with
    | .error _ => nan
    | .ok x => if x.isFinite then x else nan
  | _ => nan

/-- The text of the value starts with the name of a function. -/
def looksLike (value : Value) : Bool :=
  Function.all.any fun f => f.name.toList.isPrefixOf value.shown.toList

end StyleEngine.Expression
