import StyleEngine.Number.Numeral
import StyleEngine.Text.Blank

/-!
# Expression tokens

A token is a numeral with an optional unit glued to it, the name of a function together with its
opening parenthesis, or a symbol.  White space may stand before a token, and between the name of a
function and its parenthesis.

    Token.scan? s = some (t, rest) → rest.length < s.length            (Token.scan?_length_lt)
-/

namespace StyleEngine.Expression

open Text

/-! ## Tokens -/

inductive Function where
  | calc
  | min
  | max
deriving DecidableEq

def Function.name : Function → String
  | .calc => "calc"
  | .min => "min"
  | .max => "max"

def Function.all : List Function := [.calc, .min, .max]

inductive Symbol where
  | plus
  | minus
  | times
  | divide
  | openParen
  | closeParen
  | comma
deriving DecidableEq

def Symbol.char : Symbol → Char
  | .plus => '+'
  | .minus => '-'
  | .times => '*'
  | .divide => '/'
  | .openParen => '('
  | .closeParen => ')'
  | .comma => ','

def Symbol.all : List Symbol := [.plus, .minus, .times, .divide, .openParen, .closeParen, .comma]

inductive Token where
  /-- An unsigned numeral; a missing unit is the empty one. -/
  | number (numeral : Numeral) (unit : List Char)
  /-- The name of a function and the parenthesis that opens its arguments. -/
  | function (f : Function)
  | symbol (s : Symbol)
deriving DecidableEq

/-- What messages show of a token. -/
def Token.label : Token → String
  | .number n _ => String.ofList n.spelling
  | .function f => f.name
  | .symbol s => String.ofList [s.char]

/-- A token as it is written without white space. -/
def Token.spelling : Token → List Char
  | .number n unit => n.spelling ++ unit
  | .function f => f.name.toList ++ ['(']
  | .symbol s => [s.char]

/-! ## Errors -/

inductive Error where
  | unexpectedCharacter (position : Nat) (text : List Char)
  | trailing (token : Token)
  /-- Something else than a closing parenthesis, or the end. -/
  | unclosed (found : Option Token)
  | divisionByZero
  | tooDeep
  | unknownUnit (unit : List Char)
  | calcArity
  | unexpected (found : Option Token)

/-- Signs, parentheses and function calls around a number. -/
def maxNesting : Nat := 100

def labelOrEnd : Option Token → String
  | some t => t.label
  | none => "end of input"

def Error.message : Error → String
  | .unexpectedCharacter position text =>
    "unexpected character at " ++ String.ofList (Nat.toDigits 10 position) ++ " in '" ++
      String.ofList text ++ "'"
  | .trailing token => "trailing token '" ++ token.label ++ "'"
  | .unclosed found => "expected ')', found '" ++ labelOrEnd found ++ "'"
  | .divisionByZero => "division by zero"
  | .tooDeep =>
    "nesting deeper than " ++ String.ofList (Nat.toDigits 10 maxNesting) ++ " levels"
  | .unknownUnit unit => "unknown unit '" ++ String.ofList unit ++ "'"
  | .calcArity => "calc() takes a single expression"
  | .unexpected found => "unexpected token '" ++ labelOrEnd found ++ "'"

/-! ## Scanning -/

/-- An ASCII letter. -/
def isUnitLetter (c : Char) : Bool := ('a' ≤ c && c ≤ 'z') || ('A' ≤ c && c ≤ 'Z')

/-- A unit is a percent sign or a row of ASCII letters. -/
def scanUnit : List Char → List Char × List Char
  | '%' :: cs => (['%'], cs)
  | cs => (cs.takeWhile isUnitLetter, cs.dropWhile isUnitLetter)

/-- What follows the name of a function `f` and its parenthesis. -/
def afterFunction? (cs : List Char) (f : Function) : Option (Token × List Char) :=
  if f.name.toList.isPrefixOf cs then
    match (cs.drop f.name.toList.length).dropWhile isBlank with
    | '(' :: rest => some (.function f, rest)
    | _ => none
  else none

def scanSymbol? : List Char → Option (Token × List Char)
  | [] => none
  | c :: rest => (Symbol.all.find? (·.char == c)).map fun s => (.symbol s, rest)

/-- The token at the start of a text that starts with no white space. -/
def Token.scan? (cs : List Char) : Option (Token × List Char) :=
  match Numeral.scanUnsigned? cs with
  | some (n, rest) => some (.number n (scanUnit rest).1, (scanUnit rest).2)
  | none =>
    match Function.all.findSome? (afterFunction? cs) with
    | some r => some r
    | none => scanSymbol? cs

/-! ## Lemmas -/

theorem spelling_scanUnit (cs : List Char) : (scanUnit cs).1 ++ (scanUnit cs).2 = cs := by
  unfold scanUnit
  split
  · rfl
  · exact List.takeWhile_append_dropWhile

theorem afterFunction?_length_lt {cs rest : List Char} {f : Function} {t : Token}
    (h : afterFunction? cs f = some (t, rest)) : rest.length < cs.length := by
  unfold afterFunction? at h
  split at h
  · split at h
    · next r hr =>
      simp only [Option.some.injEq, Prod.mk.injEq] at h
      obtain ⟨-, rfl⟩ := h
      have hl := congrArg List.length hr
      have hd := length_dropWhile_le isBlank (cs.drop f.name.toList.length)
      rw [List.length_cons] at hl
      rw [List.length_drop] at hd
      omega
    · cases h
  · cases h

theorem scanSymbol?_length_lt {cs rest : List Char} {t : Token}
    (h : scanSymbol? cs = some (t, rest)) : rest.length < cs.length := by
  cases cs with
  | nil => cases h
  | cons c cs =>
    unfold scanSymbol? at h
    obtain ⟨s, -, hs⟩ := Option.map_eq_some_iff.1 h
    simp only [Prod.mk.injEq] at hs
    rw [← hs.2, List.length_cons]
    exact Nat.lt_succ_self _

/-- A token takes at least one character. -/
theorem Token.scan?_length_lt {cs rest : List Char} {t : Token}
    (h : Token.scan? cs = some (t, rest)) : rest.length < cs.length := by
  unfold Token.scan? at h
  split at h
  · next n r hn =>
    simp only [Option.some.injEq, Prod.mk.injEq] at h
    have hl := Numeral.scanUnsigned?_length_lt hn
    have hu := congrArg List.length (spelling_scanUnit r)
    rw [List.length_append] at hu
    rw [← h.2]
    omega
  · split at h
    · next r hr =>
      obtain ⟨f, -, hf⟩ := List.exists_of_findSome?_eq_some hr
      rw [Option.some.injEq] at h
      subst h
      exact afterFunction?_length_lt hf
    · exact scanSymbol?_length_lt h

/-! ## Tokenizing -/

/-- The tokens of the text `cs`, which is what is left of `text`. -/
def tokensFrom (text cs : List Char) : Except Error (List Token) :=
  if cs.isEmpty then .ok []
  else
    match _hscan : Token.scan? (cs.dropWhile isBlank) with
    | none => .error (.unexpectedCharacter (text.length - cs.length) text)
    | some (token, rest) =>
      match tokensFrom text rest with
      | .ok tokens => .ok (token :: tokens)
      | .error e => .error e
termination_by cs.length
decreasing_by
  have h1 := Token.scan?_length_lt _hscan
  have h2 := length_dropWhile_le isBlank cs
  omega

/-- The tokens of a text; white space around the text does not count in positions. -/
def tokenize (s : String) : Except Error (List Token) :=
  tokensFrom (strip s.toList) (strip s.toList)

end StyleEngine.Expression
