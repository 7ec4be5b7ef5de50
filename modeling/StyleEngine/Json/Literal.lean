import StyleEngine.Number.Integer
import StyleEngine.Text.Hex
import StyleEngine.Text.Surrogate
import StyleEngine.Value

/-!
# JSON literals

Texts, numbers and words at the start of a JSON text.  A reader returns what it read and the rest,
with a proof that the rest is shorter; when it fails it tells how many codes were left at the place
to blame.

* An unclosed text is blamed on its opening quote, a bad escape on its backslash, and a bad escape
  by code on its letter.
* A surrogate that is not half of a pair is read as it is.
* A number takes as many characters as it can; a point or an exponent without digits is not its
  part.
* An integer with too many digits is JSON, but it is not read.
-/

namespace StyleEngine.Json

open Text

/-! ## Readers -/

/-- What was read at the start of `cs`, and the rest. -/
abbrev Found (α : Type) (cs : List Code) := α × { rest : List Code // rest.length < cs.length }

/-- Why reading ends before the end. -/
inductive Flaw where
  /-- This is no JSON; so many codes were left at the place to blame. -/
  | malformed (left : Nat)
  /-- A number has too many digits, or too many lists and maps stand in one another. -/
  | excessive
deriving DecidableEq

/-- What was read, or why nothing was. -/
abbrev Reading (α : Type) (cs : List Code) := Except Flaw (Found α cs)

/-- The same reading of a longer text. -/
def Found.widen {α : Type} {cs ds : List Code} (f : Found α cs) (h : cs.length ≤ ds.length) :
    Found α ds :=
  (f.1, ⟨f.2.1, Nat.lt_of_lt_of_le f.2.2 h⟩)

/-! ## Escapes by code -/

/-- Four hexadecimal digits that are not the end of the text. -/
def codeUnit? : (cs : List Code) → Option (Found Nat cs)
  | .char a :: .char b :: .char c :: .char d :: e :: rest =>
    (hexNumber? [a, b, c, d]).map fun n => (n, ⟨e :: rest, by simp only [List.length_cons]; omega⟩)
  | _ => none

/-- The second half of a pair: an escape of its own. -/
def lowSurrogate? : (cs : List Code) → Option (Found Nat cs)
  | .char '\\' :: .char 'u' :: rest =>
    match codeUnit? rest with
    | some found =>
      if isLowSurrogate found.1 then
        some (found.widen (by simp only [List.length_cons]; omega))
      else none
    | none => none
  | _ => none

/-- The code of an escape whose `\u` has been read. -/
def escapedCode? (cs : List Code) : Option (Found Code cs) :=
  match codeUnit? cs with
  | none => none
  | some (n, ⟨rest, h⟩) =>
    if isHighSurrogate n then
      match lowSurrogate? rest with
      | some (m, ⟨rest', h'⟩) => some (.char (pairChar n m), ⟨rest', Nat.lt_trans h' h⟩)
      | none => some (.ofNat n, ⟨rest, h⟩)
    else some (.ofNat n, ⟨rest, h⟩)

/-! ## Texts -/

/-- What a letter behind a backslash stands for. -/
def escapedLetter? : Code → Option Code
  | .surrogate _ => none
  | .char c =>
    if c = '"' || c = '\\' || c = '/' then some (.char c)
    else if c = 'b' then some (.char '\x08')
    else if c = 'f' then some (.char '\x0c')
    else if c = 'n' then some (.char '\n')
    else if c = 'r' then some (.char '\r')
    else if c = 't' then some (.char '\t')
    else none

/-- The rest of a text whose opening quote had `start` codes from it to the end. -/
def textFrom (start : Nat) (cs : List Code) : Reading (List Code) cs :=
  match cs with
  | [] => .error (.malformed start)
  | .char '"' :: rest => .ok ([], ⟨rest, Nat.lt_succ_self _⟩)
  | .char '\\' :: .char 'u' :: rest =>
    match escapedCode? rest with
    | none => .error (.malformed (rest.length + 1))
    | some (c, ⟨rest₁, h₁⟩) =>
      match textFrom start rest₁ with
      | .error flaw => .error flaw
      | .ok (text, ⟨rest₂, h₂⟩) =>
        .ok (c :: text, ⟨rest₂, by simp only [List.length_cons]; omega⟩)
  | .char '\\' :: letter :: rest =>
    match escapedLetter? letter with
    | none => .error (.malformed (rest.length + 2))
    | some c =>
      match textFrom start rest with
      | .error flaw => .error flaw
      | .ok (text, ⟨rest₁, h₁⟩) =>
        .ok (c :: text, ⟨rest₁, by simp only [List.length_cons]; omega⟩)
  | [.char '\\'] => .error (.malformed start)
  | c :: rest =>
    if c.toNat < 0x20 then .error (.malformed (rest.length + 1))
    else
      match textFrom start rest with
      | .error flaw => .error flaw
      | .ok (text, ⟨rest₁, h₁⟩) =>
        .ok (c :: text, ⟨rest₁, by simp only [List.length_cons]; omega⟩)
termination_by cs.length

/-! ## Numbers -/

/-- A zero, or digits that start with another one. -/
def scanWhole : List Char → List Char × List Char
  | '0' :: rest => (['0'], rest)
  | cs => (cs.takeWhile isAsciiDigit, cs.dropWhile isAsciiDigit)

def scanFraction : List Char → Option (List Char) × List Char
  | '.' :: rest =>
    let digits := rest.takeWhile isAsciiDigit
    if digits.isEmpty then (none, '.' :: rest) else (some digits, rest.dropWhile isAsciiDigit)
  | cs => (none, cs)

def scanExponent : List Char → Option Exponent × List Char
  | [] => (none, [])
  | c :: rest =>
    let (sign, rest₁) := Numeral.scanSign rest
    let digits := rest₁.takeWhile isAsciiDigit
    if (c = 'e' || c = 'E') && !digits.isEmpty then
      (some ⟨c, sign, digits⟩, rest₁.dropWhile isAsciiDigit)
    else (none, c :: rest)

def scanMinus : List Char → Option Char × List Char
  | '-' :: rest => (some '-', rest)
  | cs => (none, cs)

def scanNumeral? (cs : List Char) : Option (Numeral × List Char) :=
  let (sign, rest) := scanMinus cs
  let (whole, rest) := scanWhole rest
  let (fraction, rest) := scanFraction rest
  let (exponent, rest) := scanExponent rest
  if whole.isEmpty then none else some (⟨sign, whole, fraction, exponent⟩, rest)

def isInteger (n : Numeral) : Bool := n.fraction.isNone && n.exponent.isNone

/-- An integer, unless there is a fraction or an exponent. -/
def numberOf (n : Numeral) : Number :=
  if isInteger n then
    .int (if n.sign.isSome then -(digitsValue n.whole : Int) else digitsValue n.whole)
  else .float n.value

/-- Whether an integer with too many digits stands at the start of a text. -/
def startsTooLong (cs : List Char) : Bool :=
  match scanNumeral? cs with
  | some (n, _) => isInteger n && maxIntegerDigits < n.whole.length
  | none => false

/-! ## Words -/

def words : List (String × Value) :=
  [("null", .null), ("true", .bool true), ("false", .bool false), ("NaN", .float nan),
   ("Infinity", .float infinity), ("-Infinity", .float (-infinity))]

/-- The value of a word at the start of a text. -/
def word? (cs : List Char) : Option (Value × List Char) :=
  words.findSome? fun w =>
    if w.1.toList.isPrefixOf cs then some (w.2, cs.drop w.1.toList.length) else none

/-- The characters that words and numbers are made of. -/
def isLiteralChar (c : Char) : Bool := c.isAlphanum || c = '-' || c = '+' || c = '.'

def literalAtStart : List Code → List Char
  | .char c :: rest => if isLiteralChar c then c :: literalAtStart rest else []
  | _ => []

/-- A word or a number. -/
def scalar? (cs : List Char) : Option (Value × List Char) :=
  match word? cs with
  | some found => some found
  | none => (scanNumeral? cs).map fun r => (.number (numberOf r.1), r.2)

/-! ## Lemmas -/

theorem length_literalAtStart_le (cs : List Code) : (literalAtStart cs).length ≤ cs.length := by
  fun_induction literalAtStart cs with
  | case1 c rest h ih => exact Nat.succ_le_succ ih
  | case2 => exact Nat.zero_le _
  | case3 => exact Nat.zero_le _

theorem length_scanMinus_le (cs : List Char) : (scanMinus cs).2.length ≤ cs.length := by
  unfold scanMinus
  split
  · exact Nat.le_succ _
  · exact Nat.le_refl _

theorem length_scanWhole (cs : List Char) :
    (scanWhole cs).1.length + (scanWhole cs).2.length = cs.length := by
  unfold scanWhole
  split
  · simp only [List.length_cons, List.length_nil]; omega
  · rw [← List.length_append, List.takeWhile_append_dropWhile]

theorem length_scanFraction_le (cs : List Char) : (scanFraction cs).2.length ≤ cs.length := by
  unfold scanFraction
  split
  · next rest =>
    have h := length_dropWhile_le isAsciiDigit rest
    dsimp only
    split <;> simp only [List.length_cons] <;> omega
  · exact Nat.le_refl _

theorem length_scanSign_le (cs : List Char) : (Numeral.scanSign cs).2.length ≤ cs.length := by
  have h := congrArg List.length (Numeral.spelling_scanSign cs)
  rw [List.length_append] at h
  omega

theorem length_scanExponent_le (cs : List Char) : (scanExponent cs).2.length ≤ cs.length := by
  cases cs with
  | nil => exact Nat.le_refl _
  | cons c rest =>
    have hs := length_scanSign_le rest
    have hd := length_dropWhile_le isAsciiDigit (Numeral.scanSign rest).2
    simp only [scanExponent]
    split <;> simp only [List.length_cons] <;> omega

/-- A number takes at least one character. -/
theorem scanNumeral?_length_lt {cs rest : List Char} {n : Numeral}
    (h : scanNumeral? cs = some (n, rest)) : rest.length < cs.length := by
  unfold scanNumeral? at h
  dsimp only at h
  split at h
  · cases h
  · next hw =>
    simp only [Option.some.injEq, Prod.mk.injEq] at h
    rw [← h.2]
    have h1 := length_scanMinus_le cs
    have h2 := length_scanWhole (scanMinus cs).2
    have h3 := length_scanFraction_le (scanWhole (scanMinus cs).2).2
    have h4 := length_scanExponent_le (scanFraction (scanWhole (scanMinus cs).2).2).2
    have h5 : 0 < (scanWhole (scanMinus cs).2).1.length := by
      cases hl : (scanWhole (scanMinus cs).2).1 with
      | nil => simp [hl] at hw
      | cons c w => exact Nat.succ_pos _
    omega

theorem word?_length_lt {cs rest : List Char} {v : Value} (h : word? cs = some (v, rest)) :
    rest.length < cs.length := by
  unfold word? at h
  obtain ⟨w, hw, hf⟩ := List.exists_of_findSome?_eq_some h
  split at hf
  · next hp =>
    simp only [Option.some.injEq, Prod.mk.injEq] at hf
    have hl := (List.isPrefixOf_iff_prefix.1 hp).length_le
    have hpos : 0 < w.1.toList.length := by
      simp only [words, List.mem_cons, List.not_mem_nil, or_false] at hw
      rcases hw with rfl | rfl | rfl | rfl | rfl | rfl <;> decide
    rw [← hf.2, List.length_drop]
    omega
  · cases hf

theorem scalar?_length_lt {cs rest : List Char} {v : Value} (h : scalar? cs = some (v, rest)) :
    rest.length < cs.length := by
  unfold scalar? at h
  split at h
  · next found hf =>
    rw [Option.some.injEq] at h
    subst h
    exact word?_length_lt hf
  · obtain ⟨r, hr, he⟩ := Option.map_eq_some_iff.1 h
    simp only [Prod.mk.injEq] at he
    rw [← he.2]
    exact scanNumeral?_length_lt hr

end StyleEngine.Json
