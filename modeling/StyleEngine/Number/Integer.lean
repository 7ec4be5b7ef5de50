import StyleEngine.Number.Notation
import StyleEngine.Number.Numeral
import StyleEngine.Text.Blank
import StyleEngine.Text.Grouped

/-!
# Integers in text

An integer is an optional sign and decimal digits of any script, grouped by underscores or not,
with white space around them.  One with more than `maxIntegerDigits` digits is told so, whatever
follows the digits.
-/

namespace StyleEngine

namespace PlainInteger

open Text

/-- Why a text is not taken for an integer. -/
inductive Flaw where
  | malformed
  | tooLong (digits : Nat)
deriving DecidableEq

/-- The ASCII character that a character counts as, if there is one: a blank of any kind is a
space, and a digit of any script its own digit. -/
def asciiForm (c : Char) : Char :=
  if c.toNat < 128 then c
  else if isBlank c then ' '
  else match digitValue? c with
    | some d => Char.ofNat ('0'.toNat + d)
    | none => c

def isGroupedDigit (c : Char) : Bool := isAsciiDigit c || c = '_'

/-- The value of grouped ASCII digits. -/
def magnitude (cs : List Char) : Except Flaw Nat :=
  if cs.isEmpty || !isGrouped cs then .error .malformed
  else if maxIntegerDigits < (ungroup cs).length then .error (.tooLong (ungroup cs).length)
  else .ok (digitsValue (ungroup cs))

/-- Reads an integer at the start of a text that has no white space there. -/
def signed (cs : List Char) : Except Flaw Int := do
  let (sign, rest) := Numeral.scanSign cs
  let n ← magnitude (rest.takeWhile isGroupedDigit)
  if (rest.dropWhile isGroupedDigit).all isAsciiSpace then
    pure (if sign = some '-' then -(n : Int) else n)
  else .error .malformed

def parse (s : String) : Except Flaw Int :=
  signed ((s.toList.map asciiForm).dropWhile isAsciiSpace)

end PlainInteger

end StyleEngine
