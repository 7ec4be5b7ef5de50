import StyleEngine.Number.Numeral
import StyleEngine.Text.Blank
import StyleEngine.Text.Grouped

/-!
# Floats in plain text

A float that a request spells as a text: an ASCII numeral, or a word for infinity or for NaN, with
white space around it.  A text that is grouped by underscores is read once more without them, and
then no white space is allowed.
-/

namespace StyleEngine.PlainFloat

/-! ## Words -/

/-- The value of a word, in letters of any case. -/
def ofWord? (cs : List Char) : Option Float :=
  let word := String.ofList (cs.map Char.toLower)
  if word = "inf" || word = "infinity" then some infinity
  else if word = "nan" then some nan
  else none

def ofSignedWord? (cs : List Char) : Option Float :=
  let (sign, rest) := Numeral.scanSign cs
  (ofWord? rest).map fun x => if sign = some '-' then -x else x

/-! ## Numerals -/

def isAscii (c : Char) : Bool := c.toNat < 128

/-- A text that is one ASCII numeral and nothing else. -/
def ofNumeral? (cs : List Char) : Option Float :=
  match Numeral.scan? cs with
  | some (n, []) => if cs.all isAscii then some n.value else none
  | _ => none

/-! ## Texts -/

def read? (cs : List Char) : Option Float := (ofNumeral? cs).or (ofSignedWord? cs)

/-- The text without its underscores, if it is grouped by some. -/
def ungrouped? (cs : List Char) : Option (List Char) :=
  if cs.contains '_' && Text.isGrouped cs then some (Text.ungroup cs) else none

def parse? (s : String) : Option Float :=
  (read? (Text.trim Text.isWhiteSpace s.toList)).or ((ungrouped? s.toList).bind read?)

end StyleEngine.PlainFloat
