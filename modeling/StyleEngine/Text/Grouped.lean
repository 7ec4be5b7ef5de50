/-!
# Grouped digits

Single underscores may divide the digits of a number into groups.  They stand between other
characters, so a grouped text neither starts nor ends with one and has no two in a row.
-/

namespace StyleEngine.Text

/-- Two underscores in a row. -/
def hasDoubleUnderscore : List Char → Bool
  | c :: d :: rest => (c = '_' && d = '_') || hasDoubleUnderscore (d :: rest)
  | _ => false

def isGrouped (cs : List Char) : Bool :=
  cs.head? ≠ some '_' && cs.getLast? ≠ some '_' && !hasDoubleUnderscore cs

/-- The text without its underscores. -/
def ungroup (cs : List Char) : List Char := cs.filter (· ≠ '_')

end StyleEngine.Text
