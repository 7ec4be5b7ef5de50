/-!
# Ranges of code points

A character class is a list of closed ranges of code points, ascending and apart.
-/

namespace StyleEngine.Text

abbrev Ranges := List (Nat × Nat)

/-- Membership of a character in a class. -/
def Ranges.has (rs : Ranges) (c : Char) : Bool :=
  rs.any fun r => r.1 ≤ c.toNat && c.toNat ≤ r.2

end StyleEngine.Text
