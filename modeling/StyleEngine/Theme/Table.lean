import StyleEngine.Fields
import StyleEngine.Value

/-!
# Token tables

Token groups may nest.  Flattening visits them depth first and keeps, for each name, the first
value that is neither null nor the empty text.
-/

namespace StyleEngine.Theme

mutual

/-- Enters one named value into a table: a map enters its own names. -/
def enter (table : Fields Value) (name : String) : Value → Fields Value
  | .map entries => enterAll table entries
  | .null => table
  | .text s => if s.isEmpty then table else Fields.setDefault table name (.text s)
  | value => Fields.setDefault table name value

/-- Enters the entries of a map, in order. -/
def enterAll (table : Fields Value) : List (String × Value) → Fields Value
  | [] => table
  | (name, value) :: rest => enterAll (enter table name value) rest

end

/-- The table of several groups, the earlier ones first. -/
def flatten (groups : List (Fields Value)) : Fields Value := groups.foldl enterAll []

end StyleEngine.Theme
