import StyleEngine.Schema.Shape
import StyleEngine.Theme

/-!
# Themes as data

A theme document gives elevation as a table from levels to shadows; a theme given directly as data
has none, since its elevation is a function.
-/

namespace StyleEngine.Theme

open Schema

/-! ## Fields -/

/-- A root metric; a missing one is the default, an integer. -/
def remOf (fields : Fields Value) : Checked Number :=
  optional fields "rem" defaultRootMetric fun value => (extent value).map Number.float

def groupOf (fields : Fields Value) (name : String) : Checked (Fields Value) :=
  optional fields name [] map

/-- Data holds no functions, so the only elevation it can give is none. -/
def elevationOf (fields : Fields Value) : Checked (Option Elevation) :=
  optional fields "elevation" none fun value =>
    match value with
    | .null => .ok none
    | _ => Checked.fail .notFunction value

/-! ## Plain themes -/

def check (value : Value) : Checked Theme := do
  let fields ← record value
  (remOf fields).map mk
    |>.ap (groupOf fields "sizes")
    |>.ap (groupOf fields "colors")
    |>.ap (elevationOf fields)

/-- A theme as data, its elevation left out. -/
def toValue (t : Theme) : Value :=
  .map [("rem", .number t.rem), ("sizes", .map t.sizes), ("colors", .map t.colors),
    ("elevation", .null)]

/-! ## Documents -/

structure Document where
  rem : Number := defaultRootMetric
  sizes : Fields Value := []
  colors : Fields Value := []
  /-- The shadow of each level, by the level's text. -/
  elevation : Fields (Fields Value) := []

namespace Document

def check (value : Value) : Checked Document := do
  let fields ← record value
  (remOf fields).map mk
    |>.ap (groupOf fields "sizes")
    |>.ap (groupOf fields "colors")
    |>.ap (optional fields "elevation" [] (mapOf map))

def toValue (d : Document) : Value :=
  .map [("rem", .number d.rem), ("sizes", .map d.sizes), ("colors", .map d.colors),
    ("elevation", .map (d.elevation.map fun e => (e.1, .map e.2)))]

/-- Looks a level up by its text; 2 and 2.0 have the same one. -/
def shadowOf (d : Document) (level : Value) : Except Fault (Option (Fields Value)) :=
  level.printCompact.map (Fields.get? d.elevation)

/-- A theme without elevation if the table is empty. -/
def toTheme (d : Document) : Theme where
  rem := .float d.rem.round
  sizes := d.sizes
  colors := d.colors
  elevation := if d.elevation.isEmpty then none else some d.shadowOf

end Document

end StyleEngine.Theme
