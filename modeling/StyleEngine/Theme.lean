import StyleEngine.Failure
import StyleEngine.Theme.Table
import StyleEngine.Viewport

/-!
# Themes

A theme gives variables their values, `rem` its size, and elevation levels their shadows.
-/

namespace StyleEngine

/-- The shadow properties of an elevation level, if it has any. -/
abbrev Elevation := Value → Except Fault (Option (Fields Value))

structure Theme where
  rem : Number := defaultRootMetric
  sizes : Fields Value := []
  colors : Fields Value := []
  elevation : Option Elevation := none

namespace Theme

/-- Sizes win over colors. -/
def table (t : Theme) : Fields Value := flatten [t.sizes, t.colors]

/-- The value of a variable, named without its sigil. -/
def lookup? (t : Theme) (name : String) : Option Value := Fields.get? t.table name

/-- The pixels of one `rem`; zero means the default. -/
def rootMetric (t : Theme) : Number := if t.rem.isZero then defaultRootMetric else t.rem

/-- The shadow of a level, which only a theme with elevation can give. -/
def shadow (t : Theme) (level : Value) : Except Fault (Option (Fields Value)) :=
  match t.elevation with
  | some elevation => elevation level
  | none => .error .noElevation

end Theme

end StyleEngine
