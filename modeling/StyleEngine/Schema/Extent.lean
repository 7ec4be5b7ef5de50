import StyleEngine.Schema.Shape
import StyleEngine.Viewport

/-!
# Viewports and units as data
-/

namespace StyleEngine

open Schema

namespace Viewport

def check (value : Value) : Checked Viewport := do
  let fields ← record value
  ((required fields "width" extent).map mk).ap (required fields "height" extent)

def toValue (v : Viewport) : Value := .map [("width", .float v.width), ("height", .float v.height)]

end Viewport

namespace Units

/-- A size; a missing one keeps its default, an integer. -/
def size (fields : Fields Value) (name : String) (fallback : Number) : Checked Number :=
  optional fields name fallback fun value => (float value).map Number.float

def check (value : Value) : Checked Units := do
  let fields ← record value
  let defaults : Units := {}
  (size fields "em" defaults.em).map mk
    |>.ap (size fields "rem" defaults.rem)
    |>.ap (size fields "vw" defaults.vw)
    |>.ap (size fields "vh" defaults.vh)
    |>.ap (size fields "vmin" defaults.vmin)
    |>.ap (size fields "vmax" defaults.vmax)
    |>.ap (size fields "width" defaults.width)
    |>.ap (size fields "height" defaults.height)

def toValue (u : Units) : Value :=
  .map
    [("em", .number u.em), ("rem", .number u.rem), ("vw", .number u.vw), ("vh", .number u.vh),
     ("vmin", .number u.vmin), ("vmax", .number u.vmax), ("width", .number u.width),
     ("height", .number u.height)]

end Units

end StyleEngine
