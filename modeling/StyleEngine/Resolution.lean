import StyleEngine.Dimension
import StyleEngine.Resolution.Walk

/-!
# Resolving a style

The walk resolves the properties one by one.  If all four margins are then set, the width and the
height make room for them.
-/

namespace StyleEngine.Resolution

/-! ## Margins -/

/-- All four margins are there, and none is falsy. -/
def hasMargins (style : Fields Value) : Bool :=
  Attribute.margins.all fun m => (Fields.get? style m).any Value.isTruthy

/-- Refits one dimension, if it is there. -/
def refit (c : Context) (style : Fields Value) (key : String) : Except Failure (Fields Value) := do
  match ← Dimension.format style c.viewport key with
  | none => pure style
  | some text =>
    let value ← (c.length (.text text)).mapError .resolution
    pure (Fields.set style key value)

/-- The style with its dimensions beside its margins. -/
def fit (c : Context) (style : Fields Value) : Except Failure (Fields Value) :=
  if hasMargins style then do
    let style ← refit c style Attribute.width
    refit c style Attribute.height
  else .ok style

/-! ## Whole styles -/

/-- The whole walk, margins included. -/
def trace (c : Context) (style : Fields Value) : Except Failure Walk := do
  let w ← run c (Walk.start style)
  let style ← fit c w.style
  pure { w with style := style }

/-- The resolved style. -/
def resolve (c : Context) (style : Fields Value) : Except Failure (Fields Value) :=
  (trace c style).map Walk.style

end StyleEngine.Resolution
