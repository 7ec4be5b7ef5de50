import StyleEngine.Attribute
import StyleEngine.Number

/-!
# Viewports and units

A viewport is the window a style is rendered in; units are the pixel sizes that an expression may
refer to, derived from a root metric, a viewport and the box that percentages refer to.
-/

namespace StyleEngine

structure Viewport where
  width : Float
  height : Float

/-- The pixel base of `rem` where a theme gives none. -/
def defaultRootMetric : Number := .int 8

structure Units where
  em : Number := defaultRootMetric
  rem : Number := defaultRootMetric
  vw : Number := .int 0
  vh : Number := .int 0
  vmin : Number := .int 0
  vmax : Number := .int 0
  width : Number := .int 0
  height : Number := .int 0

namespace Units

/-! ## Derivation -/

/-- The first of two floats unless the second is less. -/
def lesser (x y : Float) : Float := if y < x then y else x

/-- The first of two floats unless the second is greater. -/
def greater (x y : Float) : Float := if x < y then y else x

def ofViewport (rootMetric : Number) (viewport : Viewport) (parent : Option Viewport) : Units :=
  let base := Number.float rootMetric.round
  let vw := viewport.width / 100
  let vh := viewport.height / 100
  let box := parent.getD viewport
  { em := base
    rem := base
    vw := .float vw
    vh := .float vh
    vmin := .float (lesser vw vh)
    vmax := .float (greater vw vh)
    width := .float box.width
    height := .float box.height }

/-! ## Sizes -/

/-- The pixel size of a unit in an expression of the property `key`; a percentage refers to the
extent along the property's axis. -/
def size? (u : Units) (key unit : String) : Option Float :=
  match unit with
  | "px" => some 1
  | "rem" => some u.rem.round
  | "em" => some u.em.round
  | "vw" => some u.vw.round
  | "vh" => some u.vh.round
  | "vmin" => some u.vmin.round
  | "vmax" => some u.vmax.round
  | "%" => some ((if Attribute.isVertical key then u.height else u.width).round / 100)
  | _ => none

end Units

end StyleEngine
