import StyleEngine.Failure
import StyleEngine.Number.Numeral
import StyleEngine.Text.Blank
import StyleEngine.Viewport

/-!
# Lengths

A length text is a numeral and a unit, with white space around and between them.  Resolving turns
it into pixels, except for percentages, which stay as they are.
-/

namespace StyleEngine

structure Length where
  magnitude : Float
  unit : String

namespace Length

/-! ## Reading -/

/-- Splits a text into the longest numeral at its start and the rest, both without the white space
around them. -/
def parse? (s : String) : Option Length :=
  (Numeral.scan? (Text.strip s.toList)).map fun r =>
    ⟨r.1.value, String.ofList (Text.strip r.2)⟩

/-! ## Resolving -/

/-- The pixels of a magnitude, where a theme's root metric and a viewport fix the unit. -/
def pixels? (rootMetric : Number) (viewport : Viewport) (l : Length) : Option Float :=
  match l.unit with
  | "rem" => some (l.magnitude * rootMetric.round)
  | "px" => some l.magnitude
  | "vw" => some (l.magnitude * viewport.width / 100)
  | "vh" => some (l.magnitude * viewport.height / 100)
  | _ => none

def resolveText (rootMetric : Number) (viewport : Viewport) (s : String) :
    Except ResolutionError Value :=
  match parse? s with
  | none => .error (.unknownUnit (String.ofList (Text.strip s.toList)) s)
  | some l =>
    if !l.magnitude.isFinite then .error (.malformedLength (.text s) .outOfRange)
    else if l.magnitude == 0 then .ok (.int 0)
    else if l.unit.isEmpty then .error (.malformedLength (.text s) .noUnit)
    else if l.unit = "%" then .ok (.text s)
    else match l.pixels? rootMetric viewport with
      | none => .error (.unknownUnit l.unit s)
      | some x =>
        if x.isFinite then .ok (.float x) else .error (.malformedLength (.text s) .outOfRange)

/-- Falsy values and numbers pass; of the rest, only texts are lengths. -/
def resolve (rootMetric : Number) (viewport : Viewport) (value : Value) :
    Except ResolutionError Value :=
  if !value.isTruthy || value.number?.isSome then .ok value
  else match value with
    | .text s => resolveText rootMetric viewport s
    | v => .error (.notText v)

end Length

end StyleEngine
