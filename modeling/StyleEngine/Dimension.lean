import StyleEngine.Fields
import StyleEngine.Length

/-!
# Dimensions and their margins

A width or height makes room for the margins on its axis.  Margins count as hundredths of the
viewport, whatever unit they were declared in; a dimension that is not greater than the sum of its
margins stays as it is.
-/

namespace StyleEngine.Dimension

/-- The two margins on the axis of a dimension. -/
def margins? (key : String) : Option (String × String) :=
  if key = Attribute.width then some (Attribute.marginLeft, Attribute.marginRight)
  else if key = Attribute.height then some (Attribute.marginTop, Attribute.marginBottom)
  else none

def extent (viewport : Viewport) (key : String) : Float :=
  if key = Attribute.width then viewport.width else viewport.height

/-- A margin as a number: a missing or falsy one is 0, and a text counts by its magnitude. -/
def margin (style : Fields Value) (key : String) : Except Failure Number :=
  match Fields.get? style key with
  | none => .ok (.int 0)
  | some value =>
    if !value.isTruthy then .ok (.int 0)
    else match value.number? with
      | some n => .ok n
      | none => do
        let text ← value.print.mapError .fault
        match Length.parse? text with
        | some l => pure (.float l.magnitude)
        | none => .error (.resolution (.malformedLength value .notNumber))

/-- A hundred times a sum of margins, as a float. -/
def hundredfold? : Number → Option Float
  | .int n => (Number.int (100 * n)).toFloat?
  | .float x => some (100 * x)

/-- What is left of a magnitude beside margins with sum `sum`. -/
def adjusted (magnitude : Float) (sum : Number) (extent : Float) : Except Fault Float :=
  if (Number.float magnitude).le sum || extent == 0 then .ok magnitude
  else match hundredfold? sum with
    | some x => .ok (magnitude - x / extent)
    | none => .error .integerTooLarge

/-- The magnitude and unit that a value declares; without a unit it declares pixels. -/
def declared (value : Value) : Except Failure Length := do
  let text ← value.printCompact.mapError .fault
  match Length.parse? text with
  | none => .error (.resolution (.malformedLength value .notNumber))
  | some l =>
    if l.magnitude.isFinite then pure ⟨l.magnitude, if l.unit.isEmpty then "px" else l.unit⟩
    else .error (.resolution (.malformedLength value .outOfRange))

/-- The text of a dimension that makes room for the margins `first` and `second`. -/
def fitted (style : Fields Value) (value : Value) (first second : String) (extent : Float) :
    Except Failure String := do
  let l ← declared value
  let a ← margin style first
  let b ← margin style second
  match a.add? b with
  | none => .error (.fault .integerTooLarge)
  | some sum =>
    let x ← (adjusted l.magnitude sum extent).mapError .fault
    pure ((Number.float x).compact ++ l.unit)

/-- The text of a width or height that makes room for its margins; none for another property and
for a missing or falsy one. -/
def format (style : Fields Value) (viewport : Viewport) (key : String) :
    Except Failure (Option String) :=
  match margins? key, Fields.get? style key with
  | some (first, second), some value =>
    if value.isTruthy then (fitted style value first second (extent viewport key)).map some
    else .ok none
  | _, _ => .ok none

end StyleEngine.Dimension
