import StyleEngine.Expression.Evaluate
import StyleEngine.Length
import StyleEngine.Platform
import StyleEngine.Registry
import StyleEngine.Theme

/-!
# Resolving one property

A property that holds a color or a length is resolved from its own value alone: a registered
placeholder gives way to the value of its variable, and then a length becomes a number or a
percentage.  Other properties keep their values.
-/

namespace StyleEngine.Resolution

/-! ## Context -/

/-- Turns an expression of a property into a number, NaN if that fails. -/
abbrev Evaluator := String → Value → Units → Value

def defaultEvaluator : Evaluator := fun key value units =>
  .float (Expression.convert key value units)

/-- What a style is resolved in. -/
structure Context where
  theme : Theme
  viewport : Viewport
  units : Units
  registry : Registry
  platform : String := Platform.native
  evaluator : Evaluator := defaultEvaluator

def Context.keepsCursor (c : Context) : Bool := Platform.isWeb c.platform

def Context.length (c : Context) (value : Value) : Except ResolutionError Value :=
  Length.resolve c.theme.rootMetric c.viewport value

/-! ## Placeholders -/

/-- The role of a variable that stands in a property. -/
def role? (key : String) : Option VariableRole :=
  if Attribute.isColor key then some .color
  else if Attribute.isLength key then some .length
  else none

/-- The placeholder that a value may be; a length placeholder has lost its unit when the style was
compiled. -/
def candidate? : VariableRole → Value → Option String
  | .color, .text s => some s
  | .length, .number n => n.compact?.map (· ++ TokenSource.pixelSuffix)
  | .length, .text s => some (s ++ TokenSource.pixelSuffix)
  | _, _ => none

/-- The variable that a value stands for. -/
def variableOf? (c : Context) (role : VariableRole) (value : Value) : Option String :=
  (candidate? role value).bind c.registry.nameFor?

/-- A value with its variable, if it stands for one, replaced. -/
def substitute (c : Context) (role : VariableRole) (value : Value) :
    Except ResolutionError Value :=
  match variableOf? c role value with
  | none => .ok value
  | some name =>
    match c.theme.lookup? name with
    | some v => .ok v
    | none => .error (.undefinedVariable name role)

/-! ## Expressions -/

/-- Whether an evaluator's answer is NaN, which only a number can tell. -/
def isNaN : Value → Except Fault Bool
  | .bool _ => .ok false
  | .number (.float x) => .ok x.isNaN
  | .number (.int n) =>
    if (Number.int n).toFloat?.isSome then .ok false else .error .integerTooLarge
  | value => .error (.notNumber value)

/-- The value of an expression; the expression itself if it has none.  The text of a value tells
whether it is one, so there has to be a text. -/
def evaluate (c : Context) (key : String) (value : Value) : Except Fault Value :=
  if !value.isPrintable then .error .unprintableInteger
  else if Expression.looksLike value then
    let result := c.evaluator key value c.units
    (isNaN result).map fun nan => if nan then value else result
  else .ok value

/-! ## Properties -/

/-- A length from which the variable is gone. -/
def measure (c : Context) (key : String) (value : Value) : Except Failure Value := do
  let v ← (evaluate c key value).mapError .fault
  (c.length v).mapError .resolution

def property (c : Context) (key : String) (value : Value) : Except Failure Value :=
  match role? key with
  | none => .ok value
  | some .color => (substitute c .color value).mapError .resolution
  | some .length => do
    let v ← (substitute c .length value).mapError .resolution
    measure c key v

/-- The expression that resolving a property hands to the evaluator. -/
def expression? (c : Context) (key : String) (value : Value) : Option Value :=
  match role? key, substitute c .length value with
  | some .length, .ok v => if Expression.looksLike v then some v else none
  | _, _ => none

end StyleEngine.Resolution
