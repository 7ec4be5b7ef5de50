import StyleEngine.Number.Integer
import StyleEngine.Value

/-!
# Failures

A resolution error says what is wrong with a style; a fault is any other reason why a call has no
result.  Each cause has one message.  Printing a value is a call with a fault of its own: an integer
with too many digits has no text.
-/

namespace StyleEngine

/-! ## Resolution errors -/

/-- What keeps a text or number from being a length. -/
inductive LengthFlaw where
  | noUnit
  | notNumber
  | outOfRange
deriving DecidableEq

def LengthFlaw.message : LengthFlaw → String
  | .noUnit => "contains no unit"
  | .notNumber => "is not a number"
  | .outOfRange => "is out of range"

/-- Whether a variable was referred to where a color or where a length stands. -/
inductive VariableRole where
  | color
  | length
deriving DecidableEq

def VariableRole.word : VariableRole → String
  | .color => "color variable"
  | .length => "variable"

inductive ResolutionError where
  | notText (value : Value)
  | unknownUnit (unit text : String)
  | malformedLength (value : Value) (flaw : LengthFlaw)
  | undefinedVariable (name : String) (role : VariableRole)

def ResolutionError.message : ResolutionError → String
  | .notText value => "expected " ++ value.quoted ++ " to be a string"
  | .unknownUnit unit text =>
    "cannot parse length string '" ++ text ++ "', unknown unit '" ++ unit ++ "'"
  | .malformedLength value flaw => "length string '" ++ value.shown ++ "' " ++ flaw.message
  | .undefinedVariable name role =>
    "the " ++ role.word ++ " '$" ++ name ++ "' has not been defined in the theme."

/-! ## Faults -/

inductive Fault where
  /-- An integer beyond the range of floats took part in float arithmetic. -/
  | integerTooLarge
  /-- A shadow level that has no order with numbers. -/
  | unorderedLevel (level : Value)
  /-- A shadow level was asked of a theme without elevation. -/
  | noElevation
  /-- An evaluator answered with something that is no number. -/
  | notNumber (value : Value)
  /-- A list or map was asked for as a name. -/
  | unusableName (value : Value)
  /-- A token group to be overridden is no map. -/
  | notMap (value : Value)
  /-- A token sequence cannot start here. -/
  | unusableSeed
  /-- A variable name is a non-empty text. -/
  | invalidName (value : Value)
  /-- A token source gave bound tokens only, in so many attempts. -/
  | tokensExhausted (source : String) (attempts : Nat)
  /-- A text does not spell an integer; it is quoted, in at most 200 characters. -/
  | malformedInteger (text : String)
  /-- An integer with so many digits is not read. -/
  | integerTooLong (digits : Nat)
  /-- A value that was to be written holds an integer with too many digits. -/
  | unprintableInteger

def unprintableMessage : String :=
  "Exceeds the limit (" ++ String.ofList (natChars maxIntegerDigits) ++
    " digits) for integer string conversion; use sys.set_int_max_str_digits() to increase the limit"

def Fault.message : Fault → String
  | .integerTooLarge => "int too large to convert to float"
  | .unorderedLevel level =>
    "'<=' not supported between instances of 'int' and '" ++ level.kindName ++ "'"
  | .noElevation => "'NoneType' object is not callable"
  | .notNumber value => "must be real number, not " ++ value.kindName
  | .unusableName value => "unhashable type: '" ++ value.kindName ++ "'"
  | .notMap value => "'" ++ value.kindName ++ "' object is not a mapping"
  | .unusableSeed => "a number is required"
  | .invalidName value =>
    if value.isPrintable then "variable name must be a non-empty string, got " ++ value.quoted
    else unprintableMessage
  | .tokensExhausted source attempts =>
    "token factory " ++ source ++ " returned only bound tokens in " ++
      String.ofList (natChars attempts) ++ " attempts"
  | .malformedInteger text =>
    "invalid literal for int() with base 10: " ++
      String.ofList ((Text.quoted text).toList.take 200)
  | .integerTooLong digits =>
    "Exceeds the limit (" ++ String.ofList (natChars maxIntegerDigits) ++
      " digits) for integer string conversion: value has " ++ String.ofList (natChars digits) ++
      " digits; use sys.set_int_max_str_digits() to increase the limit"
  | .unprintableInteger => unprintableMessage

/-! ## Printing -/

/-- The text of a value, if it has one. -/
def Value.print (value : Value) : Except Fault String :=
  if value.isPrintable then .ok value.shown else .error .unprintableInteger

/-- The text of a value, if it has one, in which a whole number has no fraction. -/
def Value.printCompact (value : Value) : Except Fault String :=
  if value.isPrintable then .ok value.compact else .error .unprintableInteger

section
variable {value : Value}

theorem Value.printCompact_eq_ok {text : String} (h : value.printCompact = .ok text) :
    value.isPrintable = true ∧ text = value.compact := by
  unfold Value.printCompact at h
  split at h
  · next hp => exact ⟨hp, (Except.ok.inj h).symm⟩
  · cases h

theorem Value.print_of_isPrintable (h : value.isPrintable = true) :
    value.print = .ok value.shown := if_pos h

theorem Value.print_of_not_isPrintable (h : value.isPrintable = false) :
    value.print = .error .unprintableInteger := if_neg (Bool.eq_false_iff.1 h)

theorem Value.printCompact_of_isPrintable (h : value.isPrintable = true) :
    value.printCompact = .ok value.compact := if_pos h

theorem Value.printCompact_of_not_isPrintable (h : value.isPrintable = false) :
    value.printCompact = .error .unprintableInteger := if_neg (Bool.eq_false_iff.1 h)

end

/-! ## Both -/

inductive Failure where
  | resolution (error : ResolutionError)
  | fault (fault : Fault)

def Failure.message : Failure → String
  | .resolution e => e.message
  | .fault f => f.message

end StyleEngine
