import StyleEngine.Value

/-!
# Issues

What is wrong with a piece of data, where, and what stands there.  A check goes on after an issue
and reports all of them, in the order in which the parts are declared.

    f.ap x = .ok y ↔ f and x are ok, and y is their application          (ap_eq_ok)
-/

namespace StyleEngine.Schema

/-! ## Issues -/

/-- A step into a piece of data. -/
inductive Place where
  | name (s : String)
  | index (i : Nat)
deriving DecidableEq

inductive IssueKind where
  | missing
  | notFloat
  /-- A text that spells no float. -/
  | unreadableFloat
  /-- A float that is not at least 0. -/
  | belowZero
  | notMap
  | notList
  | notText
  /-- A text with surrogates where it has to be read. -/
  | notReadable
  | tooShort
  /-- None of the words that are allowed. -/
  | notChoice (words : List String)
  | notFunction
  /-- No map where a record has to be. -/
  | notRecord
  /-- The same in a message to the service. -/
  | notObject
  /-- A variable name without its sigil, or with nothing else. -/
  | badVariable (name : String)
  /-- A text that is no JSON. -/
  | notJson
deriving DecidableEq

namespace IssueKind

/-- The word that stands for the kind. -/
def word : IssueKind → String
  | .missing => "missing"
  | .notFloat => "float_type"
  | .unreadableFloat => "float_parsing"
  | .belowZero => "greater_than_equal"
  | .notMap => "dict_type"
  | .notList => "list_type"
  | .notText => "string_type"
  | .notReadable => "string_unicode"
  | .tooShort => "too_short"
  | .notChoice _ => "literal_error"
  | .notFunction => "callable_type"
  | .notRecord => "model_type"
  | .notObject => "model_attributes_type"
  | .badVariable _ => "value_error"
  | .notJson => "json_invalid"

/-- The words in quotes, the last one after an "or". -/
def alternatives : List String → String
  | [] => ""
  | [word] => "'" ++ word ++ "'"
  | [word, last] => "'" ++ word ++ "' or '" ++ last ++ "'"
  | word :: rest => "'" ++ word ++ "', " ++ alternatives rest

def message : IssueKind → String
  | .missing => "Field required"
  | .notFloat => "Input should be a valid number"
  | .unreadableFloat => "Input should be a valid number, unable to parse string as a number"
  | .belowZero => "Input should be greater than or equal to 0"
  | .notMap => "Input should be a valid dictionary"
  | .notList => "Input should be a valid list"
  | .notText => "Input should be a valid string"
  | .notReadable => "Input should be a valid string, unable to parse raw data as a unicode string"
  | .tooShort => "List should have at least 1 item after validation, not 0"
  | .notChoice words => "Input should be " ++ alternatives words
  | .notFunction => "Input should be callable"
  | .notRecord => "Input should be a valid dictionary or instance"
  | .notObject => "Input should be a valid dictionary or object to extract fields from"
  | .badVariable name => "Value error, variable name '" ++ name ++ "' must start with '$'"
  | .notJson => "JSON decode error"

/-- What a message was made of, by name. -/
def context : IssueKind → List (String × Value)
  | .belowZero => [("ge", .float 0)]
  | .tooShort => [("field_type", .text "List"), ("min_length", .int 1), ("actual_length", .int 0)]
  | .notChoice words => [("expected", .text (alternatives words))]
  | .badVariable _ => [("error", .map [])]
  | _ => []

end IssueKind

structure Issue where
  kind : IssueKind
  path : List Place
  /-- What was checked. -/
  input : Value

def Issue.under (place : Place) (issue : Issue) : Issue :=
  { issue with path := place :: issue.path }

/-! ## Checked data -/

/-- Data that passed, or what is wrong with it. -/
abbrev Checked (α : Type) := Except (List Issue) α

namespace Checked

variable {α β : Type}

def fail (kind : IssueKind) (input : Value) : Checked α := .error [⟨kind, [], input⟩]

/-- The outcome for a part, told of the whole. -/
def under (place : Place) : Checked α → Checked α
  | .ok x => .ok x
  | .error issues => .error (issues.map (Issue.under place))

def map (f : α → β) : Checked α → Checked β
  | .ok x => .ok (f x)
  | .error issues => .error issues

/-- Joins two outcomes; the issues of both are kept. -/
def ap : Checked (α → β) → Checked α → Checked β
  | .ok f, .ok x => .ok (f x)
  | .ok _, .error issues => .error issues
  | .error issues, .ok _ => .error issues
  | .error issues, .error more => .error (issues ++ more)

/-! ## Lemmas -/

theorem ap_eq_ok {f : Checked (α → β)} {x : Checked α} {y : β} :
    f.ap x = .ok y ↔ ∃ g a, f = .ok g ∧ x = .ok a ∧ g a = y := by
  cases f <;> cases x <;> simp [ap]

end Checked

end StyleEngine.Schema
