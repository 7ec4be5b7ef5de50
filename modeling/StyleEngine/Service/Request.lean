import StyleEngine.Registry
import StyleEngine.Schema.Extent
import StyleEngine.Theme.Document

/-!
# Requests

What the service is asked for: placeholders for variables, or the resolution of a style.
-/

namespace StyleEngine

open Schema

def Discipline.choices : List (String × Discipline) := [("color", .color), ("length", .length)]

def Discipline.word : Discipline → String
  | .color => "color"
  | .length => "length"

/-! ## Placeholders -/

structure PlaceholderRequest where
  names : List String
  discipline : Discipline
  fallback : Option String

namespace PlaceholderRequest

/-- A variable name as requests write it: the sigil and at least one more character. -/
def isVariable (name : String) : Bool :=
  match name.toList with
  | c :: _ :: _ => c = Registry.sigil
  | _ => false

/-- Some variable names, all of them with their sigils. -/
def variableNames (value : Value) : Checked (List String) := do
  let names ← list text value
  if names.isEmpty then Checked.fail .tooShort value
  else match names.find? fun name => !isVariable name with
    | some name => Checked.fail (.badVariable name) value
    | none => pure names

def check (value : Value) : Checked PlaceholderRequest := do
  let fields ← record value
  (required fields "variables" variableNames).map mk
    |>.ap (optional fields "kind" .color (choice Discipline.choices))
    |>.ap (optional fields "fallback" none (nullable text))

def toValue (r : PlaceholderRequest) : Value :=
  .map [("variables", .list (r.names.map Value.text)), ("kind", .text r.discipline.word),
    ("fallback", (r.fallback.map Value.text).getD .null)]

end PlaceholderRequest

/-! ## Resolution -/

structure ResolveRequest where
  style : Fields Value
  /-- Without one, the default theme is used. -/
  theme : Option Theme.Document
  viewport : Viewport
  /-- The box that percentages refer to; without one, the viewport. -/
  parent : Option Viewport
  platform : Option String

namespace ResolveRequest

def platforms : List (String × String) :=
  ["web", "ios", "android", "native"].map fun p => (p, p)

def check (value : Value) : Checked ResolveRequest := do
  let fields ← record value
  (required fields "style" map).map mk
    |>.ap (optional fields "theme" none (nullable Theme.Document.check))
    |>.ap (required fields "viewport" Viewport.check)
    |>.ap (optional fields "parent" none (nullable Viewport.check))
    |>.ap (optional fields "platform" none (nullable (choice platforms)))

def toValue (r : ResolveRequest) : Value :=
  .map [("style", .map r.style), ("theme", (r.theme.map Theme.Document.toValue).getD .null),
    ("viewport", r.viewport.toValue), ("parent", (r.parent.map Viewport.toValue).getD .null),
    ("platform", (r.platform.map Value.text).getD .null)]

end ResolveRequest

end StyleEngine
