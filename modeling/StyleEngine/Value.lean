import StyleEngine.Number
import StyleEngine.Text.Quoted

/-!
# Values

What a style, a theme or a request may hold: null, truth values, numbers, texts, lists and maps
whose entries keep their order.  A text with surrogates is kept in the spelling of `Text.spell`.  A
value is printable unless there is a number in it that is not.
-/

namespace StyleEngine

inductive Value where
  | null
  | bool (b : Bool)
  | number (n : Number)
  | text (s : String)
  | list (items : List Value)
  | map (entries : List (String × Value))
deriving Inhabited

namespace Value

@[match_pattern] abbrev int (n : Int) : Value := .number (.int n)

@[match_pattern] abbrev float (x : Float) : Value := .number (.float x)

/-! ## Truth -/

/-- Null, false, zero and whatever is empty are falsy. -/
def isTruthy : Value → Bool
  | .null => false
  | .bool b => b
  | .number n => !n.isZero
  | .text s => !s.isEmpty
  | .list items => !items.isEmpty
  | .map entries => !entries.isEmpty

/-- The number that a value counts as: truth values count as 0 and 1. -/
def number? : Value → Option Number
  | .bool b => some (.int (if b then 1 else 0))
  | .number n => some n
  | _ => none

/-- The word by which messages name the kind of a value. -/
def kindName : Value → String
  | .null => "NoneType"
  | .bool _ => "bool"
  | .number (.int _) => "int"
  | .number (.float _) => "float"
  | .text _ => "str"
  | .list _ => "list"
  | .map _ => "dict"

/-! ## Text -/

mutual

def isPrintable : Value → Bool
  | .number n => n.isPrintable
  | .list items => arePrintable items
  | .map entries => holdPrintable entries
  | _ => true

def arePrintable : List Value → Bool
  | [] => true
  | v :: rest => v.isPrintable && arePrintable rest

def holdPrintable : List (String × Value) → Bool
  | [] => true
  | (_, v) :: rest => v.isPrintable && holdPrintable rest

end

mutual

/-- The text of a printable value inside another one: texts are quoted. -/
def quoted : Value → String
  | .null => "None"
  | .bool b => if b then "True" else "False"
  | .number n => n.text
  | .text s => Text.quoted s
  | .list items => "[" ++ ", ".intercalate (quotedItems items) ++ "]"
  | .map entries => "\x7b" ++ ", ".intercalate (quotedEntries entries) ++ "\x7d"

def quotedItems : List Value → List String
  | [] => []
  | v :: rest => v.quoted :: quotedItems rest

def quotedEntries : List (String × Value) → List String
  | [] => []
  | (key, v) :: rest => (Text.quoted key ++ ": " ++ v.quoted) :: quotedEntries rest

end

/-- The text of a printable value on its own: a text is shown as it is. -/
def shown : Value → String
  | .text s => s
  | v => v.quoted

/-- The text of a printable value in which a whole number has no fraction. -/
def compact : Value → String
  | .number n => n.compact
  | v => v.shown

end Value

end StyleEngine
