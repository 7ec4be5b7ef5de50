import StyleEngine.Value

/-!
# Writing JSON

A value as compact JSON text, which is made of codes: nothing stands between the parts but commas
and colons, and what is beyond ASCII is written as it is.  Infinity and NaN have no JSON; whether a
value holds one is asked first.
-/

namespace StyleEngine.Json

open Text

/-! ## Texts -/

def chars (s : String) : List Code := s.toList.map .char

/-- A code inside a text: quotes, backslashes and controls are escaped. -/
def escape (c : Code) : List Code :=
  if c = .char '"' || c = .char '\\' then [.char '\\', c]
  else if c = .char '\n' then chars "\\n"
  else if c = .char '\r' then chars "\\r"
  else if c = .char '\t' then chars "\\t"
  else if c = .char '\x0c' then chars "\\f"
  else if c = .char '\x08' then chars "\\b"
  else if c.toNat < 0x20 then chars "\\u" ++ (hexDigits 4 c.toNat).map .char
  else [c]

def writeText (s : String) : List Code := chars "\"" ++ (codes s).flatMap escape ++ chars "\""

/-! ## Values -/

mutual

def write : Value → List Code
  | .null => chars "null"
  | .bool b => chars (if b then "true" else "false")
  | .number n => chars n.text
  | .text s => writeText s
  | .list items => chars "[" ++ writeItems items ++ chars "]"
  | .map entries => chars "\x7b" ++ writeEntries entries ++ chars "\x7d"

def writeItems : List Value → List Code
  | [] => []
  | [v] => write v
  | v :: rest => write v ++ chars "," ++ writeItems rest

def writeEntries : List (String × Value) → List Code
  | [] => []
  | [(name, v)] => writeText name ++ chars ":" ++ write v
  | (name, v) :: rest => writeText name ++ chars ":" ++ write v ++ chars "," ++ writeEntries rest

end

/-! ## Floats that are not finite -/

mutual

def hasNonFinite : Value → Bool
  | .number (.float x) => !x.isFinite
  | .list items => anyNonFinite items
  | .map entries => anyEntryNonFinite entries
  | _ => false

def anyNonFinite : List Value → Bool
  | [] => false
  | v :: rest => hasNonFinite v || anyNonFinite rest

def anyEntryNonFinite : List (String × Value) → Bool
  | [] => false
  | (_, v) :: rest => hasNonFinite v || anyEntryNonFinite rest

end

end StyleEngine.Json
