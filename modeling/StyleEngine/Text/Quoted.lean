import StyleEngine.Text.Hex
import StyleEngine.Text.Printable
import StyleEngine.Text.Surrogate

/-!
# Quoted texts

A text between quotes on one line: single quotes unless the text holds a single quote and no
double one; the quote and the backslash are escaped, and so is whatever is not printable.
-/

namespace StyleEngine.Text

/-- The shortest of the forms `\xNN`, `\uNNNN` and `\UNNNNNNNN` that fits. -/
def escapeCode (n : Nat) : List Char :=
  if n ≤ 0xFF then '\\' :: 'x' :: hexDigits 2 n
  else if n ≤ 0xFFFF then '\\' :: 'u' :: hexDigits 4 n
  else '\\' :: 'U' :: hexDigits 8 n

def escape (quote : Char) : Code → List Char
  | .surrogate n => escapeCode (Code.surrogate n).toNat
  | .char c =>
    if c = quote || c = '\\' then ['\\', c]
    else if c = '\n' then ['\\', 'n']
    else if c = '\r' then ['\\', 'r']
    else if c = '\t' then ['\\', 't']
    else if isPrintable c then [c]
    else escapeCode c.toNat

def quoteFor (cs : List Char) : Char :=
  if cs.contains '\'' && !cs.contains '"' then '"' else '\''

def quoted (s : String) : String :=
  let q := quoteFor s.toList
  String.ofList (q :: (codes s).flatMap (escape q) ++ [q])

end StyleEngine.Text
