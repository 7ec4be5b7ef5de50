import StyleEngine.Failure

/-!
# Token sources

A token source is an endless sequence of draws: a draw gives a text that may stand in for lengths,
or it fails, and the source goes on behind it either way.  A counting source writes successive
numbers as pixels, which fails for integers with too many digits; a scripted one repeats given
texts.
-/

namespace StyleEngine

structure TokenSource where
  /-- How messages name the source. -/
  label : String
  token : Nat → Except Fault String

namespace TokenSource

/-! ## Counting -/

/-- The unit that makes a number a length literal. -/
def pixelSuffix : String := "px"

def ofInt (label : String) (start : Int) : TokenSource where
  label := label
  token i := (Value.int (start + i)).print.map (· ++ pixelSuffix)

/-- Floats are counted by adding one again and again. -/
def ofFloat (label : String) (start : Float) : TokenSource where
  label := label
  token i := (Value.float (Nat.repeat (· + 1) i start)).print.map (· ++ pixelSuffix)

/-- Counting starts at a number; truth values count as 0 and 1. -/
def ofSeed (label : String) (seed : Value) : Except Fault TokenSource :=
  match seed.number? with
  | some (.int n) => .ok (ofInt label n)
  | some (.float x) => .ok (ofFloat label x)
  | none => .error .unusableSeed

/-! ## Scripts -/

/-- The token at position `i` of a script of tokens with their counts; the last one stays. -/
def scripted : List (String × Nat) → Nat → String
  | [], _ => ""
  | [(token, _)], _ => token
  | (token, count) :: rest, i => if i < count then token else scripted rest (i - count)

def ofScript (label : String) (script : List (String × Nat)) : TokenSource where
  label := label
  token i := .ok (scripted script i)

/-- The first tokens of a source, up to the first draw that fails. -/
def take (source : TokenSource) (count : Nat) : Except Fault (List String) :=
  (List.range count).mapM source.token

end TokenSource

end StyleEngine
