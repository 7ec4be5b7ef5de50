import StyleEngine.Fields
import StyleEngine.Registry.TokenSource

/-!
# Variable registry

A style source refers to theme variables by placeholders that a strict parser accepts: a
transparent color for a color variable, a pixel literal for a length variable.  The registry binds
each name to one placeholder and finds the name of a placeholder again.

* A bound name keeps its placeholder, whichever way it is asked for.
* Colors are numbered; numbers whose token is bound are skipped.
* Length tokens come from a source; bound ones are discarded, at most `maxAttempts` in a row.  A
  draw that fails ends the request.
-/

namespace StyleEngine

structure Registry where
  source : TokenSource
  /-- The placeholder of each bound name. -/
  placeholders : Fields String := []
  /-- The name, without its sigil, of each placeholder. -/
  names : Fields String := []
  colorId : Nat := 1
  tokensUsed : Nat := 0

/-- Whether a placeholder is made for a color or for a length. -/
inductive Discipline where
  | color
  | length
deriving DecidableEq

namespace Registry

/-! ## Names -/

def sigil : Char := '$'

/-- The name without one leading sigil. -/
def stripSigil (name : String) : String :=
  match name.toList with
  | c :: rest => if c = sigil then String.ofList rest else name
  | [] => name

def size (r : Registry) : Nat := r.placeholders.length

def placeholderFor? (r : Registry) (name : String) : Option String :=
  Fields.get? r.placeholders name

/-- The variable that a placeholder stands for. -/
def nameFor? (r : Registry) (placeholder : String) : Option String :=
  Fields.get? r.names placeholder

/-- The placeholder of a value used as a name: only texts are bound, and lists and maps cannot be
looked up at all. -/
def lookup (r : Registry) (name : Value) : Except Fault (Option String) :=
  match name with
  | .text s => .ok (r.placeholderFor? s)
  | .list _ | .map _ => .error (.unusableName name)
  | _ => .ok none

/-! ## Fresh tokens -/

/-- A transparent color: six hexadecimal digits and two zeros. -/
def colorToken (id : Nat) : String :=
  let digits := (Nat.toDigits 16 id).map Char.toUpper
  String.ofList ('#' :: (List.replicate (6 - digits.length) '0' ++ digits ++ ['0', '0']))

/-- The least number from `id` on whose token is not bound; among `fuel` bound tokens it is one of
the first `fuel + 1`. -/
def freeColorId (names : Fields String) : Nat → Nat → Nat
  | 0, id => id
  | fuel + 1, id => if Fields.has names (colorToken id) then freeColorId names fuel (id + 1) else id

/-- Tokens asked of a source before allocation gives up. -/
def maxAttempts : Nat := 1000

/-- The first unbound token from `position` on, and the position behind the last draw. -/
def freeToken (source : TokenSource) (names : Fields String) :
    Nat → Nat → Except Fault String × Nat
  | 0, position => (.error (.tokensExhausted source.label maxAttempts), position)
  | attempts + 1, position =>
    match source.token position with
    | .error fault => (.error fault, position + 1)
    | .ok token =>
      if Fields.has names token then freeToken source names attempts (position + 1)
      else (.ok token, position + 1)

/-! ## Binding -/

def bind (r : Registry) (name placeholder : String) : Registry :=
  { r with
    placeholders := Fields.set r.placeholders name placeholder
    names := Fields.set r.names placeholder (stripSigil name) }

/-- A fresh placeholder, and the registry after making it. -/
def allocate (r : Registry) : Discipline → Except Fault String × Registry
  | .color =>
    let id := freeColorId r.names r.names.length r.colorId
    (.ok (colorToken id), { r with colorId := id + 1 })
  | .length =>
    let (token, used) := freeToken r.source r.names maxAttempts r.tokensUsed
    (token, { r with tokensUsed := used })

/-- The placeholder of a name, bound now if it was not; a failure leaves no binding. -/
def placeholder (r : Registry) (discipline : Discipline) (name : String) :
    Except Fault String × Registry :=
  match r.placeholderFor? name with
  | some p => (.ok p, r)
  | none =>
    match r.allocate discipline with
    | (.ok p, r') => (.ok p, r'.bind name p)
    | (.error e, r') => (.error e, r')

/-- A placeholder that has to stand for a value and its fallback is written twice. -/
def withFallback (placeholder : String) (fallback : Bool) : String :=
  if fallback then placeholder ++ " " ++ placeholder else placeholder

/-- The answer to a request for the placeholder of `name`, which must be a non-empty text. -/
def encode (r : Registry) (discipline : Discipline) (name fallback : Value) :
    Except Fault String × Registry :=
  match name with
  | .text s =>
    if s.isEmpty then (.error (.invalidName name), r)
    else
      match r.placeholder discipline s with
      | (.ok p, r') => (.ok (withFallback p fallback.isTruthy), r')
      | (.error e, r') => (.error e, r')
  | _ => (.error (.invalidName name), r)

/-- Forgets every binding and restarts the colors; the token source goes on. -/
def reset (r : Registry) : Registry :=
  { r with placeholders := [], names := [], colorId := 1 }

end Registry

end StyleEngine
