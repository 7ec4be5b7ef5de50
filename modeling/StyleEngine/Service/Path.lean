import StyleEngine.Text.Hex

/-!
# Paths

The path of a message as routes compare it.  A message is addressed by a reference: an authority,
a query and a fragment are no part of its path, `.` and `..` are steps within it, and an escape
stands for a character.  Escapes are read twice, so that `%2541` is an `A`, and slashes at the end
do not count.
-/

namespace StyleEngine.Service.Path

open Text

/-! ## References -/

/-- The reference without the authority that two slashes open. -/
def withoutAuthority : List Char → List Char
  | '/' :: '/' :: rest => rest.dropWhile (· ≠ '/')
  | cs => cs

/-- The path of a reference, from the first slash on. -/
def ofReference (cs : List Char) : List Char :=
  '/' :: (withoutAuthority (cs.takeWhile fun c => c ≠ '?' && c ≠ '#')).dropWhile (· = '/')

/-! ## Steps -/

/-- What stands between the slashes. -/
def segments : List Char → List (List Char)
  | [] => [[]]
  | c :: rest =>
    match segments rest with
    | [] => [[c]]
    | segment :: more => if c = '/' then [] :: segment :: more else (c :: segment) :: more

/-- Goes one segment further: `.` stays, and `..` goes back, but not out of the root. -/
def step (way : List (List Char)) (segment : List Char) : List (List Char) :=
  if segment = ['.'] then way
  else if segment = ['.', '.'] then (if way = [[]] then way else way.dropLast)
  else way ++ [segment]

/-- The path without steps. -/
def normal (cs : List Char) : List Char :=
  List.intercalate ['/'] ((segments cs).foldl step [])

/-! ## Escapes -/

/-- The character of a byte; beyond ASCII it does not matter which. -/
def charOfByte (n : Nat) : Char := if n < 128 then Char.ofNat n else '\ufffd'

/-- Reads the escapes: a percent sign and two hexadecimal digits. -/
def decode : List Char → List Char
  | '%' :: a :: b :: rest =>
    match hexNumber? [a, b] with
    | some n => charOfByte n :: decode rest
    | none => '%' :: decode (a :: b :: rest)
  | c :: rest => c :: decode rest
  | [] => []

/-! ## Paths -/

def withoutSlashesAtEnd (cs : List Char) : List Char := (cs.reverse.dropWhile (· = '/')).reverse

/-- The path of a reference as routes compare it. -/
def plain (reference : String) : String :=
  String.ofList
    (withoutSlashesAtEnd (decode (decode (normal (ofReference reference.toList)))))

end StyleEngine.Service.Path
