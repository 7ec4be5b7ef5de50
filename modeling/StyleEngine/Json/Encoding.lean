import StyleEngine.Text.Surrogate

/-!
# Encodings of JSON

JSON starts with two ASCII characters, so the zeros among its first bytes tell whether it is encoded
in units of one, two or four bytes, and in which order the bytes of a unit stand.  A text that
arrives as UTF-8 is taken apart into its bytes, which are then read as what they look like.

Surrogates that are not pairs are kept; an incomplete unit, or a unit that is no code, is not
decoded.
-/

namespace StyleEngine.Json

open Text

/-! ## Detection -/

inductive ByteOrder where
  | big
  | little
deriving DecidableEq

inductive Encoding where
  | bytes
  | pairs (order : ByteOrder)
  | quads (order : ByteOrder)
deriving DecidableEq

/-- The encoding that the first bytes of a text look like. -/
def Encoding.ofBytes : List Nat → Encoding
  | a :: b :: c :: d :: _ =>
    if a = 0 then (if b = 0 then .quads .big else .pairs .big)
    else if b = 0 then (if c = 0 && d = 0 then .quads .little else .pairs .little)
    else .bytes
  | [a, b] => if a = 0 then .pairs .big else if b = 0 then .pairs .little else .bytes
  | _ => .bytes

/-! ## Units -/

/-- The number that the bytes of a unit spell. -/
def ByteOrder.number (order : ByteOrder) (bytes : List Nat) : Nat :=
  let ordered := match order with
    | .big => bytes
    | .little => bytes.reverse
  ordered.foldl (fun n b => n * 256 + b) 0

/-- The units of two bytes, if the last one is complete. -/
def pairUnits? (order : ByteOrder) : List Nat → Option (List Nat)
  | [] => some []
  | a :: b :: rest => (pairUnits? order rest).map (order.number [a, b] :: ·)
  | _ => none

/-- The units of four bytes, if the last one is complete. -/
def quadUnits? (order : ByteOrder) : List Nat → Option (List Nat)
  | [] => some []
  | a :: b :: c :: d :: rest => (quadUnits? order rest).map (order.number [a, b, c, d] :: ·)
  | _ => none

/-! ## Codes -/

/-- The codes of units of two bytes: a high and a low surrogate make one character. -/
def codesOfPairUnits : List Nat → List Code
  | [] => []
  | [n] => [.ofNat n]
  | n :: m :: rest =>
    if isHighSurrogate n && isLowSurrogate m then .char (pairChar n m) :: codesOfPairUnits rest
    else .ofNat n :: codesOfPairUnits (m :: rest)

/-- The codes of units of four bytes, if they are all codes. -/
def codesOfQuadUnits? (units : List Nat) : Option (List Code) :=
  if units.all (· < 0x110000) then some (units.map .ofNat) else none

/-! ## Texts -/

/-- A byte order mark at the start does not count. -/
def withoutMark : List Char → List Char
  | '\ufeff' :: cs => cs
  | cs => cs

/-- The bytes of a text. -/
def bytesOf (cs : List Char) : List Nat :=
  cs.flatMap fun c => (String.utf8EncodeChar c).map UInt8.toNat

/-- A text as its bytes tell it, if they tell one. -/
def decode? (cs : List Char) : Option (List Code) :=
  let bytes := bytesOf cs
  match Encoding.ofBytes bytes with
  | .bytes => some ((withoutMark cs).map .char)
  | .pairs order => (pairUnits? order bytes).map codesOfPairUnits
  | .quads order => (quadUnits? order bytes).bind codesOfQuadUnits?

end StyleEngine.Json
