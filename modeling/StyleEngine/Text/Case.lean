import StyleEngine.Text.CaseTable

/-!
# Lower and upper case

Full case mapping of Unicode 14.0: one character may become several, and a capital sigma at the
end of a word has a lower-case form of its own.
-/

namespace StyleEngine.Text

/-! ## Characters -/

/-- The image of a character under the first row that moves it. -/
def shifted? (rows : List (Nat × Nat × Nat × Int)) (c : Char) : Option Char :=
  (rows.find? fun r =>
      r.1 ≤ c.toNat && c.toNat ≤ r.2.1 && (c.toNat - r.1) % r.2.2.1 == 0).map
    fun r => Char.ofNat ((c.toNat : Int) + r.2.2.2).toNat

/-- The dotted capital I is the only character whose lower-case form has two characters. -/
def lowerChar (c : Char) : List Char :=
  if c = 'İ' then ['i', '\u0307'] else [(shifted? lowerRows c).getD c]

def upperChar (c : Char) : List Char :=
  match upperSequences.find? (·.1 == c.toNat) with
  | some s => s.2.map Char.ofNat
  | none => [(shifted? upperRows c).getD c]

/-! ## Texts -/

/-- The first character that is not skipped is a letter with case. -/
def startsCased (cs : List Char) : Bool :=
  match cs.dropWhile caseIgnorableRanges.has with
  | [] => false
  | c :: _ => casedRanges.has c

/-- Lower case of a text whose preceding characters, nearest first, are `before`. -/
def lowerAfter (before : List Char) : List Char → List Char
  | [] => []
  | c :: rest =>
    (if c = 'Σ' then [if startsCased before && !startsCased rest then 'ς' else 'σ']
      else lowerChar c) ++ lowerAfter (c :: before) rest

def lower (cs : List Char) : List Char := lowerAfter [] cs

def upper (cs : List Char) : List Char := cs.flatMap upperChar

end StyleEngine.Text
