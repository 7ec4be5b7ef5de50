import StyleEngine.Fields
import StyleEngine.Json.Encoding
import StyleEngine.Json.Literal

/-!
# JSON

Reading a JSON text.  Of a name that occurs twice in an object the later value counts, at the place
of the first.  A text that is no JSON is blamed on one position, counted in codes of the decoded
text:

* where a value, a name, a colon or a comma should stand and does not;
* behind the value, where something follows it.

No position is blamed for a text that cannot be decoded, for a number with too many digits, or for
lists and maps that stand in one another deeper than `maxLevels`; such a text is unreadable.
-/

namespace StyleEngine.Json

open Text (Code spell)

/-! ## White space -/

def isSpace (c : Code) : Bool :=
  c = .char ' ' || c = .char '\t' || c = .char '\n' || c = .char '\r'

/-- The text without the white space at its start. -/
def skip (cs : List Code) : List Code := cs.dropWhile isSpace

theorem length_skip_le (cs : List Code) : (skip cs).length ≤ cs.length :=
  Text.length_dropWhile_le isSpace cs

/-! ## Separators -/

/-- What follows an item: the end of the list or object, or a comma and the next item. -/
inductive After (cs : List Code) where
  | done (rest : List Code) (h : rest.length < cs.length)
  | more (rest : List Code) (h : rest.length < cs.length)
  /-- Neither; the number of codes left at the place to blame. -/
  | wrong (left : Nat)

/-- Reads what follows an item of a list or object that `close` ends. -/
def after (close : Char) (cs : List Code) : After cs :=
  match h : skip cs with
  | [] => .wrong 0
  | c :: rest =>
    have hr : rest.length < cs.length := by
      have hs := length_skip_le cs
      rw [h, List.length_cons] at hs
      omega
    if c = .char close then .done rest hr
    else if c = .char ',' then .more (skip rest) (Nat.lt_of_le_of_lt (length_skip_le rest) hr)
    else .wrong (rest.length + 1)

/-- A colon with white space around it. -/
def colon (cs : List Code) : Except Flaw { rest : List Code // rest.length < cs.length } :=
  match h : skip cs with
  | .char ':' :: rest =>
    .ok ⟨skip rest, by
      have hs := length_skip_le cs
      have hr := length_skip_le rest
      rw [h, List.length_cons] at hs
      omega⟩
  | other => .error (.malformed other.length)

/-! ## Values -/

/-- A word or a number. -/
def scalar (cs : List Code) : Reading Value cs :=
  if startsTooLong (literalAtStart cs) then .error .excessive
  else
    match h : scalar? (literalAtStart cs) with
    | some (v, rest) =>
      .ok (v, ⟨cs.drop ((literalAtStart cs).length - rest.length), by
        have hrest := scalar?_length_lt h
        have hliteral := length_literalAtStart_le cs
        rw [List.length_drop]
        omega⟩)
    | none => .error (.malformed cs.length)

mutual

/-- A value that starts at once, in which so many lists and maps may stand in one another. -/
def value (levels : Nat) (cs : List Code) : Reading Value cs :=
  match cs with
  | .char '"' :: rest =>
    match textFrom (rest.length + 1) rest with
    | .error flaw => .error flaw
    | .ok (text, ⟨rest₁, h₁⟩) =>
      .ok (.text (spell text), ⟨rest₁, Nat.lt_succ_of_lt h₁⟩)
  | .char '[' :: rest =>
    if levels = 0 then .error .excessive else
    match h : skip rest with
    | .char ']' :: rest₁ =>
      .ok (.list [], ⟨rest₁, by
        have hs := length_skip_le rest
        rw [h, List.length_cons] at hs
        simp only [List.length_cons]
        omega⟩)
    | rest₁ =>
      match items (levels - 1) rest₁ with
      | .error flaw => .error flaw
      | .ok (vs, ⟨rest₂, h₂⟩) =>
        .ok (.list vs, ⟨rest₂, by
          have hs := length_skip_le rest
          rw [h] at hs
          simp only [List.length_cons]
          omega⟩)
  | .char '\x7b' :: rest =>
    if levels = 0 then .error .excessive else
    match h : skip rest with
    | .char '\x7d' :: rest₁ =>
      .ok (.map [], ⟨rest₁, by
        have hs := length_skip_le rest
        rw [h, List.length_cons] at hs
        simp only [List.length_cons]
        omega⟩)
    | rest₁ =>
      match members (levels - 1) rest₁ with
      | .error flaw => .error flaw
      | .ok (entries, ⟨rest₂, h₂⟩) =>
        .ok (.map (Fields.merge [] entries), ⟨rest₂, by
          have hs := length_skip_le rest
          rw [h] at hs
          simp only [List.length_cons]
          omega⟩)
  | cs => scalar cs
termination_by 2 * cs.length
decreasing_by
  all_goals
    have hs := length_skip_le rest
    rw [h] at hs
    simp only [List.length_cons]
    omega

/-- The items of a list, its end included. -/
def items (levels : Nat) (cs : List Code) : Reading (List Value) cs :=
  match value levels cs with
  | .error flaw => .error flaw
  | .ok (v, ⟨rest, h⟩) =>
    match after ']' rest with
    | .wrong left => .error (.malformed left)
    | .done rest₁ h₁ => .ok ([v], ⟨rest₁, Nat.lt_trans h₁ h⟩)
    | .more rest₁ h₁ =>
      match items levels rest₁ with
      | .error flaw => .error flaw
      | .ok (vs, ⟨rest₂, h₂⟩) =>
        .ok (v :: vs, ⟨rest₂, Nat.lt_trans h₂ (Nat.lt_trans h₁ h)⟩)
termination_by 2 * cs.length + 1

/-- The members of an object, its end included. -/
def members (levels : Nat) (cs : List Code) : Reading (List (String × Value)) cs :=
  match cs with
  | .char '"' :: rest =>
    match textFrom (rest.length + 1) rest with
    | .error flaw => .error flaw
    | .ok (name, ⟨rest₁, h₁⟩) =>
      match colon rest₁ with
      | .error flaw => .error flaw
      | .ok ⟨rest₂, h₂⟩ =>
        match value levels rest₂ with
        | .error flaw => .error flaw
        | .ok (v, ⟨rest₃, h₃⟩) =>
          have h₀ : rest₃.length < (.char '"' :: rest : List Code).length := by
            simp only [List.length_cons]
            omega
          match after '\x7d' rest₃ with
          | .wrong left => .error (.malformed left)
          | .done rest₄ h₄ => .ok ([(spell name, v)], ⟨rest₄, Nat.lt_trans h₄ h₀⟩)
          | .more rest₄ h₄ =>
            match members levels rest₄ with
            | .error flaw => .error flaw
            | .ok (entries, ⟨rest₅, h₅⟩) =>
              .ok ((spell name, v) :: entries,
                ⟨rest₅, Nat.lt_trans h₅ (Nat.lt_trans h₄ h₀)⟩)
  | cs => .error (.malformed cs.length)
termination_by 2 * cs.length + 1
decreasing_by
  all_goals
    simp only [List.length_cons] at *
    omega

end

/-! ## Whole texts -/

/-- How many lists and maps may stand in one another. -/
def maxLevels : Nat := 965

/-- Why a text has no value. -/
inductive Error where
  | malformed (position : Nat)
  | unreadable
deriving DecidableEq

/-- The value of a decoded text. -/
def readCodes (cs : List Code) : Except Error Value :=
  match value maxLevels (skip cs) with
  | .error .excessive => .error .unreadable
  | .error (.malformed left) => .error (.malformed (cs.length - left))
  | .ok (v, ⟨rest, _⟩) =>
    match skip rest with
    | [] => .ok v
    | more => .error (.malformed (cs.length - more.length))

/-- The value of a JSON text. -/
def read (s : String) : Except Error Value :=
  match decode? s.toList with
  | some cs => readCodes cs
  | none => .error .unreadable

end StyleEngine.Json
