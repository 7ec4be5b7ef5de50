import StyleEngine.Text.Ranges

/-!
# White space

Two classes: `isWhiteSpace` is the Unicode property White_Space (25 characters), and `isBlank`
adds the four information separators U+001C to U+001F.  Lengths, expressions and platform names
are stripped of blanks.

    (trim p cs).head? = some c → p c = false                             (head?_trim)
    (trim p cs).getLast? = some c → p c = false                          (getLast?_trim)
    trim p (trim p cs) = trim p cs                                       (trim_trim)
-/

namespace StyleEngine.Text

/-! ## Classes -/

def whiteSpaceRanges : Ranges :=
  [(0x09, 0x0D), (0x20, 0x20), (0x85, 0x85), (0xA0, 0xA0), (0x1680, 0x1680), (0x2000, 0x200A),
   (0x2028, 0x2029), (0x202F, 0x202F), (0x205F, 0x205F), (0x3000, 0x3000)]

def isWhiteSpace (c : Char) : Bool := whiteSpaceRanges.has c

def separatorRanges : Ranges := [(0x1C, 0x1F)]

def isBlank (c : Char) : Bool := isWhiteSpace c || separatorRanges.has c

def asciiSpaceRanges : Ranges := [(0x09, 0x0D), (0x20, 0x20)]

/-- The white space of ASCII. -/
def isAsciiSpace (c : Char) : Bool := asciiSpaceRanges.has c

/-! ## Trimming -/

/-- Drops the characters of a class from both ends. -/
def trim (p : Char → Bool) (cs : List Char) : List Char :=
  ((cs.dropWhile p).reverse.dropWhile p).reverse

def strip (cs : List Char) : List Char := trim isBlank cs

/-! ## Lemmas -/

theorem length_dropWhile_le {α : Type} (p : α → Bool) (cs : List α) :
    (cs.dropWhile p).length ≤ cs.length :=
  (List.dropWhile_suffix p).length_le

theorem dropWhile_eq_self {p : Char → Bool} {cs : List Char}
    (h : ∀ c, cs.head? = some c → p c = false) : cs.dropWhile p = cs := by
  cases cs with
  | nil => rfl
  | cons c rest => rw [List.dropWhile_cons_of_neg]; simp [h c rfl]

theorem head?_dropWhile {p : Char → Bool} {cs : List Char} {c : Char}
    (h : (cs.dropWhile p).head? = some c) : p c = false := by
  have hm := List.head?_dropWhile_not p cs
  rwa [h] at hm

theorem getLast?_trim {p : Char → Bool} {cs : List Char} {c : Char}
    (h : (trim p cs).getLast? = some c) : p c = false := by
  unfold trim at h
  rw [List.getLast?_reverse] at h
  exact head?_dropWhile h

theorem head?_trim {p : Char → Bool} {cs : List Char} {c : Char}
    (h : (trim p cs).head? = some c) : p c = false := by
  have hp : trim p cs <+: cs.dropWhile p := by
    unfold trim
    rw [← List.reverse_suffix, List.reverse_reverse]
    exact List.dropWhile_suffix p
  obtain ⟨t, ht⟩ := hp
  refine @head?_dropWhile p cs c ?_
  rw [← ht, List.head?_append, h]
  rfl

theorem trim_trim (p : Char → Bool) (cs : List Char) : trim p (trim p cs) = trim p cs := by
  rw [trim, dropWhile_eq_self fun _ h => head?_trim h, dropWhile_eq_self, List.reverse_reverse]
  intro c h
  rw [List.head?_reverse] at h
  exact getLast?_trim h

end StyleEngine.Text
