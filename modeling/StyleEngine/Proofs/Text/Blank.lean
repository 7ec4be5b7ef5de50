import Mathlib.Data.List.TakeWhile
import StyleEngine.Text.Blank
import StyleEngine.Text.Digit

/-!
# White space around and between texts

A row of blanks is dropped as a whole, in front of a text and behind it.  No digit and no ASCII
letter is a blank, which is seen by comparing their ranges with those of the blanks.

    isDigit c → ¬isBlank c                                               (isBlank_of_isDigit)
    AllBlank a → AllBlank b → strip (a ++ cs ++ b) = strip cs            (strip_append)
    (strip cs).filter (! isBlank ·) = cs.filter (! isBlank ·)            (filter_strip)
-/

namespace StyleEngine.Text

/-! ## Classes -/

/-- The range of a script that a digit is in. -/
theorem exists_zero_of_isDigit {c : Char} (h : isDigit c = true) :
    ∃ z ∈ digitZeros, z ≤ c.toNat ∧ c.toNat < z + 10 := by
  unfold isDigit digitValue? at h
  rw [Option.isSome_map] at h
  obtain ⟨z, hz⟩ := Option.isSome_iff_exists.1 h
  have hrange := List.find?_some hz
  simp only [Bool.and_eq_true, decide_eq_true_eq] at hrange
  exact ⟨z, List.mem_of_find?_eq_some hz, hrange⟩

theorem exists_range_of_isBlank {c : Char} (h : isBlank c = true) :
    ∃ r ∈ whiteSpaceRanges ++ separatorRanges, r.1 ≤ c.toNat ∧ c.toNat ≤ r.2 := by
  unfold isBlank isWhiteSpace Ranges.has at h
  rw [← List.any_append] at h
  obtain ⟨r, hr, hc⟩ := List.any_eq_true.1 h
  simp only [Bool.and_eq_true, decide_eq_true_eq] at hc
  exact ⟨r, hr, hc⟩

theorem isBlank_of_isDigit {c : Char} (h : isDigit c = true) : isBlank c = false := by
  have hapart : ∀ z ∈ digitZeros, ∀ r ∈ whiteSpaceRanges ++ separatorRanges,
      z + 10 ≤ r.1 ∨ r.2 < z := by decide
  rw [Bool.eq_false_iff]
  intro hb
  obtain ⟨z, hz, hlow, hhigh⟩ := exists_zero_of_isDigit h
  obtain ⟨r, hr, hleft, hright⟩ := exists_range_of_isBlank hb
  rcases hapart z hz r hr with hr | hr <;> omega

/-! ## Rows of one class -/

/-- A row of characters of a class ends where the text goes on with another character. -/
theorem span_append {p : Char → Bool} {row rest : List Char} (hrow : ∀ c ∈ row, p c = true)
    (hrest : ∀ c, rest.head? = some c → p c = false) :
    (row ++ rest).takeWhile p = row ∧ (row ++ rest).dropWhile p = rest := by
  have hstop : rest.takeWhile p = [] := by
    cases rest with
    | nil => rfl
    | cons c rest => simp [hrest c rfl]
  rw [List.takeWhile_append_of_pos hrow, List.dropWhile_append_of_pos hrow, hstop,
    dropWhile_eq_self hrest, List.append_nil]
  exact ⟨rfl, rfl⟩

/-- A row of characters of a class does not reach into a text that starts with another. -/
theorem span_append_of_stop {p : Char → Bool} (cs : List Char) {after : List Char}
    (hafter : ∀ c, after.head? = some c → p c = false) :
    (cs ++ after).takeWhile p = cs.takeWhile p ∧
      (cs ++ after).dropWhile p = cs.dropWhile p ++ after := by
  have hstop : ∀ c, (cs.dropWhile p ++ after).head? = some c → p c = false := by
    intro c hc
    rw [List.head?_append] at hc
    rcases Option.or_eq_some_iff.1 hc with hc | ⟨-, hc⟩
    · exact head?_dropWhile hc
    · exact hafter c hc
  have hrow : ∀ c ∈ cs.takeWhile p, p c = true := fun _ => List.mem_takeWhile_imp
  have hspan := span_append hrow hstop
  rwa [← List.append_assoc, List.takeWhile_append_dropWhile] at hspan

/-! ## Stripping -/

def AllBlank (cs : List Char) : Prop := ∀ c ∈ cs, isBlank c = true

instance (cs : List Char) : Decidable (AllBlank cs) :=
  decidable_of_iff (cs.all isBlank = true) List.all_eq_true

theorem AllBlank.nil : AllBlank [] := fun _ h => absurd h List.not_mem_nil

/-- White space around a text does not matter to what is left when it is stripped. -/
theorem strip_append {before after : List Char} (hbefore : AllBlank before)
    (hafter : AllBlank after) (cs : List Char) : strip (before ++ cs ++ after) = strip cs := by
  have hend : ∀ ds : List Char,
      ((ds ++ after).reverse.dropWhile isBlank).reverse =
        (ds.reverse.dropWhile isBlank).reverse := by
    intro ds
    rw [List.reverse_append, List.dropWhile_append_of_pos]
    intro c hc
    exact hafter c (List.mem_reverse.1 hc)
  unfold strip trim
  rw [List.append_assoc, List.dropWhile_append_of_pos hbefore, List.dropWhile_append]
  split
  · -- the text is blank itself, so the white space behind it is dropped with it
    next hempty =>
    have hcs : cs.dropWhile isBlank = [] := List.isEmpty_iff.1 hempty
    have hall : after.dropWhile isBlank = [] := List.dropWhile_eq_nil_iff.2 hafter
    rw [hcs, hall]
  · exact hend _

/-- Only blanks are stripped off. -/
theorem exists_blanks_strip (cs : List Char) :
    ∃ before after, AllBlank before ∧ AllBlank after ∧ cs = before ++ (strip cs ++ after) := by
  refine ⟨cs.takeWhile isBlank, ((cs.dropWhile isBlank).reverse.takeWhile isBlank).reverse,
    fun _ => List.mem_takeWhile_imp, fun c hc => ?_, ?_⟩
  · exact List.mem_takeWhile_imp (List.mem_reverse.1 hc)
  · rw [strip, trim, ← List.reverse_append, List.takeWhile_append_dropWhile, List.reverse_reverse,
      List.takeWhile_append_dropWhile]

/-- A text that neither starts nor ends with a blank is left as it is. -/
theorem strip_eq_self {cs : List Char} (hfirst : ∀ c, cs.head? = some c → isBlank c = false)
    (hlast : ∀ c, cs.getLast? = some c → isBlank c = false) : strip cs = cs := by
  unfold strip trim
  rw [dropWhile_eq_self hfirst, dropWhile_eq_self, List.reverse_reverse]
  intro c hc
  rw [List.head?_reverse] at hc
  exact hlast c hc

/-- Behind a word nothing is stripped off but what would be without the word. -/
theorem strip_word_append {word cs : List Char} (hne : word ≠ [])
    (hword : ∀ c ∈ word, isBlank c = false) (hcs : strip cs = cs) :
    strip (word ++ cs) = word ++ cs := by
  refine strip_eq_self (fun c hc => ?_) fun c hc => ?_
  · obtain ⟨d, ds, rfl⟩ := List.exists_cons_of_ne_nil hne
    exact Option.some.inj hc ▸ hword d List.mem_cons_self
  · rw [List.getLast?_append] at hc
    rcases Option.or_eq_some_iff.1 hc with hc | ⟨-, hc⟩
    · rw [← hcs] at hc
      exact getLast?_trim hc
    · exact hword c (List.mem_of_getLast? hc)

theorem filter_dropWhile (p : Char → Bool) (cs : List Char) :
    (cs.dropWhile p).filter (! p ·) = cs.filter (! p ·) := by
  induction cs with
  | nil => rfl
  | cons c cs ih =>
    rw [List.dropWhile_cons]
    by_cases hc : p c = true
    · simp [hc, ih]
    · simp [hc]

/-- Stripping drops blanks only. -/
theorem filter_strip (cs : List Char) :
    (strip cs).filter (! isBlank ·) = cs.filter (! isBlank ·) := by
  unfold strip trim
  rw [List.filter_reverse, filter_dropWhile, ← List.filter_reverse, List.reverse_reverse,
    filter_dropWhile]

end StyleEngine.Text
