import StyleEngine.Proofs.Length.Printed
import StyleEngine.Proofs.Length.Split
import StyleEngine.Proofs.Resolution.Overflow

/-!
# The unit of a dimension

A dimension is printed anew beside its margins, with its unit directly behind the number, also where
the declaration kept them apart.  The unit is found again unless a numeral goes on into it, which
takes a unit that starts with a digit, a point or an exponent.

    parse? ((float x).compact ++ unit) has the unit `unit` ↔ x.isFinite ∧ ¬RunsOn x unit
                                                                         (keeps_unit_iff)
    RunsOn x unit → GoesOn unit.toList                                   (goesOn_of_runsOn)
-/

namespace StyleEngine

open Text

theorem Text.length_strip_le (cs : List Char) : (strip cs).length ≤ cs.length := by
  have hend := length_dropWhile_le isBlank (cs.dropWhile isBlank).reverse
  rw [List.length_reverse] at hend
  unfold strip trim
  rw [List.length_reverse]
  exact hend.trans (length_dropWhile_le isBlank cs)

namespace Dimension

open Resolution

variable {x : Float} {unit : String}

/-! ## Numbers that run on into the unit -/

/-- A numeral that is longer than the printed number starts where that starts. -/
def RunsOn (x : Float) (unit : String) : Prop :=
  ∃ n : Numeral, n.WellFormed ∧ n.spelling <+: (Number.float x).compact.toList ++ unit.toList ∧
    (Number.float x).compact.length < n.spelling.length

/-- What some numeral can go on with. -/
def GoesOn (unit : List Char) : Prop :=
  (∃ c, unit.head? = some c ∧ (isDigit c = true ∨ c = '.')) ∨
    ∃ e : Exponent, e.WellFormed ∧ e.spelling <+: unit

/-- A word for what is no number is no numeral's start. -/
theorem isFinite_of_runsOn (h : RunsOn x unit) : x.isFinite = true := by
  obtain ⟨n, hn, hprefix, -⟩ := h
  by_contra hx
  have hscan := Length.scan?_compact_of_not_finite (Bool.not_eq_true _ ▸ hx) unit.toList
  exact Numeral.scan?_eq_none_iff.1 hscan n hn hprefix

theorem not_runsOn_of_longest {k : Numeral} {rest : List Char}
    (hspelling : k.spelling = (Number.float x).compact.toList)
    (hlongest : k.Longest (k.spelling ++ unit.toList) rest) : ¬RunsOn x unit := by
  rintro ⟨n, hn, hprefix, hlength⟩
  rw [← hspelling] at hprefix
  have hle := hlongest.longest n hn hprefix
  rw [hspelling, String.length_toList] at hle
  omega

theorem goesOn_of_runsOn (h : RunsOn x unit) : GoesOn unit.toList := by
  obtain ⟨k, hk, hspelling, -⟩ := exists_numeral_compact (isFinite_of_runsOn h)
  by_contra hgoes
  have hhead : ∀ c, unit.toList.head? = some c → isDigit c = false ∧ c ≠ '.' := by
    intro c hc
    refine ⟨?_, fun hpoint => hgoes (Or.inl ⟨c, hc, Or.inr hpoint⟩)⟩
    rw [Bool.eq_false_iff]
    exact fun hdigit => hgoes (Or.inl ⟨c, hc, Or.inl hdigit⟩)
  have hexponent : (Numeral.scanExponent unit.toList).1 = none := by
    cases he : (Numeral.scanExponent unit.toList).1 with
    | none => rfl
    | some e =>
      have hsplit := Numeral.spelling_scanExponent unit.toList
      rw [he] at hsplit
      exact absurd (Or.inr ⟨e, Numeral.wellFormed_scanExponent he, _, hsplit⟩) hgoes
  have hstops : k.Stops unit.toList :=
    ⟨fun c hc => (hhead c hc).1, fun _ _ hpoint => (hhead '.' hpoint).2 rfl, fun _ => hexponent⟩
  exact not_runsOn_of_longest hspelling
    (Numeral.longest_of_scan? (Numeral.scan?_spelling hk hstops)) h

/-! ## Reading a printed dimension -/

section
variable (hunit : strip unit.toList = unit.toList)

include hunit

theorem exists_parse?_of_not_runsOn (hx : x.isFinite = true) (h : ¬RunsOn x unit) :
    ∃ m, Length.parse? ((Number.float x).compact ++ unit) = some ⟨m, unit⟩ ∧ (m == x) = true := by
  obtain ⟨k, hk, hspelling, hvalue⟩ := exists_numeral_compact hx
  have hapart : Length.Apart k [] unit.toList := by
    refine Or.inr fun n hn hprefix => ?_
    by_contra hlength
    rw [hspelling, String.length_toList] at hlength
    exact h ⟨n, hn, hspelling ▸ hprefix, Nat.lt_of_not_le hlength⟩
  have hread := Length.parse?_written hk hunit AllBlank.nil AllBlank.nil AllBlank.nil hapart
  have htext : String.ofList ([] ++ (k.spelling ++ ([] ++ unit.toList)) ++ []) =
      (Number.float x).compact ++ unit := by
    rw [List.nil_append, List.nil_append, List.append_nil, hspelling, String.ofList_append,
      String.ofList_toList, String.ofList_toList]
  rw [htext, String.ofList_toList] at hread
  exact ⟨k.value, hread, hvalue⟩

/-- The longer numeral takes a part of the unit with it. -/
theorem unit_ne_of_runsOn (h : RunsOn x unit) {l : Length}
    (hl : Length.parse? ((Number.float x).compact ++ unit) = some l) : l.unit ≠ unit := by
  obtain ⟨k, hk, hspelling, -⟩ := exists_numeral_compact (isFinite_of_runsOn h)
  obtain ⟨m, hm, hprefix, hlength⟩ := h
  obtain ⟨n, rest, hlongest, rfl⟩ := (Length.parse?_eq_some_iff _ l).1 hl
  have hstrip : strip ((Number.float x).compact ++ unit).toList =
      (Number.float x).compact.toList ++ unit.toList := by
    rw [String.toList_append, ← hspelling]
    exact strip_word_append (Numeral.spelling_ne_nil hk)
      (fun c => Numeral.isBlank_of_mem_spelling hk) hunit
  rw [hstrip] at hlongest
  have hlonger := hlongest.longest m hm hprefix
  have hsplit := congrArg List.length hlongest.split
  rw [List.length_append, List.length_append, String.length_toList] at hsplit
  intro hunread
  have hsame : String.ofList (strip rest) = unit := hunread
  have hrest := length_strip_le rest
  rw [← String.toList_ofList (l := strip rest), hsame] at hrest
  omega

theorem keeps_unit_iff :
    (∃ m, Length.parse? ((Number.float x).compact ++ unit) = some ⟨m, unit⟩) ↔
      x.isFinite = true ∧ ¬RunsOn x unit := by
  constructor
  · rintro ⟨m, hm⟩
    refine ⟨?_, fun h => unit_ne_of_runsOn hunit h hm rfl⟩
    by_contra hx
    have hnone := Length.parse?_compact_of_not_finite (Bool.not_eq_true _ ▸ hx) hunit
    rw [String.ofList_toList, hm] at hnone
    cases hnone
  · rintro ⟨hx, h⟩
    obtain ⟨m, hm, -⟩ := exists_parse?_of_not_runsOn hunit hx h
    exact ⟨m, hm⟩

end

/-! ## Dimensions -/

/-- The unit that a dimension is printed with. -/
def printedUnit (l : Length) : String := if l.unit.isEmpty then "px" else l.unit

theorem strip_printedUnit {s : String} {l : Length} (h : Length.parse? s = some l) :
    strip (printedUnit l).toList = (printedUnit l).toList := by
  unfold printedUnit
  split
  · decide
  · obtain ⟨n, rest, -, rfl⟩ := (Length.parse?_eq_some_iff s l).1 h
    rw [String.toList_ofList]
    exact trim_trim isBlank rest

theorem declared_text {s : String} {l l' : Length} (hl : Length.parse? s = some l)
    (h : declared (.text s) = .ok l') : l' = ⟨l.magnitude, printedUnit l⟩ := by
  obtain ⟨k, hk, -, hmagnitude, hunit⟩ := declared_eq_ok h
  obtain rfl := Option.some.inj (hl.symm.trans hk)
  cases l'
  exact congrArg₂ Length.mk hmagnitude hunit

/-- A dimension that does not make room is left as it is. -/
theorem adjusted_of_le {magnitude extent : Float} {sum : Number}
    (h : (Number.float magnitude).le sum = true ∨ (extent == 0) = true)
    (hx : adjusted magnitude sum extent = .ok x) : x = magnitude := by
  unfold adjusted at hx
  rw [if_pos (by simpa using h)] at hx
  exact (Except.ok.inj hx).symm

/-- The text of a dimension has the declared unit, or `px` if none was declared, exactly if what is
left beside the margins is finite and its number does not run on into the unit; then its magnitude
is what is left, which is the declared one if that is not greater than the margins or the viewport
has no extent.  Only into a unit that starts with a digit, a point or an exponent can a number run
on. -/
theorem printed_dimension_keeps_unit (style : Fields Value) (viewport : Viewport)
    (key s text : String) (l : Length) (hheld : Fields.get? style key = some (.text s))
    (hl : Length.parse? s = some l) (htext : format style viewport key = .ok (some text)) :
    let unit := if l.unit.isEmpty then "px" else l.unit
    ∃ sum x, MakesRoom style viewport key (.text s) ⟨l.magnitude, unit⟩ sum x ∧
      text = (Number.float x).compact ++ unit ∧
      ((∃ m, Length.parse? text = some ⟨m, unit⟩) ↔ x.isFinite = true ∧ ¬RunsOn x unit) ∧
      (∀ m, Length.parse? text = some ⟨m, unit⟩ → (m == x) = true) ∧
      ((Number.float l.magnitude).le sum = true ∨ (extent viewport key == 0) = true →
        x = l.magnitude) ∧
      (RunsOn x unit → GoesOn unit.toList) := by
  intro unit
  have hunit : strip unit.toList = unit.toList := strip_printedUnit hl
  obtain ⟨value, l', sum, x, hroom, rfl⟩ := exists_makesRoom htext
  obtain rfl : Value.text s = value := Option.some.inj (hheld.symm.trans hroom.held)
  obtain rfl : l' = ⟨l.magnitude, unit⟩ := declared_text hl hroom.declared
  have hkeeps := @keeps_unit_iff x unit hunit
  refine ⟨sum, x, hroom, rfl, hkeeps, fun m hm => ?_, fun h => adjusted_of_le h hroom.left,
    goesOn_of_runsOn⟩
  obtain ⟨hx, hends⟩ := hkeeps.1 ⟨m, hm⟩
  obtain ⟨m', hm', hvalue⟩ := exists_parse?_of_not_runsOn hunit hx hends
  have hsame := hm.symm.trans hm'
  cases hsame
  exact hvalue

/-! ## A box -/

/-- A box with margins on its left and right. -/
def box (width : String) : Fields Value :=
  [("width", .text width), ("marginLeft", .int 10), ("marginRight", .int 10)]

theorem box_keeps_rem :
    Length.parse? "50 rem" = some ⟨50, "rem"⟩ ∧
      format (box "50 rem") ⟨200, 844⟩ Attribute.width = .ok (some "40rem") ∧
      ∃ m, Length.parse? "40rem" = some ⟨m, "rem"⟩ := by
  have hl : Length.parse? "50 rem" = some ⟨50, "rem"⟩ := rfl
  have hformat : format (box "50 rem") ⟨200, 844⟩ Attribute.width = .ok (some "40rem") := rfl
  obtain ⟨sum, x, -, htext, hkeeps, -, -, hgoes⟩ := printed_dimension_keeps_unit (box "50 rem")
    ⟨200, 844⟩ Attribute.width "50 rem" "40rem" ⟨50, "rem"⟩ rfl hl hformat
  have hfinite : x.isFinite = true := by
    by_contra hx
    rcases Length.compact_of_not_finite (Bool.not_eq_true _ ▸ hx) with hc | hc | hc <;>
      rw [hc] at htext <;> exact absurd htext (by decide)
  have hends : ¬GoesOn "rem".toList := by
    rintro (⟨c, hc, hstart⟩ | ⟨e, he, hprefix⟩)
    · obtain rfl : 'r' = c := Option.some.inj hc
      exact absurd hstart (by decide)
    · obtain ⟨rest, hrest⟩ := hprefix
      have hmark : e.mark = 'r' := (List.cons.inj hrest).1
      rcases he.mark with h | h <;> rw [h] at hmark <;> exact absurd hmark (by decide)
  exact ⟨hl, hformat, hkeeps.2 ⟨hfinite, fun h => hends (hgoes h)⟩⟩

/-- The space that keeps the number from the unit is not printed, and then the number takes the
first digit of the unit. -/
theorem two_runs_on :
    Length.parse? "2 5px" = some ⟨2, "5px"⟩ ∧
      format (box "2 5px") ⟨390, 844⟩ Attribute.width = .ok (some "25px") ∧
      Length.parse? "25px" = some ⟨25, "px"⟩ := ⟨rfl, rfl, rfl⟩

end Dimension

end StyleEngine
