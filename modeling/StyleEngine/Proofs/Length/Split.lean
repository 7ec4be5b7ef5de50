import Mathlib.Data.List.Basic
import StyleEngine.Length
import StyleEngine.Proofs.Expression.Spelling
import StyleEngine.Proofs.Number.Longest

/-!
# Where a length is split

A length is split behind the longest numeral that its text starts with.  So a numeral and a unit
that are written one behind the other are found again, with white space around them and between
them, or with none between them if no longer numeral starts there.

    parse? (padded before s after) = parse? s                            (parse?_padded)
    parse? s = some l ↔ l is split behind the longest numeral of s       (parse?_eq_some_iff)
    parse? (before ++ n.spelling ++ gap ++ unit ++ after) = some ⟨n.value, unit⟩
                                                                         (parse?_written)
-/

namespace StyleEngine

open Text

/-- A text with something in front of it and behind it. -/
def Text.padded (before : List Char) (s : String) (after : List Char) : String :=
  String.ofList (before ++ s.toList ++ after)

theorem Text.strip_padded {before after : List Char} (hbefore : AllBlank before)
    (hafter : AllBlank after) (s : String) :
    strip (padded before s after).toList = strip s.toList := by
  unfold padded
  rw [String.toList_ofList, strip_append hbefore hafter]

namespace Length

/-- White space around a length does not matter. -/
theorem parse?_padded {before after : List Char} (hbefore : AllBlank before)
    (hafter : AllBlank after) (s : String) : parse? (padded before s after) = parse? s := by
  unfold parse?
  rw [strip_padded hbefore hafter]

/-! ## Splitting -/

theorem parse?_eq_none_iff (s : String) :
    parse? s = none ↔ ∀ n : Numeral, n.WellFormed → ¬n.spelling <+: strip s.toList := by
  unfold parse?
  rw [Option.map_eq_none_iff, Numeral.scan?_eq_none_iff]

theorem parse?_eq_some_iff (s : String) (l : Length) :
    parse? s = some l ↔ ∃ (n : Numeral) (rest : List Char), n.Longest (strip s.toList) rest ∧
      l = ⟨n.value, String.ofList (strip rest)⟩ := by
  unfold parse?
  constructor
  · intro h
    obtain ⟨⟨n, rest⟩, hscan, hl⟩ := Option.map_eq_some_iff.1 h
    exact ⟨n, rest, Numeral.scan?_eq_some_iff.1 hscan, hl.symm⟩
  · rintro ⟨n, rest, hlongest, rfl⟩
    rw [Numeral.scan?_eq_some_iff.2 hlongest, Option.map_some]

/-! ## Written lengths -/

section Written

variable {n : Numeral} {unit gap : List Char}

/-- There is something between a numeral and its unit, or else no longer numeral starts there. -/
def Apart (n : Numeral) (gap unit : List Char) : Prop :=
  gap ≠ [] ∨ ∀ m : Numeral, m.WellFormed → m.spelling <+: n.spelling ++ unit →
    m.spelling.length ≤ n.spelling.length

theorem longest_written (hn : n.WellFormed) (hgap : AllBlank gap) (hapart : Apart n gap unit) :
    n.Longest (n.spelling ++ (gap ++ unit)) (gap ++ unit) := by
  cases gap with
  | nil => exact ⟨hn, rfl, hapart.resolve_left fun h => h rfl⟩
  | cons c gap =>
    have hends : ∀ d, (c :: gap ++ unit).head? = some d → Expression.EndsNumber d := by
      intro d hd
      exact Or.inl (Option.some.inj hd ▸ hgap c List.mem_cons_self)
    have hnone : Expression.ValidUnit [] := Or.inr nofun
    have hstops := Expression.stops_unit hnone hends n
    exact Numeral.longest_of_scan? (Numeral.scan?_spelling hn hstops)

theorem parse?_written {before after : List Char} (hn : n.WellFormed) (hunit : strip unit = unit)
    (hbefore : AllBlank before) (hgap : AllBlank gap) (hafter : AllBlank after)
    (hapart : Apart n gap unit) :
    parse? (String.ofList (before ++ (n.spelling ++ (gap ++ unit)) ++ after)) =
      some ⟨n.value, String.ofList unit⟩ := by
  have hspelling : ∀ c ∈ n.spelling, isBlank c = false := fun c =>
    Numeral.isBlank_of_mem_spelling hn
  refine (parse?_eq_some_iff _ _).2 ?_
  rw [String.toList_ofList, strip_append hbefore hafter]
  by_cases hnil : unit = []
  · -- the white space in front of an empty unit is dropped with that behind it
    have hstrip : strip (n.spelling ++ (gap ++ unit)) = n.spelling := by
      rw [hnil, List.append_nil]
      refine (strip_append AllBlank.nil hgap n.spelling).trans (strip_eq_self ?_ ?_)
      · exact fun c hc => hspelling c (List.mem_of_mem_head? hc)
      · exact fun c hc => hspelling c (List.mem_of_mem_getLast? hc)
    refine ⟨n, [], ⟨hn, ?_, ?_⟩, ?_⟩
    · rw [hstrip, List.append_nil]
    · intro m _ hprefix
      rw [hstrip] at hprefix
      exact hprefix.length_le
    · rw [hnil]
      rfl
  · have hstrip : strip (n.spelling ++ (gap ++ unit)) = n.spelling ++ (gap ++ unit) := by
      refine strip_eq_self (fun c hc => ?_) fun c hc => ?_
      · rw [List.head?_append_of_ne_nil _ (Numeral.spelling_ne_nil hn)] at hc
        exact hspelling c (List.mem_of_mem_head? hc)
      · rw [← List.append_assoc, List.getLast?_append_of_ne_nil _ hnil, ← hunit] at hc
        exact getLast?_trim hc
    refine ⟨n, gap ++ unit, ?_, ?_⟩
    · rw [hstrip]
      exact longest_written hn hgap hapart
    · have hlast := strip_append hgap AllBlank.nil unit
      rw [List.append_nil, hunit] at hlast
      rw [hlast]

end Written

/-- A text is split in one way.  It is no length just if no numeral stands at its start; otherwise
its magnitude is the number that the longest numeral there spells, which spells no other one, and
its unit is what follows, both without the white space around them.  Conversely a numeral and a
unit are found again where they are written, provided that white space keeps them apart or that
no longer numeral starts there. -/
theorem length_splits_uniquely :
    (∀ s, parse? s = none ↔ ∀ n : Numeral, n.WellFormed → ¬n.spelling <+: strip s.toList) ∧
    (∀ s l, parse? s = some l ↔ ∃ (n : Numeral) (rest : List Char),
      n.Longest (strip s.toList) rest ∧ l = ⟨n.value, String.ofList (strip rest)⟩) ∧
    (∀ n m : Numeral, n.WellFormed → m.WellFormed → n.spelling = m.spelling → n = m) ∧
    ∀ (n : Numeral) (unit before gap after : List Char), n.WellFormed → strip unit = unit →
      AllBlank before → AllBlank gap → AllBlank after → Apart n gap unit →
      parse? (String.ofList (before ++ (n.spelling ++ (gap ++ unit)) ++ after)) =
        some ⟨n.value, String.ofList unit⟩ := by
  refine ⟨parse?_eq_none_iff, parse?_eq_some_iff, fun n m => Numeral.eq_of_spelling_eq, ?_⟩
  intro n unit before gap after hn hunit hbefore hgap hafter hapart
  exact parse?_written hn hunit hbefore hgap hafter hapart

/-- A unit that starts as an exponent does, behind a bare point, and one that would be an exponent
if white space did not keep it apart. -/
theorem ems_and_apart :
    parse? "\u2003-2.em\n" = some ⟨-2, "em"⟩ ∧ parse? "1 e5" = some ⟨1, "e5"⟩ := by
  have hdigits : ∀ {cs : List Char}, cs.all isDigit = true → ∀ c ∈ cs, isDigit c = true :=
    fun h => List.all_eq_true.1 h
  let two : Numeral := ⟨some '-', ['2'], some [], none⟩
  let one : Numeral := ⟨none, ['1'], none, none⟩
  have htwo : two.WellFormed := by
    refine ⟨?_, hdigits (by decide), ?_, Or.inl (by decide), nofun⟩
    · rintro _ ⟨⟩
      exact Or.inr rfl
    · rintro _ ⟨⟩
      exact hdigits (by decide)
  have hone : one.WellFormed := ⟨nofun, hdigits (by decide), nofun, Or.inl (by decide), nofun⟩
  have hscan : Numeral.scan? (two.spelling ++ ['e', 'm']) = some (two, ['e', 'm']) := by decide
  have hvalue : two.value = -2 ∧ one.value = 1 := by decide +kernel
  have hwritten := length_splits_uniquely.2.2.2
  constructor
  · have h := hwritten two ['e', 'm'] ['\u2003'] [] ['\n'] htwo (by decide) (by decide) AllBlank.nil
      (by decide) (Or.inr (Numeral.longest_of_scan? hscan).longest)
    rw [hvalue.1] at h
    exact h
  · have h := hwritten one ['e', '5'] [] [' '] [] hone (by decide) AllBlank.nil (by decide)
      AllBlank.nil (Or.inl (List.cons_ne_nil _ _))
    rw [hvalue.2] at h
    exact h

end Length

end StyleEngine
