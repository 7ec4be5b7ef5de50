import StyleEngine.Expression.Token
import StyleEngine.Proofs.Number.Numeral

/-!
# Tokens and how they are written

A token is written as its spelling, but for the white space that may stand between the name of a
function and its parenthesis.  Scanning a text that starts with a written token gives the token,
provided that what follows ends a number, and whatever is scanned was written in the text.

    scan? cs = some (t, rest) →
      ∃ shown, t.Written shown ∧ cs = shown ++ rest                      (Token.written_of_scan?)
    t.Written shown → (∀ c, after.head? = some c → EndsNumber c) →
      scan? (shown ++ after) = some (t, after)                           (Token.Written.scan?_eq)
    t.Written shown → shown.filter (! isBlank ·) = t.spelling            (Token.Written.filter_eq)
-/

namespace StyleEngine.Expression

open Text

/-! ## Letters -/

theorem range_of_isUnitLetter {c : Char} (h : isUnitLetter c = true) :
    65 ≤ c.toNat ∧ c.toNat ≤ 122 := by
  unfold isUnitLetter at h
  simp only [Bool.or_eq_true, Bool.and_eq_true, decide_eq_true_eq] at h
  rcases h with ⟨hlow, hhigh⟩ | ⟨hlow, hhigh⟩
  · have h1 : 97 ≤ c.toNat := hlow
    have h2 : c.toNat ≤ 122 := hhigh
    omega
  · have h1 : 65 ≤ c.toNat := hlow
    have h2 : c.toNat ≤ 90 := hhigh
    omega

theorem isDigit_of_isUnitLetter {c : Char} (h : isUnitLetter c = true) : isDigit c = false := by
  have hapart : ∀ z ∈ digitZeros, z + 10 ≤ 65 ∨ 122 < z := by decide
  rw [Bool.eq_false_iff]
  intro hd
  obtain ⟨z, hz, hlow, hhigh⟩ := exists_zero_of_isDigit hd
  have hrange := range_of_isUnitLetter h
  have := hapart z hz
  omega

theorem isBlank_of_isUnitLetter {c : Char} (h : isUnitLetter c = true) : isBlank c = false := by
  have hapart : ∀ r ∈ whiteSpaceRanges ++ separatorRanges, r.2 < 65 ∨ 122 < r.1 := by decide
  rw [Bool.eq_false_iff]
  intro hb
  obtain ⟨r, hr, hlow, hhigh⟩ := exists_range_of_isBlank hb
  have hrange := range_of_isUnitLetter h
  have := hapart r hr
  omega

/-! ## Written tokens -/

def ValidUnit (unit : List Char) : Prop := unit = ['%'] ∨ ∀ c ∈ unit, isUnitLetter c = true

instance (unit : List Char) : Decidable (ValidUnit unit) :=
  decidable_of_iff (unit = ['%'] ∨ unit.all isUnitLetter = true)
    (or_congr_right List.all_eq_true)

theorem ValidUnit.isBlank_of_mem {unit : List Char} (h : ValidUnit unit) {c : Char}
    (hc : c ∈ unit) : isBlank c = false := by
  rcases h with rfl | hletters
  · rw [List.mem_singleton.1 hc]
    decide
  · exact isBlank_of_isUnitLetter (hletters c hc)

theorem ValidUnit.strip_eq {unit : List Char} (h : ValidUnit unit) : strip unit = unit :=
  strip_eq_self (fun _ hc => h.isBlank_of_mem (List.mem_of_mem_head? hc))
    fun _ hc => h.isBlank_of_mem (List.mem_of_getLast? hc)

theorem isBlank_of_mem_name (f : Function) {c : Char} (hc : c ∈ f.name.toList) :
    isBlank c = false := by
  have hall : f.name.toList.all (! isBlank ·) = true := by cases f <;> decide
  simpa only [Bool.not_eq_true'] using List.all_eq_true.1 hall c hc

/-- A numeral of a token has no sign, and its unit is a percent sign, a row of letters, or
empty. -/
def Token.Valid : Token → Prop
  | .number n unit => n.sign = none ∧ n.WellFormed ∧ ValidUnit unit
  | .function _ => True
  | .symbol _ => True

inductive Token.Written : Token → List Char → Prop where
  | number (n : Numeral) (unit : List Char) : Written (.number n unit) (n.spelling ++ unit)
  | function (f : Function) {gap : List Char} (hgap : AllBlank gap) :
      Written (.function f) (f.name.toList ++ (gap ++ ['(']))
  | symbol (s : Symbol) : Written (.symbol s) [s.char]

theorem Token.written_spelling (t : Token) : t.Written t.spelling := by
  cases t with
  | number n unit => exact .number n unit
  | function f => exact .function f AllBlank.nil
  | symbol s => exact .symbol s

/-! ## Units -/

/-- What a number and its unit cannot go on with: white space, and all symbols but signs and an
opening parenthesis. -/
def EndsNumber (c : Char) : Prop := isBlank c = true ∨ c ∈ [')', ',', '*', '/']

/-- None of them is in a numeral or in a unit. -/
theorem EndsNumber.ne {c : Char} (h : EndsNumber c) :
    isDigit c = false ∧ isUnitLetter c = false ∧ c ≠ '%' ∧ c ≠ '+' ∧ c ≠ '-' ∧ c ≠ '.' := by
  rcases h with hblank | hmem
  · have hne : ∀ d, isBlank d = false → c ≠ d := by
      rintro d hd rfl
      exact absurd (hblank.symm.trans hd) Bool.true_eq_false.mp
    refine ⟨?_, ?_, hne '%' (by decide), hne '+' (by decide), hne '-' (by decide),
      hne '.' (by decide)⟩
    · rw [Bool.eq_false_iff]
      exact fun hd => hne c (isBlank_of_isDigit hd) rfl
    · rw [Bool.eq_false_iff]
      exact fun hletter => hne c (isBlank_of_isUnitLetter hletter) rfl
  · simp only [List.mem_cons, List.not_mem_nil, or_false] at hmem
    rcases hmem with rfl | rfl | rfl | rfl <;> decide

section Units

variable {unit after : List Char}

/-- Neither a unit nor what ends a number goes on with a numeral. -/
theorem head_unit (hunit : ValidUnit unit) (hafter : ∀ c, after.head? = some c → EndsNumber c)
    {c : Char} (hc : (unit ++ after).head? = some c) :
    isDigit c = false ∧ c ≠ '+' ∧ c ≠ '-' ∧ c ≠ '.' := by
  have hclass : isUnitLetter c = true ∨ c = '%' ∨ EndsNumber c := by
    cases unit with
    | nil => exact .inr (.inr (hafter c hc))
    | cons d unit =>
      have hd : d = c := Option.some.inj hc
      subst hd
      rcases hunit with he | hletters
      · exact .inr (.inl (List.cons.inj he).1)
      · exact .inl (hletters d List.mem_cons_self)
  rcases hclass with hletter | rfl | hends
  · refine ⟨isDigit_of_isUnitLetter hletter, ?_, ?_, ?_⟩ <;>
      (rintro rfl; exact absurd hletter (by decide))
  · decide
  · exact ⟨hends.ne.1, hends.ne.2.2.2⟩

/-- A unit that starts with the mark of an exponent is none: no digit follows in it. -/
theorem scanExponent_unit (hunit : ValidUnit unit)
    (hafter : ∀ c, after.head? = some c → EndsNumber c) :
    Numeral.scanExponent (unit ++ after) = (none, unit ++ after) := by
  cases unit with
  | nil =>
    cases after with
    | nil => rfl
    | cons c after =>
      have hletter := (hafter c rfl).ne.2.1
      refine Numeral.scanExponent_eq_none (.inl ⟨?_, ?_⟩) <;>
        (rintro rfl; exact absurd hletter (by decide))
  | cons c unit =>
    rcases hunit with he | hletters
    · obtain ⟨rfl, rfl⟩ := List.cons.inj he
      exact Numeral.scanExponent_eq_none (.inl (by decide))
    · refine Numeral.scanExponent_eq_none (.inr fun d hd => ?_)
      have hrest : ValidUnit unit := .inr fun d hd => hletters d (List.mem_cons_of_mem _ hd)
      obtain ⟨hdigit, hplus, hminus, -⟩ := head_unit hrest hafter hd
      exact ⟨hplus, hminus, hdigit⟩

theorem stops_unit (hunit : ValidUnit unit)
    (hafter : ∀ c, after.head? = some c → EndsNumber c) (n : Numeral) :
    n.Stops (unit ++ after) where
  digit _ hc := (head_unit hunit hafter hc).1
  point _ _ hc := (head_unit hunit hafter hc).2.2.2 rfl
  exponent _ := congrArg Prod.fst (scanExponent_unit hunit hafter)

theorem scanUnit_append (hunit : ValidUnit unit)
    (hafter : ∀ c, after.head? = some c → EndsNumber c) :
    scanUnit (unit ++ after) = (unit, after) := by
  rcases hunit with rfl | hletters
  · rfl
  · have hstop : ∀ c, after.head? = some c → isUnitLetter c = false :=
      fun c hc => (hafter c hc).ne.2.1
    obtain ⟨htake, hdrop⟩ := span_append hletters hstop
    unfold scanUnit
    split
    · next cs hcs =>
      -- a percent sign is no letter and ends nothing
      cases unit with
      | nil =>
        rw [List.nil_append] at hcs
        exact absurd rfl (hafter '%' (by rw [hcs]; rfl)).ne.2.2.1
      | cons c unit =>
        have hletter := hletters c List.mem_cons_self
        rw [(List.cons.inj hcs).1] at hletter
        exact absurd hletter (by decide)
    · rw [htake, hdrop]

theorem validUnit_scanUnit (cs : List Char) : ValidUnit (scanUnit cs).1 := by
  unfold scanUnit
  split
  · exact .inl rfl
  · exact .inr fun _ => List.mem_takeWhile_imp

end Units

/-! ## Functions and symbols -/

theorem scanUnsigned?_function (f : Function) (cs : List Char) :
    Numeral.scanUnsigned? (f.name.toList ++ cs) = none := by
  match f with
  | .calc => exact Numeral.scanUnsigned?_eq_none (by decide) (by decide) _
  | .min => exact Numeral.scanUnsigned?_eq_none (by decide) (by decide) _
  | .max => exact Numeral.scanUnsigned?_eq_none (by decide) (by decide) _

theorem afterFunction?_of_ne {f g : Function} (h : g ≠ f) (cs : List Char) :
    afterFunction? (f.name.toList ++ cs) g = none := by
  cases f <;> cases g <;> first | exact absurd rfl h | rfl

/-- The parenthesis may stand behind white space. -/
theorem afterFunction?_name (f : Function) {gap : List Char} (hgap : AllBlank gap)
    (rest : List Char) :
    afterFunction? (f.name.toList ++ (gap ++ '(' :: rest)) f = some (.function f, rest) := by
  have hprefix : f.name.toList.isPrefixOf (f.name.toList ++ (gap ++ '(' :: rest)) = true :=
    List.isPrefixOf_iff_prefix.2 (List.prefix_append _ _)
  have hparen : ∀ c, ('(' :: rest).head? = some c → isBlank c = false := by
    intro c hc
    rw [← Option.some.inj hc]
    decide
  unfold afterFunction?
  rw [if_pos hprefix, List.drop_left, (span_append hgap hparen).2]
  rfl

theorem findSome?_function (f : Function) {gap : List Char} (hgap : AllBlank gap)
    (rest : List Char) :
    Function.all.findSome? (afterFunction? (f.name.toList ++ (gap ++ '(' :: rest))) =
      some (.function f, rest) := by
  have hf := afterFunction?_name f hgap rest
  have hother : ∀ g, g ≠ f → afterFunction? (f.name.toList ++ (gap ++ '(' :: rest)) g = none :=
    fun g hg => afterFunction?_of_ne hg _
  match f with
  | .calc => simp [Function.all, hf]
  | .min => simp [Function.all, hf, hother .calc]
  | .max => simp [Function.all, hf, hother .calc, hother .min]

theorem exists_gap_of_afterFunction? {cs rest : List Char} {f : Function} {t : Token}
    (h : afterFunction? cs f = some (t, rest)) :
    t = .function f ∧ ∃ gap, AllBlank gap ∧ cs = f.name.toList ++ (gap ++ '(' :: rest) := by
  unfold afterFunction? at h
  split at h
  · next hprefix =>
    obtain ⟨more, rfl⟩ := List.isPrefixOf_iff_prefix.1 hprefix
    rw [List.drop_left] at h
    split at h
    · next r hr =>
      simp only [Option.some.injEq, Prod.mk.injEq] at h
      obtain ⟨rfl, rfl⟩ := h
      refine ⟨rfl, more.takeWhile isBlank, fun _ => List.mem_takeWhile_imp, ?_⟩
      rw [← hr, List.takeWhile_append_dropWhile]
    · cases h
  · cases h

theorem scanUnsigned?_symbol (s : Symbol) (cs : List Char) :
    Numeral.scanUnsigned? (s.char :: cs) = none := by
  refine Numeral.scanUnsigned?_eq_none ?_ ?_ _ <;> (cases s <;> decide)

theorem findSome?_symbol (s : Symbol) (cs : List Char) :
    Function.all.findSome? (afterFunction? (s.char :: cs)) = none := by
  cases s <;> rfl

theorem scanSymbol?_char (s : Symbol) (cs : List Char) :
    scanSymbol? (s.char :: cs) = some (.symbol s, cs) := by
  cases s <;> rfl

theorem exists_of_scanSymbol? {cs rest : List Char} {t : Token}
    (h : scanSymbol? cs = some (t, rest)) : ∃ s : Symbol, t = .symbol s ∧ cs = s.char :: rest := by
  cases cs with
  | nil => cases h
  | cons c cs =>
    unfold scanSymbol? at h
    obtain ⟨s, hs, he⟩ := Option.map_eq_some_iff.1 h
    simp only [Prod.mk.injEq] at he
    have hfound := List.find?_some hs
    have hchar : s.char = c := beq_iff_eq.1 hfound
    exact ⟨s, he.1.symm, by rw [hchar, he.2]⟩

/-! ## One token -/

theorem scan?_function (f : Function) {gap : List Char} (hgap : AllBlank gap)
    (rest : List Char) :
    Token.scan? (f.name.toList ++ (gap ++ '(' :: rest)) = some (.function f, rest) := by
  simp only [Token.scan?, scanUnsigned?_function, findSome?_function f hgap rest]

theorem scan?_symbol (s : Symbol) (rest : List Char) :
    Token.scan? (s.char :: rest) = some (.symbol s, rest) := by
  simp only [Token.scan?, scanUnsigned?_symbol, findSome?_symbol, scanSymbol?_char]

section Tokens

variable {t : Token} {shown : List Char}

/-- A token is scanned as it was written: the end of a number shows by what is behind it, all other
tokens end by themselves. -/
theorem Token.Written.scan?_eq (ht : t.Written shown) (hvalid : t.Valid) {after : List Char}
    (hafter : ∀ c, after.head? = some c → EndsNumber c) :
    Token.scan? (shown ++ after) = some (t, after) := by
  cases ht with
  | number n unit =>
    obtain ⟨hsign, hn, hunit⟩ := hvalid
    have hscan := Numeral.scanUnsigned?_spelling hsign hn (stops_unit hunit hafter n)
    rw [List.append_assoc]
    simp only [Token.scan?, hscan, scanUnit_append hunit hafter]
  | function f hgap =>
    rw [List.append_assoc, List.append_assoc, List.singleton_append]
    exact scan?_function f hgap after
  | symbol s => exact scan?_symbol s after

/-- What is scanned is valid and was written at the start of the text. -/
theorem Token.written_of_scan? {cs rest : List Char} (h : Token.scan? cs = some (t, rest)) :
    t.Valid ∧ ∃ shown, t.Written shown ∧ cs = shown ++ rest := by
  unfold Token.scan? at h
  split at h
  · next n r hn =>
    simp only [Option.some.injEq, Prod.mk.injEq] at h
    obtain ⟨rfl, rfl⟩ := h
    obtain ⟨hsign, hwf⟩ := Numeral.wellFormed_scanUnsigned? hn
    refine ⟨⟨hsign, hwf, validUnit_scanUnit r⟩, _, .number n _, ?_⟩
    rw [List.append_assoc, spelling_scanUnit, Numeral.spelling_scanUnsigned? hn]
  · split at h
    · next r hr =>
      cases h
      obtain ⟨f, -, hf⟩ := List.exists_of_findSome?_eq_some hr
      obtain ⟨rfl, gap, hgap, rfl⟩ := exists_gap_of_afterFunction? hf
      refine ⟨trivial, _, .function f hgap, ?_⟩
      rw [List.append_assoc, List.append_assoc, List.singleton_append]
    · obtain ⟨s, rfl, rfl⟩ := exists_of_scanSymbol? h
      exact ⟨trivial, _, .symbol s, rfl⟩

/-- Without its white space a written token is its spelling. -/
theorem Token.Written.filter_eq (ht : t.Written shown) (hvalid : t.Valid) :
    shown.filter (! isBlank ·) = t.spelling := by
  cases ht with
  | number n unit =>
    obtain ⟨-, hn, hunit⟩ := hvalid
    refine List.filter_eq_self.2 fun c hc => ?_
    rw [Bool.not_eq_true']
    rcases List.mem_append.1 hc with hc | hc
    · exact Numeral.isBlank_of_mem_spelling hn hc
    · exact hunit.isBlank_of_mem hc
  | function f hgap =>
    have hkept : f.name.toList.filter (! isBlank ·) = f.name.toList :=
      List.filter_eq_self.2 fun c hc => by rw [isBlank_of_mem_name f hc]; rfl
    have hdropped : List.filter (! isBlank ·) _ = [] :=
      List.filter_eq_nil_iff.2 fun c hc => by rw [hgap c hc]; decide
    rw [List.filter_append, List.filter_append, hkept, hdropped]
    rfl
  | symbol s =>
    cases s <;> rfl

end Tokens

end StyleEngine.Expression
