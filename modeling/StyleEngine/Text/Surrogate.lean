/-!
# Surrogates

The codes U+D800 to U+DFFF are no characters; a high one and a low one together spell a character
beyond U+FFFF.  Data from outside may hold a surrogate on its own, so it is made of codes.  Every
row of codes has one spelling as a text, and every text spells one row of codes: a surrogate is
spelled by a mark, U+10FFFF, and the private character U+100000 further on.  Where such a private
character stands for itself, the marks right in front of it are spelled twice.  Other codes are
spelled as they are.

    codes (spell cs) = cs                                                      (codes_spell)
    spell (codes s) = s                                                        (spell_codes)
-/

namespace StyleEngine.Text

/-! ## Codes -/

/-- A character, or the surrogate U+D800 and so many further on. -/
inductive Code where
  | char (c : Char)
  | surrogate (n : Fin 0x800)
deriving DecidableEq

namespace Code

def isSurrogate : Code → Bool
  | .char _ => false
  | .surrogate _ => true

def toNat : Code → Nat
  | .char c => c.toNat
  | .surrogate n => 0xD800 + n

def ofNat (n : Nat) : Code :=
  if h : 0xD800 ≤ n ∧ n < 0xE000 then .surrogate ⟨n - 0xD800, by omega⟩ else .char (Char.ofNat n)

end Code

def isHighSurrogate (n : Nat) : Bool := 0xD800 ≤ n && n < 0xDC00

def isLowSurrogate (n : Nat) : Bool := 0xDC00 ≤ n && n < 0xE000

/-- The character that a pair of surrogates spells. -/
def pairChar (high low : Nat) : Char :=
  Char.ofNat (0x10000 + (high - 0xD800) * 0x400 + (low - 0xDC00))

/-! ## Spelling -/

def mark : Char := Char.ofNat 0x10FFFF

/-- The private character that spells a surrogate, behind a mark. -/
def standIn (n : Fin 0x800) : Char := Char.ofNat (0x10D800 + n)

def standIn? (c : Char) : Option (Fin 0x800) :=
  if h : 0x10D800 ≤ c.toNat ∧ c.toNat < 0x10E000 then some ⟨c.toNat - 0x10D800, by omega⟩ else none

/-- Spells codes behind so many marks that are codes themselves. -/
def spellFrom (marks : Nat) : List Code → List Char
  | [] => List.replicate marks mark
  | .surrogate n :: rest => List.replicate (2 * marks + 1) mark ++ standIn n :: spellFrom 0 rest
  | .char c :: rest =>
    if c = mark then spellFrom (marks + 1) rest
    else
      let marks := if (standIn? c).isSome then 2 * marks else marks
      List.replicate marks mark ++ c :: spellFrom 0 rest

/-- The codes that a text spells behind so many marks. -/
def codesFrom (marks : Nat) : List Char → List Code
  | [] => List.replicate marks (.char mark)
  | c :: rest =>
    if c = mark then codesFrom (marks + 1) rest
    else match standIn? c with
      | none => List.replicate marks (.char mark) ++ .char c :: codesFrom 0 rest
      | some n =>
        let code := if marks % 2 = 0 then .char c else .surrogate n
        List.replicate (marks / 2) (.char mark) ++ code :: codesFrom 0 rest

def spell (cs : List Code) : String := String.ofList (spellFrom 0 cs)

def codes (s : String) : List Code := codesFrom 0 s.toList

/-! ## Texts with surrogates -/

/-- A text with a surrogate can be kept, compared and quoted, but not be encoded. -/
def hasSurrogate (s : String) : Bool := (codes s).any Code.isSurrogate

/-- A text in which each surrogate has become three replacement characters, one for each byte that
it would have taken. -/
def withoutSurrogates (s : String) : String :=
  spell ((codes s).flatMap fun
    | .char c => [.char c]
    | .surrogate _ => List.replicate 3 (.char '\ufffd'))

/-- Some surrogates in a row: the position of the first, the first, and how many follow it. -/
structure SurrogateRun where
  position : Nat
  first : Code
  following : Nat
deriving DecidableEq

/-- The first surrogates of what starts at `position`. -/
def surrogateRunFrom? (position : Nat) : List Code → Option SurrogateRun
  | [] => none
  | c :: rest =>
    if c.isSurrogate then some ⟨position, c, (rest.takeWhile Code.isSurrogate).length⟩
    else surrogateRunFrom? (position + 1) rest

def surrogateRun? (cs : List Code) : Option SurrogateRun := surrogateRunFrom? 0 cs

/-! ## Lemmas -/

theorem standIn_toNat (n : Fin 0x800) : (standIn n).toNat = 0x10D800 + n := by
  have hv : Nat.isValidChar (0x10D800 + n) := Or.inr ⟨by omega, by omega⟩
  rw [standIn, Char.ofNat, dif_pos hv]
  rfl

theorem standIn?_standIn (n : Fin 0x800) : standIn? (standIn n) = some n := by
  have h := standIn_toNat n
  unfold standIn?
  rw [dif_pos (by omega)]
  exact congrArg some (Fin.ext (by simp only [h]; omega))

theorem standIn_of_standIn? {c : Char} {n : Fin 0x800} (h : standIn? c = some n) :
    standIn n = c := by
  unfold standIn? at h
  split at h
  · next hc =>
    rw [← Option.some.inj h, standIn]
    show Char.ofNat (0x10D800 + (c.toNat - 0x10D800)) = c
    rw [Nat.add_sub_cancel' hc.1, Char.ofNat_toNat]
  · cases h

theorem standIn_ne_mark (n : Fin 0x800) : standIn n ≠ mark := by
  intro h
  have hn := standIn_toNat n
  rw [h] at hn
  have hmark : mark.toNat = 0x10FFFF := by decide
  omega

theorem spellFrom_replicate (marks more : Nat) (cs : List Code) :
    spellFrom marks (List.replicate more (.char mark) ++ cs) = spellFrom (marks + more) cs := by
  induction more generalizing marks with
  | zero => rfl
  | succ more ih =>
    rw [List.replicate_succ, List.cons_append, spellFrom, if_pos rfl, ih]
    congr 1
    omega

theorem codesFrom_replicate (marks more : Nat) (cs : List Char) :
    codesFrom marks (List.replicate more mark ++ cs) = codesFrom (marks + more) cs := by
  induction more generalizing marks with
  | zero => rfl
  | succ more ih =>
    rw [List.replicate_succ, List.cons_append, codesFrom, if_pos rfl, ih]
    congr 1
    omega

theorem codesFrom_standIn (marks : Nat) {c : Char} {n : Fin 0x800} (h : standIn? c = some n)
    (rest : List Char) :
    codesFrom marks (c :: rest) = List.replicate (marks / 2) (.char mark) ++
      (if marks % 2 = 0 then .char c else .surrogate n) :: codesFrom 0 rest := by
  have hc : c ≠ mark := standIn_of_standIn? h ▸ standIn_ne_mark n
  rw [codesFrom, if_neg hc, h]

theorem codesFrom_of_standIn?_none (marks : Nat) {c : Char} (hc : c ≠ mark) (h : standIn? c = none)
    (rest : List Char) :
    codesFrom marks (c :: rest) =
      List.replicate marks (.char mark) ++ .char c :: codesFrom 0 rest := by
  rw [codesFrom, if_neg hc, h]

/-- The marks that wait are spelled with the codes behind them. -/
theorem codesFrom_spellFrom (marks : Nat) (cs : List Code) :
    codesFrom 0 (spellFrom marks cs) = List.replicate marks (.char mark) ++ cs := by
  induction cs generalizing marks with
  | nil =>
    have h := codesFrom_replicate 0 marks []
    rw [List.append_nil] at h
    rw [spellFrom, h, codesFrom, Nat.zero_add, List.append_nil]
  | cons code rest ih =>
    have hrest : codesFrom 0 (spellFrom 0 rest) = rest := ih 0
    cases code with
    | surrogate n =>
      rw [spellFrom, codesFrom_replicate, codesFrom_standIn _ (standIn?_standIn n), hrest]
      rw [if_neg (by omega), show (0 + (2 * marks + 1)) / 2 = marks by omega]
    | char c =>
      by_cases hc : c = mark
      · rw [spellFrom, if_pos hc, ih, hc, List.replicate_succ', List.append_assoc]
        rfl
      · rw [spellFrom, if_neg hc]
        cases h : standIn? c with
        | none =>
          simp only [Option.isSome_none, Bool.false_eq_true, if_false]
          rw [codesFrom_replicate, codesFrom_of_standIn?_none _ hc h, hrest, Nat.zero_add]
        | some n =>
          simp only [Option.isSome_some, if_true]
          rw [codesFrom_replicate, codesFrom_standIn _ h, hrest]
          rw [if_pos (by omega), show (0 + 2 * marks) / 2 = marks by omega]

theorem spellFrom_codesFrom (marks : Nat) (cs : List Char) :
    spellFrom 0 (codesFrom marks cs) = List.replicate marks mark ++ cs := by
  induction cs generalizing marks with
  | nil =>
    have h := spellFrom_replicate 0 marks []
    rw [List.append_nil] at h
    rw [codesFrom, h, spellFrom, Nat.zero_add, List.append_nil]
  | cons c rest ih =>
    have hrest : spellFrom 0 (codesFrom 0 rest) = rest := ih 0
    by_cases hc : c = mark
    · rw [codesFrom, if_pos hc, ih, hc, List.replicate_succ', List.append_assoc]
      rfl
    · cases h : standIn? c with
      | none =>
        rw [codesFrom_of_standIn?_none _ hc h, spellFrom_replicate, spellFrom, if_neg hc, h, hrest]
        simp
      | some n =>
        rw [codesFrom_standIn _ h, spellFrom_replicate]
        split
        · next heven =>
          rw [spellFrom, if_neg hc, h, hrest]
          simp only [Option.isSome_some, if_true, Nat.zero_add]
          rw [show 2 * (marks / 2) = marks by omega]
        · next hodd =>
          rw [spellFrom, standIn_of_standIn? h, hrest, Nat.zero_add]
          rw [show 2 * (marks / 2) + 1 = marks by omega]

theorem codes_spell (cs : List Code) : codes (spell cs) = cs := by
  unfold codes spell
  rw [String.toList_ofList, codesFrom_spellFrom]
  rfl

theorem spell_codes (s : String) : spell (codes s) = s := by
  unfold codes spell
  rw [spellFrom_codesFrom]
  exact String.ofList_toList

theorem hasSurrogate_spell (cs : List Code) : hasSurrogate (spell cs) = cs.any Code.isSurrogate :=
  congrArg (List.any · Code.isSurrogate) (codes_spell cs)

/-- What is neither a mark nor a private character stands for itself. -/
theorem codes_of_forall {s : String} (h : ∀ c ∈ s.toList, c.toNat < 0x10D800) :
    codes s = s.toList.map .char := by
  unfold codes
  generalize s.toList = cs at h
  induction cs with
  | nil => rfl
  | cons c rest ih =>
    have hc := h c List.mem_cons_self
    have hmark : c ≠ mark := by
      rintro rfl
      exact absurd hc (by decide)
    have hstandIn : standIn? c = none := dif_neg (by omega)
    rw [codesFrom_of_standIn?_none 0 hmark hstandIn, ih fun d hd => h d (List.mem_cons_of_mem _ hd)]
    rfl

end StyleEngine.Text
