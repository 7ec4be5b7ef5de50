import Mathlib.Data.List.Basic
import StyleEngine.Proofs.Expression.Spelling

/-!
# The tokens of a text

The tokens of a text spell it, white space apart, so nothing between them is skipped.  Conversely
valid tokens are read back from every text in which they are written with white space between them,
whatever white space there is around them and inside of function tokens.

    tokensFrom text cs = .ok ts →
      ts.flatMap Token.spelling = cs.filter (! isBlank ·)                (spelling_tokensFrom)
    Spaced ts shown → tokensFrom text (gap ++ shown) = .ok ts            (Spaced.tokensFrom_eq)
-/

namespace StyleEngine.Expression

open Text

/-- Written tokens with white space between each and the next. -/
inductive Spaced : List Token → List Char → Prop where
  | nil : Spaced [] []
  | single {t : Token} {shown : List Char} (ht : t.Written shown) : Spaced [t] shown
  | cons {t u : Token} {ts : List Token} {shown gap rest : List Char} (ht : t.Written shown)
      (hgap : AllBlank gap) (hne : gap ≠ []) (hrest : Spaced (u :: ts) rest) :
      Spaced (t :: u :: ts) (shown ++ (gap ++ rest))

/-- The spellings of tokens with a space between each and the next. -/
def spaceOut : List Token → List Char
  | [] => []
  | [t] => t.spelling
  | t :: u :: ts => t.spelling ++ ([' '] ++ spaceOut (u :: ts))

theorem spaced_spaceOut (ts : List Token) : Spaced ts (spaceOut ts) := by
  fun_induction spaceOut ts with
  | case1 => exact .nil
  | case2 t => exact .single t.written_spelling
  | case3 t u ts ih => exact .cons t.written_spelling (by decide) (List.cons_ne_nil _ _) ih

variable {text cs : List Char} {t : Token} {ts : List Token}

/-! ## Reading on -/

theorem tokensFrom_nil (text : List Char) : tokensFrom text [] = .ok [] := by
  rw [tokensFrom]
  rfl

theorem tokensFrom_of_scan? {rest : List Char} (hne : cs ≠ [])
    (h : Token.scan? (cs.dropWhile isBlank) = some (t, rest)) :
    tokensFrom text cs = (tokensFrom text rest).map (t :: ·) := by
  rw [tokensFrom, if_neg (by rwa [List.isEmpty_iff])]
  split
  · next hnone =>
    rw [h] at hnone
    cases hnone
  · next hsome =>
    rw [h] at hsome
    cases hsome
    cases tokensFrom text rest <;> rfl

/-- Tokens are read at the end, or behind a first one that is scanned. -/
theorem tokensFrom_eq_ok (h : tokensFrom text cs = .ok ts) :
    cs = [] ∧ ts = [] ∨ ∃ t rest ts', Token.scan? (cs.dropWhile isBlank) = some (t, rest) ∧
      tokensFrom text rest = .ok ts' ∧ ts = t :: ts' := by
  rcases cs with _ | ⟨c, cs⟩
  · left
    rw [tokensFrom_nil] at h
    exact ⟨rfl, (Except.ok.inj h).symm⟩
  · right
    cases hscan : Token.scan? ((c :: cs).dropWhile isBlank) with
    | none =>
      rw [tokensFrom, if_neg (by simp)] at h
      split at h
      · cases h
      · next hsome =>
        rw [hscan] at hsome
        cases hsome
    | some r =>
      obtain ⟨t, rest⟩ := r
      rw [tokensFrom_of_scan? (List.cons_ne_nil c cs) hscan] at h
      cases hrest : tokensFrom text rest with
      | error e =>
        rw [hrest] at h
        cases h
      | ok ts' =>
        rw [hrest] at h
        exact ⟨t, rest, ts', rfl, hrest, (Except.ok.inj h).symm⟩

/-! ## Nothing is lost -/

/-- By induction on the tokens: each is what is written at the start of the rest of the text. -/
theorem spelling_tokensFrom (h : tokensFrom text cs = .ok ts) :
    (∀ t ∈ ts, t.Valid) ∧ ts.flatMap Token.spelling = cs.filter (! isBlank ·) := by
  induction ts generalizing cs with
  | nil =>
    rcases tokensFrom_eq_ok h with ⟨rfl, -⟩ | ⟨t, rest, ts', -, -, hts⟩
    · exact ⟨fun t ht => absurd ht List.not_mem_nil, rfl⟩
    · cases hts
  | cons t ts ih =>
    rcases tokensFrom_eq_ok h with ⟨-, hts⟩ | ⟨t', rest, ts', hscan, hrest, hts⟩
    · cases hts
    · cases hts
      obtain ⟨hvalid, shown, hshown, hcs⟩ := Token.written_of_scan? hscan
      obtain ⟨hvalids, hspelling⟩ := ih hrest
      refine ⟨List.forall_mem_cons.2 ⟨hvalid, hvalids⟩, ?_⟩
      rw [← filter_dropWhile, hcs, List.filter_append, hshown.filter_eq hvalid,
        List.flatMap_cons, hspelling]

/-! ## Ends of written tokens -/

/-- A text that is not empty and has no blank at its ends. -/
structure Tight (cs : List Char) : Prop where
  nonempty : cs ≠ []
  first : ∀ c, cs.head? = some c → isBlank c = false
  last : ∀ c, cs.getLast? = some c → isBlank c = false

theorem tight_of_forall (hne : cs ≠ []) (h : ∀ c ∈ cs, isBlank c = false) : Tight cs :=
  ⟨hne, fun c hc => h c (List.mem_of_mem_head? hc), fun c hc => h c (List.mem_of_mem_getLast? hc)⟩

theorem tight_singleton {c : Char} (h : isBlank c = false) : Tight [c] :=
  tight_of_forall (List.cons_ne_nil _ _) (List.forall_mem_singleton.2 h)

theorem Tight.join {a b : List Char} (ha : Tight a) (hb : Tight b) (gap : List Char) :
    Tight (a ++ (gap ++ b)) := by
  refine ⟨?_, ?_, ?_⟩
  · intro h
    exact ha.nonempty (List.append_eq_nil_iff.1 h).1
  · intro c hc
    rw [List.head?_append_of_ne_nil _ ha.nonempty] at hc
    exact ha.first c hc
  · intro c hc
    rw [← List.append_assoc, List.getLast?_append_of_ne_nil _ hb.nonempty] at hc
    exact hb.last c hc

theorem Token.Written.tight {shown : List Char} (ht : t.Written shown) (hvalid : t.Valid) :
    Tight shown := by
  cases ht with
  | number n unit =>
    obtain ⟨-, hn, hunit⟩ := hvalid
    refine tight_of_forall ?_ fun c hc => ?_
    · intro h
      exact Numeral.spelling_ne_nil hn (List.append_eq_nil_iff.1 h).1
    · rcases List.mem_append.1 hc with hc | hc
      · exact Numeral.isBlank_of_mem_spelling hn hc
      · exact hunit.isBlank_of_mem hc
  | function f hgap =>
    have hname : Tight f.name.toList := by
      refine tight_of_forall ?_ fun c => isBlank_of_mem_name f
      cases f <;> decide
    exact hname.join (tight_singleton (by decide)) _
  | symbol s =>
    exact tight_singleton (by cases s <;> decide)

theorem Spaced.tight {shown : List Char} (h : Spaced ts shown) (hvalid : ∀ t ∈ ts, t.Valid)
    (hne : ts ≠ []) : Tight shown := by
  induction h with
  | nil => exact absurd rfl hne
  | single ht => exact ht.tight (hvalid _ List.mem_cons_self)
  | cons ht hgap hgapne hrest ih =>
    rw [List.forall_mem_cons] at hvalid
    exact (ht.tight hvalid.1).join (ih hvalid.2 (List.cons_ne_nil _ _)) _

/-! ## What is written is read -/

theorem tokensFrom_written {shown gap after : List Char} (ht : t.Written shown)
    (hvalid : t.Valid) (hgap : AllBlank gap)
    (hafter : ∀ c, after.head? = some c → EndsNumber c) :
    tokensFrom text (gap ++ (shown ++ after)) = (tokensFrom text after).map (t :: ·) := by
  have htight := ht.tight hvalid
  have hfirst : ∀ c, (shown ++ after).head? = some c → isBlank c = false := by
    intro c hc
    rw [List.head?_append_of_ne_nil _ htight.nonempty] at hc
    exact htight.first c hc
  refine tokensFrom_of_scan? ?_ ?_
  · intro h
    exact htight.nonempty (List.append_eq_nil_iff.1 (List.append_eq_nil_iff.1 h).2).1
  · rw [(span_append hgap hfirst).2]
    exact ht.scan?_eq hvalid hafter

theorem Spaced.tokensFrom_eq {shown : List Char} (h : Spaced ts shown)
    (hvalid : ∀ t ∈ ts, t.Valid) (hne : ts ≠ []) {gap : List Char} (hgap : AllBlank gap) :
    tokensFrom text (gap ++ shown) = .ok ts := by
  induction h generalizing gap with
  | nil => exact absurd rfl hne
  | @single t shown ht =>
    have hread : tokensFrom text (gap ++ (shown ++ [])) = (tokensFrom text []).map (t :: ·) :=
      tokensFrom_written ht (hvalid t List.mem_cons_self) hgap nofun
    rw [List.append_nil, tokensFrom_nil] at hread
    exact hread
  | @cons t u ts shown gap' rest ht hgap' hgapne hrest ih =>
    rw [List.forall_mem_cons] at hvalid
    have hafter : ∀ c, (gap' ++ rest).head? = some c → EndsNumber c := by
      intro c hc
      rw [List.head?_append_of_ne_nil _ hgapne] at hc
      exact .inl (hgap' c (List.mem_of_mem_head? hc))
    rw [tokensFrom_written ht hvalid.1 hgap hafter, ih hvalid.2 (List.cons_ne_nil _ _) hgap']
    rfl

/-- White space around the tokens does not matter. -/
theorem Spaced.tokenize_eq {shown before after : List Char} (h : Spaced ts shown)
    (hvalid : ∀ t ∈ ts, t.Valid) (hbefore : AllBlank before) (hafter : AllBlank after) :
    tokenize (String.ofList (before ++ shown ++ after)) = .ok ts := by
  unfold tokenize
  rw [String.toList_ofList, strip_append hbefore hafter]
  cases hts : ts with
  | nil =>
    rw [hts] at h
    cases h
    exact tokensFrom_nil _
  | cons t rest =>
    rw [← hts]
    have hne : ts ≠ [] := by rw [hts]; exact List.cons_ne_nil t rest
    have htight := h.tight hvalid hne
    rw [strip_eq_self htight.first htight.last]
    exact h.tokensFrom_eq hvalid hne AllBlank.nil

theorem tokenize_spaceOut (hvalid : ∀ t ∈ ts, t.Valid) :
    tokenize (String.ofList (spaceOut ts)) = .ok ts := by
  have hread := (spaced_spaceOut ts).tokenize_eq hvalid AllBlank.nil AllBlank.nil
  rw [List.nil_append, List.append_nil] at hread
  exact hread

/-- Tokenizing loses nothing but white space, and it gives the valid tokens back that are written
in a text with white space between them. -/
theorem tokenize_reads_what_is_written :
    (∀ (s : String) (ts : List Token), tokenize s = .ok ts →
      (∀ t ∈ ts, t.Valid) ∧ ts.flatMap Token.spelling = s.toList.filter (! isBlank ·)) ∧
    ∀ (ts : List Token) (before shown after : List Char), (∀ t ∈ ts, t.Valid) →
      AllBlank before → Spaced ts shown → AllBlank after →
      tokenize (String.ofList (before ++ shown ++ after)) = .ok ts := by
  constructor
  · intro s ts h
    obtain ⟨hvalid, hspelling⟩ := spelling_tokensFrom h
    exact ⟨hvalid, hspelling.trans (filter_strip s.toList)⟩
  · intro ts before shown after hvalid hbefore hshown hafter
    exact hshown.tokenize_eq hvalid hbefore hafter

/-- White space inside of the function, digits of another script, and units that start as an
exponent does. -/
theorem tokens_of_wide_calc :
    tokenize " calc\u2003( ١.٥em - 2e1e\t)\n" =
      .ok [.function .calc, .number ⟨none, ['١'], some ['٥'], none⟩ ['e', 'm'], .symbol .minus,
        .number ⟨none, ['2'], none, some ⟨'e', none, ['1']⟩⟩ ['e'], .symbol .closeParen] := by
  have hspace : AllBlank [' '] := by decide
  have hcalc : AllBlank ['\u2003'] := by decide
  have htab : AllBlank ['\t'] := by decide
  have hline : AllBlank ['\n'] := by decide
  have hshown := Spaced.cons (.function .calc hcalc) hspace (List.cons_ne_nil _ _)
    (.cons (.number ⟨none, ['١'], some ['٥'], none⟩ ['e', 'm']) hspace (List.cons_ne_nil _ _)
      (.cons (.symbol .minus) hspace (List.cons_ne_nil _ _)
        (.cons (.number ⟨none, ['2'], none, some ⟨'e', none, ['1']⟩⟩ ['e']) htab
          (List.cons_ne_nil _ _) (.single (.symbol .closeParen)))))
  refine (congrArg tokenize ?_).trans
    (tokenize_reads_what_is_written.2 _ _ _ _ ?_ hspace hshown hline)
  · decide +kernel
  · simp only [List.forall_mem_cons]
    have hdigit : ∀ {c}, isDigit c = true → ∀ d ∈ [c], isDigit d = true :=
      fun h => List.forall_mem_singleton.2 h
    refine ⟨trivial, ⟨rfl, ⟨nofun, hdigit (by decide), ?_, by decide, nofun⟩, by decide⟩, trivial,
      ⟨rfl, ⟨nofun, hdigit (by decide), nofun, by decide, ?_⟩, by decide⟩, trivial, nofun⟩
    · rintro ds ⟨⟩
      exact hdigit (by decide)
    · rintro e ⟨⟩
      exact ⟨.inl rfl, nofun, hdigit (by decide), List.cons_ne_nil _ _⟩

end StyleEngine.Expression
