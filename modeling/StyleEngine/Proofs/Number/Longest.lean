import StyleEngine.Proofs.Number.Numeral

/-!
# The longest numeral at the start of a text

A numeral that a text starts with may go on: digits behind its last digit, and behind what has
neither a point nor an exponent these two.  Taken on as far as it goes it stops, and what stops is
what scanning finds.  So a text starts with no numeral, or scanning finds the longest one.

    n.WellFormed → ReachesStop n rest                                    (reachesStop)
    scan? cs = some (n, rest) ↔ n.Longest cs rest                        (scan?_eq_some_iff)
    scan? cs = none ↔ ∀ n, n.WellFormed → ¬n.spelling <+: cs             (scan?_eq_none_iff)
-/

namespace StyleEngine.Numeral

open Text

/-! ## Taking a numeral on -/

/-- The numeral `n` in front of `rest` is, perhaps taken on, one that stops. -/
def ReachesStop (n : Numeral) (rest : List Char) : Prop :=
  ∃ (m : Numeral) (rest' : List Char), m.WellFormed ∧ m.Stops rest' ∧
    m.spelling ++ rest' = n.spelling ++ rest ∧ n.spelling.length ≤ m.spelling.length

theorem ReachesStop.of_more {n m : Numeral} {rest rest' : List Char} (h : ReachesStop m rest')
    (more : List Char) (hspelling : m.spelling = n.spelling ++ more)
    (hrest : rest = more ++ rest') : ReachesStop n rest := by
  obtain ⟨k, rest'', hk, hstops, htext, hlength⟩ := h
  refine ⟨k, rest'', hk, hstops, ?_, ?_⟩
  · rw [htext, hspelling, hrest, List.append_assoc]
  · rw [hspelling, List.length_append] at hlength
    omega

variable {n : Numeral} {rest : List Char}

/-- Behind its digits an exponent stops. -/
theorem reachesStop_of_exponent (hn : n.WellFormed) {e : Exponent} (he : n.exponent = some e) :
    ReachesStop n rest := by
  have hwf := hn.exponent e he
  let longer : Exponent := { e with digits := e.digits ++ rest.takeWhile isDigit }
  let m : Numeral := { n with exponent := some longer }
  have hlonger : longer.WellFormed :=
    ⟨hwf.mark, hwf.sign, List.forall_mem_append.2 ⟨hwf.digits, fun _ => List.mem_takeWhile_imp⟩,
      fun h => hwf.nonempty (List.append_eq_nil_iff.1 h).1⟩
  have hm : m.WellFormed :=
    ⟨hn.sign, hn.whole, hn.fraction, hn.nonempty, fun _ h => Option.some.inj h ▸ hlonger⟩
  have hstops : m.Stops (rest.dropWhile isDigit) := ⟨fun _ => head?_dropWhile, nofun, nofun⟩
  have hself : ReachesStop m (rest.dropWhile isDigit) :=
    ⟨m, _, hm, hstops, rfl, Nat.le_refl _⟩
  refine hself.of_more (rest.takeWhile isDigit) ?_ List.takeWhile_append_dropWhile.symm
  simp [m, longer, spelling, he, exponentSpelling, Exponent.spelling]

/-- Behind its last digit a numeral has an exponent, or it stops. -/
theorem reachesStop_of_settled (hn : n.WellFormed) (he : n.exponent = none)
    (hdigit : ∀ c, rest.head? = some c → isDigit c = false)
    (hpoint : n.fraction = none → rest.head? ≠ some '.') : ReachesStop n rest := by
  have hscan := spelling_scanExponent rest
  cases hx : (scanExponent rest).1 with
  | none => exact ⟨n, rest, hn, ⟨hdigit, fun hf _ => hpoint hf, fun _ => hx⟩, rfl, Nat.le_refl _⟩
  | some e =>
    let m : Numeral := { n with exponent := some e }
    have hm : m.WellFormed := ⟨hn.sign, hn.whole, hn.fraction, hn.nonempty,
      fun _ h => Option.some.inj h ▸ wellFormed_scanExponent hx⟩
    rw [hx] at hscan
    refine (reachesStop_of_exponent hm rfl).of_more e.spelling ?_ hscan.symm
    simp [m, spelling, he, exponentSpelling]

theorem reachesStop_of_fraction (hn : n.WellFormed) (he : n.exponent = none) {ds : List Char}
    (hf : n.fraction = some ds) : ReachesStop n rest := by
  let m : Numeral := { n with fraction := some (ds ++ rest.takeWhile isDigit) }
  have hm : m.WellFormed := by
    refine ⟨hn.sign, hn.whole, ?_, ?_, hn.exponent⟩
    · rintro _ ⟨⟩
      exact List.forall_mem_append.2 ⟨hn.fraction ds hf, fun _ => List.mem_takeWhile_imp⟩
    · refine hn.nonempty.imp_right fun h hnil => h ?_
      rw [hf]
      exact (List.append_eq_nil_iff.1 hnil).1
  have hsettled : ReachesStop m (rest.dropWhile isDigit) :=
    reachesStop_of_settled hm he (fun _ => head?_dropWhile) nofun
  refine hsettled.of_more (rest.takeWhile isDigit) ?_ List.takeWhile_append_dropWhile.symm
  simp [m, spelling, he, hf, exponentSpelling, fractionSpelling]

/-- A point behind a whole number belongs to it, with no digit behind it too. -/
theorem reachesStop_of_whole (hn : n.WellFormed) (he : n.exponent = none)
    (hf : n.fraction = none) : ReachesStop n rest := by
  let m : Numeral := { n with whole := n.whole ++ rest.takeWhile isDigit }
  have hwhole : n.whole ≠ [] := hn.nonempty.resolve_right fun h => h (by rw [hf]; rfl)
  have hm : m.WellFormed :=
    ⟨hn.sign, List.forall_mem_append.2 ⟨hn.whole, fun _ => List.mem_takeWhile_imp⟩, hn.fraction,
      Or.inl fun h => hwhole (List.append_eq_nil_iff.1 h).1, hn.exponent⟩
  have hreaches : ReachesStop m (rest.dropWhile isDigit) := by
    by_cases hpoint : (rest.dropWhile isDigit).head? = some '.'
    · obtain ⟨rest', hrest'⟩ := List.head?_eq_some_iff.1 hpoint
      let k : Numeral := { m with fraction := some [] }
      have hk : k.WellFormed := by
        refine ⟨hm.sign, hm.whole, ?_, Or.inl fun h => hwhole (List.append_eq_nil_iff.1 h).1,
          hm.exponent⟩
        rintro _ ⟨⟩
        exact fun _ h => absurd h List.not_mem_nil
      refine (reachesStop_of_fraction hk he rfl).of_more ['.'] ?_ hrest'
      simp [k, m, spelling, he, hf, exponentSpelling, fractionSpelling]
    · exact reachesStop_of_settled hm he (fun _ => head?_dropWhile) fun _ => hpoint
  refine hreaches.of_more (rest.takeWhile isDigit) ?_ List.takeWhile_append_dropWhile.symm
  simp [m, spelling, he, hf, exponentSpelling, fractionSpelling]

theorem reachesStop (hn : n.WellFormed) : ReachesStop n rest := by
  cases he : n.exponent with
  | some e => exact reachesStop_of_exponent hn he
  | none =>
    cases hf : n.fraction with
    | some ds => exact reachesStop_of_fraction hn he hf
    | none => exact reachesStop_of_whole hn he hf

/-! ## What scanning finds -/

variable {cs : List Char}

theorem wellFormed_scan? (h : scan? cs = some (n, rest)) : n.WellFormed := by
  unfold scan? at h
  obtain ⟨⟨m, r⟩, hm, he⟩ := Option.map_eq_some_iff.1 h
  simp only [Prod.mk.injEq] at he
  obtain ⟨rfl, rfl⟩ := he
  have hwf := (wellFormed_scanUnsigned? hm).2
  exact ⟨fun _ => sign_scanSign, hwf.whole, hwf.fraction, hwf.nonempty, hwf.exponent⟩

/-- Where a numeral stands, scanning finds one at least as long. -/
theorem exists_scan?_of_prefix (hn : n.WellFormed) (h : n.spelling <+: cs) :
    ∃ m rest, scan? cs = some (m, rest) ∧ n.spelling.length ≤ m.spelling.length := by
  obtain ⟨rest, rfl⟩ := h
  obtain ⟨m, rest', hm, hstops, htext, hlength⟩ : ReachesStop n rest := reachesStop hn
  exact ⟨m, rest', htext ▸ scan?_spelling hm hstops, hlength⟩

theorem scan?_eq_none_iff : scan? cs = none ↔ ∀ n : Numeral, n.WellFormed → ¬n.spelling <+: cs := by
  constructor
  · intro h n hn hprefix
    obtain ⟨m, rest, hscan, -⟩ := exists_scan?_of_prefix hn hprefix
    rw [h] at hscan
    cases hscan
  · intro h
    cases hscan : scan? cs with
    | none => rfl
    | some r => exact absurd ⟨r.2, spelling_scan? hscan⟩ (h r.1 (wellFormed_scan? hscan))

/-- No two numerals are spelled alike. -/
theorem eq_of_spelling_eq {m : Numeral} (hn : n.WellFormed) (hm : m.WellFormed)
    (h : n.spelling = m.spelling) : n = m := by
  have hend : ∀ k : Numeral, k.Stops [] := fun k => ⟨nofun, nofun, fun _ => rfl⟩
  have hscan := scan?_spelling hn (hend n)
  rw [h, scan?_spelling hm (hend m)] at hscan
  exact (congrArg Prod.fst (Option.some.inj hscan)).symm

/-- The text `cs` is the numeral `n` and then `rest`, and it starts with no longer numeral. -/
structure Longest (n : Numeral) (cs rest : List Char) : Prop where
  wellFormed : n.WellFormed
  split : n.spelling ++ rest = cs
  longest : ∀ m : Numeral, m.WellFormed → m.spelling <+: cs → m.spelling.length ≤ n.spelling.length

theorem longest_of_scan? (h : scan? cs = some (n, rest)) : n.Longest cs rest where
  wellFormed := wellFormed_scan? h
  split := spelling_scan? h
  longest m hm hprefix := by
    obtain ⟨k, rest', hscan, hlength⟩ := exists_scan?_of_prefix hm hprefix
    rw [h] at hscan
    cases hscan
    exact hlength

theorem scan?_eq_some_iff : scan? cs = some (n, rest) ↔ n.Longest cs rest := by
  constructor
  · exact longest_of_scan?
  · intro h
    obtain ⟨m, rest', hscan, hlength⟩ := exists_scan?_of_prefix h.wellFormed ⟨rest, h.split⟩
    have hm := longest_of_scan? hscan
    have hsame : m.spelling.length = n.spelling.length :=
      Nat.le_antisymm (h.longest m hm.wellFormed ⟨rest', hm.split⟩) hlength
    obtain ⟨hspelling, hrest⟩ := List.append_inj (hm.split.trans h.split.symm) hsame
    rw [hscan, eq_of_spelling_eq hm.wellFormed h.wellFormed hspelling, hrest]

end StyleEngine.Numeral
