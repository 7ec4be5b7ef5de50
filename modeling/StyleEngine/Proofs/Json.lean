import StyleEngine.Json
import StyleEngine.Proofs.Number.Printed
import StyleEngine.Proofs.Outcome
import StyleEngine.Proofs.Printable

/-!
# What is read can be printed

The limit on the digits of an integer is the same for reading and for printing, so a value that has
been read is printable.

    digitsValue ds < 10 ^ ds.length                                            (digitsValue_lt)
    read s = .ok v → v.isPrintable = true                                      (isPrintable_read)
-/

namespace StyleEngine

open Text

theorem Text.digitsValue_lt (ds : List Char) : digitsValue ds < 10 ^ ds.length := by
  induction ds using List.reverseRecOn with
  | nil => decide
  | append_singleton ds d ih =>
    have hd : (digitValue? d).getD 0 < 10 := by
      cases h : digitValue? d with
      | none => decide
      | some n => exact digitValue?_lt h
    have hvalue : digitsValue (ds ++ [d]) = digitsValue ds * 10 + (digitValue? d).getD 0 := by
      rw [digitsValue, List.foldl_append]
      rfl
    rw [hvalue, List.length_append, List.length_singleton, pow_succ]
    omega

namespace Json

/-! ## Scalars -/

theorem isPrintable_numberOf {cs rest : List Char} {n : Numeral}
    (hlong : startsTooLong cs = false) (h : scanNumeral? cs = some (n, rest)) :
    (numberOf n).isPrintable = true := by
  unfold startsTooLong at hlong
  rw [h] at hlong
  unfold numberOf
  split
  · next hint =>
    have hlength : n.whole.length ≤ maxIntegerDigits := by simpa [hint] using hlong
    have hvalue : (digitsValue n.whole : Int) < 10 ^ maxIntegerDigits := by
      have hpow := Nat.pow_le_pow_right (by decide : 0 < 10) hlength
      exact_mod_cast lt_of_lt_of_le (digitsValue_lt n.whole) hpow
    have hpos : (0 : Int) ≤ digitsValue n.whole := Int.natCast_nonneg _
    rw [Number.isPrintable_int_iff]
    split <;> constructor <;> linarith
  · rfl

theorem isPrintable_of_word? {cs rest : List Char} {v : Value} (h : word? cs = some (v, rest)) :
    v.isPrintable = true := by
  obtain ⟨w, hw, hfound⟩ := List.exists_of_findSome?_eq_some h
  have hwords : ∀ w ∈ words, w.2.isPrintable = true := by
    simp only [words, List.forall_mem_cons, List.not_mem_nil, false_implies, implies_true, and_true]
    exact ⟨rfl, rfl, rfl, rfl, rfl, rfl⟩
  split at hfound
  · rw [← (Prod.mk.inj (Option.some.inj hfound)).1]
    exact hwords w hw
  · cases hfound

theorem isPrintable_of_scalar? {cs rest : List Char} {v : Value}
    (hlong : startsTooLong cs = false) (h : scalar? cs = some (v, rest)) :
    v.isPrintable = true := by
  unfold scalar? at h
  split at h
  · next hword =>
    rw [Option.some.inj h] at hword
    exact isPrintable_of_word? hword
  · obtain ⟨⟨n, rest'⟩, hnumeral, heq⟩ := Option.map_eq_some_iff.1 h
    rw [← (Prod.mk.inj heq).1]
    exact isPrintable_numberOf hlong hnumeral

theorem isPrintable_scalar {cs : List Code} {found : Found Value cs} (h : scalar cs = .ok found) :
    found.1.isPrintable = true := by
  unfold scalar at h
  split at h
  · cases h
  · next hlong =>
    split at h
    · next hscalar =>
      rw [← Except.ok.inj h]
      exact isPrintable_of_scalar? (Bool.not_eq_true _ ▸ hlong) hscalar
    · cases h

/-! ## Values -/

/-- Whatever is read from fewer codes can be printed. -/
def PrintableBelow (n : Nat) : Prop :=
  ∀ levels (cs : List Code) (found : Found Value cs), cs.length < n →
    value levels cs = .ok found → found.1.isPrintable = true

section
variable {n levels : Nat} (hn : PrintableBelow n)

include hn

theorem isPrintable_items {cs : List Code} (hcs : cs.length < n) {found : Found (List Value) cs}
    (h : items levels cs = .ok found) : ∀ v ∈ found.1, v.isPrintable = true := by
  obtain ⟨length, hlength⟩ : ∃ length, cs.length = length := ⟨_, rfl⟩
  induction length using Nat.strong_induction_on generalizing cs with
  | h length ih =>
    unfold items at h
    split at h
    · cases h
    · next v rest hrest hvalue =>
      have hv : v.isPrintable = true := hn levels cs _ hcs hvalue
      split at h
      · cases h
      · rw [← Except.ok.inj h]
        exact List.forall_mem_singleton.2 hv
      · next rest₁ h₁ _ =>
        split at h
        · cases h
        · next vs rest₂ h₂ hitems =>
          rw [← Except.ok.inj h]
          have hvs := ih rest₁.length (by omega) (by omega) hitems rfl
          exact List.forall_mem_cons.2 ⟨hv, hvs⟩

theorem printable_members {cs : List Code} (hcs : cs.length < n)
    {found : Found (List (String × Value)) cs} (h : members levels cs = .ok found) :
    Fields.Printable found.1 := by
  obtain ⟨length, hlength⟩ : ∃ length, cs.length = length := ⟨_, rfl⟩
  induction length using Nat.strong_induction_on generalizing cs with
  | h length ih =>
    unfold members at h
    split at h
    · next rest =>
      rw [List.length_cons] at hcs hlength
      split at h
      · cases h
      · next name rest₁ h₁ _ =>
        split at h
        · cases h
        · next rest₂ h₂ _ =>
          split at h
          · cases h
          · next v rest₃ h₃ hvalue =>
            have hv : v.isPrintable = true := hn levels rest₂ _ (by omega) hvalue
            dsimp only at h
            split at h
            · cases h
            · rw [← Except.ok.inj h]
              exact List.forall_mem_singleton.2 hv
            · next rest₄ h₄ _ =>
              split at h
              · cases h
              · next entries rest₅ h₅ hmembers =>
                rw [← Except.ok.inj h]
                have hentries := ih rest₄.length (by omega) (by omega) hmembers rfl
                exact List.forall_mem_cons.2 ⟨hv, hentries⟩
    · cases h

end

theorem isPrintable_value {levels : Nat} {cs : List Code} {found : Found Value cs}
    (h : value levels cs = .ok found) : found.1.isPrintable = true := by
  obtain ⟨length, hlength⟩ : ∃ length, cs.length = length := ⟨_, rfl⟩
  induction length using Nat.strong_induction_on generalizing levels cs with
  | h length ih =>
    have hn : PrintableBelow length := fun levels ds found hds hvalue => ih _ hds hvalue rfl
    unfold value at h
    split at h
    · split at h
      · cases h
      · rw [← Except.ok.inj h]
        rfl
    · next rest =>
      have hskip : (skip rest).length < length := by
        have := length_skip_le rest
        rw [List.length_cons] at hlength
        omega
      split at h
      · cases h
      · split at h
        · rw [← Except.ok.inj h]
          rfl
        · split at h
          · cases h
          · next hitems =>
            rw [← Except.ok.inj h]
            exact Value.isPrintable_list_iff.2 (isPrintable_items hn hskip hitems)
    · next rest =>
      have hskip : (skip rest).length < length := by
        have := length_skip_le rest
        rw [List.length_cons] at hlength
        omega
      split at h
      · cases h
      · split at h
        · rw [← Except.ok.inj h]
          rfl
        · split at h
          · cases h
          · next hmembers =>
            rw [← Except.ok.inj h]
            have hentries := printable_members hn hskip hmembers
            exact Value.isPrintable_map_iff.2 (Fields.Printable.nil.merge hentries)
    · exact isPrintable_scalar h

/-! ## Whole texts -/

theorem isPrintable_read {s : String} {v : Value} (h : read s = .ok v) : v.isPrintable = true := by
  unfold read at h
  split at h
  · unfold readCodes at h
    split at h
    · cases h
    · cases h
    · next hvalue =>
      split at h
      · rw [← Except.ok.inj h]
        exact isPrintable_value hvalue
      · cases h
  · cases h

end Json

end StyleEngine
