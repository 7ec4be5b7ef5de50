import StyleEngine.Proofs.Number.Notation
import StyleEngine.Proofs.Registry.Origin

/-!
# Sources that never repeat themselves

The tokens of a source that counts integers are all different, and none of them is a color token.
What a registry has bound is a color token or was taken from the source before, so a token that
such a source gives next is unbound, and every request for a length needs one draw.  The same is
said of the tokens from a position on, for what is bound after a reset.

    Unrepeating (.ofInt label seed)                                      (unrepeating_ofInt)
    SpentSince position r → SpentSince position (act r a)                (spentSince_act)
    Spent (run (start source) actions)                                   (spent_run)
    Unrepeating r.source → Spent r → (r.allocate .length).1 = r.upcoming 0
                                                             (allocate_length_of_unrepeating)
-/

namespace StyleEngine

/-! ## Tokens -/

/-- ASCII without spaces. -/
def Plain (s : String) : Prop := ∀ c ∈ s.toList, c.toNat < 128 ∧ c ≠ ' '

instance (s : String) : Decidable (Plain s) :=
  List.decidableBAll (fun c : Char => c.toNat < 128 ∧ c ≠ ' ') s.toList

theorem plain_digit {c : Char} (h : c.isDigit = true) : c.toNat < 128 ∧ c ≠ ' ' := by
  refine ⟨?_, ?_⟩
  · simp only [Char.isDigit, Bool.and_eq_true, decide_eq_true_eq] at h
    have hle : c.val.toNat ≤ 57 := h.2
    exact Nat.lt_of_le_of_lt hle (by decide)
  · rintro rfl
    exact absurd h (by decide)

theorem mem_toDigits {b n : Nat} {c : Char} (hb : 1 < b) (h : c ∈ Nat.toDigits b n) :
    ∃ d < b, c = Nat.digitChar d := by
  induction n using Nat.strongRecOn with
  | ind n ih =>
    rw [Nat.toDigits_eq_if hb] at h
    split at h
    · next hn => exact ⟨n, hn, List.mem_singleton.1 h⟩
    · next hn =>
      rcases List.mem_append.1 h with h | h
      · exact ih (n / b) (Nat.div_lt_self (by omega) hb) h
      · exact ⟨n % b, Nat.mod_lt n (by omega), List.mem_singleton.1 h⟩

namespace Registry

theorem plain_colorToken (id : Nat) : Plain (colorToken id) := by
  have hdigit : ∀ d < 16,
      (Nat.digitChar d).toUpper.toNat < 128 ∧ (Nat.digitChar d).toUpper ≠ ' ' := by
    decide
  obtain ⟨k, hk⟩ := toList_colorToken id
  intro c hc
  rw [hk] at hc
  simp only [List.mem_cons, List.mem_append, List.mem_replicate, List.mem_map, List.not_mem_nil,
    or_false] at hc
  rcases hc with rfl | (⟨-, rfl⟩ | ⟨e, he, rfl⟩) | rfl | rfl
  · decide
  · decide
  · obtain ⟨d, hd, rfl⟩ := mem_toDigits (by decide) he
    exact hdigit d hd
  · decide
  · decide

end Registry

namespace TokenSource

/-- A counting source draws the number at a position, as long as it is printable. -/
theorem token_ofInt (label : String) (seed : Int) (i : Nat) :
    (ofInt label seed).token i =
      if (Number.int (seed + i)).isPrintable then .ok ((Number.int (seed + i)).text ++ "px")
      else .error .unprintableInteger := by
  have hprint : (Value.int (seed + i)).isPrintable = (Number.int (seed + i)).isPrintable := rfl
  show (Value.int (seed + i)).print.map (· ++ pixelSuffix) = _
  cases h : (Number.int (seed + i)).isPrintable with
  | true =>
    rw [Value.print_of_isPrintable (hprint.trans h)]
    rfl
  | false =>
    rw [Value.print_of_not_isPrintable (hprint.trans h)]
    rfl

theorem token_ofInt_eq_ok {label : String} {seed : Int} {i : Nat} {token : String}
    (h : (ofInt label seed).token i = .ok token) :
    (Number.int (seed + i)).isPrintable = true ∧ token = (Number.int (seed + i)).text ++ "px" := by
  rw [token_ofInt] at h
  split at h
  · next hp => exact ⟨hp, (Except.ok.inj h).symm⟩
  · cases h

theorem exists_token_ofInt_iff {label : String} {seed : Int} {i : Nat} :
    (∃ token, (ofInt label seed).token i = .ok token) ↔
      (Number.int (seed + i)).isPrintable = true := by
  constructor
  · rintro ⟨token, h⟩
    exact (token_ofInt_eq_ok h).1
  · intro h
    rw [token_ofInt, if_pos h]
    exact ⟨_, rfl⟩

theorem plain_pixels (n : Int) : Plain ((Number.int n).text ++ "px") := by
  intro c hc
  rw [Number.text, String.toList_append, String.toList_ofList, List.mem_append] at hc
  rcases hc with hc | hc
  · rcases mem_intChars hc with rfl | hd
    · decide
    · exact plain_digit hd
  · have hsuffix : c = 'p' ∨ c = 'x' := by simpa using hc
    rcases hsuffix with rfl | rfl <;> decide

theorem toList_of_token_ofInt {label : String} {seed : Int} {i : Nat} {token : String}
    (h : (ofInt label seed).token i = .ok token) :
    token.toList = intChars (seed + i) ++ ['p', 'x'] := by
  rw [(token_ofInt_eq_ok h).2, Number.text, String.toList_append, String.toList_ofList]
  rfl

theorem plain_of_token_ofInt {label : String} {seed : Int} {i : Nat} {token : String}
    (h : (ofInt label seed).token i = .ok token) : Plain token :=
  (token_ofInt_eq_ok h).2 ▸ plain_pixels (seed + i)

/-- A source that gives no token twice, and none that is a color token. -/
structure Unrepeating (source : TokenSource) : Prop where
  position_eq : ∀ i j token, source.token i = .ok token → source.token j = .ok token → i = j
  ne_colorToken : ∀ i id, source.token i ≠ .ok (Registry.colorToken id)

theorem unrepeating_ofInt (label : String) (seed : Int) : Unrepeating (ofInt label seed) := by
  constructor
  · intro i j token hi hj
    have hchars := (toList_of_token_ofInt hi).symm.trans (toList_of_token_ofInt hj)
    have := intChars_injective (List.append_cancel_right hchars)
    omega
  · intro i id h
    obtain ⟨k, hk⟩ := Registry.toList_colorToken id
    have hmem : '#' ∈ (Registry.colorToken id).toList := by
      rw [hk]
      exact List.mem_cons_self
    rw [toList_of_token_ofInt h, List.mem_append] at hmem
    rcases hmem with hmem | hmem
    · rcases mem_intChars hmem with he | hd
      · exact absurd he (by decide)
      · exact absurd hd (by decide)
    · exact absurd hmem (by decide)

end TokenSource

namespace Registry

open TokenSource

variable {r : Registry} {d : Discipline}

/-! ## Tokens that have been given -/

/-- Each bound placeholder is a color token, or the source gave it, from a position on. -/
def SpentSince (position : Nat) (r : Registry) : Prop :=
  ∀ p ∈ Fields.keys r.names,
    (∃ id, p = colorToken id) ∨
      ∃ i, position ≤ i ∧ i < r.tokensUsed ∧ r.source.token i = .ok p

/-- Each bound placeholder is a color token, or the source gave it before. -/
def Spent (r : Registry) : Prop :=
  ∀ p ∈ Fields.keys r.names,
    (∃ id, p = colorToken id) ∨ ∃ i < r.tokensUsed, r.source.token i = .ok p

theorem spent_iff : Spent r ↔ SpentSince 0 r := by
  unfold Spent SpentSince
  simp only [Nat.zero_le, true_and]

theorem spentSince_of_empty (h : r.names = []) (position : Nat) : SpentSince position r := by
  intro p hp
  rw [h] at hp
  cases hp

/-- Allocation goes forward in the source, and what it takes from there is behind it then. -/
theorem allocate_tokensUsed (r : Registry) (d : Discipline) :
    r.tokensUsed ≤ (r.allocate d).2.tokensUsed ∧
      ∀ p, (r.allocate d).1 = .ok p → (∃ id, p = colorToken id) ∨
        ∃ i, r.tokensUsed ≤ i ∧ i < (r.allocate d).2.tokensUsed ∧ r.source.token i = .ok p := by
  cases d with
  | color =>
    refine ⟨Nat.le_refl _, fun p hp => ?_⟩
    obtain ⟨id, hid, -⟩ := allocate_color r
    rw [hid] at hp
    exact Or.inl ⟨id, (Except.ok.inj hp).symm⟩
  | length =>
    refine ⟨?_, fun p hp => Or.inr (allocate_length hp).1⟩
    rcases allocate_length_cases r with ⟨k, -, -, -, he⟩ | ⟨-, he⟩
    · rw [he]
      show r.tokensUsed ≤ r.tokensUsed + k + 1
      omega
    · rw [he]
      exact Nat.le_add_right _ _

section
variable {position : Nat}

theorem SpentSince.allocate (h : SpentSince position r) (d : Discipline) :
    SpentSince position (r.allocate d).2 := by
  have hs := allocate_sameBindings r d
  intro p hp
  rw [hs.names] at hp
  rw [hs.source]
  refine (h p hp).imp_right fun ⟨i, hle, hi, he⟩ => ⟨i, hle, ?_, he⟩
  exact Nat.lt_of_lt_of_le hi (allocate_tokensUsed r d).1

theorem SpentSince.bind (h : SpentSince position r) (n : String) {p : String}
    (hp : (∃ id, p = colorToken id) ∨
      ∃ i, position ≤ i ∧ i < r.tokensUsed ∧ r.source.token i = .ok p) :
    SpentSince position (r.bind n p) := by
  intro q hq
  have hkeys : q ∈ Fields.keys r.names ++ [p].filter (· ∉ Fields.keys r.names) := by
    rw [← Fields.keys_set]
    exact hq
  rcases List.mem_append.1 hkeys with hq | hq
  · exact h q hq
  · rw [List.mem_singleton.1 (List.mem_of_mem_filter hq)]
    exact hp

theorem spentSince_act (h : SpentSince position r) (hused : position ≤ r.tokensUsed)
    (a : Action) : SpentSince position (act r a) := by
  cases a with
  | reset => exact spentSince_of_empty rfl position
  | encode d name fallback =>
    show SpentSince position (r.encode d name fallback).2
    rcases encode_cases r d name fallback with he | ⟨e, -, he⟩ | ⟨n, p, -, -, -, hp, he⟩
    · rw [he]
      exact h
    · rw [he]
      exact h.allocate d
    · rw [he]
      refine (h.allocate d).bind n ?_
      rw [(allocate_sameBindings r d).source]
      refine ((allocate_tokensUsed r d).2 p hp).imp_right fun ⟨i, hle, hi, hip⟩ => ?_
      exact ⟨i, Nat.le_trans hused hle, hi, hip⟩

end

theorem spent_act (h : Spent r) (a : Action) : Spent (act r a) :=
  spent_iff.2 (spentSince_act (spent_iff.1 h) (Nat.zero_le _) a)

theorem spent_run (source : TokenSource) (actions : List Action) :
    Spent (run (start source) actions) := by
  induction actions using List.reverseRecOn with
  | nil => exact spent_iff.2 (spentSince_of_empty rfl 0)
  | append_singleton actions a ih =>
    rw [run_append]
    exact spent_act ih a

/-- What a counting registry has bound is plain. -/
theorem plain_of_placeholderFor? {label : String} {seed : Int} {actions : List Action}
    {name p : String}
    (h : (run (start (.ofInt label seed)) actions).placeholderFor? name = some p) : Plain p := by
  have hname := (mirrored_run (.ofInt label seed) actions).nameFor?_of_placeholderFor? h
  rcases spent_run (.ofInt label seed) actions p (Fields.mem_keys_of_get? hname) with
    ⟨id, rfl⟩ | ⟨i, -, hi⟩
  · exact plain_colorToken id
  · rw [source_run] at hi
    exact TokenSource.plain_of_token_ofInt hi

/-! ## Requests are answered -/

/-- The next token of a source that does not repeat itself is not bound yet, so the next draw
decides what a length gets. -/
theorem allocate_length_of_unrepeating (hsource : Unrepeating r.source) (hspent : Spent r) :
    r.allocate .length = (r.upcoming 0, { r with tokensUsed := r.tokensUsed + 1 }) := by
  have hfree : ¬PassedOver r.names (r.upcoming 0) := by
    rintro ⟨token, hbound, hdraw⟩
    rcases hspent _ hbound with ⟨id, rfl⟩ | ⟨i, hi, he⟩
    · exact hsource.ne_colorToken _ id hdraw
    · have := hsource.position_eq _ _ token hdraw he
      omega
  rcases allocate_length_cases r with ⟨k, -, hbound, -, he⟩ | ⟨hbound, -⟩
  · cases k with
    | zero => exact he
    | succ k => exact absurd (hbound 0 (Nat.succ_pos k)) hfree
  · exact absurd (hbound 0 (by decide)) hfree

section
variable (hsource : Unrepeating r.source) (hspent : Spent r) {n : String} (hn : n ≠ "")
  (hnew : r.placeholderFor? n = none) (fallback : Value)

include hsource hspent hn hnew

/-- A length that is new is bound to the token that is drawn for it. -/
theorem encode_of_drawn {p : String} (h : r.upcoming 0 = .ok p) :
    r.encode .length (.text n) fallback = (.ok (withFallback p fallback.isTruthy),
      Registry.bind { r with tokensUsed := r.tokensUsed + 1 } n p) :=
  encode_of_allocated hn hnew (h ▸ allocate_length_of_unrepeating hsource hspent) fallback

/-- A draw that fails is lost. -/
theorem encode_of_not_drawn {e : Fault} (h : r.upcoming 0 = .error e) :
    r.encode .length (.text n) fallback = (.error e, { r with tokensUsed := r.tokensUsed + 1 }) :=
  encode_of_refused hn hnew (h ▸ allocate_length_of_unrepeating hsource hspent) fallback

end

end Registry

end StyleEngine
