import StyleEngine.Proofs.Registry.Origin

/-!
# Length requests against any source

A source may give tokens again, or tokens that look like colors, and a draw may fail.  A request
for a new length goes through the next draws of the source and takes the first token that stands for
no name; after `maxAttempts` draws in vain it gives up, and all that is left of it are the draws it
used.

    Mirrored r → (Taken r t ↔ t ∈ keys r.names)                          (Mirrored.taken_iff)
    Mirrored r → (DrawsTaken r i ↔ PassedOver r.names (r.upcoming i))    (Mirrored.drawsTaken_iff)
-/

namespace StyleEngine.Registry

/-- The token stands for a name. -/
def Taken (r : Registry) (token : String) : Prop := ∃ n, r.placeholderFor? n = some token

theorem Mirrored.taken_iff {r : Registry} (h : Mirrored r) (t : String) :
    Taken r t ↔ t ∈ Fields.keys r.names := by
  constructor
  · rintro ⟨n, hn⟩
    exact Fields.mem_keys_of_get? (h.nameFor?_of_placeholderFor? hn)
  · intro ht
    obtain ⟨v, hv⟩ := Fields.exists_get?_of_mem_keys ht
    obtain ⟨n, hn, -⟩ := h.nameFor?_eq_some_iff.1 hv
    exact ⟨n, h.placeholderFor?_eq_some_iff.2 hn⟩

/-- The draw after the next `i` ones gives a token that stands for a name. -/
def DrawsTaken (r : Registry) (i : Nat) : Prop := ∃ token, r.upcoming i = .ok token ∧ Taken r token

theorem Mirrored.drawsTaken_iff {r : Registry} (h : Mirrored r) (i : Nat) :
    DrawsTaken r i ↔ PassedOver r.names (r.upcoming i) := by
  constructor
  · rintro ⟨t, hi, ht⟩
    exact ⟨t, (h.taken_iff t).1 ht, hi⟩
  · rintro ⟨t, ht, hi⟩
    exact ⟨t, hi, (h.taken_iff t).2 ht⟩

/-- A request for the length of a name that is not bound fails exactly if the next 1000 draws give
tokens that are taken, by colors or by lengths, or if those before a draw that fails do.  In the
first case it has used the 1000 and done nothing else.  Otherwise the first draw that gives no taken
token decides: the name is bound to its token, behind all other bindings, or the request fails as
the draw does, and the draws up to this one are used.  A name that is no non-empty text is refused
without a change. -/
theorem length_request_takes_first_free_token (source : TokenSource) (actions : List Action)
    (n : String) (hn : n ≠ "") (hnew : (run (start source) actions).placeholderFor? n = none)
    (fallback : Value) :
    let r := run (start source) actions
    ((∃ e, (r.encode .length (.text n) fallback).1 = .error e) ↔
      (∀ i < 1000, DrawsTaken r i) ∨
        ∃ k < 1000, (∀ i < k, DrawsTaken r i) ∧ ∃ fault, r.upcoming k = .error fault) ∧
    ((∀ i < 1000, DrawsTaken r i) →
      r.encode .length (.text n) fallback =
        (.error (.tokensExhausted r.source.label 1000),
          { r with tokensUsed := r.tokensUsed + 1000 })) ∧
    ((∃ i < 1000, ¬ DrawsTaken r i) →
      ∃ k < 1000, (∀ i < k, DrawsTaken r i) ∧ ¬ DrawsTaken r k ∧
        (∀ token, r.upcoming k = .ok token →
          r.encode .length (.text n) fallback =
            (.ok (withFallback token fallback.isTruthy),
              { r with
                placeholders := r.placeholders ++ [(n, token)]
                names := r.names ++ [(token, stripSigil n)]
                tokensUsed := r.tokensUsed + k + 1 })) ∧
        ∀ fault, r.upcoming k = .error fault →
          r.encode .length (.text n) fallback =
            (.error fault, { r with tokensUsed := r.tokensUsed + k + 1 })) ∧
    ∀ name : Value, (∀ s, name = .text s → s = "") →
      r.encode .length name fallback = (.error (.invalidName name), r) := by
  intro r
  have hmirrored : Mirrored r := mirrored_run source actions
  have hdraws : ∀ i, DrawsTaken r i ↔ PassedOver r.names (r.upcoming i) := hmirrored.drawsTaken_iff
  have hinvalid : ∀ name : Value, (∀ s, name = .text s → s = "") →
      r.encode .length name fallback = (.error (.invalidName name), r) :=
    fun name hname => encode_of_invalid hname r .length fallback
  rcases allocate_length_cases r with ⟨k, hk, hbound, hfree, ha⟩ | ⟨hbound, ha⟩
  · have hbound' : ∀ i < k, DrawsTaken r i := fun i hi => (hdraws i).2 (hbound i hi)
    have hfree' : ¬ DrawsTaken r k := fun h => hfree ((hdraws k).1 h)
    have hgiven : ∀ token, r.upcoming k = .ok token →
        r.encode .length (.text n) fallback =
          (.ok (withFallback token fallback.isTruthy),
            { r with
              placeholders := r.placeholders ++ [(n, token)]
              names := r.names ++ [(token, stripSigil n)]
              tokensUsed := r.tokensUsed + k + 1 }) := by
      intro token hdraw
      have hnone : n ∉ Fields.keys r.placeholders := Fields.get?_eq_none_iff.1 hnew
      have hnew' : token ∉ Fields.keys r.names := fun h => hfree ⟨token, h, hdraw⟩
      rw [hdraw] at ha
      rw [encode_of_allocated hn hnew ha,
        bind_eq (r := { r with tokensUsed := r.tokensUsed + k + 1 }) hnone hnew']
    have hfailed : ∀ fault, r.upcoming k = .error fault →
        r.encode .length (.text n) fallback =
          (.error fault, { r with tokensUsed := r.tokensUsed + k + 1 }) := by
      intro fault hdraw
      rw [hdraw] at ha
      exact encode_of_refused hn hnew ha fallback
    refine ⟨⟨?_, ?_⟩, fun h => absurd (h k hk) hfree',
      fun _ => ⟨k, hk, hbound', hfree', hgiven, hfailed⟩, hinvalid⟩
    · rintro ⟨e, he⟩
      refine Or.inr ⟨k, hk, hbound', ?_⟩
      cases hdraw : r.upcoming k with
      | error fault => exact ⟨fault, rfl⟩
      | ok token =>
        rw [hgiven token hdraw] at he
        cases he
    · rintro (h | ⟨j, hj, htaken, fault, hdraw⟩)
      · exact absurd (h k hk) hfree'
      · -- both are the first draw that gives no taken token
        have hjk : j = k := by
          rcases Nat.lt_trichotomy j k with hlt | heq | hlt
          · obtain ⟨token, hok, -⟩ := hbound' j hlt
            rw [hdraw] at hok
            cases hok
          · exact heq
          · exact absurd (htaken k hlt) hfree'
        subst hjk
        exact ⟨fault, by rw [hfailed fault hdraw]⟩
  · have hall : ∀ i < 1000, DrawsTaken r i := fun i hi => (hdraws i).2 (hbound i hi)
    have hanswer := encode_of_refused hn hnew ha fallback
    refine ⟨⟨fun _ => Or.inl hall, fun _ => ⟨_, by rw [hanswer]⟩⟩, fun _ => hanswer, ?_, hinvalid⟩
    rintro ⟨i, hi, hfree⟩
    exact absurd (hall i hi) hfree

/-- A source that gives the same token a thousand times before it gives another one. -/
def stubborn : TokenSource where
  label := "tokens"
  token i := .ok (if i < 1000 then "7px" else "8px")

/-- The first length takes the first token; for the second, 999 more are in vain and the next one
is the last that is tried. -/
theorem gap_gets_thousandth_token :
    let r := run (start stubborn) [.encode .length (.text "$edge") .null]
    r.tokensUsed = 1 ∧ r.encode .length (.text "$gap") .null =
      (.ok "8px", { r with
        placeholders := [("$edge", "7px"), ("$gap", "8px")]
        names := [("7px", "edge"), ("8px", "gap")]
        tokensUsed := 1001 }) := by
  intro r
  have hnew : r.placeholderFor? "$gap" = none := by decide +kernel
  have hused : r.tokensUsed = 1 := rfl
  have hupcoming : ∀ i, r.upcoming i = .ok (if r.tokensUsed + i < 1000 then "7px" else "8px") :=
    fun _ => rfl
  have hlast : r.upcoming 999 = .ok "8px" := by
    rw [hupcoming, if_neg (by omega)]
  have hfree : ¬ DrawsTaken r 999 := by
    rintro ⟨token, hdraw, htaken⟩
    rw [hlast] at hdraw
    rw [← Except.ok.inj hdraw, (mirrored_run stubborn _).taken_iff] at htaken
    exact absurd htaken (by decide +kernel)
  obtain ⟨-, -, htakes, -⟩ := length_request_takes_first_free_token stubborn
    [.encode .length (.text "$edge") .null] "$gap" (by decide) hnew .null
  obtain ⟨k, hk, -, hfirst, hanswer, -⟩ := htakes ⟨999, by omega, hfree⟩
  -- the tokens before the last are bound to the first name
  have hk999 : k = 999 := by
    by_contra hne
    refine hfirst ⟨"7px", ?_, "$edge", by decide +kernel⟩
    rw [show upcoming _ k = _ from hupcoming k, if_pos (by omega)]
  subst hk999
  exact ⟨hused, hanswer "8px" hlast⟩

end StyleEngine.Registry
