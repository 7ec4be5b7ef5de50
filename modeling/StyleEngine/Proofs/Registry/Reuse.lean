import StyleEngine.Proofs.Printable
import StyleEngine.Proofs.Registry.Bindings

/-!
# Placeholders across resets

A reset forgets the bindings and starts the colors anew, but the source goes on.  A source that
counts gives each length the next number, so no pixel literal is given out twice, and none that
was given out before a reset stands for a name after it.  A number that is not printable is lost:
the request that draws it fails and binds nothing.

    Unrepeating r.source → Spent r → a request draws nothing, or it binds what it draws, or it
      fails as the draw does                                             (draw_cases)
    Contiguous r.source first → (newBindings .length r actions)[i]? = some (n, p) →
      r.source.token (max r.tokensUsed first + i) = .ok p                (token_of_newBindings)
    SpentSince position r → SpentSince position (run r actions)          (spentSince_run)
-/

namespace StyleEngine.Registry

open TokenSource

variable {r : Registry}

/-! ## Draws -/

def isUnprintable : Fault → Bool
  | .unprintableInteger => true
  | _ => false

/-- Whether a request fails because of a number that is not printable. -/
def losesNumber (r : Registry) : Action → Bool
  | .encode discipline name fallback =>
    match (r.encode discipline name fallback).1 with
    | .ok _ => false
    | .error fault => isUnprintable fault
  | .reset => false

/-- How many requests of a run fail so. -/
def lostNumbers (r : Registry) : List Action → Nat
  | [] => 0
  | a :: rest => (losesNumber r a).toNat + lostNumbers (act r a) rest

/-- All that a request can do to a source that does not repeat itself: leave it alone, bind what is
drawn next, or fail as that draw does. -/
theorem draw_cases (hsource : Unrepeating r.source) (hspent : Spent r) (a : Action) :
    ((act r a).tokensUsed = r.tokensUsed ∧ newBinding? .length r a = none ∧
      losesNumber r a = false) ∨
    (act r a).tokensUsed = r.tokensUsed + 1 ∧
      ((∃ n p, r.upcoming 0 = .ok p ∧ newBinding? .length r a = some (n, p) ∧
        losesNumber r a = false) ∨
      ∃ fault, r.upcoming 0 = .error fault ∧ newBinding? .length r a = none ∧
        (fault = .unprintableInteger → losesNumber r a = true)) := by
  cases a with
  | reset => exact Or.inl ⟨rfl, rfl, rfl⟩
  | encode d name fallback =>
    by_cases hname : ∀ s, name = .text s → s = ""
    · left
      have he := encode_of_invalid hname r d fallback
      refine ⟨by rw [act, he], newBinding?_eq_none fun n hn hnew => ?_, ?_⟩
      · rw [he, hnew]
      · rw [losesNumber, he]
        rfl
    · push Not at hname
      obtain ⟨n, rfl, hn⟩ := hname
      cases hp : r.placeholderFor? n with
      | some p =>
        left
        have he := encode_of_bound hn hp d fallback
        refine ⟨by rw [act, he], ?_, by rw [losesNumber, he]⟩
        rw [newBinding?_encode, hp, if_neg fun h => Option.some_ne_none p h.2]
      | none =>
        cases d with
        | color =>
          left
          obtain ⟨id, hid, -⟩ := allocate_color r
          have he := encode_of_allocated hn hp (Prod.ext hid rfl) fallback
          refine ⟨by rw [act, he]; rfl, ?_, by rw [losesNumber, he]⟩
          rw [newBinding?_encode, if_neg fun h => absurd h.1 (by decide)]
        | length =>
          right
          have ha := allocate_length_of_unrepeating hsource hspent
          cases hdraw : r.upcoming 0 with
          | ok p =>
            rw [hdraw] at ha
            have he := encode_of_allocated hn hp ha fallback
            refine ⟨by rw [act, he]; rfl, Or.inl ⟨n, p, rfl, ?_, by rw [losesNumber, he]⟩⟩
            rw [newBinding?_encode, he, if_pos ⟨rfl, hp⟩, placeholderFor?_bind, if_pos rfl]
            rfl
          | error fault =>
            rw [hdraw] at ha
            have he := encode_of_refused hn hp ha fallback
            refine ⟨by rw [act, he], Or.inr ⟨fault, rfl, ?_, ?_⟩⟩
            · have hstill : (r.encode .length (.text n) fallback).2.placeholderFor? n = none := by
                rw [he]
                exact hp
              rw [newBinding?_encode, if_pos ⟨rfl, hp⟩, hstill]
              rfl
            · rintro rfl
              rw [losesNumber, he]
              rfl

/-- What is bound as a length has been drawn in the course of the run. -/
theorem exists_token_of_mem_newBindings {actions : List Action} {n p : String}
    (h : (n, p) ∈ newBindings .length r actions) :
    ∃ i < (run r actions).tokensUsed, r.source.token i = .ok p := by
  induction actions generalizing r with
  | nil => cases h
  | cons a actions ih =>
    rw [newBindings, List.mem_append, Option.mem_toList] at h
    rcases h with h | h
    · rcases act_cases r a with ⟨-, hnone⟩ | ⟨hnone, -⟩ | ⟨d, m, q, r', -, ha, hact, hnew⟩
      · rw [hnone] at h
        cases h
      · rw [hnone] at h
        cases h
      · rw [hnew] at h
        split at h
        · next hd =>
          subst hd
          obtain ⟨-, rfl⟩ := Prod.mk.inj (Option.some.inj h)
          have hdrawn := (allocate_length (r := r) (p := q) (by rw [ha])).1
          rw [ha] at hdrawn
          obtain ⟨i, -, hi, htoken⟩ := hdrawn
          have hle : r'.tokensUsed ≤ (run (act r a) actions).tokensUsed := by
            have := tokensUsed_run (act r a) actions
            rwa [hact] at this ⊢
          exact ⟨i, Nat.lt_of_lt_of_le hi hle, htoken⟩
        · cases h
    · obtain ⟨i, hi, htoken⟩ := ih h
      exact ⟨i, hi, source_act r a ▸ htoken⟩

/-! ## Lengths in a row -/

/-- The draws of a source that succeed are in a row, the first of them at a position or behind it;
the others fail because of a number that is not printable. -/
structure Contiguous (source : TokenSource) (first : Nat) : Prop where
  first_le : ∀ i token, source.token i = .ok token → first ≤ i
  between : ∀ i j token, first ≤ i → i ≤ j → source.token j = .ok token →
    ∃ token', source.token i = .ok token'
  fault_eq : ∀ i fault, source.token i = .error fault → fault = .unprintableInteger

theorem contiguous_ofInt (label : String) (seed : Int) :
    Contiguous (ofInt label seed) (1 - 10 ^ maxIntegerDigits - seed).toNat := by
  constructor
  · intro i token h
    have hp := Number.isPrintable_int_iff.1 (token_ofInt_eq_ok h).1
    omega
  · intro i j token hi hij h
    have hp := Number.isPrintable_int_iff.1 (token_ofInt_eq_ok h).1
    rw [exists_token_ofInt_iff, Number.isPrintable_int_iff]
    omega
  · intro i fault h
    rw [token_ofInt] at h
    split at h
    · cases h
    · exact (Except.error.inj h).symm

section
variable (hsource : Unrepeating r.source) (hspent : Spent r) {first : Nat}
  (hcontiguous : Contiguous r.source first)

include hsource hspent hcontiguous

/-- Each draw makes a binding or is lost. -/
theorem tokensUsed_of_newBindings (actions : List Action) :
    (run r actions).tokensUsed =
      r.tokensUsed + (newBindings .length r actions).length + lostNumbers r actions := by
  induction actions generalizing r with
  | nil => rfl
  | cons a actions ih =>
    have hrest := @ih (act r a) (by rwa [source_act]) (spent_act hspent a) (by rwa [source_act])
    have hrun : run r (a :: actions) = run (act r a) actions := rfl
    rw [newBindings, List.length_append, lostNumbers, hrun, hrest]
    rcases draw_cases hsource hspent a with ⟨hused, hnone, hlost⟩ |
      ⟨hused, ⟨n, p, -, hnew, hlost⟩ | ⟨fault, hdraw, hnone, hlost⟩⟩
    · simp only [hused, hnone, hlost, Option.toList_none, List.length_nil, Bool.toNat_false]
      omega
    · simp only [hused, hnew, hlost, Option.toList_some, List.length_singleton, Bool.toNat_false]
      omega
    · simp only [hused, hnone, hlost (hcontiguous.fault_eq _ fault hdraw), Option.toList_none,
        List.length_nil, Bool.toNat_true]
      omega

theorem token_of_newBindings {actions : List Action} {i : Nat} {n p : String}
    (hi : (newBindings .length r actions)[i]? = some (n, p)) :
    r.source.token (max r.tokensUsed first + i) = .ok p := by
  induction actions generalizing r i with
  | nil => cases hi
  | cons a actions ih =>
    have hrest : ∀ j, (newBindings .length (act r a) actions)[j]? = some (n, p) →
        r.source.token (max (act r a).tokensUsed first + j) = .ok p := by
      intro j hj
      have := @ih (act r a) (by rwa [source_act]) (spent_act hspent a) (by rwa [source_act]) j hj
      rwa [source_act] at this
    rcases draw_cases hsource hspent a with ⟨hused, hnone, -⟩ |
      ⟨hused, ⟨m, q, hdraw, hnew, -⟩ | ⟨fault, hdraw, hnone, -⟩⟩
    · rw [newBindings, hnone] at hi
      have := hrest i hi
      rwa [hused] at this
    · -- the first draw that succeeds is not before the others, so the next one follows it
      have hfirst : first ≤ r.tokensUsed := hcontiguous.first_le _ q hdraw
      rcases getElem?_newBindings hi with ⟨h, rfl⟩ | ⟨j, rfl, hj⟩
      · obtain ⟨-, rfl⟩ := Prod.mk.inj (Option.some.inj (hnew.symm.trans h))
        rwa [Nat.max_eq_left hfirst]
      · have := hrest j hj
        rw [hused, Nat.max_eq_left (by omega)] at this
        rw [hnew, Nat.max_eq_left hfirst]
        rwa [Nat.add_assoc] at this
    · rw [newBindings, hnone] at hi
      have htoken := hrest i hi
      rw [hused] at htoken
      rcases Nat.lt_or_ge r.tokensUsed first with hlt | hle
      · rw [Nat.max_eq_right hlt] at htoken
        rwa [Nat.max_eq_right (Nat.le_of_lt hlt)]
      · -- behind a lost number that could have been the first all others are lost
        obtain ⟨token, hok⟩ := hcontiguous.between r.tokensUsed _ p hle (by omega) htoken
        have hdraw : r.source.token r.tokensUsed = .error fault := hdraw
        rw [hok] at hdraw
        cases hdraw

end

/-! ## After a reset -/

theorem spentSince_run {position : Nat} (h : SpentSince position r)
    (hused : position ≤ r.tokensUsed) (actions : List Action) :
    SpentSince position (run r actions) := by
  induction actions generalizing r with
  | nil => exact h
  | cons a actions ih =>
    exact ih (spentSince_act h hused a) (Nat.le_trans hused (tokensUsed_act r a))

/-- What a source gave before a position is no placeholder while only later tokens are bound. -/
theorem SpentSince.nameFor?_token (hsource : Unrepeating r.source) {position i : Nat}
    {token : String} (h : SpentSince position r) (hi : i < position)
    (htoken : r.source.token i = .ok token) : r.nameFor? token = none := by
  unfold nameFor?
  rw [Fields.get?_eq_none_iff]
  intro hmem
  rcases h _ hmem with ⟨id, rfl⟩ | ⟨j, hle, -, hj⟩
  · exact hsource.ne_colorToken i id htoken
  · have := hsource.position_eq i j token htoken hj
    omega

/-- Of a registry whose source counts from `seed` on, the lengths that are bound in a run, through
all its resets, have successive numbers, from `seed` on or, if that has too many digits, from the
first number that has not.  Each takes one token; a request for a new length draws the next number
whatever comes of it, and if that has too many digits it fails and the number is lost.  After a
reset, none of the lengths that were bound before it is found ever again; the colors start anew. -/
theorem length_placeholders_never_reused (label : String) (seed : Int) (before : List Action) :
    let registry := start (.ofInt label seed)
    (∀ (i : Nat) n p, (newBindings .length registry before)[i]? = some (n, p) →
      p = (Number.int (max seed (1 - 10 ^ maxIntegerDigits) + i)).text ++ "px") ∧
    (run registry before).tokensUsed =
      (newBindings .length registry before).length + lostNumbers registry before ∧
    (∀ n fallback, n ≠ "" → (run registry before).placeholderFor? n = none →
      let number := Number.int (seed + (run registry before).tokensUsed)
      ((run registry before).encode .length (.text n) fallback).1 =
        if number.isPrintable then .ok (withFallback (number.text ++ "px") fallback.isTruthy)
        else .error .unprintableInteger) ∧
    (∀ n p, (n, p) ∈ newBindings .length registry before → ∀ after,
      (run registry (before ++ .reset :: after)).nameFor? p = none) ∧
    ∀ n fallback, n ≠ "" →
      ((run registry (before ++ [.reset])).encode .color (.text n) fallback).1 =
        .ok (withFallback "#00000100" fallback.isTruthy) := by
  intro registry
  have hsource : Unrepeating registry.source := unrepeating_ofInt label seed
  have hspent : Spent registry := spent_run _ []
  have hcontiguous := contiguous_ofInt label seed
  have hsame : (run registry before).source = ofInt label seed := source_run registry before
  refine ⟨fun i n p hi => ?_, ?_, fun n fallback hn hnew => ?_, fun n p hmem after => ?_,
    fun n fallback hn => ?_⟩
  · have hp := token_of_newBindings hsource hspent hcontiguous hi
    have hnumber : seed + ((max 0 (1 - 10 ^ maxIntegerDigits - seed).toNat + i : Nat) : Int) =
        max seed (1 - 10 ^ maxIntegerDigits) + i := by omega
    rw [← hnumber]
    exact (token_ofInt_eq_ok hp).2
  · rw [tokensUsed_of_newBindings hsource hspent hcontiguous]
    exact congrArg (· + _) (Nat.zero_add _)
  · have hspent' : Spent (run registry before) := spent_run _ before
    have hdraw : (run registry before).upcoming 0 =
        (ofInt label seed).token (run registry before).tokensUsed := by
      rw [upcoming, hsame, Nat.add_zero]
    rw [token_ofInt] at hdraw
    intro number
    by_cases hprint : number.isPrintable = true
    · rw [if_pos hprint] at hdraw ⊢
      rw [encode_of_drawn (hsame ▸ hsource) hspent' hn hnew fallback hdraw]
    · rw [if_neg hprint] at hdraw ⊢
      rw [encode_of_not_drawn (hsame ▸ hsource) hspent' hn hnew fallback hdraw]
  · obtain ⟨i, hi, htoken⟩ := exists_token_of_mem_newBindings hmem
    have hrun : run registry (before ++ .reset :: after) =
        run (run registry before).reset after := run_append registry before (.reset :: after)
    have hsame' : (run (run registry before).reset after).source = registry.source :=
      (source_run _ after).trans hsame
    have hsince := spentSince_run (r := (run registry before).reset)
      (spentSince_of_empty rfl (run registry before).tokensUsed) (Nat.le_refl _) after
    rw [hrun]
    exact hsince.nameFor?_token (hsame' ▸ hsource) hi (hsame' ▸ htoken)
  · have hfirst : colorToken 1 = "#00000100" := by decide +kernel
    have hcolor : (run registry before).reset.allocate .color =
        (.ok (colorToken 1), { (run registry before).reset with colorId := 2 }) := rfl
    have hanswer := encode_of_allocated hn rfl hcolor fallback
    rw [hfirst] at hanswer
    rw [run_append]
    exact congrArg Prod.fst hanswer

/-- A length that was bound before a reset gets another literal after it, and its first one stands
for nothing. -/
theorem gap_literal_is_gone :
    let registry := start (.ofInt "tokens" 7)
    let edge : Action := .encode .length (.text "$edge") .null
    let gap : Action := .encode .length (.text "$gap") .null
    ("$gap", "8px") ∈ newBindings .length registry [edge, gap] ∧
      (run registry ([edge, gap] ++ .reset :: [gap])).nameFor? "8px" = none ∧
      (run registry ([edge, gap] ++ .reset :: [gap])).placeholderFor? "$gap" = some "9px" := by
  intro registry edge gap
  have hmem : ("$gap", "8px") ∈ newBindings .length registry [edge, gap] := by decide +kernel
  obtain ⟨-, -, -, hgone, -⟩ := length_placeholders_never_reused "tokens" 7 [edge, gap]
  exact ⟨hmem, hgone "$gap" "8px" hmem [gap], by decide +kernel⟩

/-- A registry that counts lengths from a number with one digit too many, after some draws. -/
def overlong (tokensUsed : Nat) : Registry :=
  { start (.ofInt "tokens" (-10 ^ maxIntegerDigits)) with tokensUsed := tokensUsed }

section
variable {n : String} (hn : n ≠ "") (fallback : Value)

include hn

/-- The first number is lost, whoever asks for it. -/
theorem overlong_encode :
    (overlong 0).encode .length (.text n) fallback = (.error .unprintableInteger, overlong 1) := by
  have hlong : ¬(Number.int (-10 ^ maxIntegerDigits + (0 : Nat))).isPrintable = true := by
    rw [Number.isPrintable_int_iff]
    omega
  exact encode_of_not_drawn (unrepeating_ofInt _ _) (spent_run _ []) hn rfl fallback
    ((token_ofInt _ _ 0).trans (if_neg hlong))

theorem overlong_encode_next :
    let p := (Number.int (-10 ^ maxIntegerDigits + 1)).text ++ "px"
    (overlong 1).encode .length (.text n) fallback =
      (.ok (withFallback p fallback.isTruthy), (overlong 2).bind n p) := by
  have hpos : (0 : Int) < 10 ^ maxIntegerDigits := Int.pow_pos (by decide)
  have hshort : (Number.int (-10 ^ maxIntegerDigits + (1 : Nat))).isPrintable = true := by
    rw [Number.isPrintable_int_iff]
    omega
  have hspent : Spent (overlong 1) := fun p hp => absurd hp List.not_mem_nil
  exact encode_of_drawn (unrepeating_ofInt _ _) hspent hn rfl fallback
    ((token_ofInt _ _ 1).trans (if_pos hshort))

end

/-- The number that has one digit too many is lost: the first length gets the number after it, and
two tokens have been drawn for it. -/
theorem longSeed_is_lost :
    let seed : Int := -10 ^ maxIntegerDigits
    let registry := start (.ofInt "tokens" seed)
    let edge : Action := .encode .length (.text "$edge") .null
    let gap : Action := .encode .length (.text "$gap") .null
    newBindings .length registry [edge, gap] = [("$gap", (Number.int (seed + 1)).text ++ "px")] ∧
      (Number.int (seed + 1)).text ++ "px" ≠ (Number.int (seed + 0)).text ++ "px" ∧
      (run registry [edge, gap]).tokensUsed = 2 := by
  intro seed registry edge gap
  have hedge : registry.encode .length (.text "$edge") .null =
      (.error .unprintableInteger, overlong 1) := overlong_encode (by decide) .null
  have hgap := overlong_encode_next (show "$gap" ≠ "" by decide) .null
  have hact : act registry edge = overlong 1 := congrArg Prod.snd hedge
  refine ⟨?_, fun h => ?_, ?_⟩
  · have hnone : newBinding? .length registry edge = none :=
      newBinding?_eq_none fun n _ _ => by rw [hedge]; rfl
    have hsome : newBinding? .length (overlong 1) gap =
        some ("$gap", (Number.int (seed + 1)).text ++ "px") := by
      rw [newBinding?_encode, hgap, if_pos ⟨rfl, rfl⟩, placeholderFor?_bind, if_pos rfl]
      rfl
    rw [newBindings, newBindings, newBindings, hact, hnone, hsome]
    rfl
  · have hchars := congrArg String.toList h
    simp only [Number.text, String.toList_append, String.toList_ofList] at hchars
    have := intChars_injective (List.append_cancel_right hchars)
    omega
  · have hrun : run registry [edge, gap] =
        ((act registry edge).encode .length (.text "$gap") .null).2 := rfl
    rw [hrun, hact, hgap]
    rfl

end StyleEngine.Registry
