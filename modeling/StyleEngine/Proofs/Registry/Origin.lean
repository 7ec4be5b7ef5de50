import Mathlib.Data.List.Induction
import StyleEngine.Proofs.Registry.Run

/-!
# Where bindings come from

A binding lasts until the next reset, so a name that is bound after a run was bound by one request
of the run: the first for that name since the last reset that was not refused.

    placeholderFor? r n = some p → .reset ∉ actions →
      placeholderFor? (run r actions) n = some p                         (placeholderFor?_run)
    BoundBy source actions .length n → its placeholder is a token of the source
                                                                         (BoundBy.source_token)
    (r.encode d (.text n) fallback binds n to p) → it is answered with p (encode_of_binds)
-/

namespace StyleEngine.Registry

variable {r : Registry} {n p : String}

/-! ## Bindings last -/

theorem placeholderFor?_bind (r : Registry) (m p n : String) :
    (r.bind m p).placeholderFor? n = if n = m then some p else r.placeholderFor? n :=
  Fields.get?_set r.placeholders m n p

/-- A request binds at most the name that it asks for. -/
theorem placeholderFor?_encode (r : Registry) (d : Discipline) (name fallback : Value)
    (n : String) :
    (r.encode d name fallback).2.placeholderFor? n = r.placeholderFor? n ∨
    name = .text n ∧ r.placeholderFor? n = none ∧
      ∃ p, (r.allocate d).1 = .ok p ∧ (r.encode d name fallback).2.placeholderFor? n = some p := by
  have hsame : (r.allocate d).2.placeholderFor? n = r.placeholderFor? n := by
    unfold placeholderFor?
    rw [(allocate_sameBindings r d).placeholders]
  rcases encode_cases r d name fallback with he | ⟨e, -, he⟩ | ⟨m, p, hname, -, hm, hp, he⟩
  · left
    rw [he]
  · left
    rw [he, hsame]
  · rw [he, placeholderFor?_bind]
    by_cases hn : n = m
    · subst hn
      exact Or.inr ⟨hname, hm, p, hp, if_pos rfl⟩
    · left
      rw [if_neg hn, hsame]

theorem placeholderFor?_act {a : Action} (h : r.placeholderFor? n = some p) (ha : a ≠ .reset) :
    (act r a).placeholderFor? n = some p := by
  cases a with
  | reset => exact absurd rfl ha
  | encode d name fallback =>
    rcases placeholderFor?_encode r d name fallback n with he | ⟨-, hn, -⟩
    · exact he.trans h
    · rw [h] at hn
      cases hn

theorem placeholderFor?_run {actions : List Action} (h : r.placeholderFor? n = some p)
    (ha : .reset ∉ actions) : (run r actions).placeholderFor? n = some p := by
  induction actions generalizing r with
  | nil => exact h
  | cons a actions ih =>
    rw [List.mem_cons, not_or] at ha
    exact ih (placeholderFor?_act h fun he => ha.1 he.symm) ha.2

theorem source_act (r : Registry) (a : Action) : (act r a).source = r.source := by
  cases a with
  | reset => rfl
  | encode d name fallback =>
    have hs := (allocate_sameBindings r d).source
    show (r.encode d name fallback).2.source = r.source
    rcases encode_cases r d name fallback with he | ⟨e, -, he⟩ | ⟨m, p, -, -, -, -, he⟩
    · rw [he]
    · rw [he, hs]
    · rw [he]
      exact hs

theorem source_run (r : Registry) (actions : List Action) : (run r actions).source = r.source := by
  induction actions generalizing r with
  | nil => rfl
  | cons a actions ih => exact (ih (act r a)).trans (source_act r a)

/-! ## The request that made a binding -/

/-- The discipline `d` was the first to bind the name `n` in a run, and no reset has followed. -/
def BoundBy (source : TokenSource) (actions : List Action) (d : Discipline) (n : String) : Prop :=
  ∃ before fallback after, actions = before ++ .encode d (.text n) fallback :: after ∧
    (run (start source) before).placeholderFor? n = none ∧
    (act (run (start source) before) (.encode d (.text n) fallback)).placeholderFor? n ≠ none ∧
    .reset ∉ after

variable {source : TokenSource} {actions : List Action} {d : Discipline}

/-- Every bound name was bound by one of the two disciplines. -/
theorem exists_boundBy (h : (run (start source) actions).placeholderFor? n = some p) :
    ∃ d, BoundBy source actions d n := by
  induction actions using List.reverseRecOn generalizing p with
  | nil => cases h
  | append_singleton actions a ih =>
    rw [run_append] at h
    change (act (run (start source) actions) a).placeholderFor? n = some p at h
    cases hn : (run (start source) actions).placeholderFor? n with
    | some q =>
      have ha : a ≠ .reset := by
        rintro rfl
        cases h
      obtain ⟨d, before, fallback, after, rfl, hb, hd, hr⟩ := ih hn
      refine ⟨d, before, fallback, after ++ [a], by simp, hb, hd, fun hm => ?_⟩
      rcases List.mem_append.1 hm with hm | hm
      · exact hr hm
      · exact ha (List.mem_singleton.1 hm).symm
    | none =>
      cases a with
      | reset => cases h
      | encode d name fallback =>
        rcases placeholderFor?_encode (run (start source) actions) d name fallback n with
          he | ⟨hname, -, -⟩
        · change ((run (start source) actions).encode d name fallback).2.placeholderFor? n = _ at h
          rw [he, hn] at h
          cases h
        · subst hname
          exact ⟨d, actions, fallback, [], rfl, hn, by rw [h]; exact Option.some_ne_none p,
            List.not_mem_nil⟩

/-- The placeholder of a bound name was made when the name was bound. -/
theorem BoundBy.allocated (h : BoundBy source actions d n)
    (hp : (run (start source) actions).placeholderFor? n = some p) :
    ∃ r : Registry, r.source = source ∧ (r.allocate d).1 = .ok p := by
  obtain ⟨before, fallback, after, rfl, hb, hd, hr⟩ := h
  refine ⟨run (start source) before, source_run (start source) before, ?_⟩
  rcases placeholderFor?_encode (run (start source) before) d (.text n) fallback n with
    he | ⟨-, -, q, hq, he⟩
  · exact absurd (he.trans hb) hd
  · rw [run_append] at hp
    have hq' := placeholderFor?_run
      (r := act (run (start source) before) (.encode d (.text n) fallback)) he hr
    have hpq : some q = some p := hq'.symm.trans hp
    rw [hq, Option.some.inj hpq]

theorem BoundBy.source_token (h : BoundBy source actions .length n)
    (hp : (run (start source) actions).placeholderFor? n = some p) :
    ∃ i, source.token i = .ok p := by
  obtain ⟨r, rfl, hr⟩ := h.allocated hp
  obtain ⟨⟨i, -, -, hi⟩, -⟩ := allocate_length hr
  exact ⟨i, hi⟩

/-! ## Asking again -/

/-- The request that binds a name is answered with the placeholder that it binds. -/
theorem encode_of_binds {fallback : Value} (hnone : r.placeholderFor? n = none)
    (hbound : (r.encode d (.text n) fallback).2.placeholderFor? n = some p) :
    (r.encode d (.text n) fallback).1 = .ok (withFallback p fallback.isTruthy) := by
  have hn : n ≠ "" := by
    intro he
    subst he
    have hsame : (r.encode d (.text "") fallback).2 = r := rfl
    rw [hsame, hnone] at hbound
    cases hbound
  cases ha : r.allocate d with
  | mk answer r' =>
    cases answer with
    | error e =>
      have hsame : r'.placeholders = r.placeholders := by
        have hs := (allocate_sameBindings r d).placeholders
        rwa [ha] at hs
      rw [encode_of_refused hn hnone ha] at hbound
      unfold placeholderFor? at hbound hnone
      rw [hsame, hnone] at hbound
      cases hbound
    | ok q =>
      rw [encode_of_allocated hn hnone ha] at hbound ⊢
      rw [placeholderFor?_bind, if_pos rfl] at hbound
      rw [Option.some.inj hbound]

/-- A request for a name that allocation has a placeholder for is answered, and the name is bound
from then on. -/
theorem encode_of_exists_allocate (hn : n ≠ "") (ha : ∃ p, (r.allocate d).1 = .ok p)
    (fallback : Value) :
    ∃ p, (r.encode d (.text n) fallback).1 = .ok (withFallback p fallback.isTruthy) ∧
      (r.encode d (.text n) fallback).2.placeholderFor? n = some p := by
  cases hp : r.placeholderFor? n with
  | some p =>
    refine ⟨p, ?_⟩
    rw [encode_of_bound hn hp]
    exact ⟨rfl, hp⟩
  | none =>
    cases hr : r.allocate d with
    | mk answer r' =>
      obtain ⟨p, hok⟩ := ha
      obtain rfl : answer = .ok p := by rwa [hr] at hok
      refine ⟨p, ?_⟩
      rw [encode_of_allocated hn hp hr]
      exact ⟨rfl, by rw [placeholderFor?_bind, if_pos rfl]⟩

theorem ne_empty_of_bound (h : (run (start source) actions).placeholderFor? n = some p) :
    n ≠ "" := by
  obtain ⟨d, before, fallback, after, -, hnone, hsome, -⟩ := exists_boundBy h
  intro he
  subst he
  have hsame : act (run (start source) before) (.encode d (.text "") fallback) =
      run (start source) before := rfl
  rw [hsame] at hsome
  exact hsome hnone

/-- A name that is bound after `before` was bound by one request of `before`, which was answered
with its placeholder.  Up to the next reset every request for the name, of either discipline and
whatever has come between, is answered with that placeholder, twice if there is a fallback, and
leaves the bindings, the number of the next color and the position in the source as they are. -/
theorem asking_again_changes_nothing (source : TokenSource) (before after : List Action)
    (n p : String) (hbound : (run (start source) before).placeholderFor? n = some p)
    (hreset : .reset ∉ after) :
    (∃ first d fallback rest, before = first ++ .encode d (.text n) fallback :: rest ∧
      .reset ∉ rest ∧ (run (start source) first).placeholderFor? n = none ∧
      ((run (start source) first).encode d (.text n) fallback).1 =
        .ok (if fallback.isTruthy then p ++ " " ++ p else p)) ∧
    ∀ (d : Discipline) (fallback : Value),
      (run (start source) (before ++ after)).encode d (.text n) fallback =
        (.ok (if fallback.isTruthy then p ++ " " ++ p else p),
          run (start source) (before ++ after)) := by
  constructor
  · obtain ⟨d, first, fallback, rest, rfl, hnone, hsome, hrest⟩ := exists_boundBy hbound
    obtain ⟨q, hq⟩ := Option.ne_none_iff_exists'.1 hsome
    have hlast : (run (start source)
        (first ++ .encode d (.text n) fallback :: rest)).placeholderFor? n = some q := by
      rw [run_append]
      exact placeholderFor?_run
        (r := act (run (start source) first) (.encode d (.text n) fallback)) hq hrest
    have hqp : q = p := Option.some.inj (hlast.symm.trans hbound)
    subst hqp
    exact ⟨first, d, fallback, rest, rfl, hrest, hnone, encode_of_binds hnone hq⟩
  · intro d fallback
    have hstill : (run (start source) (before ++ after)).placeholderFor? n = some p := by
      rw [run_append]
      exact placeholderFor?_run hbound hreset
    exact encode_of_bound (ne_empty_of_bound hstill) hstill d fallback

/-- A color keeps its placeholder when it is asked for as a length with a fallback, after a
request that was refused and one that took a token. -/
theorem ink_asked_again :
    let gap : Action := .encode .length (.text "$gap") .null
    let r := run (start (.ofInt "tokens" 7))
      ([.encode .color (.text "$ink") .null] ++ [.encode .color (.text "") .null, gap])
    r.encode .length (.text "$ink") (.text "red") = (.ok "#00000100 #00000100", r) := by
  intro gap r
  have hbound : (run (start (.ofInt "tokens" 7))
      [.encode .color (.text "$ink") .null]).placeholderFor? "$ink" = some "#00000100" := by
    decide +kernel
  exact (asking_again_changes_nothing (.ofInt "tokens" 7) _
    [.encode .color (.text "") .null, gap] "$ink" "#00000100" hbound (by simp [gap])).2
    .length (.text "red")

end StyleEngine.Registry
