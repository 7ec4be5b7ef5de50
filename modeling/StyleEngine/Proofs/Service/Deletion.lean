import StyleEngine.Proofs.Registry.Reuse
import StyleEngine.Proofs.Service.Placeholders

/-!
# Histories with messages left out

A message matters to the answers behind it through the registry only, and only a valid request
that names a new variable changes the registry.  Messages that leave the registry as it is can be
left out of a history.

    (m asks for nothing) → (step server r m).2 = r                  (step_registry_of_not_asks)
    (all that m asks for is bound in r) → (step server r m).2 = r   (AsksFor.step_registry)
    (no message that is left out changes the registry) →
      answers server r (kept keep messages) = kept keep (answers server r messages)   (answers_kept)
-/

namespace StyleEngine

/-- A name that is bound is found without a change. -/
theorem Registry.encode_registry_of_bound {r : Registry} {name p : String}
    (h : r.placeholderFor? name = some p) (d : Discipline) (fallback : Value) :
    (r.encode d (.text name) fallback).2 = r := by
  by_cases hname : name = ""
  · subst hname
    rfl
  · rw [encode_of_bound hname h]

namespace Service

variable {server : Server} {r : Registry} {m : Message} {request : PlaceholderRequest}

/-! ## Messages that change nothing -/

theorem step_registry_of_not_asks (h : ∀ request, ¬AsksFor server m request) :
    (step server r m).2 = r := by
  unfold step
  cases hroute : server.route? m with
  | none => rfl
  | some route =>
    cases route with
    | health => rfl
    | resolve => exact serve_resolve_registry server.settings r m.body
    | placeholders =>
      simp only [serve]
      cases hbody : accept PlaceholderRequest.check m.body with
      | ok request => exact absurd ⟨hroute, hbody⟩ (h request)
      | error a => rfl

theorem encodeAll_registry_of_bound {names : List String}
    (h : ∀ name ∈ names, ∃ p, r.placeholderFor? name = some p) (d : Discipline) (fallback : Value)
    (acc : Fields String) : (encodeAll d fallback r acc names).2 = r := by
  induction names generalizing acc with
  | nil => rfl
  | cons name rest ih =>
    obtain ⟨p, hp⟩ := h name List.mem_cons_self
    have hsame := Registry.encode_registry_of_bound hp d fallback
    unfold encodeAll
    cases he : r.encode d (.text name) fallback with
    | mk outcome r' =>
      rw [he] at hsame
      obtain rfl : r' = r := hsame
      cases outcome with
      | ok answer => exact ih (fun n hn => h n (List.mem_cons_of_mem _ hn)) _
      | error e => rfl

theorem AsksFor.step_registry (hm : AsksFor server m request)
    (h : ∀ name ∈ request.names, ∃ p, r.placeholderFor? name = some p) :
    (step server r m).2 = r := by
  rw [hm.step_eq]
  exact (encode_registry r request).trans (encodeAll_registry_of_bound h _ _ _)

/-! ## Messages that a history can do without -/

/-- A history can do without a message that comes when the registry is `r`. -/
inductive Dispensable (server : Server) (r : Registry) (m : Message) : Prop where
  /-- It is no valid request for placeholders.  A valid one that fails is another matter: it has
  bound names by then, or used up a number. -/
  | invalid (asksNot : ∀ request, ¬AsksFor server m request)
  /-- It asks for nothing new. -/
  | redundant (request : PlaceholderRequest) (asks : AsksFor server m request)
      (bound : ∀ name ∈ request.names, ∃ p, r.placeholderFor? name = some p)

theorem Dispensable.step_registry (h : Dispensable server r m) : (step server r m).2 = r := by
  cases h with
  | invalid asksNot => exact step_registry_of_not_asks asksNot
  | redundant request asks bound => exact asks.step_registry bound

/-! ## Histories -/

/-- The members at the positions that are kept. -/
def kept {α : Type} (keep : Nat → Bool) : List α → List α
  | [] => []
  | x :: rest =>
    if keep 0 then x :: kept (fun i => keep (i + 1)) rest else kept (fun i => keep (i + 1)) rest

theorem answers_kept {messages : List Message} {keep : Nat → Bool}
    (h : ∀ i m, messages[i]? = some m → keep i = false →
      (step server (after server r (messages.take i)) m).2 = after server r (messages.take i)) :
    answers server r (kept keep messages) = kept keep (answers server r messages) := by
  induction messages generalizing r keep with
  | nil => rfl
  | cons m messages ih =>
    have hrest : answers server (step server r m).2 (kept (fun i => keep (i + 1)) messages) =
        kept (fun i => keep (i + 1)) (answers server (step server r m).2 messages) := by
      refine ih fun i n hi hk => ?_
      have hn := h (i + 1) n hi hk
      rwa [List.take_succ_cons, after_cons] at hn
    cases hk : keep 0 with
    | true => simp only [kept, answers, hk, if_true, hrest]
    | false =>
      -- the messages behind it meet the same registry without it
      have hsame : (step server r m).2 = r := h 0 m rfl hk
      rw [hsame] at hrest
      simp only [kept, answers, hk, hsame, Bool.false_eq_true, if_false, hrest]

/-- Leaving out messages does not change the answers to the others, as long as each of them is no
valid request for placeholders, or asks for nothing new. -/
theorem answers_without_dispensable (server : Server) (label : String) (seed : Int)
    (messages : List Message) (keep : Nat → Bool)
    (h : ∀ i m, messages[i]? = some m → keep i = false →
      Dispensable server (after server (start label seed) (messages.take i)) m) :
    answers server (start label seed) (kept keep messages) =
      kept keep (answers server (start label seed) messages) :=
  answers_kept fun i m hi hk => (h i m hi hk).step_registry

/-- A message without a route. -/
def astray : Message where
  method := "GET"
  path := "/colors"
  body := .absent

/-- Neither a message that goes astray nor asking again shows in the color that comes next. -/
theorem accent_answered_alike :
    let messages := [asking .color "$ink", astray, asking .length "$ink", asking .color "$accent"]
    let keep := fun i => i != 1 && i != 2
    answers (host {}) (start "tokens" 700) [asking .color "$ink", asking .color "$accent"] =
      kept keep (answers (host {}) (start "tokens" 700) messages) := by
  intro messages keep
  refine answers_without_dispensable (host {}) "tokens" 700 messages keep fun i m hi hk => ?_
  simp only [keep, Bool.and_eq_false_iff, bne_eq_false_iff_eq] at hk
  rcases hk with rfl | rfl
  · obtain rfl : astray = m := Option.some.inj hi
    have hroute : (host {}).route? astray = none := by decide +kernel
    refine .invalid fun request hm => ?_
    rw [hm.route] at hroute
    cases hroute
  · obtain rfl : asking .length "$ink" = m := Option.some.inj hi
    refine .redundant ⟨["$ink"], .length, none⟩ (.posted rfl rfl rfl) fun name hn => ?_
    rw [List.mem_singleton.1 hn]
    exact ⟨"#00000100", by decide +kernel⟩

theorem encode_single (r : Registry) (d : Discipline) (name : String) :
    encode r ⟨[name], d, none⟩ =
      match r.encode d (.text name) .null with
      | (.ok p, r') => (placeholdersAnswer [(name, p)], r')
      | (.error f, r') => (faultAnswer f, r') := by
  simp only [encode, encodeAll, Option.map_none, Option.getD_none]
  rcases r.encode d (.text name) .null with ⟨_ | p, r'⟩ <;> rfl

/-- Valid requests that fail cannot be left out: one that has a surrogate in a name uses up a color,
and one that draws a number with too many digits uses up the number. -/
theorem failing_requests_count :
    let keep := fun i => i != 0
    let colors := [asking .color surrogateName, asking .color "$ink"]
    let lengths := [asking .length "$edge", asking .length "$gap"]
    (answers (host {}) (start "tokens" 700) (kept keep colors) =
        [placeholdersAnswer [("$ink", "#00000100")]] ∧
      ∃ text, answers (host {}) (start "tokens" 700) colors =
        [internalError text, placeholdersAnswer [("$ink", "#00000200")]]) ∧
    answers (host {}) (start "tokens" (-10 ^ maxIntegerDigits)) (kept keep lengths) =
        [internalError unprintableMessage] ∧
      answers (host {}) (start "tokens" (-10 ^ maxIntegerDigits)) lengths =
        [internalError unprintableMessage, placeholdersAnswer
          [("$gap", (Number.int (-10 ^ maxIntegerDigits + 1)).text ++ "px")]] := by
  intro keep colors lengths
  have hasks : ∀ d, ∀ name ∈ [surrogateName, "$ink", "$edge", "$gap"],
      AsksFor (host {}) (asking d name) ⟨[name], d, none⟩ := by
    intro d name hname
    simp only [List.mem_cons, List.not_mem_nil, or_false] at hname
    rcases hname with rfl | rfl | rfl | rfl <;> cases d <;> exact .posted rfl rfl rfl
  have hfirst := hasks .color surrogateName (by simp)
  have hink := hasks .color "$ink" (by simp)
  have hedge := hasks .length "$edge" (by simp)
  have hgap := hasks .length "$gap" (by simp)
  have hwrites := host_writes {}
  have hwritten : ∀ name p, Text.hasSurrogate name = false → Plain p →
      (host {}).deliver (placeholdersAnswer [(name, p)]) = placeholdersAnswer [(name, p)] := by
    intro name p hn hp
    refine hwrites.placeholdersAnswer fun e he => ?_
    rw [List.mem_singleton.1 he]
    exact ⟨hn, hasSurrogate_of_ascii fun c hc => (hp c hc).1⟩
  have hrefused : (host {}).deliver (internalError unprintableMessage) =
      internalError unprintableMessage := hwrites.internalError hasSurrogate_unprintableMessage
  have hstart : start "tokens" (-10 ^ maxIntegerDigits) = Registry.overlong 0 := rfl
  refine ⟨⟨?_, ?_⟩, ?_, ?_⟩
  · show answers (host {}) (start "tokens" 700) [asking .color "$ink"] = _
    rw [hink.answers_cons]
    exact congrArg (fun a => [a])
      (hwritten "$ink" "#00000100" (by decide +kernel) (by decide +kernel))
  · have hnot : ¬Encodable [(surrogateName, "#00000100")] := by
      intro h
      have hsurrogate := (h _ List.mem_cons_self).1
      rw [surrogateName, Text.hasSurrogate_spell] at hsurrogate
      cases hsurrogate
    obtain ⟨text, htext⟩ := hwrites.surrogate "placeholders" _ hnot
    refine ⟨text, ?_⟩
    rw [hfirst.answers_cons, hink.answers_cons]
    exact congrArg₂ (fun a b => [a, b]) htext
      (hwritten "$ink" "#00000200" (by decide +kernel) (by decide +kernel))
  · show answers (host {}) (Registry.overlong 0) [asking .length "$gap"] = _
    rw [hgap.answers_cons, encode_single, Registry.overlong_encode (by decide) .null]
    exact congrArg (fun a => [a]) hrefused
  · rw [hstart, hedge.answers_cons, encode_single, Registry.overlong_encode (by decide) .null]
    rw [hgap.answers_cons, encode_single, Registry.overlong_encode_next (by decide) .null]
    exact congrArg₂ (fun a b => [a, b]) hrefused
      (hwritten "$gap" _ (by decide +kernel) (TokenSource.plain_pixels _))

end Service

end StyleEngine
