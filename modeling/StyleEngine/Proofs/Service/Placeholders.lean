import StyleEngine.Proofs.Registry.NewNames
import StyleEngine.Proofs.Service.Delivery
import StyleEngine.Proofs.Service.History
import StyleEngine.Proofs.Service.Request

/-!
# Placeholders over the history of a service

The length tokens of a service are counted, so it never runs out of them, and a valid request for
placeholders gets them as long as the numbers can be printed.  Each name keeps its placeholder as
long as the service runs, and no two names share one.

    r.Supplies d names → encodeAll d fallback r [] names = (.ok entries, r') and
      keys entries = names.eraseDups                                     (encodeAll_answered)
    ¬r.Supplies .length names → encodeAll .length fallback r acc names fails as a draw does
                                                                         (encodeAll_refused)
-/

namespace StyleEngine

/-- Whether a fallback is given; an empty one is none. -/
def PlaceholderRequest.hasFallback (request : PlaceholderRequest) : Bool :=
  request.fallback.any fun s => !s.isEmpty

theorem PlaceholderRequest.isTruthy_fallback (request : PlaceholderRequest) :
    ((request.fallback.map Value.text).getD .null).isTruthy = request.hasFallback := by
  unfold hasFallback
  cases request.fallback <;> rfl

namespace Service

open Registry (withFallback)
open TokenSource (Unrepeating)

/-! ## Encoding -/

section
variable {r : Registry} (hsource : Unrepeating r.source) (hspent : r.Spent) {d : Discipline}
  (fallback : Value) (acc : Fields String) {names : List String}
  (hnames : ∀ name ∈ names, name ≠ "")

include hsource hspent hnames

/-- Every name is answered with the placeholder that it has from then on, in the order in which
the names first occur. -/
theorem encodeAll_answered (hsupply : r.Supplies d names) :
    ∃ entries r', encodeAll d fallback r acc names = (.ok entries, r') ∧
      Fields.keys entries =
        Fields.keys acc ++ (names.filter (· ∉ Fields.keys acc)).eraseDups ∧
      ((Fields.keys acc).Nodup → (Fields.keys entries).Nodup) ∧
      (∀ name ∈ names, ∃ p, r'.placeholderFor? name = some p ∧
        Fields.get? entries name = some (withFallback p fallback.isTruthy)) ∧
      ∀ name ∉ names, Fields.get? entries name = Fields.get? acc name := by
  induction names generalizing r acc with
  | nil =>
    exact ⟨acc, r, rfl, by simp, id, fun name hn => absurd hn List.not_mem_nil, fun name _ => rfl⟩
  | cons name rest ih =>
    obtain ⟨p, r₁, he, hbound, hrest⟩ :=
      Registry.encode_supplied hsource hspent (hnames name List.mem_cons_self) fallback hsupply
    let action : Registry.Action := .encode d (.text name) fallback
    have hact : r.act action = r₁ := congrArg Prod.snd he
    obtain ⟨entries, r', hrun, hkeys, hnodup, hfound, hkept⟩ := ih
      (hact ▸ Registry.source_act r action ▸ hsource) (hact ▸ Registry.spent_act hspent action)
      (Fields.set acc name (withFallback p fallback.isTruthy))
      (fun n hn => hnames n (List.mem_cons_of_mem _ hn)) hrest
    refine ⟨entries, r', ?_, ?_, fun h => hnodup (Fields.nodup_keys_set h _ _), ?_, ?_⟩
    · unfold encodeAll
      rw [he]
      exact hrun
    · rw [hkeys, Fields.keys_set_append_eraseDups]
    · intro n hn
      by_cases hr : n ∈ rest
      · exact hfound n hr
      · -- the first name is not asked for again, but what it is bound to lasts
        obtain rfl : n = name := (List.mem_cons.1 hn).resolve_right hr
        refine ⟨p, ?_, by rw [hkept n hr, Fields.get?_set_self]⟩
        obtain ⟨actions, hreset, hactions⟩ := exists_actions_encodeAll r₁ d fallback
          (Fields.set acc n (withFallback p fallback.isTruthy)) rest
        rw [hrun] at hactions
        have hr' : r' = r₁.run actions := hactions
        rw [hr']
        exact Registry.placeholderFor?_run hbound hreset
    · intro n hn
      rw [List.mem_cons, not_or] at hn
      rw [hkept n hn.2, Fields.get?_set_of_ne _ _ _ _ hn.1]

/-- Where the source has not enough for all names, the names before the failing one are bound. -/
theorem encodeAll_refused (hsupply : ¬r.Supplies .length names) :
    ∃ i fault r', r.source.token i = .error fault ∧
      encodeAll .length fallback r acc names = (.error fault, r') := by
  induction names generalizing r acc with
  | nil => exact absurd (fun _ j hj => absurd hj (Nat.not_lt_zero j)) hsupply
  | cons name rest ih =>
    rcases Registry.encode_unsupplied hsource hspent (hnames name List.mem_cons_self) fallback
      hsupply with ⟨fault, r', hdraw, he⟩ | ⟨answer, r₁, he, hrest⟩
    · refine ⟨_, fault, r', hdraw, ?_⟩
      unfold encodeAll
      rw [he]
    · let action : Registry.Action := .encode .length (.text name) fallback
      have hact : r.act action = r₁ := congrArg Prod.snd he
      have hsame : r₁.source = r.source := hact ▸ Registry.source_act r action
      obtain ⟨i, fault, r', hdraw, hrun⟩ := ih (hsame ▸ hsource)
        (hact ▸ Registry.spent_act hspent action) (Fields.set acc name answer)
        (fun n hn => hnames n (List.mem_cons_of_mem _ hn)) hrest
      refine ⟨i, fault, r', hsame ▸ hdraw, ?_⟩
      unfold encodeAll
      rw [he]
      exact hrun

end

/-! ## Requests -/

/-- The numbers that a request for lengths takes, one for each new name, can be printed. -/
def Drawable (seed : Int) (r : Registry) (request : PlaceholderRequest) : Prop :=
  request.discipline = .length → ∀ j < (r.newNames request.names).card,
    (Number.int (seed + (r.tokensUsed + j : Nat))).isPrintable = true

instance (seed : Int) (r : Registry) (request : PlaceholderRequest) :
    Decidable (Drawable seed r request) :=
  inferInstanceAs (Decidable (_ → _))

theorem supplies_iff_drawable {label : String} {seed : Int} {r : Registry}
    (h : r.source = .ofInt label seed) (request : PlaceholderRequest) :
    r.Supplies request.discipline request.names ↔ Drawable seed r request := by
  unfold Registry.Supplies Drawable Registry.upcoming
  rw [h]
  simp only [TokenSource.exists_token_ofInt_iff]

section
variable {label : String} {seed : Int} {r : Registry} (hsource : r.source = .ofInt label seed)
  (hspent : r.Spent) (request : PlaceholderRequest) (hnames : ∀ name ∈ request.names, name ≠ "")

include hsource hspent hnames

/-- A valid request is answered; whether the answer can be written is another matter. -/
theorem encode_answered (h : Drawable seed r request) :
    ∃ entries r', encode r request = (placeholdersAnswer entries, r') ∧
      Fields.keys entries = request.names.eraseDups ∧ (Fields.keys entries).Nodup ∧
      ∀ name ∈ request.names, ∃ p, r'.placeholderFor? name = some p ∧
        Fields.get? entries name = some (withFallback p request.hasFallback) := by
  obtain ⟨entries, r', hrun, hkeys, hnodup, hfound, -⟩ :=
    encodeAll_answered (hsource ▸ TokenSource.unrepeating_ofInt label seed) hspent
      ((request.fallback.map Value.text).getD .null) [] hnames
      ((supplies_iff_drawable hsource request).2 h)
  rw [request.isTruthy_fallback] at hfound
  refine ⟨entries, r', ?_, ?_, hnodup List.nodup_nil, hfound⟩
  · unfold encode
    simp only [hrun]
  · rw [hkeys]
    simp [Fields.keys]

theorem encode_refused (h : ¬Drawable seed r request) :
    (encode r request).1 = internalError unprintableMessage := by
  have hlength : request.discipline = .length := by
    by_contra hne
    exact h fun hd => absurd hd hne
  have hsupply : ¬r.Supplies .length request.names := fun hs =>
    h ((supplies_iff_drawable hsource request).1 (hlength ▸ hs))
  obtain ⟨i, fault, r', hdraw, hrun⟩ :=
    encodeAll_refused (hsource ▸ TokenSource.unrepeating_ofInt label seed) hspent
      ((request.fallback.map Value.text).getD .null) [] hnames hsupply
  have hfault : fault = .unprintableInteger := by
    rw [hsource, TokenSource.token_ofInt] at hdraw
    split at hdraw
    · cases hdraw
    · exact (Except.error.inj hdraw).symm
  unfold encode
  simp only [hlength, hrun, hfault]
  rfl

end

/-- A message that asks for placeholders, with a request that is valid. -/
structure AsksFor (server : Server) (m : Message) (request : PlaceholderRequest) : Prop where
  route : server.route? m = some .placeholders
  body : accept PlaceholderRequest.check m.body = .ok request

section
variable {server : Server} {m : Message} {request : PlaceholderRequest}

/-- Every server takes a valid request that is posted to the path for placeholders. -/
theorem AsksFor.posted (hmethod : m.method = Route.placeholders.method)
    (hpath : m.path = Route.placeholders.path)
    (hbody : accept PlaceholderRequest.check m.body = .ok request) : AsksFor server m request :=
  ⟨server.reaches m .placeholders hmethod hpath, hbody⟩

theorem AsksFor.step_eq (h : AsksFor server m request) (r : Registry) :
    step server r m = (server.deliver (encode r request).1, (encode r request).2) := by
  simp only [step, h.route, serve, h.body]

theorem AsksFor.answers_cons (h : AsksFor server m request) (r : Registry) (rest : List Message) :
    answers server r (m :: rest) =
      server.deliver (encode r request).1 :: answers server (encode r request).2 rest := by
  rw [answers, h.step_eq]

theorem AsksFor.ne_empty (h : AsksFor server m request) : ∀ name ∈ request.names, name ≠ "" := by
  obtain ⟨value, -, hcheck⟩ := bind_eq_ok h.body
  intro name hn
  exact PlaceholderRequest.ne_empty_of_isVariable
    (PlaceholderRequest.isVariable_of_check (mapError_eq_ok hcheck) name hn)

end

/-! ## Histories -/

section
variable (server : Server) (label : String) (seed : Int) (messages : List Message)

/-- The state of a service is that of a registry that has only been asked for placeholders. -/
theorem exists_run_after_start : ∃ actions, after server (start label seed) messages =
    (Registry.start (.ofInt label seed)).run actions := by
  obtain ⟨actions, -, hrun⟩ := exists_actions_after server (start label seed) messages
  exact ⟨actions, hrun⟩

theorem source_after_start :
    (after server (start label seed) messages).source = .ofInt label seed := by
  obtain ⟨actions, hrun⟩ := exists_run_after_start server label seed messages
  rw [hrun, Registry.source_run]
  rfl

theorem spent_after_start : (after server (start label seed) messages).Spent := by
  obtain ⟨actions, hrun⟩ := exists_run_after_start server label seed messages
  rw [hrun]
  exact Registry.spent_run _ actions

end

section
variable {server : Server} {label : String} {seed : Int} {messages : List Message}
  {m : Message} {request : PlaceholderRequest} {i : Nat}

theorem plain_of_after {name p : String}
    (h : (after server (start label seed) messages).placeholderFor? name = some p) : Plain p := by
  obtain ⟨actions, hrun⟩ := exists_run_after_start server label seed messages
  rw [hrun] at h
  exact Registry.plain_of_placeholderFor? h

/-- The answer in the history of a service, in terms of the placeholders bound at its end. -/
theorem AsksFor.answered (h : AsksFor server m request) (hi : messages[i]? = some m)
    (hdraw : Drawable seed (after server (start label seed) (messages.take i)) request) :
    ∃ entries : Fields String,
      (answers server (start label seed) messages)[i]? =
        some (server.deliver (placeholdersAnswer entries)) ∧
      Fields.keys entries = request.names.eraseDups ∧ (Fields.keys entries).Nodup ∧
      ∀ name ∈ request.names, ∃ p,
        (after server (start label seed) messages).placeholderFor? name = some p ∧
        Fields.get? entries name = some (withFallback p request.hasFallback) := by
  obtain ⟨entries, r', hencode, hkeys, hnodup, hfound⟩ :=
    encode_answered (source_after_start server label seed (messages.take i))
      (spent_after_start server label seed (messages.take i)) request h.ne_empty hdraw
  have hafter : after server (start label seed) (messages.take i ++ [m]) = r' := by
    rw [after_append, after_cons, h.step_eq, hencode]
    rfl
  refine ⟨entries, ?_, hkeys, hnodup, fun name hn => ?_⟩
  · rw [getElem?_answers, hi, Option.map_some, h.step_eq, hencode]
  · obtain ⟨p, hp, he⟩ := hfound name hn
    exact ⟨p, placeholderFor?_after_of_take hi (hafter ▸ hp), he⟩

theorem AsksFor.refused (h : AsksFor server m request) (hi : messages[i]? = some m)
    (hdraw : ¬Drawable seed (after server (start label seed) (messages.take i)) request) :
    (answers server (start label seed) messages)[i]? =
      some (server.deliver (internalError unprintableMessage)) := by
  rw [getElem?_answers, hi, Option.map_some, h.step_eq,
    encode_refused (source_after_start server label seed (messages.take i))
      (spent_after_start server label seed (messages.take i)) request h.ne_empty hdraw]

end

/-! ## Delivery -/

theorem hasSurrogate_of_ascii {s : String} (h : ∀ c ∈ s.toList, c.toNat < 128) :
    Text.hasSurrogate s = false := by
  have hlow : ∀ c ∈ s.toList, c.toNat < 0x10D800 := fun c hc =>
    Nat.lt_of_lt_of_le (h c hc) (by decide)
  rw [Text.hasSurrogate, Text.codes_of_forall hlow]
  simp [isSurrogate_char]

theorem hasSurrogate_withFallback {p : String} (hp : Plain p) (fallback : Bool) :
    Text.hasSurrogate (withFallback p fallback) = false := by
  refine hasSurrogate_of_ascii fun c hc => ?_
  unfold withFallback at hc
  split at hc
  · rw [String.toList_append, String.toList_append, List.mem_append, List.mem_append] at hc
    rcases hc with (hc | hc) | hc
    · exact (hp c hc).1
    · rw [List.mem_singleton.1 hc]
      decide
    · exact (hp c hc).1
  · exact (hp c hc).1

/-- Placeholders can always be written, so names alone decide whether an answer can be. -/
theorem encodable_iff {entries : Fields String}
    (hplain : ∀ e ∈ entries, ∃ p fallback, Plain p ∧ e.2 = withFallback p fallback) :
    Encodable entries ↔ ∀ name ∈ Fields.keys entries, Text.hasSurrogate name = false := by
  constructor
  · intro h name hname
    obtain ⟨e, he, rfl⟩ := List.mem_map.1 hname
    exact (h e he).1
  · intro h e he
    obtain ⟨p, fallback, hp, hep⟩ := hplain e he
    exact ⟨h e.1 (List.mem_map_of_mem he), hep ▸ hasSurrogate_withFallback hp fallback⟩

theorem Server.Writes.internalError {server : Server} (h : server.Writes) {text : String}
    (htext : Text.hasSurrogate text = false) :
    server.deliver (internalError text) = Service.internalError text := by
  refine h.record 500 _ (by decide) fun e he => ?_
  simp only [List.mem_cons, List.not_mem_nil, or_false] at he
  have hdetail : Text.hasSurrogate "detail" = false := by decide +kernel
  rcases he with rfl | rfl
  · exact ⟨by decide +kernel, by decide +kernel⟩
  · exact ⟨hdetail, htext⟩

theorem Server.Writes.placeholdersAnswer {server : Server} (h : server.Writes)
    {entries : Fields String} (hentries : Encodable entries) :
    server.deliver (placeholdersAnswer entries) = Service.placeholdersAnswer entries :=
  h.nested "placeholders" entries (by decide +kernel) hentries

theorem hasSurrogate_unprintableMessage : Text.hasSurrogate unprintableMessage = false := by
  decide +kernel

/-! ## All answers -/

/-- Over the whole history of a service each name has one placeholder, and no two names share one.
A valid request is answered with those of its names, each once and in the order of their first
occurrences, whatever its kind; a fallback doubles them.  Two kinds of requests are no success: one
with a surrogate in a name, whose answer cannot be written though its names are bound, and one for
lengths whose numbers have too many digits. -/
theorem placeholders_stable (server : Server) (hwrites : server.Writes) (label : String)
    (seed : Int) (messages : List Message) :
    ∃ placeholder? : String → Option String,
      (∀ n n' p, placeholder? n = some p → placeholder? n' = some p → n = n') ∧
      (∀ n p, placeholder? n = some p → ' ' ∉ p.toList) ∧
      ∀ (i : Nat) (m : Message) (request : PlaceholderRequest),
        messages[i]? = some m → AsksFor server m request →
        let r := after server (start label seed) (messages.take i)
        let answer? := (answers server (start label seed) messages)[i]?
        (Drawable seed r request →
          (∀ name ∈ request.names, (placeholder? name).isSome) ∧
          ((∀ name ∈ request.names, Text.hasSurrogate name = false) →
            ∃ entries : Fields String, answer? = some (placeholdersAnswer entries) ∧
              Fields.keys entries = request.names.eraseDups ∧
              ∀ name ∈ request.names, ∃ p, placeholder? name = some p ∧
                Fields.get? entries name = some (withFallback p request.hasFallback)) ∧
          ((∃ name ∈ request.names, Text.hasSurrogate name = true) →
            ∃ text, answer? = some (internalError text))) ∧
        (¬Drawable seed r request → answer? = some (internalError unprintableMessage)) := by
  refine ⟨(after server (start label seed) messages).placeholderFor?, ?_,
    fun n p hp hmem => (plain_of_after hp ' ' hmem).2 rfl, ?_⟩
  · obtain ⟨actions, hrun⟩ := exists_run_after_start server label seed messages
    rw [hrun]
    exact fun n n' p => (Registry.mirrored_run _ actions).placeholderFor?_injective
  intro i m request hi hm r answer?
  refine ⟨fun hdraw => ?_, fun hdraw => ?_⟩
  · obtain ⟨entries, hanswer, hkeys, hnodup, hbound⟩ := hm.answered hi hdraw
    have hmem : ∀ name, name ∈ Fields.keys entries ↔ name ∈ request.names := by
      intro name
      rw [hkeys, List.mem_eraseDups]
    have hplain : ∀ e ∈ entries, ∃ p fallback, Plain p ∧ e.2 = withFallback p fallback := by
      intro e he
      obtain ⟨p, hp, hv⟩ := hbound e.1 ((hmem e.1).1 (List.mem_map_of_mem he))
      rw [(Fields.get?_eq_some_iff_mem hnodup).2 he] at hv
      exact ⟨p, request.hasFallback, plain_of_after hp, Option.some.inj hv⟩
    refine ⟨fun name hn => ?_, fun hclean => ⟨entries, ?_, hkeys, hbound⟩, ?_⟩
    · obtain ⟨p, hp, -⟩ := hbound name hn
      rw [hp]
      rfl
    · have hencodable := (encodable_iff hplain).2 fun name hn => hclean name ((hmem name).1 hn)
      exact hanswer.trans (congrArg some (hwrites.placeholdersAnswer hencodable))
    · rintro ⟨name, hn, hsurrogate⟩
      have hnot : ¬Encodable entries := by
        intro he
        rw [(encodable_iff hplain).1 he name ((hmem name).2 hn)] at hsurrogate
        cases hsurrogate
      obtain ⟨text, htext⟩ := hwrites.surrogate "placeholders" entries hnot
      exact ⟨text, hanswer.trans (congrArg some htext)⟩
  · exact (hm.refused hi hdraw).trans
      (congrArg some (hwrites.internalError hasSurrogate_unprintableMessage))

/-- A message that asks for one name. -/
def asking (d : Discipline) (name : String) : Message where
  method := "POST"
  path := "/placeholders"
  body := .data (.map [("variables", .list [.text name]), ("kind", .text d.word)])

/-- A name keeps its placeholder when it is asked for as a color. -/
theorem gap_keeps_its_placeholder :
    let messages := [asking .length "$gap", asking .color "$gap"]
    ∃ p first second,
      answers (host {}) (start "tokens" 700) messages =
        [placeholdersAnswer first, placeholdersAnswer second] ∧
      Fields.get? first "$gap" = some p ∧ Fields.get? second "$gap" = some p := by
  intro messages
  obtain ⟨placeholder?, -, -, h⟩ :=
    placeholders_stable (host {}) (host_writes {}) "tokens" 700 messages
  have hclean : ∀ name ∈ ["$gap"], Text.hasSurrogate name = false := by decide +kernel
  obtain ⟨-, hfirst, -⟩ := (h 0 _ ⟨["$gap"], .length, none⟩ rfl (.posted rfl rfl rfl)).1
    (by decide +kernel)
  obtain ⟨-, hsecond, -⟩ := (h 1 _ ⟨["$gap"], .color, none⟩ rfl (.posted rfl rfl rfl)).1
    (by decide +kernel)
  obtain ⟨first, hanswer, -, hget⟩ := hfirst hclean
  obtain ⟨second, hanswer', -, hget'⟩ := hsecond hclean
  obtain ⟨p, hp, hget⟩ := hget "$gap" List.mem_cons_self
  obtain ⟨p', hp', hget'⟩ := hget' "$gap" List.mem_cons_self
  obtain rfl : p = p' := Option.some.inj (hp.symm.trans hp')
  refine ⟨p, first, second, ?_, hget, hget'⟩
  have hlist : answers (host {}) (start "tokens" 700) messages =
      [(step (host {}) (start "tokens" 700) (asking .length "$gap")).1,
        (step (host {}) (step (host {}) (start "tokens" 700) (asking .length "$gap")).2
          (asking .color "$gap")).1] := rfl
  rw [hlist] at hanswer hanswer' ⊢
  rw [Option.some.inj hanswer, Option.some.inj hanswer']

/-- A name that is the sigil and a surrogate. -/
def surrogateName : String := Text.spell [.char '$', .surrogate 0]

/-- Two requests are valid and fail.  The name of the first is bound, but the answer cannot be
written; the number that the second takes has one digit too many. -/
theorem valid_requests_fail :
    (AsksFor (host {}) (asking .color surrogateName) ⟨[surrogateName], .color, none⟩ ∧
      answers (host {}) (start "tokens" 700) [asking .color surrogateName] =
        [.reply 500 (.map [("error", .text "Internal server error"),
          ("detail", .text ("Error serializing to JSON: UnicodeEncodeError: 'utf-8' codec can't " ++
            "encode character '\\ud800' in position 1: surrogates not allowed"))])]) ∧
    AsksFor (host {}) (asking .length "$gap") ⟨["$gap"], .length, none⟩ ∧
      answers (host {}) (start "tokens" (-10 ^ maxIntegerDigits)) [asking .length "$gap"] =
        [.reply 500 (.map [("error", .text "Internal server error"),
          ("detail", .text unprintableMessage)])] := by
  have hcolor : AsksFor (host {}) (asking .color surrogateName) ⟨[surrogateName], .color, none⟩ :=
    .posted rfl rfl rfl
  have hlength : AsksFor (host {}) (asking .length "$gap") ⟨["$gap"], .length, none⟩ :=
    .posted rfl rfl rfl
  refine ⟨⟨hcolor, ?_⟩, hlength, ?_⟩
  · have hencode : (encode (start "tokens" 700) ⟨[surrogateName], .color, none⟩).1 =
        placeholdersAnswer [(surrogateName, "#00000100")] := rfl
    have hflaw : (placeholdersAnswer [(surrogateName, "#00000100")]).flaw? =
        some ("Error serializing to JSON: UnicodeEncodeError: 'utf-8' codec can't " ++
          "encode character '\\ud800' in position 1: surrogates not allowed") := by
      decide +kernel
    rw [hcolor.answers_cons, hencode, host_deliver, Answer.deliver, hflaw]
    rfl
  · have hlong : ¬(Number.int (-10 ^ maxIntegerDigits + (0 : Nat))).isPrintable = true := by
      rw [Number.isPrintable_int_iff]
      omega
    have hdraw : ¬Drawable (-10 ^ maxIntegerDigits) (start "tokens" (-10 ^ maxIntegerDigits))
        ⟨["$gap"], .length, none⟩ := fun h => hlong (h rfl 0 (by decide +kernel))
    have hspent : (start "tokens" (-10 ^ maxIntegerDigits)).Spent := Registry.spent_run _ []
    have hencode := encode_refused rfl hspent ⟨["$gap"], .length, none⟩ hlength.ne_empty hdraw
    rw [hlength.answers_cons, hencode,
      (host_writes {}).internalError hasSurrogate_unprintableMessage]
    rfl

end Service

end StyleEngine
