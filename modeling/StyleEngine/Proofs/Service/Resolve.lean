import StyleEngine.Proofs.Resolution.Fault
import StyleEngine.Proofs.Service.Request
import StyleEngine.Service.Host

/-!
# Answers to requests for a resolution

A request that is well-formed is answered with the resolved style or with what is wrong with it,
unless the resolution faults.  A fault has one of two causes: the default theme has no shadow for
an elevation that is no number, and a margin may be an integer out of the range of floats.

    accept ResolveRequest.check body = .ok request →
      (contextOf settings r request).theme.Printable                             (printable_theme)
    level.isPrintable → shadow (contextOf settings r request) level = .error f →
      request.theme = none ∧ level.number? = none ∧ f = .unorderedLevel level    (shadow_eq_error)
-/

namespace StyleEngine.Service

open Resolution (hasMargins MarginsTooLarge)

/-! ## Themes -/

theorem printable_theme {body : Body} {request : ResolveRequest}
    (h : accept ResolveRequest.check body = .ok request) (settings : Settings) (r : Registry) :
    (contextOf settings r request).theme.Printable := by
  have hdocument := (printable_of_accept h).2
  unfold contextOf
  cases ht : request.theme with
  | none => exact Theme.Defaults.printable
  | some d => exact hdocument d ht

/-! ## Elevation -/

/-- A theme of the request finds a shadow by its text or finds none; the default theme compares
the level with numbers. -/
theorem shadow_eq_error {settings : Settings} {r : Registry} {request : ResolveRequest}
    {level : Value} {f : Fault} (hp : level.isPrintable = true)
    (h : Resolution.shadow (contextOf settings r request) level = .error f) :
    request.theme = none ∧ level.number? = none ∧ f = .unorderedLevel level := by
  unfold Resolution.shadow contextOf at h
  cases ht : request.theme with
  | some document =>
    simp only [ht, Option.map_some, Option.getD_some] at h
    by_cases he : document.elevation.isEmpty
    · have helevation : document.toTheme.elevation = none := if_pos he
      simp only [helevation] at h
      cases h
    · have helevation : document.toTheme.elevation = some document.shadowOf := if_neg he
      have hshadow : document.shadowOf level =
          .ok (Fields.get? document.elevation level.compact) := by
        rw [Theme.Document.shadowOf, Value.printCompact_of_isPrintable hp]
        rfl
      simp only [helevation, hshadow] at h
      cases h
  | none =>
    refine ⟨rfl, ?_⟩
    simp only [ht, Option.map_none, Option.getD_none, Theme.Defaults.theme,
      Theme.defaultElevation, Theme.shadowFor] at h
    cases hn : level.number? with
    | some n =>
      simp only [hn] at h
      cases h
    | none =>
      simp only [hn] at h
      exact ⟨rfl, (Except.error.inj h).symm⟩

/-! ## Answers -/

/-- To a request for the resolution of a style the service answers, without changing the registry,
with the style, a resolution error, or an internal error that has its cause in the elevation or in
the margins.  That is the answer before it is written: a server that cannot write it may deliver an
internal error in the place of each of them. -/
theorem resolve_request_answered (server : Server) (r : Registry) (m : Message)
    (request : ResolveRequest) (hroute : server.route? m = some .resolve)
    (hbody : accept ResolveRequest.check m.body = .ok request)
    (hn : (Fields.keys request.style).Nodup) :
    ∃ a : Answer, step server r m = (server.deliver a, r) ∧
      ((∃ style,
          Resolution.resolve (contextOf server.settings r request) request.style = .ok style ∧
          a = .reply 200 (.map [("style", .map style)])) ∨
        (∃ e : ResolutionError, a = detail 400 ("Resolution error: " ++ e.message)) ∨
        (∃ level, request.theme = none ∧
          Fields.get? request.style Attribute.elevation = some level ∧ level.number? = none ∧
          a = internalError (Fault.unorderedLevel level).message) ∨
        ∃ w, Resolution.run (contextOf server.settings r request) (.start request.style) = .ok w ∧
          hasMargins w.style = true ∧ MarginsTooLarge w.style ∧
          (∃ margin ∈ Attribute.margins, ∃ n : Int,
            Dimension.margin w.style margin = .ok (.int n)) ∧
          a = internalError Fault.integerTooLarge.message) := by
  have hprintable := (printable_of_accept hbody).1
  have htheme := printable_theme hbody server.settings r
  refine ⟨resolve server.settings r request, ?_, ?_⟩
  · simp only [step, hroute, serve, hbody]
  · unfold resolve
    cases hres : Resolution.resolve (contextOf server.settings r request) request.style with
    | ok style => exact Or.inl ⟨style, rfl, rfl⟩
    | error failure =>
      cases failure with
      | resolution e => exact Or.inr (Or.inl ⟨e, rfl⟩)
      | fault f =>
        rcases Resolution.fault_cases rfl htheme hprintable hn hres with
          ⟨level, hlevel, hs⟩ | ⟨rfl, w, hw, hm, hl⟩
        · obtain ⟨hnone, hnumber, rfl⟩ := shadow_eq_error (hprintable.of_get? hlevel) hs
          exact Or.inr (Or.inr (Or.inl ⟨level, hnone, hlevel, hnumber, rfl⟩))
        · exact Or.inr (Or.inr (Or.inr ⟨w, hw, hm, hl, hl.exists_int, rfl⟩))

/-- A request without a theme whose elevation is a text. -/
def textLevel : Message where
  method := "POST"
  path := "/resolve"
  body := .data (.map [("style", .map [("elevation", .text "high")]),
    ("viewport", .map [("width", .int 390), ("height", .int 844)])])

def textLevelRequest : ResolveRequest :=
  ⟨[("elevation", .text "high")], none, ⟨390, 844⟩, none, none⟩

theorem textLevel_answered :
    ∃ a : Answer, step (host {}) (start "tokens" 700) textLevel = (a.deliver, start "tokens" 700) ∧
      ((∃ style, a = .reply 200 (.map [("style", .map style)])) ∨
        (∃ e : ResolutionError, a = detail 400 ("Resolution error: " ++ e.message)) ∨
        ∃ f : Fault, a = internalError f.message) := by
  obtain ⟨a, hs, h⟩ := resolve_request_answered (host {}) (start "tokens" 700) textLevel
    textLevelRequest ((host {}).reaches textLevel .resolve rfl rfl) rfl (by decide)
  refine ⟨a, hs, ?_⟩
  rcases h with ⟨style, -, h⟩ | h | ⟨level, -, -, -, h⟩ | ⟨w, -, -, -, -, h⟩
  · exact Or.inl ⟨style, h⟩
  · exact Or.inr (Or.inl h)
  · exact Or.inr (Or.inr ⟨_, h⟩)
  · exact Or.inr (Or.inr ⟨_, h⟩)

/-- Its answer is an internal error, and no resolution error. -/
theorem textLevel_faults :
    (step (host {}) (start "tokens" 700) textLevel).1 =
      .reply 500 (.map [("error", .text "Internal server error"),
        ("detail", .text "'<=' not supported between instances of 'int' and 'str'")]) := by
  have hflaw : (faultAnswer (.unorderedLevel (.text "high"))).flaw? = none := by decide +kernel
  have hroute : (host {}).route? textLevel = some .resolve :=
    (host {}).reaches textLevel .resolve rfl rfl
  have hbody : accept ResolveRequest.check textLevel.body = .ok textLevelRequest := rfl
  have hanswer : resolve {} (start "tokens" 700) textLevelRequest =
      faultAnswer (.unorderedLevel (.text "high")) := rfl
  simp only [step, hroute, serve, hbody, hanswer, host_settings, host_deliver, Answer.deliver,
    hflaw]
  rfl

end StyleEngine.Service
