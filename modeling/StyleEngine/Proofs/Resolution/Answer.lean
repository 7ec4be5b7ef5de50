import StyleEngine.Proofs.Registry.Counting
import StyleEngine.Proofs.Resolution.FixedPoint
import StyleEngine.Proofs.Resolution.Placeholder

/-!
# What becomes of an encoder's answer

A request for a color is answered with its placeholder, and with the placeholder twice if there is a
fallback.  Only the placeholder is bound.  The pair has a space in it, so it is no color token, and
unless the source gives that very text it stands for no variable: a style keeps it as it is.

    ' ' ∈ text → (no token of the source is text) → nameFor? text = none      (nameFor?_of_space)
    nameFor? text = none → resolve c [(key, text)] = .ok [(key, text)]   (resolve_unbound_color)
-/

namespace StyleEngine

namespace Registry

variable {r : Registry} {source : TokenSource} {actions after : List Action} {name text : String}

/-- No color token has a space in it, so a text that has one is bound only as a length. -/
theorem nameFor?_of_space (hspace : ' ' ∈ text.toList) (hsource : ∀ i, source.token i ≠ .ok text) :
    (run (start source) actions).nameFor? text = none := by
  refine Fields.get?_eq_none_iff.2 fun hbound => ?_
  rcases spent_run source actions text hbound with ⟨id, rfl⟩ | ⟨i, -, hi⟩
  · exact (plain_colorToken id ' ' hspace).2 rfl
  · rw [source_run] at hi
    exact hsource i hi

/-- Every request for a color is answered, and its placeholder stays bound until the next reset. -/
theorem encode_color_answered (hname : name ≠ "") (fallback : Value) (hreset : .reset ∉ after) :
    ∃ p, (run (start source)
        (actions ++ .encode .color (.text name) fallback :: after)).placeholderFor? name = some p ∧
      ((run (start source) actions).encode .color (.text name) fallback).1 =
        .ok (withFallback p fallback.isTruthy) := by
  obtain ⟨id, hid, -⟩ := allocate_color (run (start source) actions)
  obtain ⟨p, hanswer, hbound⟩ := encode_of_exists_allocate hname ⟨_, hid⟩ fallback
  refine ⟨p, ?_, hanswer⟩
  rw [run_append]
  exact placeholderFor?_run
    (r := act (run (start source) actions) (.encode .color (.text name) fallback)) hbound hreset

end Registry

namespace Resolution

variable {c : Context} {key text : String}

theorem resolve_unbound_color (hk : Attribute.isColor key = true)
    (h : c.registry.nameFor? text = none) :
    resolve c [(key, .text text)] = .ok [(key, .text text)] := by
  have hrole := role?_of_isColor hk
  have hs : substitute c .color (.text text) = .ok (.text text) :=
    substitute_of_unbound fun p hp => Option.some.inj hp ▸ h
  rw [resolve_single (drops_of_role? hrole) (ne_elevation_of_role? hrole), property, hrole]
  simp only [hs]
  rfl

/-- Every request for a color is answered, with the placeholder of the name or, for a fallback, with
the placeholder twice.  Up to the next reset, whatever else is asked for, the placeholder alone
resolves to the value of the variable in every color property, or fails because the theme has none.
The pair is no placeholder, and a style keeps it, unless the source gives that very text for a
length. -/
theorem single_answers_resolve_and_pairs_stay (source : TokenSource)
    (before after : List Registry.Action) (name : String) (fallback : Value) (hname : name ≠ "")
    (hreset : .reset ∉ after) :
    let registry := Registry.run (Registry.start source)
      (before ++ .encode .color (.text name) fallback :: after)
    let bare := Registry.stripSigil name
    ∃ placeholder, registry.placeholderFor? name = some placeholder ∧
      let answer := if fallback.isTruthy then placeholder ++ " " ++ placeholder else placeholder
      ((Registry.run (Registry.start source) before).encode .color (.text name) fallback).1 =
        .ok answer ∧
      ∀ (c : Context) (key : String), Attribute.isColor key = true → c.registry = registry →
        (fallback.isTruthy = false →
          (∀ v, c.theme.lookup? bare = some v →
            resolve c [(key, .text answer)] = .ok [(key, v)]) ∧
          (c.theme.lookup? bare = none →
            resolve c [(key, .text answer)] =
              .error (.resolution (.undefinedVariable bare .color)))) ∧
        (fallback.isTruthy = true → (∀ i, source.token i ≠ .ok answer) →
          resolve c [(key, .text answer)] = .ok [(key, .text answer)]) := by
  intro registry bare
  obtain ⟨placeholder, hbound, hanswer⟩ :=
    @Registry.encode_color_answered source before after name hname fallback hreset
  refine ⟨placeholder, hbound, hanswer, fun c key hk hc => ⟨fun hf => ?_, fun hf hsource => ?_⟩⟩
  · have hfound : c.registry.nameFor? placeholder = some bare := by
      rw [hc]
      exact (Registry.mirrored_run source _).nameFor?_of_placeholderFor? hbound
    have hshows := showsColor_of_nameFor? hfound key hk
    rw [hf]
    exact ⟨hshows.2.1, hshows.2.2.2⟩
  · rw [hf, if_pos rfl] at hsource ⊢
    have hspace : ' ' ∈ (placeholder ++ " " ++ placeholder).toList := by simp
    exact resolve_unbound_color hk (hc ▸ Registry.nameFor?_of_space hspace hsource)

/-- A theme with one color. -/
def inkContext (actions : List Registry.Action) : Context where
  theme := { colors := [("ink", .text "#123456")] }
  viewport := ⟨390, 844⟩
  units := {}
  registry := Registry.run (Registry.start (.ofInt "tokens" 1000)) actions

/-- A color that is asked for behind a length and before another color. -/
def inkActions (fallback : Value) : List Registry.Action :=
  [.encode .length (.text "$gap") .null] ++
    .encode .color (.text "$ink") fallback :: [.encode .color (.text "$sky") .null]

theorem ink_resolves_and_pair_stays :
    resolve (inkContext (inkActions (.text ""))) [("tintColor", .text "#00000100")] =
      .ok [("tintColor", .text "#123456")] ∧
    resolve (inkContext (inkActions (.text "red"))) [("color", .text "#00000100 #00000100")] =
      .ok [("color", .text "#00000100 #00000100")] := by
  have hbound : ∀ fallback ∈ [Value.text "", .text "red"],
      (inkContext (inkActions fallback)).registry.placeholderFor? "$ink" = some "#00000100" := by
    simp only [List.forall_mem_cons, List.not_mem_nil, false_implies, implies_true, and_true]
    decide +kernel
  have hsource : ∀ i, (TokenSource.ofInt "tokens" 1000).token i ≠ .ok "#00000100 #00000100" :=
    fun i hi => (TokenSource.plain_of_token_ofInt hi ' ' (by decide)).2 rfl
  have hanswers := single_answers_resolve_and_pairs_stay (.ofInt "tokens" 1000)
    [.encode .length (.text "$gap") .null] [.encode .color (.text "$sky") .null] "$ink"
  constructor
  · obtain ⟨placeholder, hp, -, hstyle⟩ := hanswers (.text "") (by decide) (by simp)
    obtain rfl := Option.some.inj ((hbound (.text "") (by simp)).symm.trans hp)
    exact ((hstyle (inkContext (inkActions (.text ""))) "tintColor" (by decide) rfl).1 rfl).1 _ rfl
  · obtain ⟨placeholder, hp, -, hstyle⟩ := hanswers (.text "red") (by decide) (by simp)
    obtain rfl := Option.some.inj ((hbound (.text "red") (by simp)).symm.trans hp)
    exact (hstyle (inkContext (inkActions (.text "red"))) "color" (by decide) rfl).2 rfl hsource

/-- The color is bound and the theme has it, but the pair that stands in for the color and its
fallback is left in the style. -/
theorem ink_with_fallback_stays :
    let source := TokenSource.ofInt "tokens" 1000
    let asked : Registry.Action := .encode .color (.text "$ink") (.text "red")
    Registry.BoundBy source [asked] .color "$ink" ∧
    ((Registry.start source).encode .color (.text "$ink") (.text "red")).1 =
      .ok "#00000100 #00000100" ∧
    (inkContext [asked]).theme.lookup? (Registry.stripSigil "$ink") = some (.text "#123456") ∧
    resolve (inkContext [asked]) [("color", .text "#00000100 #00000100")] =
      .ok [("color", .text "#00000100 #00000100")] := by
  intro source asked
  have hbound : ((Registry.start source).encode .color (.text "$ink")
      (.text "red")).2.placeholderFor? "$ink" = some "#00000100" := by decide +kernel
  refine ⟨⟨[], .text "red", [], rfl, rfl, ?_, List.not_mem_nil⟩,
    Registry.encode_of_binds rfl hbound, rfl, ?_⟩
  · exact Option.ne_none_iff_exists'.2 ⟨_, hbound⟩
  · exact resolve_unbound_color (by decide) (by decide +kernel)

end Resolution

end StyleEngine
