import StyleEngine.Proofs.Expression.Parsing
import StyleEngine.Proofs.Expression.Tokens

/-!
# The units that an expression mentions

An expression asks for the size of a unit only where it reads a number with that unit.  So sizes
that agree on the units of its number tokens give it the same value, or none, and its property and
the box around it matter for percentages only.

    AgreeOn size? size?' e.tokens → e.value size? = e.value size?'       (Expr.value_congr)
    AgreeOn size? size?' ts → (Evaluates size? ts v ↔ Evaluates size?' ts v)
                                                                         (AgreeOn.evaluates_iff)
    (sizes agree on what `text` mentions) → `convert` gives the same     (convert_congr)
-/

namespace StyleEngine.Expression

open Text

variable {Op α β : Type} {size? size?' : String → Option Float}

/-! ## Agreement -/

/-- The units of the number tokens have the same sizes. -/
def AgreeOn (size? size?' : String → Option Float) (ts : List Token) : Prop :=
  ∀ n unit, Token.number n unit ∈ ts → size? (String.ofList unit) = size?' (String.ofList unit)

theorem AgreeOn.mono {ts ts' : List Token} (h : AgreeOn size? size?' ts) (hsub : ts' ⊆ ts) :
    AgreeOn size? size?' ts' :=
  fun n unit hmem => h n unit (hsub hmem)

/-- What agrees on a chain agrees on each of its operands. -/
theorem AgreeOn.operands {token : Op → Token} {tokens : α → List Token} {c : Chain Op α}
    (h : AgreeOn size? size?' ((c.map tokens).spell token)) :
    c.All fun a => AgreeOn size? size?' (tokens a) := by
  constructor
  · exact h.mono fun _ ht => List.mem_append_left _ ht
  · intro x hx
    have hmem : (x.1, tokens x.2) ∈ (c.map tokens).rest :=
      List.mem_map_of_mem (f := fun x => (x.1, tokens x.2)) hx
    refine h.mono fun _ ht => List.mem_append_right _ ?_
    exact List.mem_flatMap.2 ⟨_, hmem, List.mem_cons_of_mem _ ht⟩

/-! ## Values -/

theorem Chain.All.mp {P Q : α → Prop} {c : Chain Op α} (h : c.All fun a => P a → Q a)
    (hc : c.All P) : c.All Q :=
  ⟨h.1 hc.1, fun x hx => h.2 x hx (hc.2 x hx)⟩

theorem Chain.map_congr {f g : α → β} {c : Chain Op α} (h : c.All fun a => f a = g a) :
    c.map f = c.map g := by
  have hrest : c.rest.map (fun x => (x.1, f x.2)) = c.rest.map fun x => (x.1, g x.2) :=
    List.map_congr_left fun x hx => by rw [h.2 x hx]
  unfold Chain.map
  rw [h.1, hrest]

/-- A tree has one value for sizes that agree on its tokens. -/
def Alike (size? size?' : String → Option Float) (tokens : α → List Token)
    (value : (String → Option Float) → α → Option Float) (a : α) : Prop :=
  AgreeOn size? size?' (tokens a) → value size? a = value size?' a

theorem Chain.map_value_congr {token : Op → Token} {tokens : α → List Token}
    {value : (String → Option Float) → α → Option Float} {c : Chain Op α}
    (hc : c.All (Alike size? size?' tokens value))
    (h : AgreeOn size? size?' ((c.map tokens).spell token)) :
    c.map (value size?) = c.map (value size?') :=
  map_congr (hc.mp h.operands)

theorem Term.alike {t : Term} (ht : t.All (Alike size? size?' Factor.tokens Factor.value)) :
    Alike size? size?' Term.tokens Term.value t := by
  intro h
  unfold Term.value
  rw [Chain.map_value_congr ht h]

theorem Expr.alike {e : Expr}
    (he : e.All fun t => t.All (Alike size? size?' Factor.tokens Factor.value)) :
    Alike size? size?' Expr.tokens Expr.value e := by
  intro h
  unfold Expr.value
  rw [Chain.map_value_congr (he.imp fun _ => Term.alike) h]

/-- Only a number looks at a size; every other factor has its value from the factors below. -/
theorem hereditary_alike :
    Hereditary (Alike size? size?' Factor.tokens Factor.value) where
  number n unit h := by
    show quantity? size? n unit = quantity? size?' n unit
    unfold quantity?
    rw [h n unit List.mem_cons_self]
  signed sign f ih h := by
    rw [Factor.tokens_signed] at h
    show (f.value size?).map sign.sign = (f.value size?').map sign.sign
    rw [ih (h.mono (List.subset_cons_self _ _))]
  call f es ih h := by
    rw [Factor.tokens_call] at h
    have hes : AgreeOn size? size?' es.tokens :=
      h.mono fun _ ht => List.mem_cons_of_mem _ (List.mem_append_left _ ht)
    rw [Factor.value_call, Factor.value_call,
      Chain.map_value_congr (ih.imp fun _ => Expr.alike) hes]
  group e ih h := by
    rw [Factor.tokens_group] at h
    have he : AgreeOn size? size?' e.tokens :=
      h.mono fun _ ht => List.mem_cons_of_mem _ (List.mem_append_left _ ht)
    rw [Factor.value_group, Factor.value_group, Expr.alike ih he]

theorem Expr.value_congr {e : Expr} (h : AgreeOn size? size?' e.tokens) :
    e.value size? = e.value size?' :=
  Expr.alike (hereditary_alike.expr e) h

/-! ## Conversion -/

theorem AgreeOn.evaluates_iff {ts : List Token} (h : AgreeOn size? size?' ts) (v : Float) :
    Evaluates size? ts v ↔ Evaluates size?' ts v := by
  have hvalue : ∀ e : Expr, e.tokens = ts → e.value size? = e.value size?' := by
    rintro e rfl
    exact Expr.value_congr h
  constructor
  · rintro ⟨e, hts, hn, hv⟩
    exact ⟨e, hts, hn, (hvalue e hts).symm.trans hv⟩
  · rintro ⟨e, hts, hn, hv⟩
    exact ⟨e, hts, hn, (hvalue e hts).trans hv⟩

/-- The text is a row of tokens, one of them a number with that unit. -/
def Mentions (text unit : String) : Prop :=
  ∃ ts n, tokenize text = .ok ts ∧ Token.number n unit.toList ∈ ts

section
variable {text key key' : String} {units units' : Units}

theorem convert_congr
    (h : ∀ unit, Mentions text unit → units.size? key unit = units'.size? key' unit) :
    convert key (.text text) units = convert key' (.text text) units' := by
  cases hts : tokenize text with
  | error e =>
    unfold convert evaluate
    simp only [hts]
  | ok ts =>
    have hagree : AgreeOn (units.size? key) (units'.size? key') ts := fun n unit hmem =>
      h _ ⟨ts, n, hts, by rwa [String.toList_ofList]⟩
    -- whatever keeps the one side from a finite value keeps the other from it too
    by_cases hvalue : ∃ v, Evaluates (units.size? key) ts v ∧ v.isFinite = true
    · obtain ⟨v, hv, hfinite⟩ := hvalue
      rw [convert_eq_value hts hv hfinite,
        convert_eq_value hts ((hagree.evaluates_iff v).1 hv) hfinite]
    · have hnone : ∀ v, Evaluates (units.size? key) ts v → v.isFinite = false := by
        intro v hv
        rw [Bool.eq_false_iff]
        exact fun hfinite => hvalue ⟨v, hv, hfinite⟩
      rw [convert_eq_nan hts hnone,
        convert_eq_nan hts fun v hv => hnone v ((hagree.evaluates_iff v).2 hv)]

/-! ## Percentages -/

/-- The extent that percentages of a property refer to. -/
def extent (key : String) (units : Units) : Number :=
  if Attribute.isVertical key then units.height else units.width

/-- The property and the box are looked at for percentages only. -/
theorem size?_of_ne_percent {unit : String} (h : unit ≠ "%") (key key' : String) (units : Units)
    (width height : Number) :
    units.size? key unit = { units with width, height }.size? key' unit := by
  unfold Units.size?
  split <;> first | rfl | exact absurd rfl h

theorem size?_of_extent_eq {width height : Number}
    (h : extent key units = extent key' { units with width, height }) (unit : String) :
    units.size? key unit = { units with width, height }.size? key' unit := by
  by_cases hunit : unit = "%"
  · subst hunit
    exact congrArg (fun n : Number => some (n.round / 100)) h
  · exact size?_of_ne_percent hunit key key' units width height

/-- What a text mentions is written in it. -/
theorem mem_of_mentions {unit : String} (h : Mentions text unit) :
    ∀ c ∈ unit.toList, c ∈ text.toList := by
  obtain ⟨ts, n, hts, hmem⟩ := h
  intro c hc
  have hspelling := (spelling_tokensFrom hts).2
  rw [filter_strip] at hspelling
  have hfilter : c ∈ text.toList.filter (! isBlank ·) := by
    rw [← hspelling]
    exact List.mem_flatMap.2 ⟨_, hmem, List.mem_append_right _ hc⟩
  exact (List.mem_filter.1 hfilter).1

end

/-- The evaluator depends on the units that a text mentions only: wherever their sizes are the
same, it gives the same number, or NaN both times.  So neither the property nor the box around it
matters to a text without a percent sign, and of the box only the extent along the property's axis
matters to any text. -/
theorem convert_depends_on_mentioned_units (text key key' : String) (units : Units) :
    (∀ units' : Units,
      (∀ unit, Mentions text unit → units.size? key unit = units'.size? key' unit) →
      convert key (.text text) units = convert key' (.text text) units') ∧
    (∀ width height : Number, '%' ∉ text.toList →
      convert key (.text text) units =
        convert key' (.text text) { units with width, height }) ∧
    ∀ width height : Number, extent key units = extent key' { units with width, height } →
      convert key (.text text) units =
        convert key' (.text text) { units with width, height } := by
  refine ⟨fun units' => convert_congr, fun width height hpercent => ?_,
    fun width height hextent => ?_⟩
  · refine convert_congr fun unit hunit => size?_of_ne_percent ?_ key key' units width height
    rintro rfl
    exact hpercent (mem_of_mentions hunit '%' (List.mem_singleton_self _))
  · exact convert_congr fun unit _ => size?_of_extent_eq hextent unit

/-- The same extent on either axis, and a box that only another property would refer to. -/
theorem half_of_either_extent :
    let tall : Units := { rem := .int 10, width := .int 200, height := .int 400 }
    let wide : Units := { rem := .int 10, vw := .int 3, width := .int 400, height := .int 7 }
    convert "height" (.text "calc(50% - 2rem)") tall = 180 ∧
    convert "height" (.text "calc(50% - 2rem)") tall =
      convert "width" (.text "calc(50% - 2rem)") wide ∧
    convert "height" (.text "min(2rem, 1vw)") tall =
      convert "width" (.text "min(2rem, 1vw)") { tall with width := .int 1, height := .int 1 } ∧
    convert "height" (.text "calc(50% - 2rem)") tall =
      convert "top" (.text "calc(50% - 2rem)")
        { tall with width := .int 7, height := .int 400 } := by
  intro tall wide
  have htokens : (tokenize "calc(50% - 2rem)").toOption =
      some [.function .calc, .number ⟨none, ['5', '0'], none, none⟩ ['%'], .symbol .minus,
        .number ⟨none, ['2'], none, none⟩ ['r', 'e', 'm'], .symbol .closeParen] := by
    decide +kernel
  refine ⟨by decide +kernel, ?_, ?_, ?_⟩
  · refine (convert_depends_on_mentioned_units "calc(50% - 2rem)" "height" "width" tall).1 wide ?_
    rintro unit ⟨ts, n, hts, hmem⟩
    rw [hts] at htokens
    obtain rfl := Option.some.inj htokens
    simp only [List.mem_cons, Token.number.injEq, reduceCtorEq, false_or, List.not_mem_nil,
      or_false] at hmem
    rcases hmem with ⟨-, hunit⟩ | ⟨-, hunit⟩
    · rw [← String.ofList_toList (s := unit), hunit]
      rfl
    · rw [← String.ofList_toList (s := unit), hunit]
      rfl
  · exact (convert_depends_on_mentioned_units "min(2rem, 1vw)" "height" "width" tall).2.1
      (.int 1) (.int 1) (by decide)
  · exact (convert_depends_on_mentioned_units "calc(50% - 2rem)" "height" "top" tall).2.2
      (.int 7) (.int 400) rfl

end StyleEngine.Expression
