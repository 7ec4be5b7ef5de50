import StyleEngine.Proofs.Resolution.Fault
import StyleEngine.Proofs.Resolution.Margins

/-!
# Margins out of range

What is left of a dimension beside its margins is checked no more.  As long as it is finite, its
text is a length again; otherwise the arithmetic faults, or the text is that of an infinity or of
NaN, which is no length.  A dimension that is an integer with too many digits does not come so far:
it has no text to be read.

    declared dimension and margins → fitted gives the text of a float, or a fault
                                                                         (fitted_cases)
    x.isFinite → Accepted ((float x).compact ++ unit)                    (accepted_of_isFinite)
    ¬x.isFinite → Rejected ((float x).compact ++ unit)               (rejected_of_not_isFinite)
-/

namespace StyleEngine.Dimension

open Text Expression Resolution

variable {style : Fields Value} {viewport : Viewport} {key : String}

/-! ## What a dimension and its margins declare -/

theorem declared_eq_error {value : Value} {e : Failure} (h : declared value = .error e) :
    (∃ flaw, e = .resolution (.malformedLength value flaw)) ∨
      value.isPrintable = false ∧ e = .fault .unprintableInteger := by
  unfold declared at h
  cases hp : value.isPrintable with
  | false =>
    rw [Value.printCompact_of_not_isPrintable hp] at h
    exact Or.inr ⟨rfl, (Except.error.inj h).symm⟩
  | true =>
    rw [Value.printCompact_of_isPrintable hp] at h
    simp only [Except.mapError, bind, Except.bind] at h
    split at h
    · exact Or.inl ⟨_, (Except.error.inj h).symm⟩
    · split at h
      · cases h
      · exact Or.inl ⟨_, (Except.error.inj h).symm⟩

/-- The only length that cannot be printed is an integer with too many digits. -/
theorem exists_int_of_not_isPrintable {value : Value} (h : ResolvedLength value)
    (ht : value.isTruthy = true) (hp : value.isPrintable = false) :
    ∃ n : Int, value = .int n ∧ 10 ^ maxIntegerDigits ≤ |n| := by
  rcases h with hf | hn | ⟨s, -, rfl, -⟩
  · rw [hf] at ht
    cases ht
  · cases value with
    | number x =>
      cases x with
      | int n =>
        refine ⟨n, rfl, not_lt.1 fun hlt => ?_⟩
        have hprintable := Number.isPrintable_int_iff.2 (abs_lt.1 hlt)
        exact absurd (hp.symm.trans hprintable) Bool.false_ne_true
      | float x => cases hp
    | bool b => cases hp
    | _ => cases hn
  · cases hp

/-- A margin that has been resolved counts. -/
theorem exists_margin (h : ∀ v, Fields.get? style key = some v → ResolvedLength v) :
    ∃ a, margin style key = .ok a := by
  unfold margin
  split
  · exact ⟨_, rfl⟩
  · next value hv =>
    split
    · exact ⟨_, rfl⟩
    · next ht =>
      split
      · exact ⟨_, rfl⟩
      · next hn =>
        rcases h value hv with hf | hs | ⟨s, l, rfl, hl, -⟩
        · rw [hf] at ht
          exact absurd rfl ht
        · rw [hn] at hs
          cases hs
        · have hprint : (Value.text s).print = .ok s := Value.print_of_isPrintable rfl
          simp only [hprint, Except.mapError, bind, Except.bind, hl]
          exact ⟨_, rfl⟩

/-! ## Texts of dimensions -/

/-- A length that resolves under every root metric and viewport. -/
def Accepted (text : String) : Prop :=
  (∃ l, Length.parse? text = some l ∧ l.magnitude.isFinite = true ∧ IsDimensionUnit l.unit) ∧
    ∀ rootMetric viewport, ∃ v, Length.resolve rootMetric viewport (.text text) = .ok v

/-- A text that is taken for a unit as a whole, and for an unknown one. -/
def Rejected (text : String) : Prop :=
  ∀ rootMetric viewport, ∃ unit,
    Length.resolve rootMetric viewport (.text text) = .error (.unknownUnit unit text)

section
variable {x : Float} {unit : String} (hunit : IsDimensionUnit unit)

include hunit

theorem accepted_of_isFinite (hx : x.isFinite = true) :
    Accepted ((Number.float x).compact ++ unit) := by
  obtain ⟨y, hl, hy⟩ := @Length.parse?_compact_float unit.toList x hx hunit.valid
  rw [String.ofList_toList] at hl
  have hfinite := isFinite_of_beq hy hx
  refine ⟨⟨_, hl, hfinite, hunit⟩, fun rootMetric viewport => ?_⟩
  rw [resolve_printed hunit, resolveText_of_unit hl hunit]
  simp only [hfinite, Bool.true_eq_false, if_false]
  split
  · exact ⟨_, rfl⟩
  · split <;> exact ⟨_, rfl⟩

theorem rejected_of_not_isFinite (hx : x.isFinite = false) :
    Rejected ((Number.float x).compact ++ unit) := by
  have hl := @Length.parse?_compact_of_not_finite unit.toList x hx hunit.valid.strip_eq
  rw [String.ofList_toList] at hl
  intro rootMetric viewport
  rw [resolve_printed hunit, Length.resolveText, hl]
  exact ⟨_, rfl⟩

end

/-! ## Overflow -/

/-- No finite magnitude is left of a dimension beside its margins. -/
def Overflows (style : Fields Value) (viewport : Viewport) (key : String) : Prop :=
  ∃ first second value l a b, margins? key = some (first, second) ∧
    Fields.get? style key = some value ∧ value.isTruthy = true ∧ declared value = .ok l ∧
    margin style first = .ok a ∧ margin style second = .ok b ∧
    ∀ sum x, a.add? b = some sum → adjusted l.magnitude sum (extent viewport key) = .ok x →
      x.isFinite = false

/-- Once a dimension and its margins are known, only the arithmetic is left. -/
theorem fitted_cases {value : Value} {first second : String} {l : Length} {a b : Number}
    {extent : Float} (hl : declared value = .ok l) (ha : margin style first = .ok a)
    (hb : margin style second = .ok b) :
    (∃ sum x, a.add? b = some sum ∧ adjusted l.magnitude sum extent = .ok x ∧
      fitted style value first second extent = .ok ((Number.float x).compact ++ l.unit)) ∨
    (∀ sum x, a.add? b = some sum → adjusted l.magnitude sum extent ≠ .ok x) ∧
      fitted style value first second extent = .error (.fault .integerTooLarge) := by
  have hfitted : fitted style value first second extent =
      (a.add? b).elim (.error (.fault .integerTooLarge)) fun sum =>
        ((adjusted l.magnitude sum extent).mapError .fault).map
          fun x => (Number.float x).compact ++ l.unit := by
    unfold fitted
    rw [hl, ha, hb]
    simp only [Except.mapError, bind, Except.bind]
    cases a.add? b <;> rfl
  rw [hfitted]
  cases hs : a.add? b with
  | none => exact Or.inr ⟨nofun, rfl⟩
  | some sum =>
    cases hx : adjusted l.magnitude sum extent with
    | ok x => exact Or.inl ⟨sum, x, rfl, hx, by simp only [Option.elim_some, hx]; rfl⟩
    | error f =>
      obtain ⟨rfl, -⟩ := adjusted_eq_error hx
      refine Or.inr ⟨fun sum' x hsum' hx' => ?_, by simp only [Option.elim_some, hx]; rfl⟩
      rw [← Option.some.inj hsum', hx] at hx'
      cases hx'

section
variable {first second : String} {value : Value} {l : Length} {a b : Number}

/-- A style declares one magnitude and two margins, so they decide on the overflow. -/
theorem overflows_iff (hax : margins? key = some (first, second))
    (hv : Fields.get? style key = some value) (ht : value.isTruthy = true)
    (hl : declared value = .ok l) (ha : margin style first = .ok a)
    (hb : margin style second = .ok b) : Overflows style viewport key ↔
      ∀ sum x, a.add? b = some sum → adjusted l.magnitude sum (extent viewport key) = .ok x →
        x.isFinite = false := by
  constructor
  · rintro ⟨first', second', value', l', a', b', hax', hv', -, hl', ha', hb', h⟩
    obtain ⟨rfl, rfl⟩ := Prod.mk.inj (Option.some.inj (hax.symm.trans hax'))
    obtain rfl := Option.some.inj (hv.symm.trans hv')
    obtain rfl := Except.ok.inj (hl.symm.trans hl')
    obtain rfl := Except.ok.inj (ha.symm.trans ha')
    obtain rfl := Except.ok.inj (hb.symm.trans hb')
    exact h
  · exact fun h => ⟨first, second, value, l, a, b, hax, hv, ht, hl, ha, hb, h⟩

end

/-- The dimension is an integer with too many digits. -/
def TooLong (style : Fields Value) (key : String) : Prop :=
  (margins? key).isSome ∧
    ∃ n : Int, 10 ^ maxIntegerDigits ≤ |n| ∧ Fields.get? style key = some (.int n)

/-- Such a dimension has no text, so nothing is declared. -/
theorem format_of_tooLong (h : TooLong style key) :
    ¬ Overflows style viewport key ∧
      format style viewport key = .error (.fault .unprintableInteger) := by
  obtain ⟨haxis, n, hn, hv⟩ := h
  obtain ⟨⟨first, second⟩, hax⟩ := Option.isSome_iff_exists.1 haxis
  have hprint : (Value.int n).isPrintable = false := by
    rw [Bool.eq_false_iff]
    intro hp
    exact absurd (abs_lt.2 (Number.isPrintable_int_iff.1 hp)) (not_lt.2 hn)
  have hdeclared : declared (.int n) = .error (.fault .unprintableInteger) := by
    unfold declared
    rw [Value.printCompact_of_not_isPrintable hprint]
    rfl
  have htruthy : (Value.int n).isTruthy = true := by
    have hne : n ≠ 0 := abs_pos.1 (lt_of_lt_of_le (by positivity) hn)
    simpa [Value.isTruthy, Number.isZero] using hne
  constructor
  · rintro ⟨-, -, value, l, -, -, -, hsome, -, hok, -⟩
    rw [← Option.some.inj (hv.symm.trans hsome), hdeclared] at hok
    cases hok
  · unfold format
    simp only [hax, hv, htruthy, if_true, fitted, hdeclared]
    rfl

/-- Either there is nothing to make room in, or nothing is declared that could make room, or
everything that the arithmetic needs is declared. -/
theorem format_declared
    (hstyle : ∀ k v, Fields.get? style k = some v → k = key ∨ k ∈ Attribute.margins →
      ResolvedLength v) :
    (¬ Overflows style viewport key ∧ (format style viewport key = .ok none ∨
      ∃ value flaw, format style viewport key =
        .error (.resolution (.malformedLength value flaw)))) ∨
    TooLong style key ∨
    ∃ first second value l a b, margins? key = some (first, second) ∧
      Fields.get? style key = some value ∧ value.isTruthy = true ∧ declared value = .ok l ∧
      margin style first = .ok a ∧ margin style second = .ok b ∧
      format style viewport key =
        (fitted style value first second (extent viewport key)).map some := by
  unfold format
  cases hax : margins? key with
  | none =>
    refine Or.inl ⟨?_, Or.inl rfl⟩
    rintro ⟨first, second, -, -, -, -, hsome, -⟩
    rw [hax] at hsome
    cases hsome
  | some axis =>
    obtain ⟨first, second⟩ := axis
    cases hv : Fields.get? style key with
    | none =>
      refine Or.inl ⟨?_, Or.inl rfl⟩
      rintro ⟨-, -, value, -, -, -, -, hsome, -⟩
      rw [hv] at hsome
      cases hsome
    | some value =>
      cases ht : value.isTruthy with
      | false =>
        refine Or.inl ⟨?_, Or.inl (by simp [ht])⟩
        rintro ⟨-, -, value', -, -, -, -, hsome, htrue, -⟩
        rw [hv] at hsome
        rw [← Option.some.inj hsome, ht] at htrue
        cases htrue
      | true =>
        cases hl : declared value with
        | error e =>
          rcases declared_eq_error hl with ⟨flaw, rfl⟩ | ⟨hp, rfl⟩
          · refine Or.inl ⟨?_, Or.inr ⟨value, flaw, by simp only [ht, if_true, fitted, hl]; rfl⟩⟩
            rintro ⟨-, -, value', l, -, -, -, hsome, -, hok, -⟩
            rw [hv] at hsome
            rw [← Option.some.inj hsome, hl] at hok
            cases hok
          · obtain ⟨n, rfl, hn⟩ :=
              exists_int_of_not_isPrintable (hstyle key _ hv (Or.inl rfl)) ht hp
            exact Or.inr (Or.inl ⟨by rw [hax]; rfl, n, hn, hv⟩)
        | ok l =>
          have hmargin : ∀ k, k ∈ Attribute.margins → ∃ a, margin style k = .ok a :=
            fun k hk => exists_margin fun v hv => hstyle k v hv (Or.inr hk)
          have hkeys : first ∈ Attribute.margins ∧ second ∈ Attribute.margins := by
            rcases margins?_eq_some hax with ⟨-, rfl, rfl⟩ | ⟨-, rfl, rfl⟩ <;> decide
          obtain ⟨a, ha⟩ := hmargin first hkeys.1
          obtain ⟨b, hb⟩ := hmargin second hkeys.2
          exact Or.inr (Or.inr
            ⟨first, second, value, l, a, b, rfl, rfl, ht, hl, ha, hb, by simp [ht]⟩)

/-- Making room for margins gives nothing, a length that resolves everywhere, or the error that the
dimension is malformed, as long as the dimension is no integer with too many digits and what is left
of it is finite.  An integer with too many digits cannot be printed.  If what is left is not finite,
an integer is too large for the arithmetic, or the text is that of something infinite or of NaN and
is taken for an unknown unit. -/
theorem format_stays_in_range (style : Fields Value) (viewport : Viewport) (key : String)
    (hstyle : ∀ k v, Fields.get? style k = some v → k = key ∨ k ∈ Attribute.margins →
      ResolvedLength v) :
    (¬ TooLong style key → ¬ Overflows style viewport key →
      format style viewport key = .ok none ∨
      (∃ text, format style viewport key = .ok (some text) ∧ Accepted text) ∨
      ∃ value flaw, format style viewport key =
        .error (.resolution (.malformedLength value flaw))) ∧
    (Overflows style viewport key →
      format style viewport key = .error (.fault .integerTooLarge) ∨
      ∃ text, format style viewport key = .ok (some text) ∧ Rejected text) ∧
    (TooLong style key →
      format style viewport key = .error (.fault .unprintableInteger)) := by
  have hlong : TooLong style key →
      format style viewport key = .error (.fault .unprintableInteger) :=
    fun h => (@format_of_tooLong style viewport key h).2
  rcases @format_declared style viewport key hstyle with ⟨hno, hnone | hmalformed⟩ | h |
    ⟨first, second, value, l, a, b, hax, hv, ht, hl, ha, hb, hformat⟩
  · exact ⟨fun _ _ => Or.inl hnone, fun h => absurd h hno, hlong⟩
  · exact ⟨fun _ _ => Or.inr (Or.inr hmalformed), fun h => absurd h hno, hlong⟩
  · exact ⟨fun hno => absurd h hno, fun hover => absurd hover (format_of_tooLong h).1, hlong⟩
  · have hover := @overflows_iff style viewport key _ _ _ _ _ _ hax hv ht hl ha hb
    have hunit := isDimensionUnit_of_declared (hstyle key value hv (Or.inl rfl)) ht hl
    rcases @fitted_cases style value first second l a b (extent viewport key) hl ha hb with
      ⟨sum, x, hsum, hx, hfitted⟩ | ⟨hnone, hfitted⟩
    · rw [hfitted] at hformat
      have hover' : Overflows style viewport key ↔ x.isFinite = false := by
        rw [hover]
        refine ⟨fun h => h sum x hsum hx, fun h sum' x' hsum' hx' => ?_⟩
        rw [← Option.some.inj (hsum.symm.trans hsum'), hx] at hx'
        rwa [← Except.ok.inj hx']
      rw [hover', Bool.not_eq_false]
      exact ⟨fun _ h => Or.inr (Or.inl ⟨_, hformat, accepted_of_isFinite hunit h⟩),
        fun h => Or.inr ⟨_, hformat, rejected_of_not_isFinite hunit h⟩, hlong⟩
    · rw [hfitted] at hformat
      have hyes : Overflows style viewport key :=
        hover.2 fun sum x hsum hx => absurd hx (hnone sum x hsum)
      exact ⟨fun _ h => absurd hyes h, fun _ => Or.inl hformat, hlong⟩

/-! ## Tiles -/

/-- A tile with margins on its left and right. -/
def tile (marginLeft : Int) : Fields Value :=
  [("width", .int 50), ("marginLeft", .int marginLeft), ("marginRight", .int 10)]

theorem resolved_tile {marginLeft : Int} {k : String} {v : Value}
    (h : Fields.get? (tile marginLeft) k = some v) : ResolvedLength v := by
  have hnumber : ∀ e ∈ tile marginLeft, e.2.number?.isSome = true := by
    simp [tile, Value.number?]
  exact Or.inr (Or.inl (hnumber (k, v) (Fields.mem_of_get? h)))

theorem tile_fits :
    format (tile 10) ⟨100, 400⟩ Attribute.width = .ok (some "30px") ∧ Accepted "30px" := by
  have hformat : format (tile 10) ⟨100, 400⟩ Attribute.width = .ok (some "30px") := rfl
  have hadjusted : adjusted 50 (.int 20) 100 = .ok 30 := rfl
  have hno : ¬ Overflows (tile 10) ⟨100, 400⟩ Attribute.width := fun h =>
    absurd ((overflows_iff rfl rfl rfl rfl rfl rfl).1 h (.int 20) 30 rfl hadjusted) (by decide)
  have hshort : ¬ TooLong (tile 10) Attribute.width := by
    rintro ⟨-, n, hn, hv⟩
    obtain rfl : (50 : Int) = n := by injection Option.some.inj hv with h; injection h
    revert hn
    decide +kernel
  rcases (format_stays_in_range (tile 10) ⟨100, 400⟩ Attribute.width
    fun k v hv _ => resolved_tile hv).1 hshort hno with h | ⟨text, h, ht⟩ | ⟨value, flaw, h⟩
  · rw [hformat] at h
    cases h
  · rw [hformat] at h
    exact ⟨hformat, Option.some.inj (Except.ok.inj h) ▸ ht⟩
  · rw [hformat] at h
    cases h

/-- In a viewport of the least width that is not 0 the room for margins is infinite; for a margin of
more than three hundred digits there is none, and a width with too many digits is not read. -/
theorem tile_out_of_range :
    format (tile 10) ⟨5e-324, 844⟩ Attribute.width = .ok (some "-infpx") ∧ Rejected "-infpx" ∧
      format (tile (-10 ^ 310)) ⟨390, 844⟩ Attribute.width = .error (.fault .integerTooLarge) ∧
      format [("width", .int (10 ^ maxIntegerDigits))] ⟨390, 844⟩ Attribute.width =
        .error (.fault .unprintableInteger) := by
  refine ⟨?_, fun _ _ => ⟨_, rfl⟩, ?_, (format_of_tooLong ⟨rfl, _, le_abs_self _, rfl⟩).2⟩
  · have h : (format (tile 10) ⟨5e-324, 844⟩ Attribute.width).toOption = some (some "-infpx") := by
      decide +kernel
    cases hf : format (tile 10) ⟨5e-324, 844⟩ Attribute.width with
    | ok text =>
      rw [hf] at h
      rw [Option.some.inj h]
    | error e =>
      rw [hf] at h
      cases h
  · have h : (match format (tile (-10 ^ 310)) ⟨390, 844⟩ Attribute.width with
        | .error (.fault .integerTooLarge) => true
        | _ => false) = true := by
      decide +kernel
    generalize format (tile (-10 ^ 310)) ⟨390, 844⟩ Attribute.width = outcome at h ⊢
    split at h
    · rfl
    · cases h

end StyleEngine.Dimension
