import StyleEngine.Proofs.Resolution.Fault
import StyleEngine.Proofs.Theme.Table

/-!
# What a resolution sees of its theme

A resolution sees four things of a theme: the root metric, through the lengths it converts and
through derived units; the shadow of the one level that the style has; and the values of variables
that have a placeholder.  Contexts that agree on these resolve every style alike, errors included.

    Agree c d → property c key value = property d key value              (Agree.property_eq)
    Agree c d → (the elevation that waits has one shadow) → run c w = run d w       (run_congr)
    Agree c d → fit c = fit d                                            (Agree.fit_eq)
    Agree c d → (the level of `style` has one shadow) →
      resolve c style = resolve d style                                  (Agree.resolve_eq)
-/

namespace StyleEngine

/-! ## Lengths -/

/-- A root metric counts by its nearest float. -/
theorem Length.resolve_congr {m n : Number} (h : m.round = n.round) :
    Length.resolve m = Length.resolve n := by
  have hp : ∀ viewport l, pixels? m viewport l = pixels? n viewport l := by
    intro viewport l
    unfold pixels?
    rw [h]
  funext viewport value
  unfold Length.resolve resolveText
  simp only [hp]

theorem Units.ofViewport_congr {m n : Number} (h : m.round = n.round) (viewport : Viewport)
    (parent : Option Viewport) : Units.ofViewport m viewport parent =
      Units.ofViewport n viewport parent := by
  unfold ofViewport
  rw [h]

namespace Resolution

/-! ## Contexts that agree -/

/-- Two contexts that differ in their themes at most, which have the same root metric and the same
values for the variables that have a placeholder. -/
structure Agree (c d : Context) : Prop where
  viewport : c.viewport = d.viewport
  units : c.units = d.units
  registry : c.registry = d.registry
  platform : c.platform = d.platform
  evaluator : c.evaluator = d.evaluator
  rootMetric : c.theme.rootMetric.round = d.theme.rootMetric.round
  lookup : ∀ p name, c.registry.nameFor? p = some name →
    c.theme.lookup? name = d.theme.lookup? name

section
variable {c d : Context} (h : Agree c d)

include h

/-! ## Properties -/

theorem Agree.length_eq : c.length = d.length := by
  funext value
  unfold Context.length
  rw [Length.resolve_congr h.rootMetric, h.viewport]

theorem Agree.substitute_eq (role : VariableRole) (value : Value) :
    substitute c role value = substitute d role value := by
  have hv : variableOf? d role value = variableOf? c role value := by
    unfold variableOf?
    rw [h.registry]
  unfold substitute
  rw [hv]
  cases hn : variableOf? c role value with
  | none => rfl
  | some name =>
    obtain ⟨p, -, hp⟩ := Option.bind_eq_some_iff.1 hn
    simp only [h.lookup p name hp]

theorem Agree.evaluate_eq (key : String) (value : Value) :
    evaluate c key value = evaluate d key value := by
  unfold evaluate
  rw [h.evaluator, h.units]

theorem Agree.property_eq (key : String) (value : Value) :
    property c key value = property d key value := by
  have hm : ∀ v, measure c key v = measure d key v := by
    intro v
    unfold measure
    rw [h.evaluate_eq, h.length_eq]
  unfold property
  cases role? key with
  | none => rfl
  | some role =>
    cases role with
    | color => simp only [h.substitute_eq]
    | length => simp only [h.substitute_eq, hm]

theorem Agree.expression?_eq (key : String) (value : Value) :
    expression? c key value = expression? d key value := by
  unfold expression?
  rw [h.substitute_eq]

/-! ## Visits -/

theorem Agree.visit_eq {key : String} {w : Walk}
    (hs : key = Attribute.elevation → ∀ level, Fields.get? w.style key = some level →
      shadow c level = shadow d level) : visit c key w = visit d key w := by
  have hcursor : d.keepsCursor = c.keepsCursor := by
    unfold Context.keepsCursor
    rw [h.platform]
  unfold visit
  cases hv : Fields.get? w.style key with
  | none => rfl
  | some value =>
    by_cases hk : key = Attribute.elevation
    · simp only [if_pos hk, hs hk value hv]
    · simp only [if_neg hk, hcursor, h.property_eq, h.expression?_eq]

/-! ## Dimensions -/

theorem Agree.fit_eq : fit c = fit d := by
  have hr : refit c = refit d := by
    funext style key
    unfold refit
    rw [h.length_eq, h.viewport]
  funext style
  unfold fit
  rw [hr]

/-! ## Whole styles -/

/-- While its elevation waits, a walk has the level that the style was given, and it is asked for
the shadow of that level only. -/
theorem Agree.run_eq {style : Fields Value} (hn : (Fields.keys style).Nodup)
    (hs : ∀ level, Fields.get? style Attribute.elevation = some level →
      shadow c level = shadow d level) : run c (Walk.start style) = run d (Walk.start style) := by
  refine run_congr (fun w w' key rest hw hp hv => unexpanded_visit hw hp hv)
    (fun w key rest hw hp => h.visit_eq ?_) (unexpanded_start hn)
  rintro rfl level hv
  have hwaits : Attribute.elevation ∈ w.pending := by
    rw [hp]
    exact List.mem_cons_self
  exact hs level ((hw.given hwaits).symm.trans hv)

theorem Agree.resolve_eq {style : Fields Value} (hn : (Fields.keys style).Nodup)
    (hs : ∀ level, Fields.get? style Attribute.elevation = some level →
      shadow c level = shadow d level) : resolve c style = resolve d style := by
  unfold resolve trace
  rw [h.run_eq hn hs, h.fit_eq]

end

/-! ## Themes -/

/-- A context whose units are derived from the theme and the viewport. -/
def Context.derived (theme : Theme) (viewport : Viewport) (registry : Registry)
    (platform : String) (evaluator : Evaluator) : Context where
  theme := theme
  viewport := viewport
  units := Units.ofViewport theme.rootMetric viewport none
  registry := registry
  platform := platform
  evaluator := evaluator

/-- A theme with nothing but the leaves that are named as a variable with a placeholder is, all of
them in one flat group. -/
def pruned (registry : Registry) (theme : Theme) : Theme :=
  { theme with
    sizes := (Theme.leaves [theme.sizes, theme.colors]).filter fun e =>
      registry.names.any fun bound => bound.2 = e.1
    colors := [] }

theorem lookup?_pruned {registry : Registry} {p name : String}
    (hp : registry.nameFor? p = some name) (theme : Theme) :
    (pruned registry theme).lookup? name = theme.lookup? name := by
  have hbound : (registry.names.any fun bound => bound.2 = name) = true := by
    obtain ⟨before, after, hnames, -⟩ := Fields.exists_split_of_get? hp
    rw [hnames]
    simp
  unfold Theme.lookup? Theme.table
  rw [Theme.get?_flatten, Theme.get?_flatten]
  have hflat : Theme.leaves [(pruned registry theme).sizes, (pruned registry theme).colors] =
      (pruned registry theme).sizes := by
    have hempty : Theme.leaves [([] : Fields Value)] = [] := rfl
    have hleaves : Theme.leaves [(pruned registry theme).sizes] = (pruned registry theme).sizes :=
      Theme.leaves_singleton fun e he => Theme.leaf_of_mem_leaves (List.mem_of_mem_filter he)
    rw [show [(pruned registry theme).sizes, (pruned registry theme).colors] =
      [(pruned registry theme).sizes] ++ [[]] from rfl, Theme.leaves_append, hempty,
      List.append_nil, hleaves]
  rw [hflat]
  exact Fields.get?_filter (p := fun name => registry.names.any fun bound => bound.2 = name)
    hbound _

theorem shadow_congr {c d : Context} {level : Value}
    (h : c.theme.elevation.map (· level) = d.theme.elevation.map (· level)) :
    shadow c level = shadow d level := by
  unfold shadow
  cases hc : c.theme.elevation <;> cases hd : d.theme.elevation <;> simp_all

section
variable {s t : Theme} (viewport : Viewport) (registry : Registry) (platform : String)
  (evaluator : Evaluator)

theorem agree_derived (hrem : s.rootMetric.round = t.rootMetric.round)
    (hlookup : ∀ p name, registry.nameFor? p = some name → s.lookup? name = t.lookup? name) :
    Agree (.derived s viewport registry platform evaluator)
      (.derived t viewport registry platform evaluator) where
  viewport := rfl
  units := Units.ofViewport_congr hrem viewport none
  registry := rfl
  platform := rfl
  evaluator := rfl
  rootMetric := hrem
  lookup := hlookup

end

/-- Themes with the same root metric, which give the level of the style the same shadow and the
variables that have a placeholder the same values, resolve a style alike, errors included.  So it
makes no difference how the groups of a theme nest, or what it says of other variables. -/
theorem themes_resolve_alike (s t : Theme) (viewport : Viewport) (registry : Registry)
    (platform : String) (evaluator : Evaluator) (style : Fields Value)
    (hn : (Fields.keys style).Nodup) (hrem : s.rootMetric.round = t.rootMetric.round)
    (helevation : ∀ level, Fields.get? style Attribute.elevation = some level →
      s.elevation.map (· level) = t.elevation.map (· level))
    (hlookup : ∀ p name, registry.nameFor? p = some name → s.lookup? name = t.lookup? name) :
    resolve (.derived s viewport registry platform evaluator) style =
        resolve (.derived t viewport registry platform evaluator) style ∧
      resolve (.derived (pruned registry s) viewport registry platform evaluator) style =
        resolve (.derived s viewport registry platform evaluator) style := by
  constructor
  · have hagree := agree_derived viewport registry platform evaluator hrem hlookup
    exact hagree.resolve_eq hn fun level hlevel => shadow_congr (helevation level hlevel)
  · have hpruned : ∀ p name, registry.nameFor? p = some name →
        (pruned registry s).lookup? name = s.lookup? name := fun p name hp => lookup?_pruned hp s
    have hagree := agree_derived (s := pruned registry s) (t := s) viewport registry platform
      evaluator rfl hpruned
    exact hagree.resolve_eq hn fun level _ => rfl

def panelRegistry : Registry where
  source := .ofInt "tokens" 1000
  placeholders := [("$ink", "#00000100"), ("$gap", "1000px")]
  names := [("#00000100", "ink"), ("1000px", "gap")]

/-- Nested groups, a root metric by default, and one shadow for all levels. -/
def nestedTheme : Theme where
  rem := .int 0
  sizes := [("page", .map [("gap", .text "6px"), ("edge", .text "1px")])]
  colors := [("ink", .text "#112233")]
  elevation := some fun _ => .ok (some [("shadowRadius", .text "4px")])

/-- Flat groups, a root metric that is written down, and a shadow for the level 2 only. -/
def flatTheme : Theme where
  rem := .float 8
  sizes := [("gap", .text "6px"), ("ink", .text "#112233")]
  colors := [("paper", .text "#ffffff")]
  elevation := some fun
    | .int 2 => .ok (some [("shadowRadius", .text "4px")])
    | level => .error (.unorderedLevel level)

set_option maxRecDepth 2000 in
/-- The `edge` of one theme and the `paper` of the other have no placeholder. -/
theorem panel_resolves_alike :
    let style : Fields Value :=
      [("color", .text "#00000100"), ("gap", .int 1000), ("width", .text "calc(1 + 1)"),
       ("elevation", .int 2)]
    let inside (t : Theme) : Context :=
      .derived t ⟨390, 844⟩ panelRegistry "web" fun _ _ _ => .float 7
    resolve (inside nestedTheme) style = resolve (inside flatTheme) style ∧
      resolve (inside (pruned panelRegistry nestedTheme)) style =
        .ok [("color", .text "#112233"), ("gap", .float 6), ("width", .float 7),
          ("elevation", .int 2), ("shadowRadius", .float 4)] := by
  intro style inside
  have hlookup : ∀ p name, panelRegistry.nameFor? p = some name →
      nestedTheme.lookup? name = flatTheme.lookup? name := by
    intro p name hp
    have hmem := (Fields.get?_eq_some_iff_mem (by decide)).1 hp
    simp only [panelRegistry, List.mem_cons, Prod.mk.injEq, List.not_mem_nil, or_false] at hmem
    rcases hmem with ⟨-, rfl⟩ | ⟨-, rfl⟩ <;> rfl
  have hlevel : ∀ level, Fields.get? style Attribute.elevation = some level →
      nestedTheme.elevation.map (· level) = flatTheme.elevation.map (· level) := by
    intro level hl
    obtain rfl : Value.int 2 = level := Option.some.inj hl
    rfl
  obtain ⟨halike, hpruned⟩ := themes_resolve_alike nestedTheme flatTheme ⟨390, 844⟩ panelRegistry
    "web" (fun _ _ _ => .float 7) style (by decide) (by decide +kernel) hlevel hlookup
  exact ⟨halike, hpruned.trans rfl⟩

end Resolution

end StyleEngine
