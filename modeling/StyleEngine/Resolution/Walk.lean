import StyleEngine.Resolution.Property

/-!
# The walk over a style

The names of a style are visited in order.  An elevation merges the properties of its shadow, and
those that are not waiting anyway join the end of the names to visit; the elevation itself never
does, so the walk ends: each visit takes away an `elevation` that waits, or else one name.

    w.pending = [] → run c w = .ok w                                     (run_nil)
    w.pending = key :: rest →
      run c w = (visit c key { w with pending := rest }).bind (run c)    (run_cons)
    visit c key w = .ok w' → key ≠ Attribute.elevation → w'.pending = w.pending
                                                                         (pending_visit)
    (enqueue key names pending).count key = pending.count key            (count_enqueue)
-/

namespace StyleEngine.Resolution

/-! ## Algorithm -/

structure Walk where
  style : Fields Value
  /-- The names still to visit. -/
  pending : List String
  /-- The properties and expressions handed to the evaluator, in order. -/
  evaluated : List (String × Value) := []

def Walk.start (style : Fields Value) : Walk := ⟨style, Fields.keys style, []⟩

/-- Appends the names that differ from `key` and do not wait yet. -/
def enqueue (key : String) (names pending : List String) : List String :=
  names.foldl (fun p name => if name = key || p.contains name then p else p ++ [name]) pending

/-- The shadow properties of an elevation value; none for a theme without elevation. -/
def shadow (c : Context) (value : Value) : Except Fault (Fields Value) :=
  match c.theme.elevation with
  | some elevation => (elevation value).map (·.getD [])
  | none => .ok []

/-- Merges the shadow of an elevation into a style. -/
def Walk.expand (w : Walk) (shadow : Fields Value) : Walk :=
  { w with
    style := Fields.merge w.style shadow
    pending := enqueue Attribute.elevation (Fields.keys shadow) w.pending }

def Walk.drop (w : Walk) (key : String) : Walk := { w with style := Fields.erase w.style key }

/-- Writes the resolved value of a property, and what its expression was. -/
def Walk.settle (w : Walk) (key : String) (value : Value) (expression : Option Value) : Walk :=
  { w with
    style := Fields.set w.style key value
    evaluated := w.evaluated ++ expression.toList.map fun e => (key, e) }

/-- Visits one name, which no longer waits; a name that has left the style is passed over. -/
def visit (c : Context) (key : String) (w : Walk) : Except Failure Walk :=
  match Fields.get? w.style key with
  | none => .ok w
  | some value =>
    if key = Attribute.elevation then ((shadow c value).mapError .fault).map w.expand
    else if key = Attribute.cursor && !c.keepsCursor then .ok (w.drop key)
    else (property c key value).map fun v => w.settle key v (expression? c key value)

/-- Visits names in order, the first elevation included; `resume` goes on from there. -/
def runTo (c : Context) (resume : Walk → Except Failure Walk) :
    List String → Walk → Except Failure Walk
  | [], w => .ok w
  | key :: rest, w =>
    match visit c key { w with pending := rest } with
    | .error e => .error e
    | .ok w' => if key = Attribute.elevation then resume w' else runTo c resume rest w'

/-- Visits the names that wait, among them a number of elevations. -/
def runThrough (c : Context) : Nat → Walk → Except Failure Walk
  | 0, w => runTo c .ok w.pending w
  | elevations + 1, w => runTo c (runThrough c elevations) w.pending w

/-- Visits the names that wait until none does. -/
def run (c : Context) (w : Walk) : Except Failure Walk :=
  runThrough c (w.pending.count Attribute.elevation) w

/-! ## Lemmas -/

theorem map_eq_ok {ε α β : Type} {f : α → β} {x : Except ε α} {b : β} (h : x.map f = .ok b) :
    ∃ a, x = .ok a ∧ f a = b := by
  cases x with
  | error e => cases h
  | ok a => exact ⟨a, rfl, Except.ok.inj h⟩

/-- The names that join differ from `key`. -/
theorem count_enqueue (key : String) (names pending : List String) :
    (enqueue key names pending).count key = pending.count key := by
  unfold enqueue
  induction names generalizing pending with
  | nil => rfl
  | cons name names ih =>
    rw [List.foldl_cons, ih]
    split
    · rfl
    · next h =>
      have hne : name ≠ key := fun he => h (by simp [he])
      simp [List.count_append, hne]

theorem pending_visit {c : Context} {key : String} {w w' : Walk} (h : visit c key w = .ok w')
    (hk : key ≠ Attribute.elevation) : w'.pending = w.pending := by
  unfold visit at h
  split at h
  · rw [← Except.ok.inj h]
  · rw [if_neg hk] at h
    split at h
    · rw [← Except.ok.inj h]; rfl
    · obtain ⟨v, -, rfl⟩ := map_eq_ok h
      rfl

theorem count_pending_visit {c : Context} {key : String} {w w' : Walk}
    (h : visit c key w = .ok w') :
    w'.pending.count Attribute.elevation = w.pending.count Attribute.elevation := by
  by_cases hk : key = Attribute.elevation
  · unfold visit at h
    split at h
    · rw [← Except.ok.inj h]
    · rw [if_pos hk] at h
      obtain ⟨sh, -, rfl⟩ := map_eq_ok h
      exact count_enqueue _ _ _
  · rw [pending_visit h hk]

theorem run_nil {c : Context} {w : Walk} (hp : w.pending = []) : run c w = .ok w := by
  simp [run, hp, runThrough, runTo]

/-- A visit to no elevation leaves as many elevations waiting as there were. -/
theorem runThrough_of_ne {c : Context} {w : Walk} {key : String} {rest : List String} (n : Nat)
    (hp : w.pending = key :: rest) (hk : key ≠ Attribute.elevation) :
    runThrough c n w = (visit c key { w with pending := rest }).bind (runThrough c n) := by
  cases hv : visit c key { w with pending := rest } with
  | error e => cases n <;> simp [runThrough, hp, runTo, hv, Except.bind]
  | ok w' =>
    have hr : w'.pending = rest := pending_visit hv hk
    cases n <;> simp [runThrough, hp, runTo, hv, Except.bind, hk, hr]

/-- A run visits the first name that waits and goes on from there. -/
theorem run_cons {c : Context} {w : Walk} {key : String} {rest : List String}
    (hp : w.pending = key :: rest) :
    run c w = (visit c key { w with pending := rest }).bind (run c) := by
  unfold run
  rw [hp]
  by_cases hk : key = Attribute.elevation
  · rw [hk, List.count_cons_self]
    cases hv : visit c Attribute.elevation { w with pending := rest } with
    | error e => simp [runThrough, hp, runTo, hk, hv, Except.bind]
    | ok w' => simp [runThrough, hp, runTo, hk, hv, Except.bind, count_pending_visit hv]
  · rw [List.count_cons_of_ne hk, runThrough_of_ne _ hp hk]
    cases hv : visit c key { w with pending := rest } with
    | error e => rfl
    | ok w' => simp only [Except.bind, count_pending_visit hv]

end StyleEngine.Resolution
