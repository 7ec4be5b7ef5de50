import Mathlib.Data.List.Perm.Basic
import Mathlib.Order.WithBot
import StyleEngine.Proofs.Float.Value

/-!
# The least and the greatest of some floats

All floats but NaN have a rank: infinities stand at the ends, and a finite float where its value
is, both zeros in one place.  A choice that goes over a list by comparing keeps what it has beside
NaN, so its rank is the extreme of the ranks that there are, whatever the order of the list.  Only
a NaN that it starts with stays to the end.

    rank? x = some r → rank? y = some s → (x < y ↔ r < s)                (lt_iff_rank)
    rank? x = some r →
      rank? (xs.foldl pick x) = some (((x :: xs).filterMap rank?).foldl op unit)
                                                                         (Selects.rank?_foldl)
    (x :: xs).Perm (y :: ys) → (x.isNaN ↔ y.isNaN) →
      SameNumber (xs.foldl pick x) (ys.foldl pick y)                     (Selects.sameNumber_perm)
-/

namespace StyleEngine

open Float.Model Float.Model.UnpackedFloat

/-! ## Ranks -/

abbrev Rank := WithBot (WithTop Rat)

def Rank.ofRat (q : Rat) : Rank := ((q : WithTop Rat) : WithBot (WithTop Rat))

def rank? (x : Float) : Option Rank :=
  match x.toModel.unpack with
  | .notANumber => none
  | .infinity .negative => some ⊥
  | .infinity .positive => some ⊤
  | .zero _ => some (.ofRat 0)
  | .finite s m e _ => some (.ofRat (s.apply 1 * (m * 2 ^ e)))

section
variable {x y : Float} {r s : Rank} {q : Rat}

theorem HasValue.rank?_eq (h : HasValue x q) : rank? x = some (.ofRat q) := by
  unfold rank?
  rcases h.cases with ⟨s, hx, rfl⟩ | ⟨s, m, e, hm, hx, -, rfl⟩ <;> rw [hx]

/-- A float with a rank is an infinity, or it is finite and has its value for a rank. -/
theorem rank?_cases (h : rank? x = some r) :
    (x.toModel.unpack = .infinity .negative ∧ r = ⊥) ∨
    (x.toModel.unpack = .infinity .positive ∧ r = ⊤) ∨
    ∃ q : Rat, HasValue x q ∧ r = .ofRat q := by
  have hrank := h
  unfold rank? at h
  cases hx : x.toModel.unpack with
  | notANumber =>
    rw [hx] at h
    cases h
  | infinity s =>
    rw [hx] at h
    cases s with
    | negative => exact .inl ⟨rfl, (Option.some.inj h).symm⟩
    | positive => exact .inr (.inl ⟨rfl, (Option.some.inj h).symm⟩)
  | zero s =>
    have hvalue := hasValue_of_zero hx
    exact .inr (.inr ⟨_, hvalue, Option.some.inj (hrank.symm.trans hvalue.rank?_eq)⟩)
  | finite s m e hm =>
    have hvalue := hasValue_of_finite hx
    exact .inr (.inr ⟨_, hvalue, Option.some.inj (hrank.symm.trans hvalue.rank?_eq)⟩)

theorem rank?_eq_none_iff : rank? x = none ↔ x.isNaN = true := by
  have hnan : x.isNaN = x.toModel.unpack.isNaN := rfl
  rw [hnan]
  unfold rank?
  cases x.toModel.unpack with
  | notANumber => exact ⟨fun _ => rfl, fun _ => rfl⟩
  | infinity s => cases s <;> exact ⟨nofun, nofun⟩
  | zero s => exact ⟨nofun, nofun⟩
  | finite s m e hm => exact ⟨nofun, nofun⟩

theorem isFinite_of_isNaN (h : x.isNaN = true) : x.isFinite = false := by
  rw [Bool.eq_false_iff]
  intro hfinite
  obtain ⟨q, hq⟩ := isFinite_iff.1 hfinite
  exact Bool.false_ne_true (hq.isNaN.symm.trans h)

theorem isFinite_iff_rank : x.isFinite = true ↔ ∃ q : Rat, rank? x = some (.ofRat q) := by
  constructor
  · intro h
    obtain ⟨q, hq⟩ := isFinite_iff.1 h
    exact ⟨q, hq.rank?_eq⟩
  · rintro ⟨q, h⟩
    rcases rank?_cases h with ⟨-, hq⟩ | ⟨-, hq⟩ | ⟨p, hp, -⟩
    · cases hq
    · cases hq
    · exact hp.isFinite

/-- Floats are compared by their ranks. -/
theorem compare_eq_rank (hx : rank? x = some r) (hy : rank? y = some s) :
    UnpackedFloat.compare x.toModel.unpack y.toModel.unpack = some (compare r s) := by
  have hcoe : StrictMono Rank.ofRat := fun _ _ h =>
    WithBot.coe_lt_coe.2 (WithTop.coe_lt_coe.2 h)
  have hbot : ∀ q, (⊥ : Rank) < .ofRat q := fun q => WithBot.bot_lt_coe _
  have htop : ∀ q, Rank.ofRat q < ⊤ := fun q => WithBot.coe_lt_coe.2 (WithTop.coe_lt_top q)
  rcases rank?_cases hx with ⟨hxu, rfl⟩ | ⟨hxu, rfl⟩ | ⟨p, hp, rfl⟩ <;>
    rcases rank?_cases hy with ⟨hyu, rfl⟩ | ⟨hyu, rfl⟩ | ⟨q, hq, rfl⟩
  · rw [hxu, hyu, compare_eq_iff_eq.2 rfl]
    rfl
  · rw [hxu, hyu, compare_lt_iff_lt.2 bot_lt_top]
    rfl
  · rw [hxu, compare_lt_iff_lt.2 (hbot q)]
    rcases hq.cases with ⟨s, hyu, -⟩ | ⟨s, m, e, hm, hyu, -⟩ <;> rw [hyu] <;> rfl
  · rw [hxu, hyu, compare_gt_iff_gt.2 bot_lt_top]
    rfl
  · rw [hxu, hyu, compare_eq_iff_eq.2 rfl]
    rfl
  · rw [hxu, compare_gt_iff_gt.2 (htop q)]
    rcases hq.cases with ⟨s, hyu, -⟩ | ⟨s, m, e, hm, hyu, -⟩ <;> rw [hyu] <;> rfl
  · rw [hyu, compare_gt_iff_gt.2 (hbot p)]
    rcases hp.cases with ⟨s, hxu, -⟩ | ⟨s, m, e, hm, hxu, -⟩ <;> rw [hxu] <;> rfl
  · rw [hyu, compare_lt_iff_lt.2 (htop p)]
    rcases hp.cases with ⟨s, hxu, -⟩ | ⟨s, m, e, hm, hxu, -⟩ <;> rw [hxu] <;> rfl
  · rw [hp.compare_eq hq]
    exact congrArg some (compare_strictMono hcoe p q).symm

theorem lt_iff_rank (hx : rank? x = some r) (hy : rank? y = some s) : x < y ↔ r < s := by
  have hlt : x < y ↔ UnpackedFloat.lt x.toModel.unpack y.toModel.unpack = true :=
    decide_eq_true_iff
  rw [hlt, UnpackedFloat.lt, compare_eq_rank hx hy, beq_iff_eq, Option.some.injEq,
    compare_lt_iff_lt]

theorem beq_iff_rank (hx : rank? x = some r) (hy : rank? y = some s) :
    (x == y) = true ↔ r = s := by
  have hbeq : (x == y) = UnpackedFloat.beq x.toModel.unpack y.toModel.unpack := rfl
  rw [hbeq, UnpackedFloat.beq, compare_eq_rank hx hy, beq_iff_eq, Option.some.injEq,
    compare_eq_iff_eq]

theorem unpack_eq_notANumber (h : rank? x = none) : x.toModel.unpack = .notANumber := by
  unfold rank? at h
  cases hx : x.toModel.unpack with
  | notANumber => rfl
  | infinity s =>
    rw [hx] at h
    cases s <;> cases h
  | zero s =>
    rw [hx] at h
    cases h
  | finite s m e hm =>
    rw [hx] at h
    cases h

/-- NaN is in no order with any float. -/
theorem compare_eq_none (h : rank? x = none ∨ rank? y = none) :
    UnpackedFloat.compare x.toModel.unpack y.toModel.unpack = none := by
  rcases h with h | h
  · rw [unpack_eq_notANumber h]
    rfl
  · rw [unpack_eq_notANumber h]
    cases x.toModel.unpack <;> rfl

theorem not_lt_of_rank?_eq_none (h : rank? x = none ∨ rank? y = none) : ¬ x < y := by
  have hlt : x < y ↔ UnpackedFloat.lt x.toModel.unpack y.toModel.unpack = true :=
    decide_eq_true_iff
  rw [hlt, UnpackedFloat.lt, compare_eq_none h]
  exact Bool.false_ne_true

theorem not_beq_of_rank?_eq_none (h : rank? x = none ∨ rank? y = none) : ¬ (x == y) = true := by
  have hbeq : (x == y) = UnpackedFloat.beq x.toModel.unpack y.toModel.unpack := rfl
  rw [hbeq, UnpackedFloat.beq, compare_eq_none h]
  exact Bool.false_ne_true

/-! ## The same number -/

/-- Two floats are the same number, zero with any sign being one, or both are NaN. -/
def SameNumber (x y : Float) : Prop := (x == y) = true ∨ (x.isNaN = true ∧ y.isNaN = true)

theorem sameNumber_iff_rank : SameNumber x y ↔ rank? x = rank? y := by
  unfold SameNumber
  rw [← rank?_eq_none_iff, ← rank?_eq_none_iff]
  cases hx : rank? x with
  | none =>
    have hbeq := not_beq_of_rank?_eq_none (y := y) (.inl hx)
    simp only [hbeq, true_and, false_or, Bool.false_eq_true, eq_comm]
  | some r =>
    cases hy : rank? y with
    | none =>
      have hbeq := not_beq_of_rank?_eq_none (x := x) (.inr hy)
      simp only [hbeq, reduceCtorEq, false_and, or_self, Bool.false_eq_true]
    | some s =>
      simp only [beq_iff_rank hx hy, reduceCtorEq, and_self, or_false, Option.some.injEq]

theorem sameNumber_refl (x : Float) : SameNumber x x := sameNumber_iff_rank.2 rfl

/-- Whether a float is finite shows by its rank. -/
theorem SameNumber.finite_or_nan (h : SameNumber x y) :
    SameNumber (if x.isFinite then x else nan) (if y.isFinite then y else nan) := by
  have hrank := sameNumber_iff_rank.1 h
  by_cases hx : x.isFinite = true
  · have hy : y.isFinite = true := isFinite_iff_rank.2 (hrank ▸ isFinite_iff_rank.1 hx)
    rwa [if_pos hx, if_pos hy]
  · have hy : ¬ y.isFinite = true := fun hy =>
      hx (isFinite_iff_rank.2 (hrank ▸ isFinite_iff_rank.1 hy))
    rw [if_neg hx, if_neg hy]
    exact sameNumber_refl nan

end

/-! ## Choosing from a list -/

/-- `pick` keeps the first of two floats beside NaN, and its choice has the rank that `op` gives
for the ranks of both. -/
structure Selects (pick : Float → Float → Float) (op : Rank → Rank → Rank) (unit : Rank) :
    Prop where
  keeps : ∀ {x y}, rank? x = none ∨ rank? y = none → pick x y = x
  rank?_pick : ∀ {x y r s}, rank? x = some r → rank? y = some s →
    rank? (pick x y) = some (op r s)
  rightComm : RightCommutative op
  unit_op : ∀ r, op unit r = r

def least (best x : Float) : Float := if x < best then x else best

def greatest (best x : Float) : Float := if best < x then x else best

theorem selects_least : Selects least min ⊤ where
  keeps h := if_neg (not_lt_of_rank?_eq_none h.symm)
  rank?_pick {x y r s} hx hy := by
    unfold least
    by_cases hlt : y < x
    · have hsr : s < r := (lt_iff_rank hy hx).1 hlt
      rw [if_pos hlt, hy, min_eq_right hsr.le]
    · have hrs : r ≤ s := not_lt.1 fun h => hlt ((lt_iff_rank hy hx).2 h)
      rw [if_neg hlt, hx, min_eq_left hrs]
  rightComm := ⟨min_right_comm⟩
  unit_op := top_inf_eq

theorem selects_greatest : Selects greatest max ⊥ where
  keeps h := if_neg (not_lt_of_rank?_eq_none h)
  rank?_pick {x y r s} hx hy := by
    unfold greatest
    by_cases hlt : x < y
    · have hrs : r < s := (lt_iff_rank hx hy).1 hlt
      rw [if_pos hlt, hy, max_eq_right hrs.le]
    · have hsr : s ≤ r := not_lt.1 fun h => hlt ((lt_iff_rank hx hy).2 h)
      rw [if_neg hlt, hx, max_eq_left hsr]
  rightComm := ⟨max_right_comm⟩
  unit_op := bot_sup_eq

section
variable {pick : Float → Float → Float} {op : Rank → Rank → Rank} {unit r : Rank}
  {x y : Float} {xs ys : List Float} (h : Selects pick op unit)

include h

/-- NaN stays what it is to the end of the list. -/
theorem Selects.foldl_of_rank?_eq_none (hx : rank? x = none) (xs : List Float) :
    xs.foldl pick x = x := by
  induction xs with
  | nil => rfl
  | cons y ys ih => rw [List.foldl_cons, h.keeps (.inl hx), ih]

/-- By induction on the list: its NaNs are passed over. -/
theorem Selects.rank?_foldl (hx : rank? x = some r) (xs : List Float) :
    rank? (xs.foldl pick x) = some (((x :: xs).filterMap rank?).foldl op unit) := by
  rw [List.filterMap_cons_some hx, List.foldl_cons, h.unit_op]
  induction xs generalizing x r with
  | nil => exact hx
  | cons y ys ih =>
    rw [List.foldl_cons]
    cases hy : rank? y with
    | none => rw [h.keeps (.inr hy), List.filterMap_cons_none hy, ih hx]
    | some s => rw [List.filterMap_cons_some hy, List.foldl_cons, ih (h.rank?_pick hx hy)]

theorem Selects.sameNumber_perm (hperm : (x :: xs).Perm (y :: ys))
    (hfirst : x.isNaN = true ↔ y.isNaN = true) :
    SameNumber (xs.foldl pick x) (ys.foldl pick y) := by
  rw [← rank?_eq_none_iff, ← rank?_eq_none_iff] at hfirst
  rw [sameNumber_iff_rank]
  cases hx : rank? x with
  | none =>
    have hy : rank? y = none := hfirst.1 hx
    rw [h.foldl_of_rank?_eq_none hx, h.foldl_of_rank?_eq_none hy, hx, hy]
  | some r =>
    obtain ⟨s, hy⟩ := Option.ne_none_iff_exists'.1 fun hy =>
      Option.some_ne_none r (hx.symm.trans (hfirst.2 hy))
    have := h.rightComm
    rw [h.rank?_foldl hx, h.rank?_foldl hy, (hperm.filterMap rank?).foldl_eq]

end

end StyleEngine
