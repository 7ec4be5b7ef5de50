import StyleEngine.Proofs.Fields
import StyleEngine.Proofs.Float.Operations
import StyleEngine.Value

/-!
# What can be printed

An integer in the range of floats has few enough digits.  Whether a list or a map can be printed
depends on its members, and writing printable values into a printable map keeps it printable.

    (int n).isPrintable ↔ -10 ^ maxIntegerDigits < n ∧ n < 10 ^ maxIntegerDigits
                                                                  (Number.isPrintable_int_iff)
    n.toFloat?.isSome → n.isPrintable                             (Number.isPrintable_of_toFloat?)
    (map m).isPrintable ↔ Fields.Printable m                             (isPrintable_map_iff)
-/

namespace StyleEngine

/-! ## Numbers -/

theorem Number.isPrintable_int_iff {n : Int} : (Number.int n).isPrintable = true ↔
    -10 ^ maxIntegerDigits < n ∧ n < 10 ^ maxIntegerDigits := by
  have hcast : ((10 ^ maxIntegerDigits : Nat) : Int) = 10 ^ maxIntegerDigits := Nat.cast_pow ..
  unfold isPrintable natChars
  rw [decide_eq_true_iff, Nat.length_toDigits_le_iff (by decide) (by decide)]
  omega

/-- An integer that is too long to be printed is beyond the range of floats. -/
theorem Number.isPrintable_of_toFloat? {n : Number} (h : n.toFloat?.isSome = true) :
    n.isPrintable = true := by
  cases n with
  | float x => rfl
  | int n =>
    rw [isPrintable_int_iff, ← abs_lt]
    by_contra hlong
    have hbound : (2 : Rat) ^ (1024 : Int) ≤ |(n : Rat)| := by
      have hdigits : (2 : Int) ^ 1024 ≤ |n| :=
        calc (2 : Int) ^ 1024 ≤ 10 ^ 1024 := pow_le_pow_left₀ (by decide) (by decide) 1024
          _ ≤ 10 ^ maxIntegerDigits := pow_le_pow_right₀ (by decide) (by decide)
          _ ≤ |n| := not_lt.1 hlong
      have hcast : ((2 ^ 1024 : Int) : Rat) ≤ (|n| : Int) := Int.cast_le.2 hdigits
      rwa [Int.cast_pow, Int.cast_abs, Int.cast_ofNat, ← zpow_natCast] at hcast
    obtain ⟨s, hs⟩ := (roundsTo_floatOfInt n).exists_sign
    have hpos : 0 < |(n : Rat)| := lt_of_lt_of_le (by positivity) hbound
    have hinf : floatOfInt n = packed (.infinity s) :=
      hs.trans (congrArg Float.ofModel (pack_nearest_of_le hpos hbound))
    have hisInf : (packed (.infinity s)).isInf = true := by cases s <;> decide
    rw [toFloat?, hinf, hisInf] at h
    cases h

/-! ## Values -/

/-- Every value of a map can be printed. -/
def Fields.Printable (m : Fields Value) : Prop := ∀ e ∈ m, e.2.isPrintable = true

namespace Value

theorem isPrintable_list_iff {items : List Value} :
    (list items).isPrintable = true ↔ ∀ v ∈ items, v.isPrintable = true := by
  show arePrintable items = true ↔ _
  induction items with
  | nil => exact iff_of_true rfl fun v hv => absurd hv List.not_mem_nil
  | cons v items ih => rw [arePrintable, Bool.and_eq_true, List.forall_mem_cons, ih]

theorem isPrintable_map_iff {entries : Fields Value} :
    (map entries).isPrintable = true ↔ Fields.Printable entries := by
  show holdPrintable entries = true ↔ _
  unfold Fields.Printable
  induction entries with
  | nil => exact iff_of_true rfl fun e he => absurd he List.not_mem_nil
  | cons e entries ih => rw [holdPrintable, Bool.and_eq_true, List.forall_mem_cons, ih]

end Value

/-! ## Maps -/

namespace Fields.Printable

variable {m n : Fields Value} {key : String} {value : Value}

theorem nil : Printable [] := fun _ he => absurd he List.not_mem_nil

theorem of_get? (h : Printable m) (hv : get? m key = some value) : value.isPrintable = true :=
  h _ (mem_of_get? hv)

theorem set (h : Printable m) (key : String) (hv : value.isPrintable = true) :
    Printable (Fields.set m key value) := by
  induction m with
  | nil => exact List.forall_mem_singleton.2 hv
  | cons e rest ih =>
    have hrest : Printable rest := fun e he => h e (List.mem_cons_of_mem _ he)
    unfold Fields.set
    split
    · exact List.forall_mem_cons.2 ⟨hv, hrest⟩
    · exact List.forall_mem_cons.2 ⟨h e List.mem_cons_self, ih hrest⟩

theorem merge (h : Printable m) (hn : Printable n) : Printable (Fields.merge m n) := by
  unfold Fields.merge
  induction n generalizing m with
  | nil => exact h
  | cons e rest ih =>
    exact ih (h.set e.1 (hn e List.mem_cons_self)) fun e he => hn e (List.mem_cons_of_mem _ he)

theorem erase (h : Printable m) (key : String) : Printable (Fields.erase m key) := by
  induction m with
  | nil => exact h
  | cons e rest ih =>
    have hrest : Printable rest := fun e he => h e (List.mem_cons_of_mem _ he)
    unfold Fields.erase
    split
    · exact hrest
    · exact List.forall_mem_cons.2 ⟨h e List.mem_cons_self, ih hrest⟩

end Fields.Printable

end StyleEngine
