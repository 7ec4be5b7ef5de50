import StyleEngine.Proofs.Outcome
import StyleEngine.Resolution.Property

/-!
# Properties by class

No name is both a color and a length.  A name of neither class, as those of an elevation and of a
cursor are, keeps its value when it is resolved.

    role? key = none → property c key value = .ok value                  (property_of_role?_none)
    value.isPrintable → looksLike value = false → measure c key value = c.length value
                                                                         (measure_of_not_looksLike)
-/

namespace StyleEngine.Resolution

variable {key : String}

theorem isColor_of_mem_lengths : ∀ key ∈ Attribute.lengths, Attribute.isColor key = false := by
  decide

theorem role?_of_isColor (h : Attribute.isColor key = true) : role? key = some .color := if_pos h

theorem role?_of_isLength (h : Attribute.isLength key = true) : role? key = some .length := by
  have hc := isColor_of_mem_lengths key (List.contains_iff_mem.1 h)
  unfold role?
  rw [if_neg (by rw [hc]; exact Bool.false_ne_true), if_pos h]

theorem isColor_of_role? (h : role? key = some .color) : Attribute.isColor key = true := by
  unfold role? at h
  split at h
  · next hc => exact hc
  · split at h <;> cases h

theorem isLength_of_role? (h : role? key = some .length) : Attribute.isLength key = true := by
  unfold role? at h
  split at h
  · cases h
  · split at h
    · next hl => exact hl
    · cases h

theorem role?_of_unclassified (hc : Attribute.isColor key = false)
    (hl : Attribute.isLength key = false) : role? key = none := by
  unfold role?
  rw [hc, hl]
  rfl

theorem role?_elevation : role? Attribute.elevation = none := by decide

theorem role?_cursor : role? Attribute.cursor = none := by decide

theorem property_of_role?_none {c : Context} (h : role? key = none) (value : Value) :
    property c key value = .ok value := by
  unfold property
  rw [h]

theorem isPrintable_of_evaluate {c : Context} {value out : Value}
    (h : evaluate c key value = .ok out) : value.isPrintable = true := by
  unfold evaluate at h
  split at h
  · cases h
  · next hp => simpa using hp

theorem evaluate_of_isPrintable {c : Context} {value : Value} (hp : value.isPrintable = true) :
    evaluate c key value =
      if Expression.looksLike value then
        (isNaN (c.evaluator key value c.units)).map fun nan =>
          if nan then value else c.evaluator key value c.units
      else .ok value := by
  unfold evaluate
  rw [hp]
  rfl

/-- A value that does not look like an expression is taken as a length, whatever the evaluator. -/
theorem measure_of_not_looksLike {c : Context} {value : Value} (hp : value.isPrintable = true)
    (h : Expression.looksLike value = false) :
    measure c key value = (c.length value).mapError .resolution := by
  unfold measure
  rw [evaluate_of_isPrintable hp, h]
  rfl

end StyleEngine.Resolution
