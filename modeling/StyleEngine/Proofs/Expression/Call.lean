import StyleEngine.Proofs.Expression.Arguments

/-!
# A number in a call

Inside of `calc` a number and its unit end at the parenthesis, with no white space between them.
So the call is read as it is written, and it is converted to the number of pixels if that is finite.

    tokenize ("calc(" ++ n.spelling ++ unit ++ ")") = .ok (Factor.number n unit).inCalc.tokens
                                                                         (tokenize_calcText)
    units.size? key unit = some size → (n.value * size).isFinite →
      convert key (calcText n unit) units = n.value * size               (convert_calcText)
-/

namespace StyleEngine.Expression

open Text

variable {n : Numeral} {unit : List Char}

/-! ## Texts -/

/-- A numeral with its unit, as a length is written. -/
def lengthText (n : Numeral) (unit : List Char) : String := String.ofList (n.spelling ++ unit)

/-- The same length in a call of `calc`. -/
def calcText (n : Numeral) (unit : List Char) : String := "calc(" ++ lengthText n unit ++ ")"

theorem toList_lengthText (n : Numeral) (unit : List Char) :
    (lengthText n unit).toList = n.spelling ++ unit := String.toList_ofList

theorem toList_calcText (n : Numeral) (unit : List Char) :
    (calcText n unit).toList =
      Function.calc.name.toList ++ ('(' :: ((n.spelling ++ unit) ++ [')'])) := by
  rw [calcText, String.toList_append, String.toList_append, toList_lengthText, List.append_assoc]
  rfl

theorem looksLike_calcText (n : Numeral) (unit : List Char) :
    looksLike (.text (calcText n unit)) = true := by
  refine List.any_eq_true.2 ⟨.calc, by decide, List.isPrefixOf_iff_prefix.2 ?_⟩
  have hshown : (Value.shown (.text (calcText n unit))).toList = (calcText n unit).toList := rfl
  rw [hshown, toList_calcText]
  exact List.prefix_append _ _

/-! ## Values -/

theorem value_number_inCalc {size? : String → Option Float} {size : Float} (hne : unit ≠ [])
    (hsize : size? (String.ofList unit) = some size) :
    (Factor.number n unit).inCalc.value size? = some (n.value * size) := by
  have hquantity : (Factor.number n unit).value size? = quantity? size? n unit := rfl
  rw [Factor.value_inCalc, hquantity, quantity?, if_neg hne, hsize]
  rfl

/-! ## Tokens -/

section
variable (hsign : n.sign = none) (hn : n.WellFormed) (hunit : ValidUnit unit)

include hsign hn hunit

theorem tokenize_calcText :
    tokenize (calcText n unit) = .ok (Factor.number n unit).inCalc.tokens := by
  have hnumber : ∀ text, tokensFrom text ((n.spelling ++ unit) ++ [')']) =
      .ok [.number n unit, .symbol .closeParen] := by
    intro text
    have hclose := tokensFrom_symbol .closeParen (tokensFrom_nil text)
    have hends := @endsNumber_symbol [] .closeParen (by decide)
    have hread : tokensFrom text ((n.spelling ++ unit) ++ [')']) =
        (tokensFrom text [')']).map (.number n unit :: ·) :=
      tokensFrom_written (.number n unit) ⟨hsign, hn, hunit⟩ AllBlank.nil hends
    exact hread.trans (congrArg (Except.map (.number n unit :: ·)) hclose)
  rw [tokenize_call (toList_calcText n unit) hnumber, Factor.tokens_inCalc]
  rfl

/-! ## Conversion -/

theorem convert_calcText {key : String} {units : Units} {size : Float} (hne : unit ≠ [])
    (hsize : units.size? key (String.ofList unit) = some size) :
    convert key (.text (calcText n unit)) units =
      if (n.value * size).isFinite then n.value * size else nan := by
  have htext := tokenize_calcText hsign hn hunit
  have hn : (Factor.number n unit).inCalc.nesting < 100 := by
    refine (greatest_nesting _ 100).2 fun k hk => ?_
    rw [Factor.levels_inCalc] at hk
    rw [List.mem_singleton.1 hk]
    decide
  exact convert_of_value htext hn (value_number_inCalc hne hsize)

end

end StyleEngine.Expression
