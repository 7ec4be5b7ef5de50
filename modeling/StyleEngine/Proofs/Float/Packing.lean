import Mathlib

/-!
# How floats are stored

A finite float other than zero is a sign, a mantissa and an exponent.  It is stored when the
exponent is the one that the position of its first digit asks for, and not too large; then packing
loses nothing, and unpacking gives nothing else.

    x.unpack = .finite s m e h → Stored m e                              (stored_of_unpack)
    Stored m e → (pack (.finite s m e h)).unpack = .finite s m e h       (unpack_pack)
    pack x.unpack = x                                                    (pack_unpack)
-/

namespace StyleEngine

open Float.Model Float.Model.UnpackedFloat

/-! ## Exponents -/

theorem targetExponent_eq (position : Int) :
    Format.binary64.targetExponent position = max (position - 53) (-1074) := rfl

/-- A mantissa with the exponent that rounding gives it: 53 binary digits, or fewer at the least
exponent. -/
structure Canonical (mantissa : Nat) (exponent : Int) : Prop where
  pos : 0 < mantissa
  target : Format.binary64.targetExponent (totalExponent mantissa exponent) = exponent

/-- A mantissa and exponent that a float can have. -/
structure Stored (mantissa : Nat) (exponent : Int) : Prop extends Canonical mantissa exponent where
  le : exponent ≤ 971

section
variable {m : Nat} {e : Int}

theorem Canonical.cases (h : Canonical m e) :
    m.log2 = 52 ∧ -1074 ≤ e ∨ m.log2 < 52 ∧ e = -1074 := by
  have ht := h.target
  rw [targetExponent_eq, totalExponent] at ht
  omega

theorem canonical_iff (hm : 0 < m) : Canonical m e ↔
    m < 2 ^ 53 ∧ -1074 ≤ e ∧ (2 ^ 52 ≤ m ∨ e = -1074) := by
  have hlt : m < 2 ^ 53 ↔ m.log2 < 53 := (Nat.log2_lt hm.ne').symm
  have hle : 2 ^ 52 ≤ m ↔ 52 ≤ m.log2 := (Nat.le_log2 hm.ne').symm
  rw [hlt, hle]
  constructor
  · intro h
    have hc := h.cases
    omega
  · rintro ⟨hu, hl, hn⟩
    refine ⟨hm, ?_⟩
    rw [targetExponent_eq, totalExponent]
    omega

end

/-! ## Unpacking -/

theorem toNat_implicit_bit (m : BitVec 52) : (1#1 ++ m).toNat = 2 ^ 52 + m.toNat := by
  rw [BitVec.toNat_append, ← Nat.shiftLeft_add_eq_or_of_lt m.isLt]
  rfl

/-- The bits of a float that is neither zero nor infinite nor NaN, as numbers. -/
theorem bits_of_unpack {b : BitVec 64} {s : Sign} {m : Nat} {e : Int} {h : 0 < m}
    (hb : UnpackedFloat.unpack Format.binary64 b = .finite s m e h) :
    ∃ mantissa exponent : Nat, mantissa < 2 ^ 52 ∧ exponent < 2047 ∧
      (exponent = 0 ∧ m = mantissa ∧ e = -1074 ∨
        exponent ≠ 0 ∧ m = 2 ^ 52 + mantissa ∧ e = (exponent : Int) - 1075) := by
  unfold UnpackedFloat.unpack at hb
  simp only at hb
  split at hb
  · split at hb <;> cases hb
  · next hmax =>
    have hmax : (@unpackExponent Format.binary64 b).toNat ≠ 2047 :=
      fun he => hmax (BitVec.eq_of_toNat_eq he)
    have hexp : (@unpackExponent Format.binary64 b).toNat < 2 ^ 11 := BitVec.isLt _
    have hlt : (@unpackExponent Format.binary64 b).toNat < 2047 := by omega
    refine ⟨_, _, (@unpackMantissa Format.binary64 b).isLt, hlt, ?_⟩
    split at hb
    · next hz =>
      split at hb
      · cases hb
      · injection hb with _ hm he
        refine Or.inl ⟨by rw [hz]; rfl, hm.symm, ?_⟩
        rw [← he, hz]
        rfl
    · next hz =>
      injection hb with _ hm he
      refine Or.inr ⟨fun h0 => hz (BitVec.eq_of_toNat_eq h0), ?_, he.symm⟩
      rw [← hm, toNat_implicit_bit]

theorem stored_of_unpack {x : Float.Model} {s : Sign} {m : Nat} {e : Int} {h : 0 < m}
    (hx : x.unpack = .finite s m e h) : Stored m e := by
  obtain ⟨mantissa, exponent, hm, he, hbits⟩ := bits_of_unpack hx
  refine ⟨(canonical_iff h).2 ?_, ?_⟩ <;> omega

/-! ## Packing -/

/-- What is too large for a float is stored as infinity. -/
theorem pack_of_lt {s : Sign} {m : Nat} {e : Int} {h : 0 < m} (he : 971 < e) :
    Float.Model.pack (.finite s m e h) = Float.Model.pack (.infinity s) := by
  have hbits : UnpackedFloat.pack Format.binary64 (.finite s m e h) =
      UnpackedFloat.pack Format.binary64 (.infinity s) := by
    have hover : 2 ^ 11 ≤ (e + 1023 + 52).toNat + 1 := by omega
    have hbias : Format.binary64.exponentBias = 1023 := rfl
    unfold UnpackedFloat.pack
    simp only [hbias, Nat.cast_ofNat]
    exact if_pos hover
  unfold Float.Model.pack
  simp only [hbits]

theorem pack_unpack (x : Float.Model) : Float.Model.pack x.unpack = x := by
  cases x with
  | mk bits valid =>
    unfold Float.Model.pack Float.Model.unpack
    congr 1
    rw [pack_unpack_of_valid valid]

theorem unpack_normal {s : Sign} {m exponent : Nat} (hl : 2 ^ 52 ≤ m) (hu : m < 2 ^ 53)
    (h0 : 0 < exponent) (hmax : exponent < 2047) (hm : 0 < m) :
    UnpackedFloat.unpack Format.binary64
        (packComponents Format.binary64 s (BitVec.ofNat 11 exponent) (BitVec.ofNat 52 m)) =
      .finite s m (exponent - 1075) hm := by
  have he : (BitVec.ofNat 11 exponent).toNat = exponent := by
    rw [BitVec.toNat_ofNat, Nat.mod_eq_of_lt (by omega)]
  have hne : BitVec.ofNat 11 exponent ≠ -1#11 := fun h => by
    have hn : exponent = 2047 := he.symm.trans (congrArg BitVec.toNat h)
    omega
  have hnz : BitVec.ofNat 11 exponent ≠ 0#11 := fun h => by
    have hn : exponent = 0 := he.symm.trans (congrArg BitVec.toNat h)
    omega
  have hmant : (1#1 ++ BitVec.ofNat 52 m).toNat = m := by
    rw [toNat_implicit_bit, BitVec.toNat_ofNat]
    omega
  unfold UnpackedFloat.unpack
  simp only [unpackMantissa_packComponents, unpackExponent_packComponents,
    unpackSign_packComponents, Sign.ofBitVec_toBitVec, hne, if_false, hnz, he, hmant]
  rfl

theorem unpack_subnormal {s : Sign} {m : Nat} (hu : m < 2 ^ 52) (hm : 0 < m) :
    UnpackedFloat.unpack Format.binary64
        (packComponents Format.binary64 s 0#11 (BitVec.ofNat 52 m)) =
      .finite s m (-1074) hm := by
  have hmant : (BitVec.ofNat 52 m).toNat = m := by
    rw [BitVec.toNat_ofNat, Nat.mod_eq_of_lt hu]
  have hnz : BitVec.ofNat 52 m ≠ 0#52 := fun h => by
    have hn : m = 0 := hmant.symm.trans (congrArg BitVec.toNat h)
    omega
  have hne : 0#11 ≠ -1#11 := by decide
  unfold UnpackedFloat.unpack
  simp only [unpackMantissa_packComponents, unpackExponent_packComponents,
    unpackSign_packComponents, Sign.ofBitVec_toBitVec, hne, if_false, if_true, hnz, dite_false,
    hmant]
  rfl

theorem unpack_pack {s : Sign} {m : Nat} {e : Int} {h : 0 < m} (hs : Stored m e) :
    (Float.Model.pack (.finite s m e h)).unpack = .finite s m e h := by
  obtain ⟨hlt, hl, -⟩ := (canonical_iff h).1 hs.toCanonical
  have hmax := hs.le
  have hbits : UnpackedFloat.unpack Format.binary64
      (UnpackedFloat.pack Format.binary64 (.finite s m e h)) = .finite s m e h := by
    unfold UnpackedFloat.pack
    have hfit : ¬ 2 ^ 11 ≤ (e + 1023 + 52).toNat + 1 := by omega
    have hbias : Format.binary64.exponentBias = 1023 := rfl
    simp only [hbias, Nat.cast_ofNat]
    rw [if_neg hfit]
    rcases hs.cases with ⟨hlog, -⟩ | ⟨hlog, rfl⟩
    · have hlow : 2 ^ 52 ≤ m := (Nat.le_log2 h.ne').1 hlog.ge
      have hexp : ((e + 1023 + 52).toNat : Int) - 1075 = e := by omega
      rw [if_pos (by rw [hlog]; rfl), unpack_normal hlow hlt (by omega) (by omega) h]
      simp only [hexp]
    · have hhigh : m < 2 ^ 52 := (Nat.log2_lt h.ne').1 hlog
      have hshort : m.log2 + 1 ≠ Format.binary64.mantissaBits := by
        have hbits : Format.binary64.mantissaBits = 53 := rfl
        omega
      rw [if_neg hshort, unpack_subnormal hhigh h]
  exact hbits

end StyleEngine
