import Mathlib
import SqlEngine.Number.Arithmetic
import SqlEngine.Number.Text

/-!
# Numbers — equality, and numbers that are not NaN

A number that is not NaN equals itself, and equal numbers are one number, but for the two zeros.
Rounding makes no NaN, and the powers of ten a literal is scaled by make none either, so that no
literal is one.

* `Number.beq_self`, `Number.eq_of_beq`: what equality of numbers says.
* `Number.isNaN_ofLiteral?`: no literal is NaN.
-/

namespace SqlEngine.Number

open Float.Model
open UnpackedFloat (packComponents)

/-! ### Equality -/

/-- **Equal numbers are one number**, unless one of them is the negative zero. -/
theorem eq_of_beq {x y : Float} (h : (x == y) = true) (hx : x ≠ -0) (hy : y ≠ -0) : x = y := by
  obtain ⟨-, -, heq | ⟨-, hzero⟩ | ⟨hzero, -⟩⟩ := Float.beq_iff_ne_nan_and_eq.1 h
  · exact heq
  · exact absurd hzero hy
  · exact absurd hzero hx

/-- **A number that is not NaN equals itself.** -/
theorem beq_self {x : Float} (h : x.isNaN = false) : (x == x) = true := by
  rw [Float.isNaN_eq_decide_eq_nan] at h
  exact Float.beq_self_iff.2 (of_decide_eq_false h)

/-! ### Numbers that are not NaN -/

theorem unpack_packComponents_isNaN {s : UnpackedFloat.Sign} {e : BitVec 11} {m : BitVec 52}
    (h : e ≠ -1#_ ∨ m = 0#_) :
    (UnpackedFloat.unpack .binary64 (packComponents .binary64 s e m)).isNaN = false := by
  simp only [UnpackedFloat.unpack, UnpackedFloat.unpackExponent_packComponents,
    UnpackedFloat.unpackMantissa_packComponents]
  split
  next he => rw [if_pos (h.resolve_left (not_not_intro he))]; rfl
  next => split
          · split <;> rfl
          · rfl

theorem unpack_pack_isNaN {u : UnpackedFloat} (h : u.isNaN = false) :
    (UnpackedFloat.unpack .binary64 (UnpackedFloat.pack .binary64 u)).isNaN = false := by
  cases u with
  | notANumber => cases h
  | infinity s => exact unpack_packComponents_isNaN (.inr rfl)
  | zero s => exact unpack_packComponents_isNaN (.inr rfl)
  | finite s m e hm =>
    simp only [UnpackedFloat.pack]
    split
    · exact unpack_packComponents_isNaN (.inr rfl)
    next hlt =>
      split
      · refine unpack_packComponents_isNaN (.inl fun hones => ?_)
        have htoNat := congrArg BitVec.toNat hones
        rw [BitVec.toNat_ofNat, Nat.mod_eq_of_lt (by omega)] at htoNat
        have hmax : (-1#11 : BitVec 11).toNat = 2 ^ 11 - 1 := by decide
        omega
      · exact unpack_packComponents_isNaN (.inl (by decide))

/-- The number is neither zero, nor infinite, nor NaN. -/
def isRegular : UnpackedFloat → Bool
  | .finite .. => true
  | _          => false

theorem isNaN_roundWithAccuracy (spec : Format) (s : UnpackedFloat.Sign) (m : Nat) (e : Int)
    (accuracy : UnpackedFloat.Accuracy) :
    (UnpackedFloat.roundWithAccuracy spec s m e accuracy).isNaN = false := by
  simp only [UnpackedFloat.roundWithAccuracy]
  split <;> rfl

theorem isNaN_mul {spec : Format} {u v : UnpackedFloat} (hu : u.isNaN = false)
    (hv : isRegular v = true) : (UnpackedFloat.mul spec u v).isNaN = false := by
  cases v with
  | finite =>
    cases u with
    | notANumber => cases hu
    | infinity | zero => rfl
    | finite => exact isNaN_roundWithAccuracy ..
  | notANumber | infinity | zero => cases hv

theorem isNaN_div {spec : Format} {u v : UnpackedFloat} (hu : u.isNaN = false)
    (hv : isRegular v = true) : (UnpackedFloat.div spec u v).isNaN = false := by
  cases v with
  | finite =>
    cases u with
    | notANumber => cases hu
    | infinity | zero => rfl
    | finite => exact isNaN_roundWithAccuracy ..
  | notANumber | infinity | zero => cases hv

theorem isNaN_ofScientific_model (m : Nat) (e : Int) :
    (UnpackedFloat.ofScientific .binary64 m e).isNaN = false := by
  simp only [UnpackedFloat.ofScientific]
  split
  · rfl
  split
  · rfl
  split
  · rfl
  split
  · exact isNaN_mul rfl rfl
  · exact isNaN_div rfl rfl

theorem isNaN_toFloat (n : UInt64) : n.toFloat.toModel.unpack.isNaN = false := by
  refine unpack_pack_isNaN ?_
  simp only [UnpackedFloat.ofUInt64, UnpackedFloat.ofNat, UnpackedFloat.ofInt,
    UnpackedFloat.normalize]
  split
  · exact isNaN_roundWithAccuracy ..
  · rfl
  · exact isNaN_roundWithAccuracy ..

theorem isRegular_powerOfTen : ∀ e : Fin 23,
    isRegular (Float.exactlyRepresentablePowersOfTen[e]).toModel.unpack = true := by
  decide +kernel

theorem isNaN_ofScientific (m : Nat) (negative : Bool) (e : Nat) :
    (Float.ofScientific m negative e).isNaN = false := by
  simp only [Float.ofScientific]
  split
  next h =>
    have hpower := isRegular_powerOfTen ⟨e, by omega⟩
    split
    · exact unpack_pack_isNaN (isNaN_div (isNaN_toFloat _) hpower)
    · exact unpack_pack_isNaN (isNaN_mul (isNaN_toFloat _) hpower)
  next => exact unpack_pack_isNaN (isNaN_ofScientific_model ..)

theorem isNaN_neg {x : Float} (h : x.isNaN = false) : (-x).isNaN = false := by
  refine unpack_pack_isNaN ?_
  have hx : x.toModel.unpack.isNaN = false := h
  cases hu : x.toModel.unpack with
  | notANumber => rw [hu] at hx; cases hx
  | _ => rfl

theorem isNaN_ofDecimal (digits : List Char) (exponent : Int) :
    (ofDecimal digits exponent).isNaN = false := by
  simp only [ofDecimal]
  split
  · decide +kernel
  split
  · decide +kernel
  · exact isNaN_ofScientific ..

/-- **No literal is NaN.** -/
theorem isNaN_ofLiteral? {literal : String} {x : Float} (h : ofLiteral? literal = some x) :
    x.isNaN = false := by
  simp only [ofLiteral?, unsigned?] at h
  -- with or without a fraction, and then with or without an exponent
  split at h
  all_goals
    dsimp only at h
    split at h
    · cases h
    split at h
    · rw [← Option.some.inj h]
      exact isNaN_ofDecimal ..
    split at h
    · obtain ⟨e, -, rfl⟩ := Option.map_eq_some_iff.1 h
      exact isNaN_ofDecimal ..
    · cases h

end SqlEngine.Number
