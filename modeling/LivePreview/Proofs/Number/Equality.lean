import LivePreview.Position
import Mathlib

/-!
# Coordinates compared as numbers

Coordinates are compared as numbers, and what is not a number is not even equal to itself.  So it
takes a proof that a line count times a line height is a number (`isNaN_scaled`).  Both may be too
large for a float and rounded to an infinite one, but neither is zero times infinity.
-/

namespace LivePreview.Number

open Float.Model (Format UnpackedFloat)
open Float.Model.UnpackedFloat (pack unpack packComponents)

section Unpacked

variable {u v : UnpackedFloat}

/-- Whether a float is neither infinite nor zero. -/
def isProper : UnpackedFloat → Bool
  | .finite .. => true
  | _ => false

theorem isNaN_roundWithAccuracy (spec : Format) (sign : UnpackedFloat.Sign) (mantissa : Nat)
    (exponent : Int) (accuracy : UnpackedFloat.Accuracy) :
    (UnpackedFloat.roundWithAccuracy spec sign mantissa exponent accuracy).isNaN = false := by
  fun_cases UnpackedFloat.roundWithAccuracy spec sign mantissa exponent accuracy with
  | case1 => rfl
  | case2 => rfl

theorem isNaN_mul {spec : Format} (number : u.isNaN = false) (proper : isProper v) :
    (UnpackedFloat.mul spec u v).isNaN = false := by
  cases v with
  | finite =>
    cases u with
    | notANumber => cases number
    | infinity | zero => rfl
    | finite => exact isNaN_roundWithAccuracy ..
  | _ => cases proper

theorem isNaN_ofNat (spec : Format) (n : Nat) : (UnpackedFloat.ofNat spec n).isNaN = false := by
  unfold UnpackedFloat.ofNat UnpackedFloat.ofInt UnpackedFloat.normalize
  split
  · exact isNaN_roundWithAccuracy ..
  · rfl
  · exact isNaN_roundWithAccuracy ..

theorem isNaN_ofScientific (spec : Format) (n e : Nat) :
    (UnpackedFloat.ofScientific spec n e).isNaN = false := by
  fun_cases UnpackedFloat.ofScientific spec n e with
  | case1 | case2 | case3 => rfl
  | case4 => exact isNaN_mul rfl rfl
  | case5 _ _ _ negative => exact absurd (Int.natCast_nonneg e) negative

theorem isNaN_unpack_components {sign : UnpackedFloat.Sign}
    {exponent : BitVec Format.binary64.exponentBits}
    {mantissa : BitVec Format.binary64.mantissaBitsWithoutImplicit}
    (number : exponent ≠ -1#_ ∨ mantissa = 0#_) :
    (unpack Format.binary64 (packComponents Format.binary64 sign exponent mantissa)).isNaN =
      false := by
  fun_cases unpack Format.binary64 (packComponents Format.binary64 sign exponent mantissa) with
  | case1 | case3 | case4 | case5 => rfl
  | case2 mantissa' exponent' largest other =>
    have exponents : exponent' = exponent := UnpackedFloat.unpackExponent_packComponents
    have mantissas : mantissa' = mantissa := UnpackedFloat.unpackMantissa_packComponents
    rw [exponents] at largest
    rw [mantissas] at other
    exact absurd (number.resolve_left fun smaller => smaller largest) other

/-- Only what is not a number is packed as such. -/
theorem isNaN_unpack_pack (number : u.isNaN = false) :
    (unpack Format.binary64 (pack Format.binary64 u)).isNaN = false := by
  fun_cases pack Format.binary64 u with
  | case1 => cases number
  | case2 | case3 | case4 => exact isNaN_unpack_components (.inr rfl)
  | case5 s m e positive actual biased small normal =>
    -- the largest exponent is left to what is infinite
    refine isNaN_unpack_components (.inl fun same => small ?_)
    have largest : biased % 2 ^ 11 = 2 ^ 11 - 1 := congrArg BitVec.toNat same
    show 2 ^ 11 ≤ biased + 1
    omega
  | case6 => exact isNaN_unpack_components (.inl (by decide))

end Unpacked

theorem isNaN_float_mul {x y : Float} (number : x.isNaN = false)
    (proper : isProper y.toModel.unpack) : (x * y).isNaN = false :=
  isNaN_unpack_pack (isNaN_mul number proper)

theorem isNaN_float_ofNat (n : Nat) : (Float.ofNat n).isNaN = false := by
  show (Float.ofScientific n false 0).isNaN = false
  unfold Float.ofScientific
  dsimp only
  split
  · have one : isProper (Float.exactlyRepresentablePowersOfTen[0]).toModel.unpack := by
      decide +kernel
    rw [if_neg Bool.false_ne_true]
    exact isNaN_float_mul (isNaN_unpack_pack (isNaN_ofNat ..)) one
  · exact isNaN_unpack_pack (isNaN_ofScientific _ n 0)

/-- A natural number times a height is a number, or infinite. -/
theorem isNaN_scaled (n : Nat) {height : Float} (proper : isProper height.toModel.unpack) :
    (Float.ofNat n * height).isNaN = false :=
  isNaN_float_mul (isNaN_float_ofNat n) proper

end LivePreview.Number

namespace LivePreview

/-- A place whose coordinates are numbers is the same point as itself. -/
theorem Position.samePoint_self {p : Position} (x : p.x.isNaN = false) (y : p.y.isNaN = false) :
    p.samePoint p = true := by
  rw [Float.isNaN_eq_decide_eq_nan, decide_eq_false_iff_not] at x y
  simp [samePoint, x, y]

end LivePreview
