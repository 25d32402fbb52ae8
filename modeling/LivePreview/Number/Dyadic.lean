/-!
# Floating-point numbers as dyadic fractions

A finite 64-bit floating-point number is `± significand · 2 ^ exponent`, exactly.
The exact value is what decimal text is made from, both with the fewest digits
and with a fixed number of places.
-/

namespace LivePreview.Number

/-- `± significand · 2 ^ exponent`. -/
structure Dyadic where
  negative : Bool
  significand : Nat
  exponent : Int
  /-- Whether the next smaller number is only half as far away as the next larger. -/
  atPowerOfTwo : Bool
  deriving DecidableEq, Repr

/-- The exact value of a number that is neither infinite nor undefined. -/
def Dyadic.ofFloat (x : Float) : Dyadic :=
  let bits := x.toBits.toNat
  let negative := bits >>> 63 == 1
  let field : Nat := (bits >>> 52) % (1 <<< 11)
  let fraction : Nat := bits % (1 <<< 52)
  if field = 0 then ⟨negative, fraction, -1074, false⟩
  else ⟨negative, (1 <<< 52) + fraction, (field : Int) - 1075, fraction == 0 && field != 1⟩

/-- A quotient rounded to a whole number; a half goes to the even neighbour. -/
def roundQuotient (num den : Nat) : Nat :=
  let whole := num / den
  let rest := 2 * (num % den)
  if rest < den then whole
  else if den < rest then whole + 1
  else if whole % 2 = 0 then whole else whole + 1

/-- A power with an exponent of either sign, as a pair of factors: the one that
    multiplies and the one that divides. -/
def powerPair (base : Nat) (exponent : Int) : Nat × Nat :=
  (base.pow exponent.toNat, base.pow (-exponent).toNat)

end LivePreview.Number
