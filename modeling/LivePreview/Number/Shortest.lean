import LivePreview.Number.Dyadic

/-!
# The fewest digits that read back

`shortest` finds the decimal with the fewest digits that a reader rounds to the
given number.  The numbers that round to it form an interval around it.  On
each decimal grid, from coarse to fine, only the two neighbours of the number
have to be tried; of two hits the nearer is taken.

`floatText` lays the digits out: positional between `1e-5` and `1e16`, always
with a fraction, and with an exponent outside.
-/

namespace LivePreview.Number

/-- `digits · 10 ^ exponent`. -/
structure Decimal where
  digits : Nat
  exponent : Int
  deriving DecidableEq, Repr

/-- The neighbours of `d` on the grid of multiples of `10 ^ k` that a reader rounds
    to `d`, the nearer one if both do.  All lengths are in quarters of the last
    place of the significand. -/
def Dyadic.onGrid? (d : Dyadic) (k : Int) : Option Nat :=
  let (up2, down2) := powerPair 2 (d.exponent - 2)
  let (up10, down10) := powerPair 10 k
  let unit := up10 * down2
  let scale := up2 * down10
  let value := 4 * d.significand * scale
  let low := (4 * d.significand - (if d.atPowerOfTwo then 1 else 2)) * scale
  let high := (4 * d.significand + 2) * scale
  let closed := d.significand % 2 = 0
  let hits (c : Nat) : Bool :=
    if closed then low ≤ c * unit && c * unit ≤ high
    else low < c * unit && c * unit < high
  let below := value / unit
  let nearer := if value - below * unit ≤ (below + 1) * unit - value then below else below + 1
  let farther := if nearer = below then below + 1 else below
  if hits nearer then some nearer else if hits farther then some farther else none

/-- A bound on the number of decimal digits before the point. -/
def Dyadic.magnitude (d : Dyadic) : Int :=
  let (up, down) := powerPair 2 d.exponent
  let whole := d.significand * up / down
  if 0 < whole then ((Nat.toDigits 10 whole).length : Int)
  else 2 - ((Nat.toDigits 10 (down / (max d.significand 1))).length : Int)

/-- The decimal with the fewest digits that reads back to a positive value. -/
def Dyadic.shortest (d : Dyadic) : Decimal :=
  let top := d.magnitude
  let found := (List.range 24).findSome? fun (i : Nat) =>
    let k := top - i
    (d.onGrid? k).bind fun c => if c = 0 then none else some (Decimal.mk c k)
  found.getD ⟨0, 0⟩

/-- Digits without the zeros they end in, at most `fuel` of them. -/
def Decimal.normalize (fuel : Nat) (d : Decimal) : Decimal :=
  match fuel with
  | 0 => d
  | fuel + 1 =>
    if d.digits ≠ 0 ∧ d.digits % 10 = 0 then
      Decimal.normalize fuel ⟨d.digits / 10, d.exponent + 1⟩
    else d

/-- Digits laid out with a point, or with an exponent when the point lies far away. -/
def Decimal.layout (d : Decimal) : String :=
  let digits := Nat.toDigits 10 d.digits
  let point : Int := digits.length + d.exponent
  let zeros (n : Int) := List.replicate n.toNat '0'
  let chars :=
    if 0 ≤ d.exponent ∧ point ≤ 16 then digits ++ zeros d.exponent ++ ['.', '0']
    else if 0 < point ∧ point ≤ 16 then
      digits.take point.toNat ++ ['.'] ++ digits.drop point.toNat
    else if -5 < point ∧ point ≤ 0 then ['0', '.'] ++ zeros (-point) ++ digits
    else
      let mantissa := if digits.length = 1 then digits else digits.take 1 ++ ['.'] ++ digits.drop 1
      mantissa ++ ['e'] ++ (toString (point - 1)).toList
  String.ofList chars

def floatText (x : Float) : String :=
  let d := Dyadic.ofFloat x
  let text := if d.significand = 0 then "0.0" else (d.shortest.normalize 400).layout
  if d.negative then "-" ++ text else text

/-! ## One place after the point -/

/-- A finite number with one place after the point, rounded from its exact value. -/
def onePlaceText (x : Float) : String :=
  let d := Dyadic.ofFloat x
  let (up, down) := powerPair 2 d.exponent
  let tenths := roundQuotient (10 * d.significand * up) down
  let text := s!"{tenths / 10}.{tenths % 10}"
  if d.negative then "-" ++ text else text

end LivePreview.Number
