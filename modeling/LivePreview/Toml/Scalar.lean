import LivePreview.Text.Digits
import LivePreview.Text.Hex
import LivePreview.Toml.Value

/-!
# Scalars

Numbers, truth values and points in time are written without blanks, with one
exception: a blank may stand between a date and a time of day.  `scalar?` reads
such a word as a whole.
-/

namespace LivePreview.Toml

/-! ## Digits -/

/-- Digits with an underscore between any two of them, without the underscores. -/
def groupedDigits? (isDigit : Char → Bool) (cs : List Char) : Option (List Char) :=
  let groups := Text.splitOn '_' cs
  if groups.all fun group => !group.isEmpty && group.all isDigit then some groups.flatten
  else none

def baseValue (base : Nat) (digits : List Char) : Nat :=
  digits.foldl (fun n c => base * n + (Text.hexValue? c).getD 0) 0

/-- A sign, if there is one: whether it is negative, and the rest. -/
def dropSign : List Char → Bool × List Char
  | '-' :: cs => (true, cs)
  | '+' :: cs => (false, cs)
  | cs => (false, cs)

/-- Decimal digits that start with a zero only if there are no others. -/
def wholeDigits? (cs : List Char) : Option (List Char) :=
  match cs with
  | ['0'] => some cs
  | '0' :: _ => none
  | cs => groupedDigits? Char.isDigit cs

/-! ## Integers -/

def decimalInteger? (cs : List Char) : Option Int := do
  let (negative, cs) := dropSign cs
  let n := baseValue 10 (← wholeDigits? cs)
  if negative then
    if n ≤ integerLimit then some (-(n : Int)) else none
  else if n < integerLimit then some n
  else none

/-- Whether a character is a digit in a base of at most sixteen. -/
def isBaseDigit (base : Nat) (c : Char) : Bool :=
  (Text.hexValue? c).any (· < base)

def basedInteger? (base : Nat) (cs : List Char) : Option Int := do
  let n := baseValue base (← groupedDigits? (isBaseDigit base) cs)
  if n < integerLimit then some n else none

def integer? : List Char → Option Int
  | '0' :: 'x' :: cs => basedInteger? 16 cs
  | '0' :: 'o' :: cs => basedInteger? 8 cs
  | '0' :: 'b' :: cs => basedInteger? 2 cs
  | cs => decimalInteger? cs

/-! ## Fractional numbers -/

def infinityThreshold : Nat :=
  (1 <<< 1024) - (1 <<< 970)

/-- Whether `digits · 10 ^ exponent` rounds to infinity.  Powers far from the threshold
    are not computed. -/
def overflows (digits : List Char) (exponent : Int) : Bool :=
  let digits := digits.dropWhile (· = '0')
  let magnitude := exponent + digits.length
  if digits.isEmpty || magnitude < 300 then false
  else if 400 < magnitude then true
  else
    infinityThreshold * Nat.pow 10 (-exponent).toNat ≤
      baseValue 10 digits * Nat.pow 10 exponent.toNat

def exponent? (cs : List Char) : Option Int := do
  let (negative, cs) := dropSign cs
  let n := baseValue 10 (← groupedDigits? Char.isDigit cs)
  pure (if negative then -(n : Int) else n)

/-- A text cut at the first character that passes a test, without that character. -/
def cutAt? (test : Char → Bool) (cs : List Char) : Option (List Char × List Char) :=
  match cs.span fun c => !test c with
  | (before, _ :: after) => some (before, after)
  | (_, []) => none

/-- Whether a text is a fractional number: with a fraction, an exponent, or both.  A
    positive one has to be finite. -/
def isDecimalFraction (cs : List Char) : Bool :=
  let (negative, cs) := dropSign cs
  let (mantissa, power) :=
    match cutAt? (fun c => c == 'e' || c == 'E') cs with
    | some (mantissa, power) => (mantissa, some (exponent? power))
    | none => (cs, none)
  let (whole, places) :=
    match cutAt? (· == '.') mantissa with
    | some (whole, places) => (whole, some (groupedDigits? Char.isDigit places))
    | none => (mantissa, none)
  match wholeDigits? whole, places, power with
  | _, none, none => false
  | none, _, _ => false
  | _, some none, _ => false
  | _, _, some none => false
  | some whole, places, power =>
    let places := (places.getD none).getD []
    let power : Int := (power.getD none).getD 0
    negative || !overflows (whole ++ places) (power - places.length)

def isFractional (cs : List Char) : Bool :=
  let unsigned := String.ofList (dropSign cs).2
  unsigned == "inf" || unsigned == "nan" || isDecimalFraction cs

/-! ## Points in time -/

def isTwo (low high : Nat) : List Char → Bool
  | [a, b] =>
    a.isDigit && b.isDigit && low ≤ baseValue 10 [a, b] && baseValue 10 [a, b] ≤ high
  | _ => false

def daysIn (year month : Nat) : Nat :=
  if month = 2 then
    if year % 4 = 0 ∧ (year % 100 ≠ 0 ∨ year % 400 = 0) then 29 else 28
  else if month = 4 ∨ month = 6 ∨ month = 9 ∨ month = 11 then 30
  else 31

def isDate : List Char → Bool
  | [y, y', y'', y''', '-', m, m', '-', d, d'] =>
    let year := [y, y', y'', y''']
    year.all Char.isDigit && isTwo 1 12 [m, m'] &&
      isTwo 1 (daysIn (baseValue 10 year) (baseValue 10 [m, m'])) [d, d']
  | _ => false

/-- Whether a text is a time of day.  A minute may have a second too many. -/
def isTime : List Char → Bool
  | h :: h' :: ':' :: m :: m' :: ':' :: s :: s' :: rest =>
    let fraction :=
      match rest with
      | [] => true
      | '.' :: digits => !digits.isEmpty && digits.all Char.isDigit
      | _ => false
    isTwo 0 23 [h, h'] && isTwo 0 59 [m, m'] && isTwo 0 60 [s, s'] && fraction
  | _ => false

def isOffset : List Char → Bool
  | ['Z'] => true
  | ['z'] => true
  | [sign, h, h', ':', m, m'] =>
    (sign == '+' || sign == '-') && isTwo 0 23 [h, h'] && isTwo 0 59 [m, m']
  | _ => false

/-- Whether a text is a time of day, perhaps with an offset. -/
def isOffsetTime (cs : List Char) : Bool :=
  let isSign (c : Char) : Bool := c == 'Z' || c == 'z' || c == '+' || c == '-'
  match cs.span fun c => !isSign c with
  | (time, []) => isTime time
  | (time, offset) => isTime time && isOffset offset

/-- Whether a text is a date, a time of day, or both with a `T` between them. -/
def isMoment (cs : List Char) : Bool :=
  isDate cs || isTime cs ||
    match cs.drop 10 with
    | 'T' :: time => isDate (cs.take 10) && isOffsetTime time
    | 't' :: time => isDate (cs.take 10) && isOffsetTime time
    | _ => false

/-! ## Words -/

def isScalarChar (c : Char) : Bool :=
  c.isAlphanum || c == '+' || c == '-' || c == '_' || c == '.' || c == ':'

def word? (cs : List Char) : Option Toml :=
  let word := String.ofList cs
  if word = "true" then some (.boolean true)
  else if word = "false" then some (.boolean false)
  else if isMoment cs then some (.moment word)
  else if isFractional cs then some (.fractional word)
  else (integer? cs).map .integer

/-- The value that a text starts with, and the rest. -/
def scalar? (cs : List Char) : Option (Toml × List Char) :=
  let (first, rest) := cs.span isScalarChar
  match isDate first, rest with
  | true, ' ' :: d :: rest =>
    if d.isDigit then
      let (time, rest) := (d :: rest).span isScalarChar
      if isOffsetTime time then some (.moment (String.ofList (first ++ ' ' :: time)), rest)
      else none
    else some (.moment (String.ofList first), ' ' :: d :: rest)
  | _, rest => (word? first).map fun value => (value, rest)

end LivePreview.Toml
