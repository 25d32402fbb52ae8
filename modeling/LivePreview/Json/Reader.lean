import LivePreview.Json.Basic
import LivePreview.Text.Hex

/-!
# Reading JSON

`read?` accepts exactly one value, with blanks around it.  Of two members with
one name the later value counts, at the place of the first.  Every function
returns the value it read together with the rest of the text.
-/

namespace LivePreview.Json

def skipBlanks (cs : List Char) : List Char :=
  cs.dropWhile fun c => c = ' ' || c = '\n' || c = '\r' || c = '\t'

/-! ## Strings -/

def hexFour? (a b c d : Char) : Option Nat := do
  pure (((← Text.hexValue? a) * 16 + (← Text.hexValue? b)) * 256 + (← Text.hexValue? c) * 16 +
    (← Text.hexValue? d))

def escapeValue? : Char → Option Char
  | '"' => some '"'
  | '\\' => some '\\'
  | '/' => some '/'
  | 'b' => some '\x08'
  | 'f' => some '\x0c'
  | 'n' => some '\n'
  | 'r' => some '\r'
  | 't' => some '\t'
  | _ => none

/-- The rest of a string whose opening quote was read; `back` holds its
    characters so far, last first. -/
def readString? (back : List Char) : List Char → Option (String × List Char)
  | [] => none
  | '"' :: rest => some (String.ofList back.reverse, rest)
  | '\\' :: 'u' :: a :: b :: c :: d :: rest =>
    match hexFour? a b c d with
    | none => none
    | some high =>
      if 0xD800 ≤ high ∧ high < 0xDC00 then
        match rest with
        | '\\' :: 'u' :: a :: b :: c :: d :: rest =>
          match hexFour? a b c d with
          | none => none
          | some low =>
            if 0xDC00 ≤ low ∧ low < 0xE000 then
              let n := 0x10000 + (high - 0xD800) * 0x400 + (low - 0xDC00)
              readString? (Char.ofNat n :: back) rest
            else none
        | _ => none
      else if 0xDC00 ≤ high ∧ high < 0xE000 then none
      else readString? (Char.ofNat high :: back) rest
  | '\\' :: c :: rest =>
    match escapeValue? c with
    | none => none
    | some value => readString? (value :: back) rest
  | c :: rest => if c.toNat < 32 then none else readString? (c :: back) rest

/-! ## Numbers -/

def digitsNat (digits : List Char) : Nat :=
  digits.foldl (fun n c => 10 * n + (c.toNat - 48)) 0

/-- Whole digits of a number: a zero, or digits that start with another one. -/
def wholeDigits? (cs : List Char) : Option (List Char × List Char) :=
  match cs.span Char.isDigit with
  | ([], _) => none
  | ('0' :: _ :: _, _) => none
  | parts => some parts

def fraction? : List Char → Option (Option (List Char) × List Char)
  | '.' :: cs =>
    match cs.span Char.isDigit with
    | ([], _) => none
    | (digits, rest) => some (some digits, rest)
  | cs => some (none, cs)

def exponent? : List Char → Option (Option Int × List Char)
  | c :: cs =>
    if c = 'e' ∨ c = 'E' then
      let (sign, cs) : Int × List Char :=
        match cs with
        | '-' :: cs => (-1, cs)
        | '+' :: cs => (1, cs)
        | cs => (1, cs)
      match cs.span Char.isDigit with
      | ([], _) => none
      | (digits, rest) => some (some (sign * (digitsNat digits : Int)), rest)
    else some (none, c :: cs)
  | [] => some (none, [])

def decimalFloat (negative : Bool) (digits : Nat) (exponent : Int) : Float :=
  let x := Float.ofScientific digits (exponent < 0) exponent.natAbs
  if negative then -x else x

def readNumber? (cs : List Char) : Option (Number × List Char) := do
  let (negative, cs) :=
    match cs with
    | '-' :: cs => (true, cs)
    | cs => (false, cs)
  let (whole, cs) ← wholeDigits? cs
  let (fraction, cs) ← fraction? cs
  let (exponent, cs) ← exponent? cs
  let n := digitsNat whole
  let number :=
    match fraction, exponent with
    | none, none =>
      if negative then
        if n = 0 ∨ 1 <<< 63 < n then .float (decimalFloat true n 0) else .negative n
      else if n < 1 <<< 64 then .natural n
      else .float (decimalFloat false n 0)
    | _, _ =>
      let places := fraction.getD []
      .float (decimalFloat negative (digitsNat (whole ++ places))
        (exponent.getD 0 - places.length))
  pure (number, cs)

/-! ## Values -/

mutual

def readValue? (fuel : Nat) (cs : List Char) : Option (Json × List Char) :=
  match fuel with
  | 0 => none
  | fuel + 1 =>
    match cs with
    | 'n' :: 'u' :: 'l' :: 'l' :: rest => some (.null, rest)
    | 't' :: 'r' :: 'u' :: 'e' :: rest => some (.bool true, rest)
    | 'f' :: 'a' :: 'l' :: 's' :: 'e' :: rest => some (.bool false, rest)
    | '"' :: rest => (readString? [] rest).map fun (s, rest) => (.string s, rest)
    | '[' :: rest =>
      match skipBlanks rest with
      | ']' :: rest => some (.array [], rest)
      | rest => readItems? fuel [] rest
    | '\x7b' :: rest =>
      match skipBlanks rest with
      | '\x7d' :: rest => some (.object [], rest)
      | rest => readMembers? fuel [] rest
    | _ => (readNumber? cs).map fun (n, rest) => (.number n, rest)

/-- The items of an array from here on; `back` holds those before, last first. -/
def readItems? (fuel : Nat) (back : List Json) (cs : List Char) : Option (Json × List Char) :=
  match fuel with
  | 0 => none
  | fuel + 1 =>
    match readValue? fuel (skipBlanks cs) with
    | none => none
    | some (item, rest) =>
      match skipBlanks rest with
      | ',' :: rest => readItems? fuel (item :: back) rest
      | ']' :: rest => some (.array (item :: back).reverse, rest)
      | _ => none

/-- The members of an object from here on, after those read before. -/
def readMembers? (fuel : Nat) (members : List (String × Json)) (cs : List Char) :
    Option (Json × List Char) :=
  match fuel with
  | 0 => none
  | fuel + 1 =>
    match skipBlanks cs with
    | '"' :: rest =>
      match readString? [] rest with
      | none => none
      | some (name, rest) =>
        match skipBlanks rest with
        | ':' :: rest =>
          match readValue? fuel (skipBlanks rest) with
          | none => none
          | some (value, rest) =>
            let members := insertMember members name value
            match skipBlanks rest with
            | ',' :: rest => readMembers? fuel members rest
            | '\x7d' :: rest => some (.object members, rest)
            | _ => none
        | _ => none
    | _ => none

end

/-- The one value of a text.  Each step of the reader consumes a character, so the
    length of the text bounds them. -/
def read? (text : String) : Option Json :=
  let cs := text.toList
  match readValue? (2 * cs.length + 2) (skipBlanks cs) with
  | some (value, rest) => if (skipBlanks rest).isEmpty then some value else none
  | none => none

end LivePreview.Json
