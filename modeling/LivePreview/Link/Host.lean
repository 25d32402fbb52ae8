import LivePreview.Text.Basic
import LivePreview.Text.Hex
import LivePreview.Text.Utf8

/-!
# Hosts of links

A host between brackets is an IPv6 address.  In the schemes of the web any other
host is a domain name; a name whose last label is a number has to be an IPv4
address.  In other schemes a host is any text without the characters that end
or divide hosts.
-/

namespace LivePreview.Link

/-- Why a text is no link target. -/
inductive LinkError where
  | noScheme
  | emptyHost
  | port
  | ipv4
  | ipv6
  | domainName
  | hostCharacter
  deriving DecidableEq, Repr

def LinkError.message : LinkError → String
  | .noScheme => "relative URL without a base"
  | .emptyHost => "empty host"
  | .port => "invalid port number"
  | .ipv4 => "invalid IPv4 address"
  | .ipv6 => "invalid IPv6 address"
  | .domainName => "invalid international domain name"
  | .hostCharacter => "invalid domain character"

/-! ## Addresses -/

/-- The value of digits in a base, if all are digits of it. -/
def baseValue? (base : Nat) (cs : List Char) : Option Nat :=
  cs.foldl (fun value c => do
    let value ← value
    let digit ← Text.hexValue? c
    if digit < base then some (base * value + digit) else none) (some 0)

/-- A number in an IPv4 address: decimal, octal after a zero, or hexadecimal after
    `0x`; nothing after `0x` is zero. -/
def ipv4Number? (cs : List Char) : Option Nat :=
  match cs with
  | [] => none
  | '0' :: 'x' :: digits => baseValue? 16 digits
  | '0' :: 'X' :: digits => baseValue? 16 digits
  | '0' :: c :: digits => baseValue? 8 (c :: digits)
  | digits => baseValue? 10 digits

/-- The labels of a name, without an empty last one. -/
def labels (name : List Char) : List (List Char) :=
  let all := Text.splitOn '.' name
  if all.getLast? = some [] then all.dropLast else all

/-- Whether the last label is a number, so that the name must be an address. -/
def endsInNumber (name : List Char) : Bool :=
  match (labels name).getLast? with
  | none => false
  | some [] => false
  | some last => last.all Char.isDigit || (ipv4Number? last).isSome

/-- Whether a name is an IPv4 address: up to four numbers, the last of which fills
    the bytes that are left. -/
def isIpv4 (name : List Char) : Bool :=
  let parts := labels name
  match parts.mapM ipv4Number? with
  | none => false
  | some numbers =>
    match numbers.reverse with
    | [] => false
    | last :: others =>
      parts.length ≤ 4 && others.all (· ≤ 255) && last < Nat.pow 256 (4 - others.length)

/-- Whether a text is a decimal number of one byte without needless zeros. -/
def isByte (cs : List Char) : Bool :=
  match cs with
  | [] => false
  | ['0'] => true
  | '0' :: _ => false
  | digits => digits.all Char.isDigit && (baseValue? 10 digits).any (· ≤ 255)

/-- Whether a text is four such numbers with dots between. -/
def isDottedQuad (cs : List Char) : Bool :=
  let parts := Text.splitOn '.' cs
  parts.length == 4 && parts.all isByte

/-- Whether the rest of an IPv6 address is well formed, after `count` groups;
    `shortened` says whether two colons stood for left-out groups. -/
def isIpv6Rest (fuel count : Nat) (shortened : Bool) (cs : List Char) : Bool :=
  match fuel with
  | 0 => false
  | fuel + 1 =>
    match cs with
    | [] => shortened || count == 8
    | c :: rest =>
      if count = 8 then false
      else if c = ':' then !shortened && isIpv6Rest fuel (count + 1) true rest
      else
        let isHex (c : Char) : Bool := (Text.hexValue? c).isSome
        let group := (cs.take 4).takeWhile isHex
        match cs.drop group.length with
        | [] => isIpv6Rest fuel (count + 1) shortened []
        | '.' :: _ =>
          !group.isEmpty && count ≤ 6 && isDottedQuad cs && (shortened || count + 2 == 8)
        | [':'] => false
        | ':' :: rest => isIpv6Rest fuel (count + 1) shortened rest
        | _ => false

def isIpv6 (cs : List Char) : Bool :=
  match cs with
  | ':' :: ':' :: rest => isIpv6Rest (rest.length + 2) 1 true rest
  | ':' :: _ => false
  | [_] => false
  | [] => false
  | cs => isIpv6Rest (cs.length + 2) 0 false cs

/-! ## Names -/

/-- The bytes of a text with its percent escapes replaced. -/
def percentDecode : List Char → List UInt8
  | '%' :: a :: b :: rest =>
    match Text.hexValue? a, Text.hexValue? b with
    | some high, some low => UInt8.ofNat (16 * high + low) :: percentDecode rest
    | _, _ => 0x25 :: percentDecode (a :: b :: rest)
  | c :: rest => (String.singleton c).toUTF8.data.toList ++ percentDecode rest
  | [] => []

def isForbidden (c : Char) : Bool :=
  c.toNat ≤ 0x20 || c.toNat == 0x7F || "%#/:<>?@[\\]^|".toList.contains c

/-- The next bias of the digits that encode a label. -/
def adaptBias (delta points : Nat) (first : Bool) : Nat :=
  let delta := (if first then delta / 700 else delta / 2)
  go 64 0 (delta + delta / points)
where
  /-- Divides a large delta down, at most `fuel` times. -/
  go : Nat → Nat → Nat → Nat
    | 0, k, delta => k + 36 * delta / (delta + 38)
    | fuel + 1, k, delta =>
      if 455 < delta then go fuel (k + 36) (delta / 35) else k + 36 * delta / (delta + 38)

def labelDigit? (c : Char) : Option Nat :=
  if 'a' ≤ c ∧ c ≤ 'z' then some (c.toNat - 97)
  else if c.isDigit then some (c.toNat - 22)
  else none

/-- A number of variable length: its value, and the digits after it. -/
def labelNumber? (bias k weight value : Nat) : List Char → Option (Nat × List Char)
  | [] => none
  | c :: rest =>
    match labelDigit? c with
    | none => none
    | some digit =>
      let value := value + digit * weight
      let threshold := if k ≤ bias then 1 else if bias + 26 ≤ k then 26 else k - bias
      if digit < threshold then some (value, rest)
      else labelNumber? bias (k + 36) (weight * (36 - threshold)) value rest

/-- The characters that encoded digits insert into a label. -/
def decodeLabel? (fuel n i bias : Nat) (output : List Nat) (cs : List Char) : Option (List Nat) :=
  match fuel, cs with
  | _, [] => some output
  | 0, _ => none
  | fuel + 1, cs =>
    match labelNumber? bias 36 1 0 cs with
    | none => none
    | some (delta, rest) =>
      let points := output.length + 1
      let bias := adaptBias delta points (i == 0 && output.all (· < 128) && n == 128)
      let position := i + delta
      let n := n + position / points
      let i := position % points
      if 0x10FFFF < n then none
      else decodeLabel? fuel n (i + 1) bias (output.take i ++ n :: output.drop i) rest

/-- Whether a label after its mark for encoded labels is the encoding of a label
    with characters outside ASCII. -/
def isEncodedLabel (cs : List Char) : Bool :=
  let back := cs.reverse
  let digits := (back.takeWhile (· ≠ '-')).reverse
  let basic := ((back.dropWhile (· ≠ '-')).drop 1).reverse
  match decodeLabel? (cs.length + 1) 128 0 72 (basic.map Char.toNat) digits with
  | none => false
  | some output => output.any (128 ≤ ·) && output.all fun n => !(0x80 ≤ n && n < 0xA0)

def isLabel (label : List Char) : Bool :=
  match Text.dropBeginning? "xn--".toList label with
  | some rest => isEncodedLabel rest
  | none => true

/-- A domain name in lower case, if bytes encode one. -/
def domainName? (bytes : List UInt8) : Option (List Char) := do
  let name ← Text.decode? (ByteArray.mk bytes.toArray)
  let lower := name.toList.map Char.toLower
  if lower.any isForbidden then none
  else if (Text.splitOn '.' lower).all isLabel then some lower
  else none

/-! ## Hosts -/

/-- What is between brackets, if a text starts with one. -/
def bracketed? (cs : List Char) : Option (Except LinkError (List Char)) :=
  match cs with
  | '[' :: rest =>
    if rest.getLast? = some ']' then some (.ok rest.dropLast) else some (.error .ipv6)
  | _ => none

def checkHost (cs : List Char) : Except LinkError Unit :=
  match bracketed? cs with
  | some (.error e) => .error e
  | some (.ok address) => if isIpv6 address then .ok () else .error .ipv6
  | none =>
    match domainName? (percentDecode cs) with
    | none => .error .domainName
    | some [] => .error .emptyHost
    | some name => if endsInNumber name && !isIpv4 name then .error .ipv4 else .ok ()

def checkOpaqueHost (cs : List Char) : Except LinkError Unit :=
  match bracketed? cs with
  | some (.error e) => .error e
  | some (.ok address) => if isIpv6 address then .ok () else .error .ipv6
  | none =>
    if cs.any ("\x00\t\n\r #/:<>?@[\\]^|".toList.contains ·) then .error .hostCharacter
    else .ok ()

end LivePreview.Link
