/-!
# UTF-8

`decode?` accepts valid UTF-8 only; `decodeLossy` accepts any bytes and puts the
replacement character in place of each longest piece that starts a character
without completing it, and of each byte that starts none.
-/

namespace LivePreview

/-- Bytes are compared in one way, whatever else is imported. -/
instance instDecidableEqBytes : DecidableEq ByteArray :=
  ByteArray.instDecidableEq

end LivePreview

namespace LivePreview.Text

def decode? (bytes : ByteArray) : Option String :=
  String.fromUTF8? bytes

/-- The number of bytes after a first byte, and the range of the second one. -/
def sequence? (first : UInt8) : Option (Nat × UInt8 × UInt8) :=
  if first < 0xC2 then none
  else if first < 0xE0 then some (1, 0x80, 0xBF)
  else if first = 0xE0 then some (2, 0xA0, 0xBF)
  else if first = 0xED then some (2, 0x80, 0x9F)
  else if first < 0xF0 then some (2, 0x80, 0xBF)
  else if first = 0xF0 then some (3, 0x90, 0xBF)
  else if first < 0xF4 then some (3, 0x80, 0xBF)
  else if first = 0xF4 then some (3, 0x80, 0x8F)
  else none

/-- The continuation of a character of which `missing` bytes are to come: its
    value, or none if the bytes break off, and the bytes after it. -/
def continueChar (missing value : Nat) (low high : UInt8) (bytes : List UInt8) :
    Option Nat × List UInt8 :=
  match missing, bytes with
  | 0, rest => (some value, rest)
  | _ + 1, [] => (none, [])
  | missing + 1, b :: rest =>
    if low ≤ b ∧ b ≤ high then
      continueChar missing (value * 64 + (b.toNat - 0x80)) 0x80 0xBF rest
    else (none, b :: rest)

theorem continueChar_length_le (missing value : Nat) (low high : UInt8) (bytes : List UInt8) :
    (continueChar missing value low high bytes).2.length ≤ bytes.length := by
  fun_induction continueChar missing value low high bytes <;> simp_all
  omega

/-- The character that stands for bytes that are no text. -/
def replacement : Char :=
  '\uFFFD'

def decodeChars (bytes : List UInt8) : List Char :=
  match bytes with
  | [] => []
  | first :: rest =>
    if first < 0x80 then Char.ofNat first.toNat :: decodeChars rest
    else
      match sequence? first with
      | none => replacement :: decodeChars rest
      | some (missing, low, high) =>
        let lead := first.toNat % (if missing = 1 then 32 else if missing = 2 then 16 else 8)
        have := continueChar_length_le missing lead low high rest
        match _h : continueChar missing lead low high rest with
        | (some value, rest) => Char.ofNat value :: decodeChars rest
        | (none, rest) => replacement :: decodeChars rest
termination_by bytes.length
decreasing_by all_goals grind

def decodeLossy (bytes : ByteArray) : String :=
  String.ofList (decodeChars bytes.data.toList)

end LivePreview.Text
