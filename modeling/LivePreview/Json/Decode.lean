import LivePreview.Json.Basic
import LivePreview.Path.Basic
import LivePreview.Text.Hex

/-!
# Decoding

Reads a value out of a JSON object, member by member.  A failure names what is
missing or wrong.
-/

namespace LivePreview

/-- A value that was read, or the name of what is wrong. -/
abbrev Decode (α : Type) := Except String α

namespace Decode

def orFail {α : Type} (what : String) : Option α → Decode α
  | some a => .ok a
  | none => .error what

def field (j : Json) (name : String) : Json :=
  (j.get? name).getD .null

def str (j : Json) (name : String) : Decode String :=
  orFail name (field j name).string?

def strD (j : Json) (name default : String) : String :=
  ((field j name).string?).getD default

def nat (j : Json) (name : String) : Decode Nat :=
  orFail name (field j name).nat?

def natD (j : Json) (name : String) (default : Nat) : Nat :=
  ((field j name).nat?).getD default

def float (j : Json) (name : String) : Decode Float :=
  orFail name (field j name).float?

def flag (j : Json) (name : String) : Bool :=
  ((field j name).bool?).getD false

def list (j : Json) (name : String) : List Json :=
  ((field j name).array?).getD []

def path (j : Json) (name : String) : Decode Path :=
  (str j name).map Path.mk

def path? (j : Json) (name : String) : Option Path :=
  ((field j name).string?).map Path.mk

def hexBytes : List Char → Decode (List UInt8)
  | a :: b :: rest => do
    let high ← orFail "hex" (Text.hexValue? a)
    let low ← orFail "hex" (Text.hexValue? b)
    pure (UInt8.ofNat (16 * high + low) :: (← hexBytes rest))
  | [] => .ok []
  | _ => .error "hex"

/-- Bytes given as text, in hexadecimal, as a run of one byte, or as a counter. -/
def payload (j : Json) : Decode ByteArray :=
  match j with
  | .string s => .ok s.toUTF8
  | .object [("hex", .string s)] => do
    pure (ByteArray.mk (← hexBytes s.toList).toArray)
  | .object [("fill", .array [byte, count])] => do
    let byte ← orFail "fill" byte.nat?
    let count ← orFail "fill" count.nat?
    pure (ByteArray.mk (Array.replicate count (UInt8.ofNat byte)))
  | .object [("counter", n)] => do
    let n ← orFail "counter" n.nat?
    pure (ByteArray.mk ((Array.range n).map fun i => UInt8.ofNat (i % 251)))
  | _ => .error "payload"

end Decode

end LivePreview
