import LivePreview.Blake3.Hash
import LivePreview.Text.Hex

/-!
# Page keys

A page is recognised by the fingerprint of its encoded bytes together with the
slot it is shown in: two blank pages in different slots have different keys.
The fingerprint is the BLAKE3 digest of the bytes and of nothing else, so equal
pages have equal fingerprints across edits and runs.
-/

namespace LivePreview

/-- A digest of 256 bits. -/
structure Fingerprint where
  words : Blake3.Chain
  deriving DecidableEq

namespace Fingerprint

def of (data : ByteArray) : Fingerprint :=
  ⟨Blake3.hash data⟩

def hexDigits (f : Fingerprint) : List Char :=
  Text.hexBytes (Blake3.digestBytes f.words)

def hex (f : Fingerprint) : String :=
  String.ofList f.hexDigits

def short (f : Fingerprint) : String :=
  String.ofList (f.hexDigits.take 16)

end Fingerprint

/-- A payload in a slot. -/
structure PageKey where
  fingerprint : Fingerprint
  index : Nat
  deriving DecidableEq

namespace PageKey

def of (data : ByteArray) (index : Nat) : PageKey :=
  ⟨.of data, index⟩

def text (key : PageKey) : String :=
  s!"{key.fingerprint.short}#{key.index}"

end PageKey

end LivePreview
