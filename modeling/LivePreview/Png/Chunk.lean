/-!
# The chunks of a PNG file

A PNG file is a signature followed by chunks, each with its length, its type, its
data and a cyclic redundancy check; the image data end in an Adler sum.  The first
chunk is the header with the size of the image.  `size?` reads that size from a file
that may be cut off inside its image data.
-/

namespace LivePreview.Png

/-! ## Checksums -/

def crcBit (crc : UInt32) : UInt32 :=
  if crc &&& 1 = 1 then (crc >>> 1) ^^^ 0xEDB88320 else crc >>> 1

def crcByte (crc : UInt32) (b : UInt8) : UInt32 :=
  let crc := crc ^^^ b.toUInt32
  crcBit (crcBit (crcBit (crcBit (crcBit (crcBit (crcBit (crcBit crc)))))))

def crc (bytes : List UInt8) : UInt32 :=
  bytes.foldl crcByte 0xFFFFFFFF ^^^ 0xFFFFFFFF

def adlerByte (sums : Nat × Nat) (b : UInt8) : Nat × Nat :=
  let low := (sums.1 + b.toNat) % 65521
  (low, (sums.2 + low) % 65521)

def adler (bytes : List UInt8) : Nat :=
  let (low, high) := bytes.foldl adlerByte (1, 0)
  high * 65536 + low

def wordBytes (n : Nat) : List UInt8 :=
  [UInt8.ofNat (n >>> 24), UInt8.ofNat (n >>> 16), UInt8.ofNat (n >>> 8), UInt8.ofNat n]

def wordValue (a b c d : UInt8) : Nat :=
  ((a.toNat * 256 + b.toNat) * 256 + c.toNat) * 256 + d.toNat

/-! ## Chunks -/

def signature : List UInt8 :=
  [0x89, 0x50, 0x4E, 0x47, 0x0D, 0x0A, 0x1A, 0x0A]

def chunkType (name : String) : List UInt8 :=
  name.toUTF8.data.toList

/-- A chunk. -/
structure Chunk where
  type : List UInt8
  data : List UInt8

def Chunk.write (chunk : Chunk) : List UInt8 :=
  wordBytes chunk.data.length ++ chunk.type ++ chunk.data ++
    wordBytes (crc (chunk.type ++ chunk.data)).toNat

def chunkHead? : List UInt8 → Option (Nat × List UInt8 × List UInt8)
  | a :: b :: c :: d :: s :: t :: u :: v :: rest => some (wordValue a b c d, [s, t, u, v], rest)
  | _ => none

/-- The next chunk, if it is whole and its checksum is right, and what follows. -/
def readChunk? (bytes : List UInt8) : Option (Chunk × List UInt8) := do
  let (length, type, rest) ← chunkHead? bytes
  let data := rest.take length
  match rest.drop length with
  | a :: b :: c :: d :: rest =>
    if (crc (type ++ data)).toNat = wordValue a b c d then some (⟨type, data⟩, rest) else none
  | _ => none

/-- The chunks up to the end chunk, at most `fuel`. -/
def readChunks? : Nat → List UInt8 → Option (List Chunk)
  | 0, _ => none
  | fuel + 1, bytes =>
    match readChunk? bytes with
    | none => none
    | some (chunk, rest) =>
      if chunk.type = chunkType "IEND" then some []
      else (readChunks? fuel rest).map (chunk :: ·)

/-- What the first chunk says of the image. -/
structure Header where
  width : Nat
  height : Nat
  depth : Nat
  colour : Nat
  interlaced : Bool
  deriving DecidableEq, Repr

def readHeader? : List UInt8 → Option Header
  | [a, b, c, d, e, f, g, h, depth, colour, _, _, interlace] =>
    some ⟨wordValue a b c d, wordValue e f g h, depth.toNat, colour.toNat, interlace ≠ 0⟩
  | _ => none

/-- Whether whole chunks lead up to the head of an image data chunk. -/
def reachesData : Nat → List UInt8 → Bool
  | 0, _ => false
  | fuel + 1, bytes =>
    match chunkHead? bytes with
    | none => false
    | some (_, type, _) =>
      if type = chunkType "IDAT" then true
      else
        match readChunk? bytes with
        | some (_, rest) => reachesData fuel rest
        | none => false

/-- The width and height of an image whose chunks are whole up to its data. -/
def size? (bytes : ByteArray) : Option (Nat × Nat) := do
  let rest ← signature.isPrefixOf? bytes.data.toList
  let (chunk, rest) ← readChunk? rest
  if chunk.type = chunkType "IHDR" ∧ reachesData bytes.size rest then
    (readHeader? chunk.data).map fun header => (header.width, header.height)
  else none

end LivePreview.Png
