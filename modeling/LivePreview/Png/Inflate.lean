/-!
# Inflating compressed data

A compressed stream is a sequence of blocks of bits, the lowest bit of a byte
first.  A block holds bytes as they are, or literals and references to earlier
output, written in a fixed or in a transmitted prefix code.  Reading fails with
`none` on a stream that is cut off or not well formed.
-/

namespace LivePreview.Png

/-! ## Bits -/

/-- A position in a stream of bits. -/
structure Bits where
  data : ByteArray
  position : Nat

namespace Bits

def next? (bits : Bits) : Option (Nat × Bits) :=
  match bits.data.data[bits.position / 8]? with
  | none => none
  | some byte =>
    some ((byte.toNat >>> (bits.position % 8)) % 2, { bits with position := bits.position + 1 })

def take? : Nat → Bits → Option (Nat × Bits)
  | 0, bits => some (0, bits)
  | count + 1, bits => do
    let (low, bits) ← bits.next?
    let (high, bits) ← take? count bits
    pure (low + 2 * high, bits)

def align (bits : Bits) : Bits :=
  { bits with position := (bits.position + 7) / 8 * 8 }

end Bits

/-! ## Prefix codes -/

/-- A canonical prefix code: how many words it has of each length from one up, and
    its symbols in the order of their words. -/
structure PrefixCode where
  counts : List Nat
  symbols : Array Nat

namespace PrefixCode

/-- The code whose symbol `i` has a word of length `lengths[i]`, or none for zero. -/
def ofLengths (lengths : List Nat) : PrefixCode :=
  let positions := (List.range 15).map (· + 1)
  let indexed := lengths.zipIdx
  { counts := positions.map fun length => lengths.count length
    symbols := (positions.flatMap fun length =>
      (indexed.filter fun entry => entry.1 = length).map (·.2)).toArray }

/-- Reads a word, bit by bit; `first` is the first word of the length reached and
    `index` the place of its symbol. -/
def walk (symbols : Array Nat) (code first index : Nat) :
    List Nat → Bits → Option (Nat × Bits)
  | [], _ => none
  | count :: counts, bits =>
    match bits.next? with
    | none => none
    | some (bit, bits) =>
      let code := code + bit
      if code < first + count then
        (symbols[index + (code - first)]?).map fun symbol => (symbol, bits)
      else walk symbols (2 * code) (2 * (first + count)) (index + count) counts bits

def read? (code : PrefixCode) (bits : Bits) : Option (Nat × Bits) :=
  walk code.symbols 0 0 0 code.counts bits

end PrefixCode

/-! ## Blocks -/

/-- The code of literals and lengths that needs no transmission. -/
def fixedLiterals : PrefixCode :=
  .ofLengths (List.replicate 144 8 ++ List.replicate 112 9 ++ List.replicate 24 7 ++
    List.replicate 8 8)

def fixedDistances : PrefixCode :=
  .ofLengths (List.replicate 30 5)

/-- Shortest length and number of extra bits of each length symbol, from 257 on. -/
def lengthSymbols : Array (Nat × Nat) :=
  #[(3, 0), (4, 0), (5, 0), (6, 0), (7, 0), (8, 0), (9, 0), (10, 0), (11, 1), (13, 1), (15, 1),
    (17, 1), (19, 2), (23, 2), (27, 2), (31, 2), (35, 3), (43, 3), (51, 3), (59, 3), (67, 4),
    (83, 4), (99, 4), (115, 4), (131, 5), (163, 5), (195, 5), (227, 5), (258, 0)]

/-- Shortest distance and number of extra bits of each distance symbol. -/
def distanceSymbols : Array (Nat × Nat) :=
  #[(1, 0), (2, 0), (3, 0), (4, 0), (5, 1), (7, 1), (9, 2), (13, 2), (17, 3), (25, 3), (33, 4),
    (49, 4), (65, 5), (97, 5), (129, 6), (193, 6), (257, 7), (385, 7), (513, 8), (769, 8),
    (1025, 9), (1537, 9), (2049, 10), (3073, 10), (4097, 11), (6145, 11), (8193, 12),
    (12289, 12), (16385, 13), (24577, 13)]

/-- The output with `count` bytes repeated from `distance` bytes back. -/
def copyBack (distance : Nat) : Nat → ByteArray → ByteArray
  | 0, out => out
  | count + 1, out => copyBack distance count (out.push (out.data.getD (out.size - distance) 0))

/-- The coded part of a block, up to its end symbol.  Each symbol takes at least
    one bit, so the bits left bound the number of steps. -/
def readSymbols? (literals distances : PrefixCode) :
    Nat → Bits → ByteArray → Option (Bits × ByteArray)
  | 0, _, _ => none
  | fuel + 1, bits, out => do
    let (symbol, bits) ← literals.read? bits
    if symbol < 256 then readSymbols? literals distances fuel bits (out.push (UInt8.ofNat symbol))
    else if symbol = 256 then pure (bits, out)
    else do
      let (length, extra) ← lengthSymbols[symbol - 257]?
      let (more, bits) ← bits.take? extra
      let (code, bits) ← distances.read? bits
      let (distance, extra) ← distanceSymbols[code]?
      let (farther, bits) ← bits.take? extra
      let distance := distance + farther
      if out.size < distance then none
      else readSymbols? literals distances fuel bits (copyBack distance (length + more) out)

/-- The bytes of a block that holds them as they are. -/
def readStored? (bits : Bits) (out : ByteArray) : Option (Bits × ByteArray) := do
  let (length, bits) ← bits.align.take? 16
  let (complement, bits) ← bits.take? 16
  let start := bits.position / 8
  if length + complement = 65535 ∧ start + length ≤ bits.data.size then
    pure ({ bits with position := 8 * (start + length) },
      out ++ bits.data.extract start (start + length))
  else none

/-- The order in which the lengths of the code for code lengths are sent. -/
def lengthOrder : List Nat :=
  [16, 17, 18, 0, 8, 7, 9, 6, 10, 5, 11, 4, 12, 3, 13, 2, 14, 1, 15]

def readTriples? : Nat → Bits → Option (List Nat × Bits)
  | 0, bits => some ([], bits)
  | count + 1, bits => do
    let (n, bits) ← bits.take? 3
    let (rest, bits) ← readTriples? count bits
    pure (n :: rest, bits)

/-- The lengths of the words of the transmitted codes; `back` holds those read so
    far, last first, and `left` more are wanted. -/
def readLengths? (code : PrefixCode) :
    Nat → Nat → List Nat → Bits → Option (List Nat × Bits)
  | 0, _, _, _ => none
  | fuel + 1, left, back, bits =>
    if left = 0 then some (back.reverse, bits)
    else do
      let (symbol, bits) ← code.read? bits
      let (value, count, bits) ←
        if symbol < 16 then some (symbol, 1, bits)
        else if symbol = 16 then do
          let (n, bits) ← bits.take? 2
          pure (← back.head?, n + 3, bits)
        else if symbol = 17 then do
          let (n, bits) ← bits.take? 3
          pure (0, n + 3, bits)
        else do
          let (n, bits) ← bits.take? 7
          pure (0, n + 11, bits)
      if left < count then none
      else readLengths? code fuel (left - count) (List.replicate count value ++ back) bits

def readCodes? (bits : Bits) : Option (PrefixCode × PrefixCode × Bits) := do
  let (literals, bits) ← bits.take? 5
  let (distances, bits) ← bits.take? 5
  let (lengths, bits) ← bits.take? 4
  let (triples, bits) ← readTriples? (lengths + 4) bits
  let sent := lengthOrder.zip triples
  let code := PrefixCode.ofLengths
    ((List.range 19).map fun symbol => ((sent.find? (·.1 = symbol)).map (·.2)).getD 0)
  let total := literals + 257 + (distances + 1)
  let (all, bits) ← readLengths? code (total + 1) total [] bits
  pure (.ofLengths (all.take (literals + 257)), .ofLengths (all.drop (literals + 257)), bits)

def readBlocks? : Nat → Bits → ByteArray → Option ByteArray
  | 0, _, _ => none
  | fuel + 1, bits, out => do
    let (last, bits) ← bits.take? 1
    let (kind, bits) ← bits.take? 2
    let steps := 8 * bits.data.size
    let (bits, out) ←
      if kind = 0 then readStored? bits out
      else if kind = 1 then readSymbols? fixedLiterals fixedDistances steps bits out
      else if kind = 2 then do
        let (literals, distances, bits) ← readCodes? bits
        readSymbols? literals distances steps bits out
      else none
    if last = 1 then pure out else readBlocks? fuel bits out

/-- The bytes of a compressed stream with its two-byte header. -/
def inflate? (data : ByteArray) : Option ByteArray :=
  readBlocks? (8 * data.size) ⟨data, 16⟩ ByteArray.empty

end LivePreview.Png
