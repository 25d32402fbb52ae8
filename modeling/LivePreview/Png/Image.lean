import LivePreview.Page.Image
import LivePreview.Png.Chunk
import LivePreview.Png.Inflate
import LivePreview.Text.Utf8

/-!
# Decoding and encoding images

An image is decoded to rows of pixels with eight bits each of red, green, blue
and opacity.  The file may hold grey levels, colours or palette entries, with one
to eight bits a sample; each of its rows is filtered against its neighbours.
`encode` writes an image of that form without compression.
-/

namespace LivePreview.Png

/-! ## Filters -/

/-- The neighbour nearest to the sum of left and up less the corner. -/
def paeth (left up corner : Nat) : Nat :=
  let distance (n : Nat) : Nat := ((left : Int) + up - corner - n).natAbs
  if distance left ≤ distance up ∧ distance left ≤ distance corner then left
  else if distance up ≤ distance corner then up
  else corner

/-- What a filter adds to a byte, given the bytes to the left, above, and at the
    corner between. -/
def predict (filter left up corner : Nat) : Nat :=
  match filter with
  | 1 => left
  | 2 => up
  | 3 => (left + up) / 2
  | 4 => paeth left up corner
  | _ => 0

/-- A row with its filter undone, given the row above; `step` is the distance
    between bytes of the same sample. -/
def unfilterRow (filter step : Nat) (above : Array UInt8) (row : List UInt8) : Array UInt8 :=
  row.foldl (fun out b =>
    let i := out.size
    let back (line : Array UInt8) : Nat := if i < step then 0 else (line.getD (i - step) 0).toNat
    out.push (b + UInt8.ofNat (predict filter (back out) (above.getD i 0).toNat (back above)))) #[]

/-- The rows of the image data, each `width` bytes after its filter. -/
def unfilter? (step width : Nat) (above : Array UInt8) : Nat → List UInt8 →
    Option (List (Array UInt8))
  | 0, _ => some []
  | _ + 1, [] => none
  | rows + 1, filter :: rest =>
    if rest.length < width ∨ 4 < filter.toNat then none
    else
      let row := unfilterRow filter.toNat step above (rest.take width)
      (unfilter? step width row rows (rest.drop width)).map (row :: ·)

/-! ## Samples -/

def byteSamples (depth : Nat) (b : UInt8) : List Nat :=
  (List.range (8 / depth)).map fun i => (b.toNat >>> (8 - depth * (i + 1))) % (1 <<< depth)

def rowSamples (depth : Nat) (row : List UInt8) : List Nat :=
  row.flatMap (byteSamples depth)

/-- The number of samples of a pixel, by the colour type. -/
def channels? : Nat → Option Nat
  | 0 => some 1
  | 2 => some 3
  | 3 => some 1
  | 4 => some 2
  | 6 => some 4
  | _ => none

/-- What colours stand for: the colour type, the greatest sample, the palette and
    the opacity data. -/
structure Palette where
  colour : Nat
  top : Nat
  entries : List UInt8
  opacity : List UInt8

def wideSamples : List UInt8 → List Nat
  | a :: b :: rest => (a.toNat * 256 + b.toNat) :: wideSamples rest
  | _ => []

def Palette.pixel (p : Palette) (samples : List Nat) : List UInt8 :=
  match p.colour, samples with
  | 0, [grey] =>
    let level := UInt8.ofNat (grey * (255 / p.top))
    let clear := p.opacity ≠ [] ∧ wideSamples p.opacity = [grey]
    [level, level, level, if clear then 0 else 255]
  | 2, [red, green, blue] =>
    let clear := p.opacity ≠ [] ∧ wideSamples p.opacity = [red, green, blue]
    [UInt8.ofNat red, UInt8.ofNat green, UInt8.ofNat blue, if clear then 0 else 255]
  | 3, [index] =>
    let entry (i : Nat) := p.entries.getD (3 * index + i) 0
    [entry 0, entry 1, entry 2, p.opacity.getD index 255]
  | 4, [grey, alpha] =>
    let level := UInt8.ofNat grey
    [level, level, level, UInt8.ofNat alpha]
  | _, samples => samples.map UInt8.ofNat

def Palette.pixels (p : Palette) (channels : Nat) : Nat → List Nat → List UInt8
  | 0, _ => []
  | width + 1, samples =>
    p.pixel (samples.take channels) ++ p.pixels channels width (samples.drop channels)

/-! ## Files -/

def chunkData (chunks : List Chunk) (name : String) : List UInt8 :=
  (chunks.filter fun chunk => chunk.type = chunkType name).flatMap (·.data)

def decode? (bytes : ByteArray) : Option PageImage := do
  let rest ← signature.isPrefixOf? bytes.data.toList
  let chunks ← readChunks? bytes.size rest
  let header ← readHeader? (← chunks.head?).data
  let channels ← channels? header.colour
  if header.interlaced ∨ header.depth ∉ [1, 2, 4, 8] then none
  else
    let data ← inflate? (ByteArray.mk (chunkData chunks "IDAT").toArray)
    let step := max 1 (channels * header.depth / 8)
    let width := (channels * header.depth * header.width + 7) / 8
    let rows ← unfilter? step width #[] header.height data.data.toList
    let palette : Palette :=
      ⟨header.colour, (1 <<< header.depth) - 1, chunkData chunks "PLTE", chunkData chunks "tRNS"⟩
    let pixels := rows.flatMap fun row =>
      palette.pixels channels header.width (rowSamples header.depth row.toList)
    pure ⟨header.width, header.height, ByteArray.mk pixels.toArray⟩

/-- Bytes as blocks of a compressed stream that are not compressed. -/
def storedBlocks (bytes : List UInt8) : List UInt8 :=
  let length := min bytes.length 65535
  let head := [UInt8.ofNat length, UInt8.ofNat (length / 256),
    UInt8.ofNat (65535 - length), UInt8.ofNat ((65535 - length) / 256)]
  if bytes.length ≤ 65535 then 1 :: head ++ bytes
  else 0 :: head ++ bytes.take 65535 ++ storedBlocks (bytes.drop 65535)
termination_by bytes.length

/-- The rows of an image, each with a filter byte for "no filter". -/
def plainRows (width : Nat) : Nat → List UInt8 → List UInt8
  | 0, _ => []
  | rows + 1, pixels =>
    0 :: pixels.take (4 * width) ++ plainRows width rows (pixels.drop (4 * width))

def encode (image : PageImage) : ByteArray :=
  let rows := plainRows image.width image.height image.pixels.data.toList
  let header := wordBytes image.width ++ wordBytes image.height ++ [8, 6, 0, 0, 0]
  let stream := [0x78, 0x01] ++ storedBlocks rows ++ wordBytes (adler rows)
  ByteArray.mk (signature ++ Chunk.write ⟨chunkType "IHDR", header⟩ ++
    Chunk.write ⟨chunkType "IDAT", stream⟩ ++ Chunk.write ⟨chunkType "IEND", []⟩).toArray

end LivePreview.Png
