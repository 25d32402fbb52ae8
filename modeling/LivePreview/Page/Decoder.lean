import LivePreview.Page.Image
import LivePreview.Png.Image

/-!
# The decoder of the program

Only PNG is decoded, and of PNG the images with up to eight bits a sample that are not interlaced.
Other formats are recognised by the bytes they start with, so that the error can name them.
-/

namespace LivePreview

/-- The bytes a format starts with; `none` stands for any byte. -/
structure ImageMagic where
  name : String
  bytes : List (Option UInt8)

def ImageMagic.ofText (name text : String) : ImageMagic :=
  ⟨name, text.toUTF8.data.toList.map some⟩

def unsupportedFormats : List ImageMagic :=
  [⟨"Jpeg", [some 0xFF, some 0xD8, some 0xFF]⟩,
    .ofText "Gif" "GIF89a", .ofText "Gif" "GIF87a",
    ⟨"WebP", "RIFF".toUTF8.data.toList.map some ++ List.replicate 4 none ++
      "WEBP".toUTF8.data.toList.map some⟩,
    ⟨"Tiff", [some 0x4D, some 0x4D, some 0, some 0x2A]⟩,
    ⟨"Tiff", [some 0x49, some 0x49, some 0x2A, some 0]⟩,
    .ofText "Dds" "DDS ", .ofText "Bmp" "BM",
    ⟨"Ico", [some 0, some 0, some 1, some 0]⟩,
    .ofText "Hdr" "#?RADIANCE",
    ⟨"Avif", [some 0, some 0, none, none] ++ "ftypavif".toUTF8.data.toList.map some⟩,
    ⟨"OpenExr", [some 0x76, some 0x2F, some 0x31, some 0x01]⟩,
    .ofText "Qoi" "qoif", .ofText "Pnm" "P1", .ofText "Pnm" "P2", .ofText "Pnm" "P3",
    .ofText "Pnm" "P4", .ofText "Pnm" "P5", .ofText "Pnm" "P6", .ofText "Pnm" "P7",
    .ofText "Farbfeld" "farbfeld"]

def ImageMagic.matches (magic : ImageMagic) (data : ByteArray) : Bool :=
  magic.bytes.length ≤ data.size &&
    magic.bytes.zipIdx.all fun (byte, i) => byte.all fun b => data.data.getD i 0 == b

def ImageError.unknownFormat : ImageError :=
  ⟨"The image format could not be determined"⟩

def ImageError.unsupported (name : String) : ImageError :=
  ⟨s!"The image format {name} is not supported"⟩

/-- The data starts like a PNG file but cannot be decoded. -/
def ImageError.broken : ImageError :=
  ⟨"Format error decoding Png"⟩

@[reducible] def pngDecoder : ImageDecoder where
  decodeImage data :=
    if Png.signature.isPrefixOf (data.extract 0 8).data.toList then
      match Png.decode? data with
      | some image => .ok image
      | none => .error .broken
    else
      match unsupportedFormats.find? (·.matches data) with
      | some magic => .error (.unsupported magic.name)
      | none => .error .unknownFormat

end LivePreview
