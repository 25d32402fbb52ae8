import LivePreview.Text.Utf8

/-!
# Pages and their images

The backend delivers a page as the encoded bytes of an image.  Which formats there are, and what
pixels the bytes stand for, is not said here: an `ImageDecoder` turns them into an image, or says
why they are none.
-/

namespace LivePreview

/-- A rendered page as the backend delivers it, with the size it declares. -/
structure Page where
  index : Nat
  width : Nat
  height : Nat
  data : ByteArray
  deriving DecidableEq

def Page.describe (page : Page) : String :=
  s!"Page \x7b index: {page.index}, width: {page.width}, height: {page.height}, " ++
    s!"bytes: {page.data.size} \x7d"

/-- A decoded image: four bytes a pixel, row by row. -/
structure PageImage where
  width : Nat
  height : Nat
  pixels : ByteArray
  deriving DecidableEq

def PageImage.describe (image : PageImage) : String :=
  s!"PageImage({image.width}x{image.height})"

/-- Why data is no page, in the words of the decoder. -/
structure ImageError where
  message : String
  deriving DecidableEq, Repr

/-- What decodes images.  Whatever loads pages takes it as a parameter, so that nothing depends on
    the formats that it knows. -/
class ImageDecoder where
  decodeImage : ByteArray → Except ImageError PageImage

export ImageDecoder (decodeImage)

end LivePreview
