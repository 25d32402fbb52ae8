import LivePreview.Path.Basic

/-!
# Kinds of documents

What an open document is used for is decided by the extension of its file name:
only markup sources are compiled, some plain-text formats are edited beside
them, and everything else is opaque.  A file without an extension is text.
-/

namespace LivePreview

/-- The kind of an open document. -/
inductive DocumentKind where
  /-- A source that can be the main document. -/
  | typst
  /-- Plain text the editor can show. -/
  | text
  /-- Anything else. -/
  | binary
  deriving DecidableEq, Repr

namespace DocumentKind

def textExtensions : List String :=
  ["yaml", "yml", "bib", "toml", "json", "txt", "csv", "md"]

/-- The kind that belongs to an extension, in upper or lower case. -/
def ofExtension (extension : String) : DocumentKind :=
  let lower := Text.lowered extension
  if lower = "typ" then .typst
  else if lower ∈ textExtensions then .text
  else .binary

def ofPath (path : Path) : DocumentKind :=
  (path.extension?.map ofExtension).getD .text

/-- The kind of a file whose path is given as bytes.  An extension that is no
    UTF-8 says nothing, like a missing one. -/
def ofPathBytes (bytes : List UInt8) : DocumentKind :=
  let chars := bytes.map fun b => Char.ofNat b.toNat
  let encoded := (Path.fileNameOf? chars).bind fun name => (Path.cutExtension name).2
  let extension := encoded.bind fun cs =>
    String.fromUTF8? (ByteArray.mk (cs.map fun c => UInt8.ofNat c.toNat).toArray)
  (extension.map ofExtension).getD .text

def name : DocumentKind → String
  | .typst => "typst"
  | .text => "text"
  | .binary => "binary"

def isCompilable (kind : DocumentKind) : Bool :=
  kind == .typst

end DocumentKind

end LivePreview
