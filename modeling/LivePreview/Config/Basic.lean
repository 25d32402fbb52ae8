import LivePreview.CommandLine.Command

/-!
# The configuration

A `Config` says how a document is compiled and how the preview follows it.  The
command line overrides what a file says, and a configuration that makes no sense is
refused with all the reasons.
-/

namespace LivePreview

/-- How the preview follows its document. -/
structure PreviewSettings where
  /-- The quiet time before a compile, in milliseconds. -/
  debounce : Nat
  /-- The least time between two compiles, in milliseconds. -/
  cooldown : Nat
  /-- The number of decoded pages that are kept. -/
  cacheCapacity : Nat
  deriving DecidableEq, Repr, Inhabited

/-- How the compiler is called. -/
structure CompilerSettings where
  /-- The name or path of the program. -/
  typst : String
  /-- The resolution of pages, in pixels per inch. -/
  ppi : Nat
  /-- The longest time for a call, in milliseconds. -/
  timeout : Nat
  deriving DecidableEq, Repr, Inhabited

/-- The settings of a run. -/
structure Config where
  preview : PreviewSettings
  backend : CompilerSettings
  deriving DecidableEq, Repr, Inhabited

namespace Config

def standard : Config where
  preview := ⟨300, 0, 256⟩
  backend := ⟨"typst", 144, 10000⟩

/-- The settings with those of a command line in their place. -/
def override (c : Config) (line : CommandLine.Invocation) : Config :=
  let d := line.document
  let debounce :=
    match line.command with
    | .watch debounce => debounce
    | _ => none
  { preview := { c.preview with debounce := debounce.getD c.preview.debounce }
    backend :=
      ⟨d.typst.getD c.backend.typst, d.ppi.getD c.backend.ppi, d.timeout.getD c.backend.timeout⟩ }

def problems (c : Config) : List String :=
  (if c.backend.ppi = 0 then ["`backend.ppi` must be greater than 0"] else []) ++
  (if c.backend.timeout = 0 then ["`backend.timeout_ms` must be greater than 0"] else []) ++
  (if c.preview.cacheCapacity = 0 then ["`preview.cache_capacity` must be greater than 0"]
    else []) ++
  (if (Text.trim c.backend.typst.toList).isEmpty then ["`backend.typst` must not be empty"]
    else [])

end Config

end LivePreview
