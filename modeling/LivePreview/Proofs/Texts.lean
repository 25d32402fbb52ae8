import LivePreview.Backend.Call
import Mathlib.Logic.Function.Basic

/-!
# Texts of files

What a document is to other programs is the text of its file.  `Texts` are the texts of all
files, which change by one `Write` at a time; paths with the same components name the same
file.
-/

namespace LivePreview

theorem Path.same_iff {p q : Path} : p.same q = true ↔ p.components = q.components := by
  rw [Path.same, beq_iff_eq]

theorem Path.same_refl (p : Path) : p.same p = true :=
  same_iff.mpr rfl

/-- A text on its way to a file. -/
structure Write where
  path : Path
  text : String
  deriving DecidableEq

/-- The texts of files, by the components of their paths. -/
structure Texts where
  file : List Path.Component → Option String

namespace Texts

variable {texts : Texts} {w : Write} {path : Path}

def read (texts : Texts) (path : Path) : Option String :=
  texts.file path.components

def store (texts : Texts) (w : Write) : Texts :=
  ⟨Function.update texts.file w.path.components (some w.text)⟩

theorem read_of_same {other : Path} (same : path.same other) :
    texts.read path = texts.read other :=
  congrArg texts.file (Path.same_iff.mp same)

theorem read_store_same (here : w.path.same path) : (texts.store w).read path = some w.text := by
  rw [read, ← Path.same_iff.mp here]
  exact Function.update_self ..

theorem read_store_other (elsewhere : ¬ w.path.same path) :
    (texts.store w).read path = texts.read path :=
  Function.update_of_ne (fun same => elsewhere (Path.same_iff.mpr same.symm)) _ _

/-- After a write a file has the text that was written, or it was another one that changed. -/
theorem read_store (texts : Texts) (w : Write) (path : Path) :
    w.path.same path ∧ (texts.store w).read path = some w.text ∨
      (texts.store w).read path = texts.read path := by
  by_cases here : w.path.same path
  · exact .inl ⟨here, read_store_same here⟩
  · exact .inr (read_store_other here)

end Texts

/-- What a call writes to a file, if it writes a text. -/
def Call.write? : Call → Option Write
  | .persistSource path text => some ⟨path, text⟩
  | .createFile path text => some ⟨path, text⟩
  | _ => none

end LivePreview
