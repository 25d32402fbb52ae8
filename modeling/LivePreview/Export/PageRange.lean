import LivePreview.Text.Basic
import LivePreview.Text.Digits

/-!
# Page ranges

A page range is an inclusive range of one-based page numbers.  It is written as
one number, or as two numbers with a dash between them; blanks around a number
do not matter.
-/

namespace LivePreview

/-- The pages from `start` to `stop`. -/
structure PageRange where
  start : Nat
  stop : Nat
  deriving DecidableEq, Repr, Inhabited

namespace PageRange

/-- Whether the range names at least one page and no page before the first. -/
def Valid (r : PageRange) : Prop :=
  1 ≤ r.start ∧ r.start ≤ r.stop

instance (r : PageRange) : Decidable r.Valid :=
  inferInstanceAs (Decidable (_ ∧ _))

def make? (start stop : Nat) : Option PageRange :=
  let r : PageRange := ⟨start, stop⟩
  if r.Valid then some r else none

def isSingle (r : PageRange) : Bool :=
  r.start == r.stop

def write (r : PageRange) : String :=
  if r.isSingle then toString r.start else s!"{r.start}-{r.stop}"

/-- Why a text is no page range. -/
inductive ReadError where
  | number (text : String)
  | range (text : String)
  deriving DecidableEq, Repr

def ReadError.message : ReadError → String
  | .number text => s!"invalid page number `{text}`"
  | .range text => s!"invalid page range `{text}`"

def readNumber (cs : List Char) : Except ReadError Nat :=
  match Text.word? (Text.trim cs) with
  | some n => .ok n
  | none => .error (.number (String.ofList (Text.trim cs)))

/-- The numbers on both sides of the first dash; without a dash they are the same. -/
def readNumbers (cs : List Char) : Except ReadError (Nat × Nat) :=
  match Text.splitOnce? '-' cs with
  | some (before, after) =>
    match readNumber before with
    | .error e => .error e
    | .ok start => (readNumber after).map fun stop => (start, stop)
  | none => (readNumber cs).map fun n => (n, n)

def read (text : String) : Except ReadError PageRange :=
  match readNumbers text.toList with
  | .error e => .error e
  | .ok (start, stop) =>
    match make? start stop with
    | some r => .ok r
    | none => .error (.range text)

end PageRange

end LivePreview
