/-!
# Byte positions and character offsets

A position in a text is counted in bytes of its UTF-8 form by the compiler and
in characters by the editor.  `charOffset` converts the first into the second:
it is the number of characters that lie wholly before the byte position.
-/

namespace LivePreview.Text

/-- The characters that fit into the first `bytes` bytes. -/
def charsWithin : List Char → Nat → Nat
  | [], _ => 0
  | c :: cs, bytes =>
    if c.utf8Size ≤ bytes then charsWithin cs (bytes - c.utf8Size) + 1 else 0

/-- The character offset of a byte position.  A position inside a character
    counts as the start of that character, one past the end as the end. -/
def charOffset (text : String) (bytes : Nat) : Nat :=
  charsWithin text.toList bytes

theorem charsWithin_le_length (cs : List Char) (bytes : Nat) :
    charsWithin cs bytes ≤ cs.length := by
  induction cs generalizing bytes with
  | nil => simp [charsWithin]
  | cons c cs ih =>
    unfold charsWithin
    split
    · simpa using ih _
    · simp

end LivePreview.Text
