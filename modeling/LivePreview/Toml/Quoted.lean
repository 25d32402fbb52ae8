import LivePreview.Text.Basic
import LivePreview.Text.Hex

/-!
# Quoted text

A text stands between double quotes, where a backslash starts an escape, or between
single quotes, where nothing does.  Three quotes instead of one let it go over
several lines.  Every function takes the characters after the opening quotes and
answers the text with the characters after the closing ones.
-/

namespace LivePreview.Toml

/-- The characters that may stand in a text or a comment as they are. -/
def isPrintable (c : Char) : Bool :=
  c == '\t' || (32 ≤ c.toNat && c.toNat != 127)

def isBlank (c : Char) : Bool :=
  c == ' ' || c == '\t'

def dropBlanks (cs : List Char) : List Char :=
  cs.dropWhile isBlank

/-- What follows a line end, if the text starts with one. -/
def lineEnd? : List Char → Option (List Char)
  | '\n' :: rest => some rest
  | '\r' :: '\n' :: rest => some rest
  | _ => none

/-- Text without the blanks and line ends it starts with. -/
def dropLines : List Char → List Char
  | '\r' :: '\n' :: rest => dropLines rest
  | c :: rest => if isBlank c || c == '\n' then dropLines rest else c :: rest
  | [] => []

theorem dropLines_length (cs : List Char) : (dropLines cs).length ≤ cs.length := by
  fun_induction dropLines cs <;> simp_all <;> lia

/-! ## Escapes -/

def numbered? (digits : List Char) : Option Char := do
  let values ← digits.mapM Text.hexValue?
  let n := values.foldl (fun n d => 16 * n + d) 0
  if n < 0xD800 ∨ (0xE000 ≤ n ∧ n < 0x110000) then some (Char.ofNat n) else none

/-- The character that an escape stands for, from the character after the backslash
    on. -/
def escaped? : List Char → Option (Char × List Char)
  | 'b' :: rest => some ('\x08', rest)
  | 'f' :: rest => some ('\x0c', rest)
  | 'n' :: rest => some ('\n', rest)
  | 'r' :: rest => some ('\r', rest)
  | 't' :: rest => some ('\t', rest)
  | '\\' :: rest => some ('\\', rest)
  | '"' :: rest => some ('"', rest)
  | 'u' :: a :: b :: c :: d :: rest => (numbered? [a, b, c, d]).map fun value => (value, rest)
  | 'U' :: a :: b :: c :: d :: e :: f :: g :: h :: rest =>
    (numbered? [a, b, c, d, e, f, g, h]).map fun value => (value, rest)
  | _ => none

theorem escaped?_length {cs rest : List Char} {c : Char} (h : escaped? cs = some (c, rest)) :
    rest.length < cs.length := by
  unfold escaped? at h
  split at h <;> simp_all <;> grind

/-! ## Double quotes -/

/-- Text on one line; `back` holds what was read of it, last character first. -/
def basic? (back : List Char) (cs : List Char) : Option (String × List Char) :=
  match cs with
  | [] => none
  | '"' :: rest => some (String.ofList back.reverse, rest)
  | '\\' :: rest =>
    match h : escaped? rest with
    | none => none
    | some (c, rest) =>
      have := escaped?_length h
      basic? (c :: back) rest
  | c :: rest => if isPrintable c then basic? (c :: back) rest else none
termination_by cs.length

/-- Text on several lines.  Up to two of the quotes that end it belong to it.  A
    backslash at the end of a line joins the lines, without the blanks between. -/
def basicLines? (back : List Char) (cs : List Char) : Option (String × List Char) :=
  match cs with
  | [] => none
  | '"' :: '"' :: '"' :: rest =>
    match rest with
    | '"' :: '"' :: rest => some (String.ofList ('"' :: '"' :: back).reverse, rest)
    | '"' :: rest => some (String.ofList ('"' :: back).reverse, rest)
    | rest => some (String.ofList back.reverse, rest)
  | '\\' :: rest =>
    if (lineEnd? (dropBlanks rest)).isSome then
      have := dropLines_length rest
      basicLines? back (dropLines rest)
    else
      match h : escaped? rest with
      | none => none
      | some (c, rest) =>
        have := escaped?_length h
        basicLines? (c :: back) rest
  | '\r' :: '\n' :: rest => basicLines? ('\n' :: back) rest
  | c :: rest => if isPrintable c || c == '\n' then basicLines? (c :: back) rest else none
termination_by cs.length

/-! ## Single quotes -/

def literal? (back : List Char) : List Char → Option (String × List Char)
  | [] => none
  | '\'' :: rest => some (String.ofList back.reverse, rest)
  | c :: rest => if isPrintable c then literal? (c :: back) rest else none

def literalLines? (back : List Char) : List Char → Option (String × List Char)
  | [] => none
  | '\'' :: '\'' :: '\'' :: rest =>
    match rest with
    | '\'' :: '\'' :: rest => some (String.ofList ('\'' :: '\'' :: back).reverse, rest)
    | '\'' :: rest => some (String.ofList ('\'' :: back).reverse, rest)
    | rest => some (String.ofList back.reverse, rest)
  | '\r' :: '\n' :: rest => literalLines? ('\n' :: back) rest
  | c :: rest => if isPrintable c || c == '\n' then literalLines? (c :: back) rest else none

/-! ## Both -/

def lineText? : List Char → Option (String × List Char)
  | '"' :: rest => basic? [] rest
  | '\'' :: rest => literal? [] rest
  | _ => none

def dropLineEnd (cs : List Char) : List Char :=
  (lineEnd? cs).getD cs

def text? : List Char → Option (String × List Char)
  | '"' :: '"' :: '"' :: rest => basicLines? [] (dropLineEnd rest)
  | '\'' :: '\'' :: '\'' :: rest => literalLines? [] (dropLineEnd rest)
  | cs => lineText? cs

end LivePreview.Toml
