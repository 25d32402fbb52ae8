import LivePreview.Link.Host

/-!
# Link targets

`check` decides whether a text is an absolute URL and, if it is not, why.  Only
the scheme, the host and the port can make it fail; everything after them is
escaped as needed.  Control characters and blanks around the text do not count,
and neither do tabs and line breaks inside it.
-/

namespace LivePreview.Link

def significant (text : String) : List Char :=
  let isOuter (c : Char) : Bool := c.toNat ≤ 0x20
  let cs := (text.toList.dropWhile isOuter).reverse.dropWhile isOuter
  cs.reverse.filter fun c => c ≠ '\t' && c ≠ '\n' && c ≠ '\r'

/-- The scheme in lower case, and what follows its colon. -/
def scheme? (cs : List Char) : Option (String × List Char) :=
  match cs with
  | [] => none
  | c :: _ =>
    if c.isAlpha then
      let (scheme, rest) := cs.span fun c => c.isAlphanum || c = '+' || c = '-' || c = '.'
      match rest with
      | ':' :: rest => some (String.ofList (scheme.map Char.toLower), rest)
      | _ => none
    else none

def webSchemes : List String :=
  ["http", "https", "ws", "wss", "ftp"]

def endsAuthority (web : Bool) (c : Char) : Bool :=
  c = '/' || c = '?' || c = '#' || (web && c = '\\')

/-- The text before the last `@` and the text after it. -/
def splitLastAt? (cs : List Char) : Option (List Char × List Char) :=
  let back := cs.reverse
  match back.dropWhile (· ≠ '@') with
  | [] => none
  | _ :: before => some (before.reverse, (back.takeWhile (· ≠ '@')).reverse)

/-- The characters of a host: up to a colon outside of brackets. -/
def hostChars (inBrackets : Bool) : List Char → List Char × List Char
  | [] => ([], [])
  | c :: cs =>
    if c = ':' && !inBrackets then ([], c :: cs)
    else
      let inside := if c = '[' then true else if c = ']' then false else inBrackets
      let (host, rest) := hostChars inside cs
      (c :: host, rest)

def checkPort (cs : List Char) : Except LinkError Unit :=
  if cs.all Char.isDigit && (baseValue? 10 cs).any (· < 65536) then .ok () else .error .port

/-- Checks user, host and port, which end where `authority` ends; `closed` says
    whether something follows them. -/
def checkAuthority (web closed : Bool) (authority : List Char) : Except LinkError Unit := do
  let (user, place) := (splitLastAt? authority).getD ([], authority)
  if (splitLastAt? authority).isSome && user.isEmpty && place.isEmpty && closed then
    throw .emptyHost
  let (host, port) := hostChars false place
  if web then
    if host.isEmpty then throw .emptyHost
    checkHost host
  else
    checkOpaqueHost host
    if host.isEmpty && port.head? = some ':' then throw .emptyHost
  match port with
  | ':' :: digits => checkPort digits
  | _ => pure ()
  if host.isEmpty && !(user.isEmpty || user = [':']) then throw .emptyHost

/-- Whether a text is a drive letter of a file path. -/
def isDrive : List Char → Bool
  | [letter, mark] => letter.isAlpha && (mark = ':' || mark = '|')
  | _ => false

def checkFile (cs : List Char) : Except LinkError Unit :=
  let isSlash (c : Char) : Bool := c = '/' || c = '\\'
  match cs with
  | a :: b :: rest =>
    if isSlash a && isSlash b then
      let host := rest.takeWhile fun c => !endsAuthority true c
      if host.isEmpty || isDrive host then .ok () else checkHost host
    else .ok ()
  | _ => .ok ()

def check (text : String) : Except LinkError Unit :=
  match scheme? (significant text) with
  | none => .error .noScheme
  | some (scheme, rest) =>
    if scheme = "file" then checkFile rest
    else
      let web := scheme ∈ webSchemes
      let authority (cs : List Char) : Except LinkError Unit :=
        let inside := cs.takeWhile fun c => !endsAuthority web c
        checkAuthority web (inside.length < cs.length) inside
      if web then authority (rest.dropWhile fun c => c = '/' || c = '\\')
      else
        match rest with
        | '/' :: '/' :: rest => authority rest
        | _ => .ok ()

end LivePreview.Link
