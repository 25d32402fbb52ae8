import LivePreview.Session.Operation

/-!
# Reloading a document

Compiling writes the buffer to the main document, so a change after which the file has the text
of the buffer is taken for the program's own.  After any other one the document is opened again,
with the cursor where it was.
-/

namespace LivePreview.Watch

open Session (Action Result)

/-- What the text of a changed document calls for.  Nothing, if it is that of the buffer; nor if
    it could not be read, since there will be another change. -/
def response (s : Session) (path : Path) (reply : Except SystemError String) : Option Action :=
  match reply with
  | .error _ => none
  | .ok content =>
    if s.snapshot.any fun source => source.content == content then none
    else some (.openFile path)

/-- The end of a reload.  Says whether a compile is due. -/
def afterOpen (s : Session) (cursor : Nat) (result : Result) : Session × Bool :=
  match result with
  | .opened (.ok _) => ((s.moveCursor cursor).1, true)
  | _ => (s, false)

end LivePreview.Watch
