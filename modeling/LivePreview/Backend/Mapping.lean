import LivePreview.Backend.Call
import LivePreview.Link.Target

/-!
# Answers about places

What the engine makes of the backend's answers about places: a cursor without a
place in the preview is a failure of its own, and an external link is checked
before anyone follows it.
-/

namespace LivePreview

def locateCursor (reply : Except Failure (Option Position)) : Except Failure Position :=
  match reply with
  | .error f => .error f
  | .ok none => .error .mappingNotFound
  | .ok (some p) => .ok p

def checkJump (reply : Except Failure Jump) : Except Failure Jump :=
  match reply with
  | .error f => .error f
  | .ok (.url url) =>
    match Link.check url with
    | .ok () => .ok (.url url)
    | .error e =>
      .error (.transport .resolveClick s!"invalid link target `{url}`: {e.message}")
  | .ok jump => .ok jump

end LivePreview
