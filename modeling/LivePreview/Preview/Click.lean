import LivePreview.Number.Shortest
import LivePreview.Preview.Cycle

/-!
# Clicks and resets

A click asks the backend what lies under a point of the preview, and acts on the
answer unless a newer click was made meanwhile.  A jump into a file is left to the
editing session.  `reset` forgets everything tied to the current main document;
cycles and clicks under way become stale.
-/

namespace LivePreview.Preview

/-- A click that waits for what lies under it. -/
structure Click where
  ticket : Ticket
  text : String
  page : Nat
  x : Float
  y : Float
  deriving DecidableEq

namespace Click

@[reducible] def call (click : Click) : Call :=
  .resolveClick click.text click.page click.x click.y

def isStale (click : Click) (e : Engine) : Bool :=
  !e.clicks.isCurrent click.ticket

end Click

namespace Engine

def startClick (e : Engine) (text : String) (page : Nat) (x y : Float) : Engine × Click :=
  let (ticket, clicks) := e.clicks.issue
  ({ e with clicks }, ⟨ticket, text, page, x, y⟩)

def follow (e : Engine) (jump : Jump) : Engine :=
  match jump with
  | .position target =>
    let position := target.clamp e.state.pages.length
    ({ e with state := { e.state with position } }).emit (.positionChanged position)
  | .url url => e.emit (.openUrl url)
  | .file _ _ => e
  | .nowhere => e.notify .info "nothing to jump to here"

/-- Forgets everything tied to the current main document. -/
def reset (e : Engine) : Engine :=
  let state : State :=
    { e.state with
      cache := e.state.cache.clear
      pages := []
      diagnostics := []
      markers := []
      position := .origin
      lastError := none
      pendingCompile := none }
  let e : Engine :=
    { e with
      state
      compiles := e.compiles.invalidate
      renders := e.renders.invalidate
      clicks := e.clicks.invalidate }
  let e := e.debug "cache" "cleared for new main document"
  ((e.emit (.pagesChanged [] 0)).emit (.diagnostics [])).setPhase .idle

end Engine

/-- The step after the reply to a click.  Its result is what lies under the click,
    or nothing if that is unknown or no longer wanted. -/
def Click.resume (e : Engine) (click : Click) (reply : Except Failure Jump) :
    Engine × Option Jump :=
  if click.isStale e then (e.debug "click" s!"dropped stale click #{click.ticket.number}", none)
  else
    match checkJump reply with
    | .error f => ((e.debug "click" s!"page {click.page} failed").notify .error f.message, none)
    | .ok jump =>
      let x := Number.onePlaceText click.x
      let y := Number.onePlaceText click.y
      let e := e.debug "click" s!"page {click.page} ({x}, {y}) -> {jump.label}"
      (e.follow jump, some jump)

end LivePreview.Preview
