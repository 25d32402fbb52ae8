import LivePreview.Backend.Mapping
import LivePreview.Document.Buffer
import LivePreview.Preview.Splice

/-!
# Cycles

A compile cycle writes the source through, compiles it, shows the diagnostics and
renders; a render cycle places the cursor, counts the pages, chooses a plan,
fetches pages and splices them in:

```text
compile   persist → compile → render
render    cursor → page count → plan → fetch → splice
```

A cycle runs in steps with one backend call between each two.  `Cycle` says where
it waits, `Cycle.call` what for, and `Cycle.resume` is the step after the reply.
Steps of several cycles may be interleaved; a cycle that resumes with a stale
ticket ends at once and changes nothing.
-/

namespace LivePreview.Preview

/-- Where an operation stands after a step: it waits, or it has ended. -/
inductive Progress (σ : Type) (ρ : Type) where
  | waits (stage : σ)
  | ended (result : ρ)
  deriving DecidableEq

/-- What a render cycle did. -/
structure RenderReport where
  plan : Plan
  /-- The number of slots after the splice. -/
  total : Nat
  changed : List Nat
  hits : Nat
  misses : Nat
  deriving DecidableEq, Repr, Inhabited

/-- How a cycle ends. -/
inductive Outcome where
  | rendered (report : RenderReport)
  /-- The failure was reported; the last preview is still shown. -/
  | failed (kind : FailureKind)
  /-- Something newer was started meanwhile. -/
  | superseded
  deriving DecidableEq, Repr, Inhabited

/-- A render under way, alone or as the end of a compile cycle. -/
structure Render where
  source : Snapshot
  compile : Option Ticket
  ticket : Ticket
  deriving DecidableEq, Repr

/-- Where a cycle waits for a reply. -/
inductive Cycle where
  | persisting (source : Snapshot) (ticket : Ticket)
  | compiling (source : Snapshot) (ticket : Ticket)
  /-- For the place of the cursor. -/
  | locating (render : Render)
  | counting (render : Render) (cursor : Option Position)
  | fetchingAll (render : Render) (cursor : Option Position)
  | fetchingPage (render : Render) (cursor : Option Position) (index : Nat)
  deriving DecidableEq

namespace Cycle

@[reducible] def call : Cycle → Call
  | .persisting source _ => .persistSource source.path source.content
  | .compiling _ _ => .compile
  | .locating r => .resolveCursorPosition r.source.cursor r.source.content r.source.path
  | .counting _ _ => .pageCount
  | .fetchingAll _ _ => .renderAllPages
  | .fetchingPage _ _ index => .renderPage index

/-- What the reply is called when it comes too late. -/
def label : Cycle → String
  | .persisting _ _ => "persist"
  | .compiling _ _ => "compile"
  | .locating _ => "cursor mapping"
  | .counting _ _ => "page count"
  | .fetchingAll _ _ => "pages"
  | .fetchingPage _ _ _ => "page"

end Cycle

namespace Render

/-- Whether something newer was started: a render, or a compile if this render
    belongs to one. -/
def isStale (r : Render) (e : Engine) : Bool :=
  !e.renders.isCurrent r.ticket || r.compile.any fun ticket => !e.compiles.isCurrent ticket

end Render

def Cycle.isStale (c : Cycle) (e : Engine) : Bool :=
  match c with
  | .persisting _ ticket => !e.compiles.isCurrent ticket
  | .compiling _ ticket => !e.compiles.isCurrent ticket
  | .locating r => r.isStale e
  | .counting r _ => r.isStale e
  | .fetchingAll r _ => r.isStale e
  | .fetchingPage r _ _ => r.isStale e

/-- A step of a cycle: the engine after it, and where the cycle stands. -/
abbrev CycleStep : Type :=
  Engine × Progress Cycle Outcome

namespace Engine

/-- Ends a cycle with a failure, which is stored and reported once. -/
def fail (e : Engine) (f : Failure) : CycleStep :=
  let e := { e with state := { e.state with lastError := some f.message } }
  let e := (e.setPhase .error).settlePhase.notify .error f.message
  (e, .ended (.failed f.kind))

def finishCompile (e : Engine) (ticket : Ticket) : Engine :=
  if e.state.pendingCompile = some ticket then
    { e with state := { e.state with pendingCompile := none } }
  else e

def replaceDiagnostics (e : Engine) (source : Snapshot) (diagnostics : List Diagnostic) :
    Engine :=
  let markers := Marker.project source.content diagnostics
  ({ e with state := { e.state with diagnostics, markers } }).emit (.diagnostics markers)

/-! ## The steps of a compile cycle -/

def startCompile (e : Engine) (source : Snapshot) : Engine × Cycle :=
  let (ticket, compiles) := e.compiles.issue
  let e := { e with compiles }
  let e := e.debug "compile" s!"cycle #{ticket.number} for {source.path.text}"
  let e := { e with state := { e.state with pendingCompile := some ticket } }
  (e.setPhase .compiling, .persisting source ticket)

def startRender (e : Engine) (source : Snapshot) (compile : Option Ticket) : Engine × Cycle :=
  let (ticket, renders) := e.renders.issue
  (({ e with renders }).setPhase .rendering, .locating ⟨source, compile, ticket⟩)

def afterPersist (e : Engine) (source : Snapshot) (ticket : Ticket)
    (reply : Except Failure Unit) : CycleStep :=
  match reply with
  | .error f => (e.finishCompile ticket).fail f
  | .ok _ => (e, .waits (.compiling source ticket))

/-- After the compile.  A rejected source still shows where it went wrong. -/
def afterCompile (e : Engine) (source : Snapshot) (ticket : Ticket)
    (reply : Except Failure (List Diagnostic)) : CycleStep :=
  let e := e.finishCompile ticket
  match reply with
  | .ok diagnostics =>
    let warnings := (Diagnostic.tally diagnostics).2
    let e :=
      if 0 < warnings then e.log "warning" s!"{warnings} warning(s) in {source.path.text}" else e
    let (e, cycle) := (e.replaceDiagnostics source diagnostics).startRender source (some ticket)
    (e, .waits cycle)
  | .error (.compile diagnostics) =>
    (e.replaceDiagnostics source diagnostics).fail (.compile diagnostics)
  | .error f => e.fail f

/-! ## The steps of a render cycle -/

/-- After the place of the cursor was asked for.  A cursor without a place is no
    failure of the cycle. -/
def afterLocate (e : Engine) (r : Render) (reply : Except Failure (Option Position)) : CycleStep :=
  match locateCursor reply with
  | .ok p => (e, .waits (.counting r (some p)))
  | .error .mappingNotFound =>
    (e.debug "render" s!"cursor {r.source.cursor} has no page, rendering all",
      .waits (.counting r none))
  | .error f => (e.log "warning" s!"cursor mapping failed: {f.message}", .waits (.counting r none))

/-- After the pages were counted: the plan. -/
def afterCount (e : Engine) (r : Render) (cursor : Option Position)
    (reply : Except Failure Nat) : CycleStep :=
  match reply with
  | .error f => e.fail f
  | .ok count =>
    let plan := Plan.choose e.state.pages.length count cursor
    let e := e.debug "render" s!"{plan.label} render, {count} page(s)"
    match plan with
    | .full => (e, .waits (.fetchingAll r cursor))
    | .single index => (e, .waits (.fetchingPage r cursor index))

/-- After the splice: the position follows the cursor, or stays as near as the page
    list allows. -/
def afterSplice (e : Engine) (cursor : Option Position) (plan : Plan) (spliced : Spliced) :
    CycleStep :=
  let total := e.state.pages.length
  let position := (cursor.getD e.state.position).clamp total
  let moved := !position.samePoint e.state.position
  let e := { e with state := { e.state with position, lastError := none } }
  let e :=
    if plan = .full ∨ spliced.changed ≠ [] then e.emit (.pagesChanged spliced.changed total) else e
  let e := if moved then e.emit (.positionChanged position) else e
  let e := e.settlePhase.debug "cache"
    s!"{spliced.hits} hit(s), {spliced.misses} miss(es), {total} page(s) shown"
  (e, .ended (.rendered ⟨plan, total, spliced.changed, spliced.hits, spliced.misses⟩))

/-- Takes over the state after a splice and ends the cycle. -/
def endRender (e : Engine) (cursor : Option Position) (plan : Plan) (splice : SpliceResult) :
    CycleStep :=
  let e := ({ e with state := splice.state }).say splice.lines
  match splice.result with
  | .error f => e.fail f
  | .ok spliced => e.afterSplice cursor plan spliced

variable [ImageDecoder]

def afterFetchAll (e : Engine) (cursor : Option Position) (reply : Except Failure (List Page)) :
    CycleStep :=
  match reply with
  | .error f => e.fail f
  | .ok pages => e.endRender cursor .full (spliceAll e.state pages)

/-- After one page was fetched, which must be the one asked for. -/
def afterFetchPage (e : Engine) (cursor : Option Position) (index : Nat)
    (reply : Except Failure Page) : CycleStep :=
  match reply with
  | .error f => e.fail f
  | .ok page =>
    if page.index ≠ index then
      e.fail (.transport .renderPage s!"asked for page {index}, got page {page.index}")
    else e.endRender cursor (.single index) (spliceOne e.state page)

end Engine

/-- The step after the reply to the call a cycle waits for. -/
def Cycle.resume [ImageDecoder] (e : Engine) (c : Cycle) (reply : c.call.Reply) : CycleStep :=
  if c.isStale e then
    (e.debug "preview" s!"dropped stale {c.label} result", .ended .superseded)
  else
    match c, reply with
    | .persisting source ticket, reply => e.afterPersist source ticket reply
    | .compiling source ticket, reply => e.afterCompile source ticket reply
    | .locating r, reply => e.afterLocate r reply
    | .counting r cursor, reply => e.afterCount r cursor reply
    | .fetchingAll _ cursor, reply => e.afterFetchAll cursor reply
    | .fetchingPage _ cursor index, reply => e.afterFetchPage cursor index reply

end LivePreview.Preview
