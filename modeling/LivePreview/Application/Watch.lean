import LivePreview.Application.Opening
import LivePreview.Watch.Reload

/-!
# Watching a document

While a document is watched, a status block shows how the last compile ended, and
the log shows the rest.  A change on disk makes a compile due, unless it is the
program's own: compiling writes the buffer to the main document, so a notification
of a text that the buffer already has is no change.
-/

namespace LivePreview.Application

open CommandLine (DocumentOptions)
open Console (Status StatusBlock)
open Host (Environment Program)
open Preview (Outcome)

variable [ImageDecoder]

namespace Work

def markerDetail : Work String := do
  let lines := (← get).session.markers.map fun m => s!"{m.severity.label}: {m.message}"
  pure (Text.joined "\n" lines)

def showStatus (status : Status) : Work Unit := do
  let time ← (Program.request .time : Program String)
  let (commands, block) := (← get).status.display time status
  modify fun d => { d with status := block }
  print (Console.render commands)

/-- Shows an event: a failure in the status block, together with the markers, and any
    other event in the log. -/
def showEvent (event : Event) : Work Unit := do
  match event.errorMessage? with
  | some message => showStatus (.error message (← markerDetail))
  | none => say event.logLine?.toList

def showEvents : Work Unit := do
  for event in ← takeEvents do
    showEvent event

/-- Shows how a cycle ended.  Failures are shown by their events. -/
def showOutcome (outcome : Outcome) : Work Unit := do
  match outcome with
  | .rendered report =>
    let summary :=
      s!"{report.total} page(s), {report.changed.length} changed ({report.plan.label} render)"
    let detail ← markerDetail
    showStatus (if detail.isEmpty then .success summary else .warning (summary ++ "\n" ++ detail))
  | _ => pure ()

/-- Brings the buffer in line with a changed file.  Answers whether a compile is due. -/
def reload (document : Document) (cursor : Nat) (path : Path) : Work Bool := do
  if !path.same document.main then
    say [.debug "watch" s!"changed {(document.shown path).text}"]
    pure true
  else
    let reply ← (Program.readText path : Program _)
    match Watch.response (← get).session path reply with
    | none => pure false
    | some action =>
      say [.debug "watch" s!"reloading {(document.shown path).text}"]
      let result ← act action
      modifyGet fun d =>
        let (session, due) := Watch.afterOpen d.session cursor result
        (due, { d with session })

def compile : Work (Option Outcome) := do
  match ← act .compile with
  | .cycled outcome => pure outcome
  | _ => pure none

end Work

/-- Watches a document: opens it and shows how that went, and stops when it is told
    to. -/
def watch (env : Environment) (config : Config) (verbose : Bool) (options : DocumentOptions) :
    Attempt Unit := do
  let document ← Document.find options
  inSession env config verbose do
    let outcome ← Work.openDocument document (options.cursor.getD 0)
    Work.showEvents
    Work.showOutcome outcome
    Work.say [.log "watch" s!"watching {document.root.text}"]
    Work.say [.log "watch" "stopped"]

end LivePreview.Application
