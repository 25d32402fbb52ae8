import LivePreview.Application.Report

/-!
# Preview and export

Two commands that open a document, do one thing with it, and end.
-/

namespace LivePreview.Application

open CommandLine (DocumentOptions ExportKind ReportFormat)
open Host (Environment)

variable [ImageDecoder]

/-- Compiles and draws a document and reports how that went. -/
def preview (env : Environment) (config : Config) (verbose : Bool) (options : DocumentOptions)
    (format : ReportFormat) : Attempt Unit := do
  let document ← Document.find options
  inSession env config verbose do
    let outcome ← Work.openDocument document (options.cursor.getD 0)
    let report := Report.make (document.shown document.main) outcome (← get).session
    match format with
    | .json => Work.print (report.toJson.pretty ++ "\n")
    | .text =>
      Work.logEvents
      Work.say report.lines
    match outcome with
    | .failed kind => throw (.previewFailed kind)
    | _ => pure ()

/-- Exports a document.  One that does not compile is not exported. -/
def exportDocument (env : Environment) (config : Config) (verbose : Bool)
    (options : DocumentOptions) (kind : ExportKind) (pages : Option PageRange)
    (output : Option Path) : Attempt Unit := do
  match kind.format? pages config.backend.ppi with
  | none => throw .pagesNotAllowed
  | some format =>
    let document ← Document.find options
    inSession env config verbose do
      match ← Work.openDocument document (options.cursor.getD 0) with
      | .failed kind =>
        Work.logEvents
        throw (.nothingExported kind)
      | _ =>
        let target := CommandLine.exportTarget document.main format output
        let result ← Work.act (.export format target)
        Work.logEvents
        match result with
        | .exported result =>
          let written ← Work.orFault result
          Work.say [.debug "export" s!"wrote {written.text}"]
        | _ => pure ()

end LivePreview.Application
