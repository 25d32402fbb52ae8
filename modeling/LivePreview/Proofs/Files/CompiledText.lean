import LivePreview.Page.Decoder
import LivePreview.Proofs.Files.Service
import LivePreview.Proofs.Preview.Showing

/-!
# The text that is compiled

A compile reads the main document after its own source was written there.  Tickets keep the
answers of overtaken cycles away from the preview, but not their writes away from the file: one
that is still on its way when the source has landed may land in between, and then its text is
compiled.  Nothing else can come in between (`compiled_text_shown`), and this can
(`overtaken_text_shown`).
-/

namespace LivePreview.BusyFiles

open Preview (Activity Coupling Cycle Demand Ending Errand Ledger Progress Ticket BusyEngine)

variable {main : Path}

abbrev Moves (main : Path) : Type :=
  List (Move (Coupling (service main)) (Option BusyEngine.Act))

/-- Nothing is under way, and the files have these texts. -/
def fresh (main : Path) (capacity : Nat) (texts : Texts) : Coupling (service main) :=
  .idle (.start capacity) (BusyFiles.mk texts [])

/-! ## Compiles that were started -/

/-- A compile of a source was started, with this ticket. -/
def Started (moves : Moves main) (source : Snapshot) (ticket : Ticket) : Prop :=
  ∃ u v, ⟨u, some (.starts (.compile source) (.cycle (.persisting source ticket))), v⟩ ∈ moves

section Started

variable {capacity : Nat} {texts : Texts} {moves moves' : Moves main}
  {s t : Coupling (service main)} {act : Option BusyEngine.Act}
  {source other : Snapshot} {ticket : Ticket} {w : Write}

theorem Started.mono (started : Started moves source ticket) (grows : moves ⊆ moves') :
    Started moves' source ticket := by
  obtain ⟨u, v, mem⟩ := started
  exact ⟨u, v, grows mem⟩

variable [ImageDecoder]

theorem latest_le (step : Coupling.Step s act t) :
    s.engine.compiles.latest ≤ t.engine.compiles.latest := by
  have seen := step.busyEngine
  cases act with
  | none => exact Nat.le_of_eq (congrArg (fun t => t.engine.compiles.latest) seen).symm
  | some act => exact seen.before.compiles

/-- A compile that starts takes the next ticket. -/
theorem ticket_of_starts {activity : Activity}
    (step : Coupling.Step s (some (.starts (.compile source) activity)) t) :
    activity = .cycle (.persisting source ⟨s.engine.compiles.latest + 1⟩) ∧
      t.engine.compiles.latest = s.engine.compiles.latest + 1 := by
  generalize same : some (BusyEngine.Act.starts (.compile source) activity) = act at step
  cases step with
  | starts demand =>
    cases same
    exact ⟨rfl, congrArg (fun k => k.compiles.latest) (s.engine.startCompile_counters source)⟩
  | _ => cases same

theorem started_snoc (step : Coupling.Step s act t)
    (started : Started (moves ++ [⟨s, act, t⟩]) source ticket) :
    Started moves source ticket ∨ ticket.number = s.engine.compiles.latest + 1 ∧
      t.engine.compiles.latest = s.engine.compiles.latest + 1 ∧
      act = some (.starts (.compile source) (.cycle (.persisting source ticket))) := by
  obtain ⟨u, v, mem⟩ := started
  rcases List.mem_append.mp mem with old | new
  · exact .inl ⟨u, v, old⟩
  · cases List.mem_singleton.mp new
    obtain ⟨same, latest⟩ := ticket_of_starts step
    cases same
    exact .inr ⟨rfl, latest, rfl⟩

theorem Started.number_le (run : Run Coupling.Step (fresh main capacity texts) moves s)
    (started : Started moves source ticket) : ticket.number ≤ s.engine.compiles.latest := by
  induction run with
  | nil =>
    obtain ⟨u, v, mem⟩ := started
    cases mem
  | snoc earlier step inductionHypothesis =>
    rcases started_snoc step started with old | ⟨number, latest, -⟩
    · exact Nat.le_trans (inductionHypothesis old) (latest_le step)
    · exact Nat.le_of_eq (number.trans latest.symm)

/-- A ticket is given to one compile only. -/
theorem Started.unique (run : Run Coupling.Step (fresh main capacity texts) moves s)
    (started : Started moves source ticket) (started' : Started moves other ticket) :
    source = other := by
  induction run with
  | nil =>
    obtain ⟨u, v, mem⟩ := started
    cases mem
  | snoc earlier step inductionHypothesis =>
    rcases started_snoc step started with old | ⟨number, -, begun⟩ <;>
      rcases started_snoc step started' with old' | ⟨number', -, begun'⟩
    · exact inductionHypothesis old old'
    · have := old.number_le earlier
      omega
    · have := old'.number_le earlier
      omega
    · cases begun.symm.trans begun'
      rfl

/-- Whatever is on its way was written by a compile that was started. -/
theorem started_of_out (run : Run Coupling.Step (fresh main capacity texts) moves s)
    (out : Out s w) :
    ∃ source ticket, Started moves source ticket ∧ w = ⟨source.path, source.content⟩ := by
  induction run with
  | nil => rcases out with late | ⟨_, mem, _⟩ <;> cases ‹_ ∈ []›
  | snoc earlier step inductionHypothesis =>
    rcases out_of_step step out with old | ⟨source, ticket, rfl, rfl⟩
    · obtain ⟨source, ticket, started, same⟩ := inductionHypothesis old
      exact ⟨source, ticket, started.mono (List.subset_append_left ..), same⟩
    · exact ⟨source, ticket,
        ⟨_, _, List.mem_concat_self⟩, rfl⟩

end Started

/-! ## Whoever holds the latest ticket -/

/-- The write of a compile lands. -/
def Lands (move : Move (Coupling (service main)) (Option BusyEngine.Act)) (source : Snapshot)
    (ticket : Ticket) : Prop :=
  ⟨.cycle (.persisting source ticket), Standing.begun⟩ ∈ move.before.errands ∧
    ⟨.cycle (.persisting source ticket), Standing.landed⟩ ∈ move.after.errands

/-- The compile with this ticket has read this text, and was answered. -/
def Compiled (moves : Moves main) (ticket : Ticket) (text : String) : Prop :=
  ∃ u source reply progress v,
    ⟨u, some (.resumes (.cycle (.compiling source ticket)) reply progress), v⟩ ∈ moves ∧
      ⟨.cycle (.compiling source ticket), Standing.read text⟩ ∈ u.errands

/-- A text of the main document goes back to a source: it is its own, or it was still on its
    way when the source landed. -/
def Traced (main : Path) (source : Snapshot)
    (landing : Move (Coupling (service main)) (Option BusyEngine.Act)) (text : String) : Prop :=
  text = source.content ∨ ∃ w, Out landing.after w ∧ w.path.same main ∧ w.text = text

/-- The source of a compile has landed, and the main document has its text, or one that was
    still on its way then.  What is on its way now was so then. -/
def Settled (moves : Moves main) (s : Coupling (service main)) (source : Snapshot)
    (ticket : Ticket) : Prop :=
  ∃ landing ∈ moves, Lands landing source ticket ∧ (∀ w, Out s w → Out landing.after w) ∧
    ∀ text, (BusyFiles.texts s.service).read main = some text → Traced main source landing text

def Accounted (moves : Moves main) (source : Snapshot) (ticket : Ticket) (text : String) : Prop :=
  ∃ landing ∈ moves, Lands landing source ticket ∧ Traced main source landing text

/-- What the file and the answer to its call have to do with the source of a compile. -/
def Heeds (moves : Moves main) (s : Coupling (service main)) (ticket : Ticket) :
    Cycle → Standing → Prop
  | .persisting source _, standing => standing = .landed → Settled moves s source ticket
  | .compiling source _, standing =>
    (standing = .begun → Settled moves s source ticket) ∧
      ∀ text, standing = .read text → Accounted moves source ticket text
  | c, _ => ∃ text, Compiled moves ticket text ∧ Accounted moves c.source ticket text

section Steps

variable {moves moves' : Moves main} {s t : Coupling (service main)} {act : Option BusyEngine.Act}
  {source : Snapshot} {ticket : Ticket} {text : String}

theorem Compiled.mono (compiled : Compiled moves ticket text) (grows : moves ⊆ moves') :
    Compiled moves' ticket text := by
  obtain ⟨u, source, reply, progress, v, mem, read⟩ := compiled
  exact ⟨u, source, reply, progress, v, grows mem, read⟩

theorem Accounted.mono (accounted : Accounted moves source ticket text) (grows : moves ⊆ moves') :
    Accounted moves' source ticket text := by
  obtain ⟨landing, mem, traced⟩ := accounted
  exact ⟨landing, grows mem, traced⟩

/-- From stage to stage, with a reply that the call gives when it did what it is made for. -/
theorem Heeds.next {e : Preview.Engine} {c next : Cycle} {k : Preview.Counters}
    {standing : Standing} {reply : c.call.Reply} (heeds : Heeds moves s ticket c standing)
    (succeeds : c.Succeeds e reply next k)
    (did : (∃ answer, reply = .ok answer) → Did c.call standing)
    (compiled : ∀ text, c.call = .compile → standing = .read text → Compiled moves ticket text) :
    Heeds moves s ticket next .begun := by
  cases succeeds with
  | compiling source _ =>
    exact ⟨fun _ => heeds ((did ⟨_, rfl⟩).1 rfl), fun _ read => nomatch read⟩
  | locating source _ diagnostics =>
    obtain ⟨text, read⟩ := (did ⟨_, rfl⟩).2 rfl
    exact ⟨text, compiled text rfl read, heeds.2 text read⟩
  | _ => exact heeds

theorem did_of_answers {call : Call} {files files' : BusyFiles} {standing : Standing}
    {reply : call.Reply} (answers : Answers files standing reply files')
    (ok : ∃ answer, reply = .ok answer) : Did call standing := by
  obtain ⟨answer, rfl⟩ := ok
  cases answers with
  | done did => exact did

/-- The source has landed just now, so it is the text of the main document. -/
theorem settled_of_lands
    (waited : ⟨.cycle (.persisting source ticket), Standing.begun⟩ ∈ s.errands)
    (waits : ⟨.cycle (.persisting source ticket), Standing.landed⟩ ∈ t.errands)
    (landed : (BusyFiles.texts t.service).read main = some source.content) :
    Settled (moves ++ [⟨s, act, t⟩]) t source ticket :=
  ⟨⟨s, act, t⟩, List.mem_concat_self, ⟨waited, waits⟩,
    fun _ out => out, fun _ found => .inl (Option.some.inj (found.symm.trans landed))⟩

/-- A call of the holder goes on: it writes its source, or reads what was traced. -/
theorem Heeds.proceeds {c : Cycle} {standing standing' : Standing}
    (heeds : Heeds moves s ticket c standing) (onMain : c.source.path.same main)
    (held : ticket ∈ (Activity.cycle c).compileTicket?) (waited : ⟨.cycle c, standing⟩ ∈ s.errands)
    (waits : ⟨.cycle c, standing'⟩ ∈ t.errands)
    (proceeds : Proceeds c.call.write? (c.call.source? main) s.service standing standing'
      t.service) :
    Heeds (moves ++ [⟨s, act, t⟩]) t ticket c standing' := by
  generalize became : t.service = files at proceeds
  cases c with
  | persisting source own =>
    obtain rfl := Option.some.inj held
    rintro rfl
    cases proceeds with
    | lands writes =>
      obtain rfl := Option.some.inj writes
      exact settled_of_lands waited waits (became ▸ Texts.read_store_same onMain)
  | compiling source own =>
    refine ⟨?_, ?_⟩
    · rintro rfl
      exact absurd rfl (Proceeds.not_begun proceeds)
    · rintro text rfl
      cases proceeds with
      | reads asks found =>
        obtain rfl := Option.some.inj asks
        obtain ⟨landing, mem, lands, -, traced⟩ := heeds.1 rfl
        exact ⟨landing, List.mem_append_left _ mem, lands, traced text found⟩
  | _ =>
    obtain ⟨text, compiled, accounted⟩ := heeds
    have grows : moves ⊆ moves ++ [⟨s, act, t⟩] := List.subset_append_left ..
    exact ⟨text, compiled.mono grows, accounted.mono grows⟩

variable [ImageDecoder]

/-- As long as no other compile starts, only writes can land that were on their way before. -/
theorem Settled.snoc (settled : Settled moves s source ticket) (step : Coupling.Step s act t)
    (same : s.engine.compiles.latest = t.engine.compiles.latest) :
    Settled (moves ++ [⟨s, act, t⟩]) t source ticket := by
  obtain ⟨landing, mem, lands, still, traced⟩ := settled
  refine ⟨landing, List.mem_append_left _ mem, lands, fun w out => ?_, fun text found => ?_⟩
  · rcases out_of_step step out with old | ⟨source, ticket, rfl, -⟩
    · exact still w old
    · have := (ticket_of_starts step).2
      omega
  · rcases read_of_step step main with ⟨w, out, here, landed⟩ | unchanged
    · exact .inr ⟨w, still w out, here, Option.some.inj (landed.symm.trans found)⟩
    · exact traced text (unchanged ▸ found)

theorem Heeds.snoc {c : Cycle} {standing : Standing} (heeds : Heeds moves s ticket c standing)
    (step : Coupling.Step s act t)
    (same : s.engine.compiles.latest = t.engine.compiles.latest) :
    Heeds (moves ++ [⟨s, act, t⟩]) t ticket c standing := by
  have grows : moves ⊆ moves ++ [⟨s, act, t⟩] := List.subset_append_left ..
  cases c with
  | persisting source _ => exact fun landed => (heeds landed).snoc step same
  | compiling source _ =>
    exact ⟨fun begun => (heeds.1 begun).snoc step same,
      fun text read => (heeds.2 text read).mono grows⟩
  | _ =>
    obtain ⟨text, compiled, accounted⟩ := heeds
    exact ⟨text, compiled.mono grows, accounted.mono grows⟩

end Steps

/-! ## Every run -/

/-- Whoever holds the latest ticket, and compiles the main document, knows where the text comes
    from that is compiled. -/
def Held (moves : Moves main) (s : Coupling (service main)) : Prop :=
  ∀ errand ∈ s.errands, ∀ ticket ∈ errand.activity.compileTicket?,
    s.engine.compiles.isCurrent ticket → ∀ c standing, errand = ⟨.cycle c, standing⟩ →
      c.source.path.same main → Heeds moves s ticket c standing

/-- A text of an older compile, whose write was still on its way when that of this one had
    landed. -/
def Overtaken (moves : Moves main) (source : Snapshot) (ticket : Ticket) (text : String) : Prop :=
  ∃ older earlier landing, Started moves older earlier ∧ earlier.number < ticket.number ∧
    older.path.same main ∧ older.content = text ∧ landing ∈ moves ∧
    Lands landing source ticket ∧ Out landing.after ⟨older.path, older.content⟩

theorem Overtaken.mono {moves moves' : Moves main} {source : Snapshot} {ticket : Ticket}
    {text : String} (overtaken : Overtaken moves source ticket text) (grows : moves ⊆ moves') :
    Overtaken moves' source ticket text := by
  obtain ⟨older, earlier, landing, started, less, here, same, mem, rest⟩ := overtaken
  exact ⟨older, earlier, landing, started.mono grows, less, here, same, grows mem, rest⟩

/-- A compile that passes or refuses a source has read a text. -/
theorem read_of_reports {c : Cycle} {reply : c.call.Reply} {diagnostics : List Diagnostic}
    (reports : c.Reports reply diagnostics) {files files' : BusyFiles} {standing : Standing}
    (answers : Answers files standing reply files') {ticket : Ticket}
    (compiles : (Activity.cycle c).compileTicket? = some ticket) :
    ∃ source, c = .compiling source ticket ∧ ∃ text, standing = .read text := by
  cases reports with
  | passed source own diagnostics =>
    obtain rfl := Option.some.inj compiles
    exact ⟨source, rfl, (did_of_answers answers ⟨_, rfl⟩).2 rfl⟩
  | refused source own diagnostics =>
    obtain rfl := Option.some.inj compiles
    refine ⟨source, rfl, ?_⟩
    cases answers with
    | done did => exact did.2 rfl
    | fails _ other => exact absurd rfl (other diagnostics)
    | leaves writes => cases writes

section Runs

variable [ImageDecoder]

theorem Held.snoc {moves : Moves main} {record : List Nat} {s t : Coupling (service main)}
    {act : Option BusyEngine.Act} (known : Held moves s)
    (sound : Ledger.compiledFetches.Sound record s.busyEngine) (step : Coupling.Step s act t) :
    Held (moves ++ [⟨s, act, t⟩]) t := by
  have same : ∀ {ticket : Ticket}, s.engine.compiles.isCurrent ticket →
      t.engine.compiles.isCurrent ticket →
      s.engine.compiles.latest = t.engine.compiles.latest := fun before after =>
    (Preview.Sequence.isCurrent_iff.mp before).symm.trans (Preview.Sequence.isCurrent_iff.mp after)
  intro errand mem ticket held latest
  cases step.bears sound mem held latest with
  | begun source issued =>
    rintro c standing ⟨⟩ onMain
    exact fun landed => nomatch landed
  | @resumed before after c next standing reply b waited holds current answers succeeds did
      issued =>
    rintro c' standing' ⟨⟩ onMain
    have waiting : (⟨.cycle c, standing⟩ : Errand (service main)) ∈ s.errands :=
      waited ▸ List.mem_append_cons_self
    have heeds := known _ waiting ticket holds (current.1 ticket holds) _ _ rfl
      (succeeds.source ▸ onMain)
    refine (heeds.snoc step (same (current.1 ticket holds) latest)).next succeeds
      (did_of_answers answers) fun text compiles read => ?_
    cases c with
    | compiling source own =>
      obtain rfl := Option.some.inj holds
      subst did read
      exact ⟨s, source, reply, _, t, List.mem_concat_self, waiting⟩
    | _ => cases compiles
  | @proceeded before after errand standing' waited current proceeds =>
    obtain ⟨activity, standing⟩ := errand
    rintro c _ ⟨⟩ onMain
    have waiting : (⟨.cycle c, standing⟩ : Errand (service main)) ∈ s.errands :=
      waited ▸ List.mem_append_cons_self
    exact (known _ waiting ticket held current c standing rfl onMain).proceeds onMain held
      waiting mem proceeds
  | @beside before after errand waited current beside =>
    rintro c standing rfl onMain
    have waiting : (⟨.cycle c, standing⟩ : Errand (service main)) ∈ s.errands :=
      waited ▸ List.mem_append_cons_self
    exact (known _ waiting ticket held current c standing rfl onMain).snoc step
      (same current latest)

variable {capacity : Nat} {texts : Texts} {moves : Moves main} {s : Coupling (service main)}

theorem held_of_run (run : Run Coupling.Step (fresh main capacity texts) moves s) :
    Held moves s := by
  refine run.keepsAlong (P := Held) (fun _ mem => nomatch mem) fun earlier known step => ?_
  exact known.snoc (Coupling.sound_of_run .compiledFetches earlier) step

/-- Only an older compile can have its write still on its way when that of the latest one has
    landed. -/
theorem Accounted.overtaken (run : Run Coupling.Step (fresh main capacity texts) moves s)
    {source : Snapshot} {ticket : Ticket} (started : Started moves source ticket)
    (latest : s.engine.compiles.isCurrent ticket) {text : String}
    (accounted : Accounted moves source ticket text) :
    text = source.content ∨ Overtaken moves source ticket text := by
  obtain ⟨landing, mem, lands, own | ⟨w, out, here, rfl⟩⟩ := accounted
  · exact .inl own
  obtain ⟨first, rest, cut⟩ := List.append_of_mem mem
  obtain ⟨upTo, step, -⟩ := run.around cut
  obtain ⟨older, earlier, begun, rfl⟩ := started_of_out (upTo.snoc step) out
  have begun : Started moves older earlier :=
    begun.mono (cut ▸ List.append_subset.mpr ⟨List.subset_append_left .., by simp⟩)
  have bound := begun.number_le run
  rw [Preview.Sequence.isCurrent_iff] at latest
  rcases Nat.lt_or_ge earlier.number ticket.number with less | more
  · exact .inr ⟨older, earlier, landing, begun, less, here, rfl, mem, lands, out⟩
  · obtain rfl : earlier = ticket := congrArg Ticket.mk (by omega)
    exact .inl (congrArg Snapshot.content (begun.unique run started))

/-- Whenever a cycle replaces the diagnostics or has its pages rendered, whatever was started,
    answered or given up meanwhile: its compile has read its own source, or that of an older
    compile whose write was still on its way when the own one had landed.  If none was, it has
    read its own source. -/
theorem compiled_text_shown (run : Run Coupling.Step (fresh main capacity texts) moves s)
    {u v : Coupling (service main)} {c : Cycle} {reply : c.call.Reply}
    {progress : Progress Activity Ending}
    (resumed : ⟨u, some (.resumes (.cycle c) reply progress), v⟩ ∈ moves) {ticket : Ticket}
    (compiles : (Activity.cycle c).compileTicket? = some ticket)
    (onMain : c.source.path.same main)
    (shows : v.engine.findings ≠ u.engine.findings ∨
      ∃ report, progress = .ended (.cycle (.rendered report))) :
    ∃ text, Compiled moves ticket text ∧
      (text = c.source.content ∨ Overtaken moves c.source ticket text) := by
  obtain ⟨first, rest, cut⟩ := List.append_of_mem resumed
  obtain ⟨earlier, step, -⟩ := run.around cut
  obtain ⟨before, after, standing, b, waits, answers, done, became⟩ := step.of_resumes
  dsimp only at earlier step waits answers done became
  have waiting : (⟨.cycle c, standing⟩ : Errand (service main)) ∈ u.errands :=
    waits ▸ List.mem_append_cons_self
  have grows : first ⊆ moves := cut ▸ List.subset_append_left ..
  have heeds : c.isStale u.engine = false → Heeds first u ticket c standing ∧
      ∀ text, Accounted first c.source ticket text →
        text = c.source.content ∨ Overtaken moves c.source ticket text := by
    intro current
    have latest := ((c.isStale_iff u.engine).mp current).1 ticket compiles
    refine ⟨held_of_run earlier _ waiting ticket compiles latest c standing rfl onMain, ?_⟩
    intro text accounted
    have started := Coupling.started_of_run earlier waiting compiles
    exact (accounted.overtaken earlier started latest).imp_right fun late => late.mono grows
  rcases shows with changed | ⟨report, rfl⟩
  · have engine : v.engine = (c.resume u.engine reply).1 := by
      rw [became]
      rfl
    rcases c.resume_findings u.engine reply with same | ⟨diagnostics, reports, current, -⟩
    · exact absurd (engine ▸ same) changed
    · obtain ⟨heeds, origin⟩ := heeds current
      obtain ⟨source, rfl, text, rfl⟩ := read_of_reports reports answers compiles
      exact ⟨text, ⟨u, source, reply, progress, v, resumed, waiting⟩, origin _ (heeds.2 text rfl)⟩
  · obtain ⟨current, rendered⟩ := Activity.resume_ended done.symm (fun same => nomatch same)
    obtain ⟨heeds, origin⟩ := heeds current
    have displays := c.resume_displays u.engine reply
    revert rendered displays
    generalize c.resume u.engine reply = step
    rintro rendered (⟨splices, -, -⟩ | ⟨-, other⟩)
    · cases splices <;>
      · obtain ⟨text, compiled, accounted⟩ := heeds
        exact ⟨text, compiled.mono grows, origin text accounted⟩
    · exact absurd rendered (other report)

end Runs

attribute [local instance] pngDecoder

/-- A compile begins, and another one while the first source is on its way.  The second source
    lands first; it is overwritten by the first one before the compile reads the file. -/
theorem overtaken_compile : ∃ (moves : Moves ⟨"main.typ"⟩) (s : Coupling (service ⟨"main.typ"⟩)),
    Run Coupling.Step (fresh ⟨"main.typ"⟩ 4 ⟨fun _ => none⟩) moves s ∧
    ∃ u progress v,
      ⟨u, some (.resumes (.cycle (.compiling ⟨⟨"main.typ"⟩, "new", 0⟩ ⟨2⟩)) (.ok []) progress), v⟩ ∈
        moves ∧
      v.engine.findings ≠ u.engine.findings ∧ Compiled moves ⟨2⟩ "old" := by
  let main : Path := ⟨"main.typ"⟩
  let old : Snapshot := ⟨main, "old", 0⟩
  let new : Snapshot := ⟨main, "new", 0⟩
  have begun := (Run.nil.snoc (Coupling.Step.starts (fresh main 4 ⟨fun _ => none⟩)
    (.compile old))).snoc (.starts _ (.compile new))
  have written := (begun.snoc (lands [_] (a := .cycle (.persisting new ⟨2⟩)) rfl rfl)).snoc
    (answers [_] (a := .cycle (.persisting new ⟨2⟩)) .landed rfl
      ⟨fun _ => rfl, fun same => nomatch same⟩ (.ok ()))
  have overwritten := written.snoc (lands [] (a := .cycle (.persisting old ⟨1⟩)) rfl rfl)
  have compiled := (overwritten.snoc
    (reads [_] (a := .cycle (.compiling new ⟨2⟩)) rfl rfl "old" (by decide +kernel))).snoc
    (answers [_] (a := .cycle (.compiling new ⟨2⟩)) (.read "old") rfl
      ⟨(fun writes => nomatch writes), fun _ => ⟨_, rfl⟩⟩ (.ok []))
  refine ⟨_, _, compiled, _, _, _, List.mem_of_getElem? (i := 6) rfl, ?_,
    _, new, .ok [], _, _, List.mem_of_getElem? (i := 6) rfl, ?_⟩
  · have announced : ∀ {f f' : Preview.Findings},
        f.announced.length ≠ f'.announced.length → f ≠ f' :=
      fun other same => other (congrArg (·.announced.length) same)
    exact announced (by decide +kernel)
  · exact List.mem_of_getElem? (i := 1) rfl

/-- Whether every cycle that shows something has compiled its own source. -/
def ShowsOwn (moves : Moves main) : Prop :=
  ∀ u c reply progress v, ⟨u, some (.resumes (.cycle c) reply progress), v⟩ ∈ moves →
    ∀ ticket, (Activity.cycle c).compileTicket? = some ticket → c.source.path.same main →
      (v.engine.findings ≠ u.engine.findings ∨
        ∃ report, progress = .ended (.cycle (.rendered report))) →
      ∀ text, Compiled moves ticket text → text = c.source.content

/-- The latest of two compiles shows the text of the other one. -/
theorem overtaken_text_shown : ∃ (moves : Moves ⟨"main.typ"⟩) (s : Coupling (service ⟨"main.typ"⟩)),
    Run Coupling.Step (fresh ⟨"main.typ"⟩ 4 ⟨fun _ => none⟩) moves s ∧ ¬ ShowsOwn moves := by
  obtain ⟨moves, s, run, u, progress, v, mem, shows, compiled⟩ := overtaken_compile
  refine ⟨moves, s, run, fun own => ?_⟩
  have same := own _ _ _ _ _ mem _ rfl (Path.same_refl _) (.inl shows) "old" compiled
  exact absurd same (by decide)

/-- The text is accounted for all the same. -/
theorem overtaken_text_traced : ∃ (moves : Moves ⟨"main.typ"⟩)
    (s : Coupling (service ⟨"main.typ"⟩)),
    Run Coupling.Step (fresh ⟨"main.typ"⟩ 4 ⟨fun _ => none⟩) moves s ∧
    ∃ text, Compiled moves ⟨2⟩ text ∧
      (text = "new" ∨ Overtaken moves ⟨⟨"main.typ"⟩, "new", 0⟩ ⟨2⟩ text) := by
  obtain ⟨moves, s, run, u, progress, v, mem, shows, -⟩ := overtaken_compile
  exact ⟨moves, s, run, compiled_text_shown run mem rfl (Path.same_refl _) (.inl shows)⟩

end LivePreview.BusyFiles
