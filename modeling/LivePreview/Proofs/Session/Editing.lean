import LivePreview.Proofs.Files.Service
import LivePreview.Proofs.Session.Frame
import LivePreview.Session.Operation

/-!
# What operations do to the buffer

Only a file that is loaded, a save that was written and another workspace change what the buffer
holds, or whether it differs from its file (`Stage.resume_turns`); an operation that starts does
not.  Apart from files that are created, the texts that operations write are those of the buffer
at the time (`Action.start_writes`, `Stage.resume_writes`).
-/

namespace LivePreview

/-- A buffer without its cursor. -/
structure Copy where
  path : Path
  content : String
  dirty : Bool
  deriving DecidableEq

def Buffer.copy (b : Buffer) : Copy :=
  ⟨b.path, b.content, b.dirty⟩

/-- What a save writes of a buffer. -/
def Copy.write (c : Copy) : Write :=
  ⟨c.path, c.content⟩

/-- The copy after a text was saved: it is clean if the text is its own. -/
def Copy.afterSave (c : Copy) (save : Session.Save) : Copy :=
  if c.path.same save.path && c.content == save.content then { c with dirty := false } else c

namespace Session

open Preview (Cycle Progress)

def copy (s : Session) : Option Copy :=
  s.buffer.map Buffer.copy

/-- What a request writes to a file, if it writes a text. -/
def Request.write? : Request → Option Write
  | .call asked => asked.write?
  | .write path text => some ⟨path, text⟩
  | _ => none

/-- The file that a request reads. -/
def Request.source? : Request → Option Path
  | .read path => some path
  | _ => none

theorem write_of_snapshot {s : Session} {source : Snapshot} (taken : s.snapshot = some source) :
    ∃ c, s.copy = some c ∧ (⟨source.path, source.content⟩ : Write) = c.write := by
  obtain ⟨b, shown, rfl⟩ := Option.map_eq_some_iff.mp taken
  exact ⟨b.copy, Option.map_eq_some_iff.mpr ⟨b, shown, rfl⟩, rfl⟩

/-! ## Compiles, renders and saves -/

@[simp] theorem startCompile_copy (s : Session) (selected : Bool) :
    (s.startCompile selected).1.copy = s.copy := by
  unfold startCompile
  split <;> rfl

@[simp] theorem startSave_copy (s : Session) (explicit : Bool) (auto : Option AutoSave) :
    (s.startSave explicit auto).1.copy = s.copy := by
  rw [startSave_session]
  split
  · rfl
  · split
    · rfl
    · split <;> rfl

/-- An operation that starts leaves the buffer alone. -/
theorem Action.start_copy (s : Session) (action : Action) : (action.start s).1.copy = s.copy := by
  have starts := action.starts s
  generalize action.start s = step at starts ⊢
  cases starts with
  | compiles => exact startCompile_copy ..
  | saves => exact startSave_copy ..
  | _ => rfl

/-! ## Replies -/

/-- What the buffer holds after a reply: what it held before, unless a file was loaded, a save
    was written, or another workspace was opened. -/
inductive Turns (s : Session) : (stage : Stage) → stage.request.Reply → Option Copy → Prop
  | keeps (stage : Stage) (reply : stage.request.Reply) : Turns s stage reply s.copy
  | loads (path : Path) (next : AfterLoad) (content : String) :
      Turns s (.loading path next) (.ok content) (some ⟨path, content, false⟩)
  | saves (save : Save) (auto : Option AutoSave) :
      Turns s (.saving save auto) (.ok ()) (s.copy.map (·.afterSave save))
  | leaves (path : Path) : Turns s (.openingWorkspace path) (.ok ()) none

@[simp] theorem reveal_copy (s : Session) (path : Path) (position : Nat) :
    (s.reveal path position).copy = s.copy := by
  unfold reveal
  split
  · rfl
  · next b shown => simp [copy, shown, Buffer.copy, Buffer.moveCursor]

theorem afterLoad_copy (s : Session) (path : Path) (next : AfterLoad) (content : String) :
    (s.afterLoad path next (.ok content)).1.copy = some ⟨path, content, false⟩ := by
  cases next with
  | finish => rfl
  | compile => exact (startCompile_copy ..).trans rfl
  | reveal position => exact (reveal_copy ..).trans rfl

theorem afterWrite_copy (s : Session) (save : Save) :
    (s.afterWrite save).copy = s.copy.map (·.afterSave save) := by
  simp only [copy, afterWrite, Option.map_map]
  congr 1
  funext b
  simp only [Function.comp_apply, Copy.afterSave, Buffer.copy]
  split <;> next own => simp [own, Buffer.markSaved]

/-- All that a reply can do to the buffer. -/
theorem Stage.resume_turns [ImageDecoder] (s : Session) (stage : Stage)
    (reply : stage.request.Reply) :
    Turns s stage reply (stage.resume s reply).1.copy := by
  have resumes := stage.resumes s reply
  generalize stage.resume s reply = step at resumes ⊢
  cases resumes with
  | enters path => exact .leaves path
  | recompiles path =>
    rw [startCompile_copy]
    exact .keeps _ _
  | loads path content => exact .loads path .finish content
  | loadsMain path content =>
    rw [startCompile_copy]
    exact .loads path .compile content
  | loadsTarget path position content =>
    rw [reveal_copy]
    exact .loads path (.reveal position) content
  | unwritten save auto e =>
    rw [endSave_session]
    exact .keeps _ _
  | written save auto =>
    rw [endSave_session, afterWrite_copy]
    exact .saves save auto
  | savesNext auto =>
    rw [startSave_copy]
    exact .keeps _ _
  | reveals =>
    rw [reveal_copy]
    exact .keeps _ _
  | _ => exact .keeps _ _

/-! ## What is written -/

/-- A step writes what the buffer holds after it, or nothing. -/
def WritesCopy (step : Step) : Prop :=
  ∀ stage ∈ step.2.next, ∀ w ∈ stage.request.write?, ∃ c, step.1.copy = some c ∧ w = c.write

theorem WritesCopy.of_ended (s : Session) (result : Result) :
    WritesCopy (s, .ended result) := by
  intro stage mem
  cases mem

theorem WritesCopy.of_quiet (s : Session) (stage : Stage) (quiet : stage.request.write? = none) :
    WritesCopy (s, .waits stage) := by
  intro stage mem w writes
  obtain rfl := List.mem_singleton.mp mem
  rw [quiet] at writes
  cases writes

theorem startCompile_writes (s : Session) (selected : Bool) :
    WritesCopy (s.startCompile selected) := by
  intro stage mem w writes
  rw [startCompile_copy]
  unfold startCompile at mem
  split at mem
  · cases mem
  · next source taken =>
    obtain rfl := List.mem_singleton.mp mem
    obtain rfl := Option.some.inj writes
    exact write_of_snapshot taken

theorem endSave_writes (s : Session) (auto : Option AutoSave) (outcome : SaveOutcome) :
    WritesCopy (s.endSave auto outcome) := by
  cases auto with
  | none => exact .of_ended _ _
  | some auto => exact .of_quiet s (.resting auto) rfl

theorem startSave_writes (s : Session) (explicit : Bool) (auto : Option AutoSave) :
    WritesCopy (s.startSave explicit auto) := by
  have begins := s.startSave_begins explicit auto
  generalize s.startSave explicit auto = step at begins ⊢
  cases begins with
  | @writes b unset shown dirty =>
    intro stage mem w writes
    obtain rfl := List.mem_singleton.mp mem
    obtain rfl := Option.some.inj writes
    exact ⟨b.copy, Option.map_eq_some_iff.mpr ⟨b, shown, rfl⟩, rfl⟩
  | busy | nothing => exact endSave_writes _ _ _

/-- An operation that starts writes what the buffer holds, or the text of a new file. -/
theorem Action.start_writes {s : Session} {action : Action} {stage : Stage}
    (mem : stage ∈ (action.start s).2.next) {w : Write} (writes : stage.request.write? = some w) :
    (∃ c, (action.start s).1.copy = some c ∧ w = c.write) ∨
      action = .createFile w.path w.text := by
  have starts := action.starts s
  generalize action.start s = step at starts mem ⊢
  cases starts with
  | creates path text =>
    obtain rfl := List.mem_singleton.mp mem
    obtain rfl := Option.some.inj writes
    exact .inr rfl
  | compiles => exact .inl (startCompile_writes s false stage mem w writes)
  | saves explicit => exact .inl (startSave_writes s explicit none stage mem w writes)
  | persists format output chosen shown =>
    obtain rfl := List.mem_singleton.mp mem
    obtain rfl := Option.some.inj writes
    exact .inl (write_of_snapshot shown)
  | notCompilable | alreadyMain | nothingToRender | nothingToExport => cases mem
  | _ => exact .inl (WritesCopy.of_quiet _ _ rfl stage mem w writes)

/-- What an operation writes after a reply is what the buffer holds then. -/
theorem Stage.resume_writes [ImageDecoder] (s : Session) (stage : Stage)
    (reply : stage.request.Reply) :
    WritesCopy (stage.resume s reply) := by
  have resumes := stage.resumes s reply
  generalize stage.resume s reply = step at resumes ⊢
  cases resumes with
  | recompiles | loadsMain => exact startCompile_writes _ _
  | cyclesOn cycle selected reply resumed =>
    exact .of_quiet _ _ (BusyFiles.write?_of_succeeds (Cycle.succeeds_of_resume resumed))
  | unwritten | written => exact endSave_writes _ _ _
  | savesNext => exact startSave_writes _ _ _
  | chooses | created | persisted | reads => exact .of_quiet _ _ rfl
  | _ => exact .of_ended _ _

end Session

end LivePreview
