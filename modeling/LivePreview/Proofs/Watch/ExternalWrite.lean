import LivePreview.Page.Decoder
import LivePreview.Proofs.Run
import LivePreview.Proofs.Watch.Watching

/-!
# What becomes of another program's write

When another program writes the main document the buffer does not have the text yet.  A compile
that is under way then, or starts before the notice of the write has been handled, writes an older
text through and may land on top of it (`external_write_overwritten`); the notice is then taken
for that of the program's own write.  If this does not happen the text stays, and the buffer has
it once the notice has been handled (`external_write_kept`).
-/

namespace LivePreview.Watch

open SessionWithFiles (Out)

variable {main : Path} {cursor : Nat} {s t mark : Watching} {act : Act} {moves : Moves}
  {text : String} {w : Write}

/-- The main document has this text, and so does the buffer once so many notices have been
    handled. -/
def Kept (main : Path) (due : Nat) (text : String) (s : Watching) : Prop :=
  s.texts.read main = some text ∧ (due ≤ s.handled → s.Shows text)

/-- Whether a write can come from the buffer as it was before the last notice of `mark` was
    handled: it was on its way at `mark`, or is that of a compile that has started since. -/
def Stray (mark : Watching) (moves : Moves) (w : Write) : Prop :=
  Out mark.running w ∨
    ∃ move ∈ moves, move.act = .fires ∧ move.before.handled < mark.raised ∧
      ∃ c, move.before.session.copy = some c ∧ w = c.write

theorem Stray.mono {moves' : Moves} (stray : Stray mark moves w) (grows : moves ⊆ moves') :
    Stray mark moves' w :=
  stray.imp_right fun ⟨move, mem, rest⟩ => ⟨move, grows mem, rest⟩

/-- The last notice of `mark` is still in line, or has been handled. -/
def Noticed (main : Path) (mark s : Watching) : Prop :=
  s.handled < mark.raised →
    ∃ path, s.notices[mark.raised - s.handled - 1]? = some path ∧ path.same main

/-- What follows from a text that stays in the main document from `mark` on, whose last notice
    is that of its write. -/
structure Follows (main : Path) (mark : Watching) (text : String) (moves : Moves) (s : Watching) :
    Prop where
  noticed : Noticed main mark s
  /-- From then on that the notice is the first in line, nothing else is read. -/
  fresh : mark.raised ≤ s.handled + 1 → ∀ reload ∈ s.reload, ∀ found,
    reload.standing = .read found → found = text
  loaded : mark.raised ≤ s.handled → s.Shows text
  strays : ∀ w, Out s.running w → w.text ≠ text → Stray mark moves w

theorem Watching.Shows.of_copy (shows : s.Shows text) (same : t.session.copy = s.session.copy) :
    t.Shows text :=
  shows.imp fun _ shown => ⟨same ▸ shown.1, shown.2⟩

theorem Noticed.grows (noticed : Noticed main mark s) {more : List Path}
    (grows : t.notices = s.notices ++ more) (same : t.handled = s.handled) :
    Noticed main mark t := by
  intro waits
  obtain ⟨path, found, here⟩ := noticed (same ▸ waits)
  refine ⟨path, ?_, here⟩
  rw [grows, same, List.getElem?_append_left (List.getElem?_eq_some_iff.mp found).1, found]

theorem Noticed.next (noticed : Noticed main mark s) (tail : t.notices = s.notices.tail)
    (handled : t.handled = s.handled + 1) : Noticed main mark t := by
  intro waits
  obtain ⟨path, found, here⟩ := noticed (by omega)
  refine ⟨path, ?_, here⟩
  rw [tail, List.getElem?_tail, ← found]
  congr 1
  omega

theorem Noticed.passes (noticed : Noticed main mark s) {path : Path} {rest : List Path}
    (first : s.notices = path :: rest) (other : ¬ path.same main)
    (handled : mark.raised ≤ s.handled + 1) : mark.raised ≤ s.handled := by
  by_contra waits
  obtain ⟨path', found, here⟩ := noticed (by omega)
  have index : mark.raised - s.handled - 1 = 0 := by omega
  rw [index, first] at found
  exact other (Option.some.inj found ▸ here)

/-- When the main document has just been written nothing is known of its handling. -/
theorem Follows.written (orderly : Orderly main s) (here : w.path.same main) :
    Follows main (s.written w) w.text [] (s.written w) := by
  have raised : (s.written w).raised = s.handled + s.notices.length + 1 := by
    simp [Watching.raised, Watching.written, Nat.add_assoc]
  have handled : (s.written w).handled = s.handled := rfl
  refine ⟨fun _ => ⟨w.path, ?_, here⟩, fun due reload mem => ?_, fun due => ?_,
    fun _ out _ => .inl out⟩
  · rw [raised, handled, Nat.add_assoc, Nat.add_sub_cancel_left, Nat.add_sub_cancel]
    exact List.getElem?_concat_length
  · have none : s.notices = [] := List.eq_nil_of_length_eq_zero (by omega)
    exact absurd none (orderly.first (Option.isSome_of_mem mem))
  · omega

section Decoding

/-! ## Steps -/

variable [ImageDecoder]

/-- The main document changes when another program writes it, or a compile's write lands. -/
theorem read_of_step (orderly : Orderly main s) (step : Step main cursor s act t) :
    (∃ w, act = .writes w ∧ w.path.same main) ∨
      (∃ w ∈ act.landed?, Out s.running w ∧ w.path.same main ∧ t.texts.read main = some w.text) ∨
      t.texts.read main = s.texts.read main := by
  cases step with
  | writes w =>
    by_cases here : w.path.same main
    · exact .inl ⟨w, rfl, here⟩
    · exact .inr (.inr (Texts.read_store_other here))
  | works work step =>
    exact .inr ((SessionWithFiles.read_of_step step main).imp_left fun ⟨w, lands, here, found⟩ =>
      ⟨w, lands, out_of_lands work step lands, here, found⟩)
  | fires step =>
    cases step
    exact .inr (.inr rfl)
  | proceeds handling waits proceeds =>
    have reads : handling.Reads main := orderly.reads _ waits
    refine .inr (.inr ?_)
    rcases proceeds.texts with ⟨w, writes, -⟩ | same
    · rw [reads.write?] at writes
      cases writes
    · exact congrArg (Texts.read · main) same
  | @answers handling standing waits reply files answers =>
    refine .inr (.inr (congrArg (Texts.read · main) (Eq.trans ?_ answers.texts)))
    unfold Watching.settle
    split <;> rfl
  | _ => exact .inr (.inr rfl)

theorem Follows.snoc (follows : Follows main mark text moves s) (orderly : Orderly main s)
    (kept : s.texts.read main = some text) (step : Step main cursor s act t)
    (read : ¬ act.Misses) : Follows main mark text (moves ++ [⟨s, act, t⟩]) t := by
  obtain ⟨noticed, fresh, loaded, strays⟩ := follows
  have strays : ∀ w, Out s.running w → w.text ≠ text → Stray mark (moves ++ [⟨s, act, t⟩]) w :=
    fun w out other => (strays w out other).mono (List.subset_append_left ..)
  cases step with
  | writes w => exact ⟨noticed.grows rfl rfl, fresh, loaded, strays⟩
  | stirs path => exact ⟨noticed.grows rfl rfl, fresh, loaded, strays⟩
  | fires step =>
    refine ⟨noticed, fresh, fun due => (loaded due).of_copy (copy_of_fires step),
      fun w out other => ?_⟩
    rcases out_of_fires step out with before | ⟨c, shown, rfl⟩
    · exact strays w before other
    · refine .inr ⟨_, List.mem_concat_self, rfl, ?_, c, shown, rfl⟩
      -- once the notice has been handled, what is written through is the text itself
      by_contra due
      obtain ⟨c', shown', same⟩ := loaded (by simpa using due)
      obtain rfl := Option.some.inj (shown.symm.trans shown')
      exact other same
  | works work step =>
    exact ⟨noticed, fresh,
      fun due => (loaded due).of_copy (copy_of_works orderly.cycles work step),
      fun w out => strays w (out_of_works orderly.cycles work step out)⟩
  | passes first idle other =>
    exact ⟨noticed.next rfl rfl, fun _ _ mem => (nomatch mem),
      fun due => loaded (noticed.passes first other due), strays⟩
  | takes path first idle here =>
    refine ⟨noticed, fun _ reload mem found standing => ?_, loaded, strays⟩
    obtain rfl := Option.some.inj mem
    cases standing
  | proceeds handling waits proceeds =>
    have reads : handling.Reads main := orderly.reads _ waits
    refine ⟨noticed, fun _ reload mem found standing => ?_, loaded,
      fun w out => strays w (out.imp_left fun late => proceeds.late ▸ late)⟩
    obtain rfl := Option.some.inj mem
    obtain rfl := standing
    cases proceeds with
    | reads asks found =>
      obtain ⟨path, asks', here⟩ := reads.source?
      obtain rfl := Option.some.inj (asks.symm.trans asks')
      exact Option.some.inj (found.symm.trans ((Texts.read_of_same here).trans kept))
  | @answers handling standing waits reply files answers =>
    have before : handling.Reads main := orderly.reads _ waits
    have out : ∀ w, Out { s.running with files } w → Out s.running w :=
      fun w out => out.imp_left fun late =>
        (answers.late late).resolve_right fun ⟨_, writes⟩ => nomatch before.write? ▸ writes
    have reloads := handling.resume_reloads before cursor s.session reply
    generalize moves ++ [⟨s, .answers handling reply, _⟩] = moves at strays ⊢
    generalize handling.resume cursor s.session reply = step at reloads ⊢
    cases reloads with
    | missing path e => exact absurd (.compared path e) read
    | own path shown same =>
      refine ⟨noticed.next rfl rfl, fun _ _ mem => (nomatch mem), fun due => ?_,
        fun w still => strays w (out w still)⟩
      exact ⟨_, shown, same.trans (fresh due _ waits _ answers.of_read)⟩
    | other path found =>
      refine ⟨noticed, fun _ reload mem found standing => ?_, loaded,
        fun w still => strays w (out w still)⟩
      obtain rfl := Option.some.inj mem
      cases standing
    | unopened path e kept => exact absurd (.opened path e) read
    | opened path found shown =>
      refine ⟨noticed.next rfl rfl, fun _ _ mem => (nomatch mem), fun due => ?_,
        fun w still => strays w (out w still)⟩
      exact ⟨_, shown, fresh due _ waits _ answers.of_read⟩

/-! ## Every run -/

theorem Step.of_writes (step : Step main cursor s (.writes w) t) : t = s.written w := by
  cases step
  rfl

theorem orderly_of_run {session : Session} {texts : Texts}
    (run : Run (Step main cursor) (start session texts) moves s) : Orderly main s := by
  refine run.keeps (P := fun _ => Orderly main) ⟨?_, ?_, ?_⟩ Orderly.step
  · exact fun _ mem => nomatch mem
  · exact fun _ mem => nomatch mem
  · exact fun some => nomatch some

/-- A write of another text that lands on the main document is stray; before the first one the
    text stays. -/
theorem kept_of_run (orderly : Orderly main mark) (follows : Follows main mark text [] mark)
    (kept : mark.texts.read main = some text) (run : Run (Step main cursor) mark moves s)
    (last : ∀ move ∈ moves, ∀ other, move.act = .writes other → ¬ other.path.same main)
    (readable : ∀ move ∈ moves, ¬ move.act.Misses) :
    (∃ move ∈ moves, ∃ v ∈ move.act.landed?,
      v.path.same main ∧ v.text ≠ text ∧ Stray mark moves v) ∨
    Orderly main s ∧ Follows main mark text moves s ∧ s.texts.read main = some text ∧
      ∀ move ∈ moves, Kept main mark.raised text move.after := by
  induction run with
  | nil => exact .inr ⟨orderly, follows, kept, fun _ mem => nomatch mem⟩
  | @snoc moves s t act earlier step inductionHypothesis =>
    have grows : moves ⊆ moves ++ [⟨s, act, t⟩] := List.subset_append_left ..
    have mem : ⟨s, act, t⟩ ∈ moves ++ [⟨s, act, t⟩] :=
      List.mem_concat_self
    rcases inductionHypothesis (fun move mem => last move (grows mem))
      (fun move mem => readable move (grows mem)) with
      ⟨move, mem, v, lands, here, other, stray⟩ | ⟨orderly, follows, kept, before⟩
    · exact .inl ⟨move, grows mem, v, lands, here, other, stray.mono grows⟩
    · have follows' := follows.snoc orderly kept step (readable _ mem)
      have stays : t.texts.read main = some text →
          ∀ move ∈ moves ++ [⟨s, act, t⟩], Kept main mark.raised text move.after := by
        intro kept' move mem
        rcases List.mem_append.mp mem with old | new
        · exact before move old
        · obtain rfl := List.mem_singleton.mp new
          exact ⟨kept', follows'.loaded⟩
      rcases read_of_step orderly step with ⟨w, writes, here⟩ | ⟨v, lands, out, here, found⟩ | same
      · exact absurd here (last _ mem w writes)
      · by_cases same : v.text = text
        · have kept' := same ▸ found
          exact .inr ⟨orderly.step step, follows', kept', stays kept'⟩
        · exact .inl ⟨_, mem, v, lands, here, same, (follows.strays v out same).mono grows⟩
      · have kept' := same.trans kept
        exact .inr ⟨orderly.step step, follows', kept', stays kept'⟩

/-- After another program has written the main document, and until it does so again: the
    document keeps the text, and the buffer has it once the notice of the write has been handled,
    unless a compile's write of another text lands that was on its way when the document was
    written, or whose compile has started before the notice was handled. -/
theorem external_write_kept {session : Session} {texts : Texts}
    (run : Run (Step main cursor) (start session texts) moves s) {first rest : Moves}
    {move : Move Watching Act} (cut : moves = first ++ move :: rest)
    (writes : move.act = .writes w) (here : w.path.same main)
    (last : ∀ later ∈ rest, ∀ other, later.act = .writes other → ¬ other.path.same main)
    (readable : ∀ later ∈ rest, ¬ later.act.Misses) :
    (∃ later ∈ rest, ∃ v ∈ later.act.landed?,
      v.path.same main ∧ v.text ≠ w.text ∧ Stray move.after rest v) ∨
    ∀ later ∈ rest, Kept main move.after.raised w.text later.after := by
  obtain ⟨earlier, step, continued⟩ := run.around cut
  have orderly := orderly_of_run earlier
  have written : move.after = move.before.written w := (writes ▸ step).of_writes
  have follows : Follows main move.after w.text [] move.after := written ▸ .written orderly here
  have kept : move.after.texts.read main = some w.text :=
    written ▸ Texts.read_store_same here
  have every := kept_of_run (orderly.step step) follows kept continued last readable
  exact every.imp_right fun ⟨_, _, _, kept⟩ => kept

end Decoding

attribute [local instance] pngDecoder

/-- Whether every write of another program stays until the next one, and the buffer has it once
    its notice has been handled. -/
def Mirrors (main : Path) (moves : Moves) : Prop :=
  ∀ first move rest w, moves = first ++ move :: rest → move.act = .writes w →
    w.path.same main →
    (∀ later ∈ rest, ∀ other, later.act = .writes other → ¬ other.path.same main) →
    (∀ later ∈ rest, ¬ later.act.Misses) →
    ∀ later ∈ rest, Kept main move.after.raised w.text later.after

/-- The buffer has the text "one", as the document has. -/
def watched (p : Path) : Watching :=
  start { Session.start (.start 4) with main := some p, buffer := some (.load p "one") }
    ⟨fun _ => some "one"⟩

/-- Another program writes "two", and a compile starts before the notice is handled.  It writes
    "one" through, and "one" is then compared with the buffer. -/
theorem external_write_overtaken : ∃ (rest : Moves) (s : Watching),
    Run (Step ⟨"main.typ"⟩ 0) (watched ⟨"main.typ"⟩)
      (⟨watched ⟨"main.typ"⟩, .writes ⟨⟨"main.typ"⟩, "two"⟩,
        (watched ⟨"main.typ"⟩).written ⟨⟨"main.typ"⟩, "two"⟩⟩ :: rest) s ∧
      (∀ later ∈ rest, (∀ other, later.act ≠ .writes other) ∧ ¬ later.act.Misses) ∧
      ∃ later ∈ rest, later.after.texts.read ⟨"main.typ"⟩ = some "one" := by
  let p : Path := ⟨"main.typ"⟩
  let source : Snapshot := ⟨p, "one", 0⟩
  have written : Run (Step p 0) (watched p) _ _ := Run.nil.snoc (.writes (watched p) ⟨p, "two"⟩)
  have overwritten := (written.snoc (.fires (.starts _ .compile))).snoc
    (.works (show IsWork (.proceeds _) from trivial)
      (.proceeds [] ⟨.cycling (.persisting source ⟨1⟩) false, .begun⟩ rfl (.lands rfl)))
  have taken := (overwritten.snoc (.takes p rfl rfl (Path.same_refl p))).snoc
    (.proceeds (.comparing p) rfl (.reads rfl (show Texts.read _ p = some "one" by decide +kernel)))
  have compared := taken.snoc (.answers (.comparing p) rfl (.read p "one"))
  refine ⟨_, _, compared, ?_, ?_⟩
  · have quiet : ∀ {move : Move Watching Act} {rest : Moves},
        (∀ other, move.act ≠ .writes other) → ¬ move.act.Misses →
        (∀ later ∈ rest, (∀ other, later.act ≠ .writes other) ∧ ¬ later.act.Misses) →
        ∀ later ∈ move :: rest, (∀ other, later.act ≠ .writes other) ∧ ¬ later.act.Misses :=
      fun own read others => List.forall_mem_cons.mpr ⟨⟨own, read⟩, others⟩
    exact quiet nofun nofun (quiet nofun nofun (quiet nofun nofun (quiet nofun nofun
      (quiet nofun nofun fun _ mem => nomatch mem))))
  · exact ⟨_, List.mem_of_getElem? (i := 4) rfl, by decide +kernel⟩

/-- The document loses what the other program has written, and the buffer never has it. -/
theorem external_write_overwritten : ∃ (moves : Moves) (s : Watching),
    Run (Step ⟨"main.typ"⟩ 0) (watched ⟨"main.typ"⟩) moves s ∧ ¬ Mirrors ⟨"main.typ"⟩ moves := by
  obtain ⟨rest, s, run, quiet, later, mem, found⟩ := external_write_overtaken
  refine ⟨_, s, run, fun mirrors => ?_⟩
  have kept := mirrors [] _ rest _ rfl rfl (Path.same_refl _)
    (fun later mem other writes => absurd writes ((quiet later mem).1 other))
    (fun later mem => (quiet later mem).2) later mem
  exact absurd (found.symm.trans kept.1) (by decide)

/-- The write that comes over it is one of a compile from before the notice was handled. -/
theorem external_write_traced : ∃ (move : Move Watching Act) (rest : Moves) (s : Watching),
    Run (Step ⟨"main.typ"⟩ 0) (watched ⟨"main.typ"⟩) (move :: rest) s ∧
    move.act = .writes ⟨⟨"main.typ"⟩, "two"⟩ ∧
    ((∃ later ∈ rest, ∃ v ∈ later.act.landed?,
      v.path.same ⟨"main.typ"⟩ ∧ v.text ≠ "two" ∧ Stray move.after rest v) ∨
    ∀ later ∈ rest, Kept ⟨"main.typ"⟩ move.after.raised "two" later.after) := by
  obtain ⟨rest, s, run, quiet, -⟩ := external_write_overtaken
  have kept := external_write_kept run (List.nil_append _).symm rfl (Path.same_refl _)
    (fun later mem other writes => absurd writes ((quiet later mem).1 other))
    (fun later mem => (quiet later mem).2)
  exact ⟨_, rest, s, run, rfl, kept⟩

end LivePreview.Watch
