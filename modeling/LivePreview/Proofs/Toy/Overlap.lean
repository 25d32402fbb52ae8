import LivePreview.Page.Decoder
import LivePreview.Proofs.Toy.Feed
import LivePreview.Proofs.Toy.LastFetch

/-!
# Cycles that overlap

A cycle that overtakes another one fetches the page of its own cursor only.  So an edit whose
compile was overtaken need not be on display when all cycles have ended.  Its page has to be
fetched, by whichever cycle, after a compile that was not overtaken has been answered (`standing`).
-/

namespace LivePreview.Toy

open Preview (Coupling BusyEngine)
open Preview.Coupling (answered? compiles? rendered? sources)

/-- How far a page of the latest text has come. -/
inductive Standing where
  /-- It was edited since a compile was answered. -/
  | edited
  /-- It was compiled, but not rendered since. -/
  | compiled
  | rendered
  deriving DecidableEq, Repr

/-- How far a page has come after a step. -/
def Standing.after (i : Nat) (standing : Standing) (act : Option BusyEngine.Act) : Standing :=
  match compiles? act with
  | some source => if cursorPage source = i then .edited else standing
  | none =>
    match standing with
    | .edited => if (answered? act).isSome then .compiled else .edited
    | .compiled =>
      match rendered? act with
      | some (_, plan) => if fetchesPage i plan then .rendered else .compiled
      | none => .compiled
    | .rendered => .rendered

/-- How far a page has come after a run that starts in sync. -/
def standing (i : Nat) (moves : List (Move (Coupling service) (Option BusyEngine.Act))) :
    Standing :=
  moves.foldl (fun standing move => standing.after i move.act) .rendered

theorem standing_snoc (i : Nat) (moves : List (Move (Coupling service) (Option BusyEngine.Act)))
    (move : Move (Coupling service) (Option BusyEngine.Act)) :
    standing i (moves ++ [move]) = (standing i moves).after i move.act := by
  rw [standing, List.foldl_append]
  rfl

/-- What a standing says of a page: once it is compiled it can only be fetched as it is in the
    latest text, and once it is rendered it is on display. -/
def Standing.Holds (i : Nat) (latest : Option String) (s : Coupling service) : Standing → Prop
  | .edited => True
  | .compiled => Fed (·[i]? = latest) s
  | .rendered => Fed (·[i]? = latest) s ∧ Shows (·[i]? = latest) i s.engine

section Runs

variable [ImageDecoder] {engine : Preview.Engine} {backend : Backend} {s t : Coupling service}
  {moves : List (Move (Coupling service) (Option BusyEngine.Act))} {act : Option BusyEngine.Act}
  {text : String} {i : Nat}

/-- A page keeps its standing while others are edited. -/
theorem Standing.Holds.stays {standing : Standing} {latest : Option String}
    (holds : standing.Holds i latest s)
    (run : Run Coupling.Step (.idle engine backend) moves s)
    (clean : ∀ move ∈ moves, move.before.service.corrupt = []) (now : s.service.corrupt = [])
    (kept : act ≠ some .resets) (step : Coupling.Step s act t)
    (same : ∀ source ∈ compiles? act, (splitPages source.content)[i]? = latest) :
    standing.Holds i latest t := by
  cases standing with
  | edited => trivial
  | compiled => exact Fed.step holds run clean now same step
  | rendered => exact ⟨holds.1.step run clean now same step, holds.2.step holds.1 kept step⟩

theorem Standing.Holds.step {standing : Standing}
    (holds : standing.Holds i (splitPages (latestText text (sources moves)))[i]? s)
    (run : Run Coupling.Step (.idle engine backend) moves s)
    (clean : ∀ move ∈ moves, move.before.service.corrupt = []) (now : s.service.corrupt = [])
    (kept : act ≠ some .resets) (step : Coupling.Step s act t)
    (edits : ∀ source ∈ compiles? act, EditsPage (latestText text (sources moves)) source) :
    (standing.after i act).Holds i
      (splitPages (latestText text (sources (moves ++ [⟨s, act, t⟩]))))[i]? t := by
  rw [Coupling.sources_snoc, latestText_append]
  unfold Standing.after
  dsimp only
  cases compiled : compiles? act with
  | some source =>
    dsimp only [Option.toList_some, latestText]
    split
    · trivial
    · next apart =>
      have same := (edits source compiled).elsewhere i apart
      rw [same]
      refine holds.stays run clean now kept step fun other mem => ?_
      obtain rfl := Option.some.inj (compiled.symm.trans mem)
      exact same
  | none =>
    have stays := holds.stays run clean now kept step fun source mem => by
      rw [compiled] at mem
      cases mem
    dsimp only [Option.toList_none, latestText]
    cases standing with
    | edited =>
      -- only an answer that is taken in time is that of the latest source
      dsimp only
      split
      · next answered =>
        obtain ⟨source, answered⟩ := Option.isSome_iff_exists.mp answered
        exact fed_of_answered run clean now step answered fun last => by
          rw [latestText_of_getLast? last]
      · trivial
    | compiled =>
      cases renders : rendered? act with
      | some rendered =>
        dsimp only
        split
        · next fetches =>
          obtain ⟨texts, good, drawn⟩ := Fed.drawn holds step renders
          exact ⟨stays, texts, good, by rw [drawn i, if_pos fetches]⟩
        · exact stays
      | none => exact stays
    | rendered => exact stays

theorem standing_holds (run : Run Coupling.Step (.idle engine backend) moves s)
    (clean : ∀ move ∈ moves, move.before.service.corrupt = [])
    (kept : ∀ move ∈ moves, move.act ≠ some .resets)
    (inSync : engine.keys = keysOf (splitPages text)) (compiled : backend.compiled = some text)
    (edits : EachEditsPage text (sources moves)) (i : Nat) :
    (standing i moves).Holds i (splitPages (latestText text (sources moves)))[i]? s := by
  induction run with
  | nil => exact ⟨fed_idle compiled rfl, splitPages text, rfl, congrArg (·[i]?) inSync⟩
  | @snoc moves s t act earlier step inductionHypothesis =>
    rw [List.forall_mem_append, List.forall_mem_singleton] at clean kept
    rw [Coupling.sources_snoc, EachEditsPage.append_iff] at edits
    rw [standing_snoc]
    refine (inductionHypothesis clean.1 kept.1 edits.1).step earlier clean.1 clean.2 kept.2 step ?_
    intro source mem
    rw [mem] at edits
    exact edits.2.1

/-- If the pages of all texts are good, so are those on display. -/
theorem shows_of_run (Good : List String → Prop)
    (run : Run Coupling.Step (.idle engine backend) moves s)
    (clean : ∀ move ∈ moves, move.before.service.corrupt = [])
    (kept : ∀ move ∈ moves, move.act ≠ some .resets)
    (inSync : engine.keys = keysOf (splitPages text)) (compiled : backend.compiled = some text)
    (good : Good (splitPages text))
    (each : ∀ source ∈ sources moves, Good (splitPages source.content)) :
    Fed Good s ∧ ∀ i, Shows Good i s.engine := by
  induction run with
  | nil =>
    exact ⟨fed_idle compiled good, fun i => ⟨_, good, congrArg (·[i]?) inSync⟩⟩
  | @snoc moves s t act earlier step inductionHypothesis =>
    rw [List.forall_mem_append, List.forall_mem_singleton] at clean kept
    rw [Coupling.sources_snoc, List.forall_mem_append] at each
    obtain ⟨fed, shows⟩ := inductionHypothesis clean.1 kept.1 each.1
    refine ⟨fed.step earlier clean.1 clean.2 (fun source mem => ?_) step,
      fun i => (shows i).step fed kept.2 step⟩
    exact each.2 source (Option.mem_toList.mpr mem)

end Runs

/-! ## An edit that was overtaken -/

attribute [local instance] pngDecoder

/-- The first page is edited, and before its compile has begun, the second page is edited and
    compiled as well. -/
def overtakenEdit : List (Move (Coupling service) (Option BusyEngine.Act)) × Coupling service :=
  performOn "#pagebreak()\n"
    [.asks (.compile ⟨default, "x\n#pagebreak()\n", 0⟩),
      .asks (.compile ⟨default, "x\n#pagebreak()\ny", 15⟩),
      .answers 0, .answers 0, .answers 0, .answers 0, .answers 0, .answers 0]

theorem overtakenEdit_moves :
    (∀ move ∈ overtakenEdit.1, Orderly move ∧ compilesOnly move.act) ∧
    (∀ source ∈ sources overtakenEdit.1, scanDiagnostics source.content = []) ∧
    EachEditsPage "#pagebreak()\n" (sources overtakenEdit.1) ∧
    latestText "#pagebreak()\n" (sources overtakenEdit.1) = "x\n#pagebreak()\ny" ∧
    overtakenEdit.2.errands.isEmpty ∧
    shownText 0 "#pagebreak()\n" overtakenEdit.1 = "#pagebreak()\n" ∧
    standing 0 overtakenEdit.1 = .compiled ∧ standing 1 overtakenEdit.1 = .rendered := by
  decide +kernel

end LivePreview.Toy
