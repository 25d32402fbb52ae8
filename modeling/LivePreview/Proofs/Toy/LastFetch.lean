import LivePreview.Page.Decoder
import LivePreview.Proofs.Toy.Edits
import LivePreview.Proofs.Toy.Script

/-!
# What was fetched last

A compile whose number of pages is the one on display fetches the page of its cursor only.  So in
a run of compiles every slot shows its page as it was in the text whose cycle fetched it last
(`shownText`), which need not be the text on which the last cycle ended: a compile that fails, or
that is overtaken, leaves an edit of its page `owed` to the display until a compile has its cursor
on that page and renders.
-/

namespace LivePreview.Toy

open Preview (Activity Coupling Cycle Plan BusyEngine)
open Preview.Coupling (compiles? rendered? sources)

/-- Whether the only cycles that are started are compiles, and nothing is reset. -/
def compilesOnly : Option BusyEngine.Act → Bool
  | some .resets => false
  | some (.starts (.render _) _) => false
  | _ => true

section Display

variable (i : Nat)

/-- The text whose page stands in a slot, after a step. -/
def shownAfter (text : String) (act : Option BusyEngine.Act) : String :=
  match rendered? act with
  | some (c, plan) => if fetchesPage i plan then c.source.content else text
  | none => text

/-- The text whose page stands in a slot: the one that was rendered by the last cycle that fetched
    the page. -/
def shownText (text : String) (moves : List (Move (Coupling service) (Option BusyEngine.Act))) :
    String :=
  moves.foldl (fun text move => shownAfter i text move.act) text

/-- Whether a page has an edit that was not rendered, after a step. -/
def owedAfter (owed : Bool) (act : Option BusyEngine.Act) : Bool :=
  match rendered? act with
  | some (_, plan) => owed && !fetchesPage i plan
  | none => owed || (compiles? act).any fun source => cursorPage source == i

/-- Whether a page has an edit that was not rendered: no cycle has fetched it since a compile was
    started with its cursor there. -/
def owed (moves : List (Move (Coupling service) (Option BusyEngine.Act))) : Bool :=
  moves.foldl (fun owed move => owedAfter i owed move.act) false

theorem shownText_snoc (text : String)
    (moves : List (Move (Coupling service) (Option BusyEngine.Act)))
    (move : Move (Coupling service) (Option BusyEngine.Act)) :
    shownText i text (moves ++ [move]) = shownAfter i (shownText i text moves) move.act := by
  rw [shownText, List.foldl_append]
  rfl

theorem owed_snoc (moves : List (Move (Coupling service) (Option BusyEngine.Act)))
    (move : Move (Coupling service) (Option BusyEngine.Act)) :
    owed i (moves ++ [move]) = owedAfter i (owed i moves) move.act := by
  rw [owed, List.foldl_append]
  rfl

end Display

/-! ## Every step -/

/-- Every cycle that waits is a compile. -/
def AllCompile (s : Coupling service) : Prop :=
  ∀ errand ∈ s.errands, ∀ c, errand.activity = .cycle c →
    ∃ ticket, ticket ∈ (Activity.cycle c).compileTicket?

theorem AllCompile.step [ImageDecoder] {s t : Coupling service} {act : Option BusyEngine.Act}
    (all : AllCompile s) (only : compilesOnly act) (step : Coupling.Step s act t) :
    AllCompile t := by
  intro errand waits c cycle
  cases step.comes waits with
  | waited mem => exact all _ mem c cycle
  | starts demand did =>
    subst did
    cases demand with
    | compile source =>
      cases cycle
      exact ⟨_, rfl⟩
    | render source => cases only
    | click text page x y => cases cycle
  | goesOn mem current answers succeeds =>
    cases cycle
    rw [succeeds.compileTicket?]
    exact all _ mem _ rfl
  | proceeds mem proceeds => exact proceeds.elim

theorem kept_of_compilesOnly {act : Option BusyEngine.Act} (only : compilesOnly act) :
    act ≠ some .resets := by
  rintro rfl
  cases only

section Runs

variable [ImageDecoder] {engine : Preview.Engine} {backend : Backend} {s : Coupling service}
  {moves : List (Move (Coupling service) (Option BusyEngine.Act))}

theorem allCompile_of_run (run : Run Coupling.Step (.idle engine backend) moves s)
    (only : ∀ move ∈ moves, compilesOnly move.act) : AllCompile s := by
  induction run with
  | nil => exact fun _ mem => nomatch mem
  | snoc earlier step inductionHypothesis =>
    rw [List.forall_mem_append, List.forall_mem_singleton] at only
    exact (inductionHypothesis only.1).step only.2 step

/-- A compile that renders has the last source, has fetched the page of its cursor, and has put its
    own pages in the slots it has fetched. -/
theorem renders_of_run (run : Run Coupling.Step (.idle engine backend) moves s)
    (clean : ∀ move ∈ moves, move.before.service.corrupt = [])
    (only : ∀ move ∈ moves, compilesOnly move.act) {t : Coupling service}
    {act : Option BusyEngine.Act} (step : Coupling.Step s act t) {c : Cycle} {plan : Plan}
    (renders : rendered? act = some (c, plan)) :
    (sources moves).getLast? = some c.source ∧ fetchesPage (cursorPage c.source) plan ∧
      ∀ i, t.engine.keys[i]? =
        if fetchesPage i plan then (keysOf (splitPages c.source.content))[i]?
        else s.engine.keys[i]? := by
  obtain ⟨before, after, ongoing, reply, b, waits, -, current, -⟩ := step.of_rendered? renders
  have waiting : (⟨.cycle c, ongoing⟩ : Preview.Errand service) ∈ s.errands :=
    waits ▸ List.mem_append_cons_self
  -- its ticket is the latest, so no other source came after its own
  obtain ⟨ticket, compiles⟩ := allCompile_of_run run only _ waiting c rfl
  obtain ⟨owned, own⟩ := own_of_run run clean
  exact ⟨Coupling.latest_source run waiting compiles (current.1 ticket compiles) rfl,
    own.renders owned step renders compiles⟩

/-- Every slot shows its page as it was fetched last. -/
theorem keys_of_shownText (run : Run Coupling.Step (.idle engine backend) moves s)
    (clean : ∀ move ∈ moves, move.before.service.corrupt = [])
    (only : ∀ move ∈ moves, compilesOnly move.act) {text : String}
    (inSync : engine.keys = keysOf (splitPages text)) (i : Nat) :
    s.engine.keys[i]? = (keysOf (splitPages (shownText i text moves)))[i]? := by
  induction run with
  | nil => exact congrArg (·[i]?) inSync
  | @snoc moves s t act earlier step inductionHypothesis =>
    rw [List.forall_mem_append, List.forall_mem_singleton] at clean only
    have before := inductionHypothesis clean.1 only.1
    rw [shownText_snoc, shownAfter]
    cases renders : rendered? act with
    | none =>
      rw [step.keys_of_unrendered (kept_of_compilesOnly only.2) renders]
      exact before
    | some rendered =>
      obtain ⟨-, -, drawn⟩ := renders_of_run earlier clean.1 only.1 step renders
      rw [drawn i]
      dsimp only
      split
      · rfl
      · exact before

/-- A page that has no edit that was not rendered is the same in the text that was fetched and in
    the latest one. -/
theorem shownText_of_not_owed (run : Run Coupling.Step (.idle engine backend) moves s)
    (clean : ∀ move ∈ moves, move.before.service.corrupt = [])
    (only : ∀ move ∈ moves, compilesOnly move.act) {text : String}
    (edits : EachEditsPage text (sources moves)) {i : Nat} (settled : owed i moves = false) :
    (splitPages (shownText i text moves))[i]? =
      (splitPages (latestText text (sources moves)))[i]? := by
  induction run with
  | nil => rfl
  | @snoc moves s t act earlier step inductionHypothesis =>
    rw [List.forall_mem_append, List.forall_mem_singleton] at clean only
    rw [Coupling.sources_snoc, EachEditsPage.append_iff] at edits
    rw [owed_snoc, owedAfter] at settled
    rw [shownText_snoc, shownAfter, Coupling.sources_snoc, latestText_append]
    dsimp only at edits settled ⊢
    have before := inductionHypothesis clean.1 only.1 edits.1
    cases renders : rendered? act with
    | none =>
      simp only [renders, Bool.or_eq_false_iff] at settled ⊢
      refine (before settled.1).trans ?_
      cases compiled : compiles? act with
      | none => rfl
      | some source =>
        have apart : cursorPage source ≠ i := by simpa [compiled] using settled.2
        rw [compiled] at edits
        exact (edits.2.1.elsewhere i apart).symm
    | some rendered =>
      obtain ⟨last, -⟩ := renders_of_run earlier clean.1 only.1 step renders
      rw [Coupling.compiles?_of_rendered? renders, Option.toList_none, latestText]
      simp only [renders, Bool.and_eq_false_iff, Bool.not_eq_false'] at settled ⊢
      split
      · rw [latestText_of_getLast? last]
      · next other => exact before (settled.resolve_right other)

end Runs

/-! ## A failed edit -/

attribute [local instance] pngDecoder

/-- An error is written on the second page, the first page is edited, and the error is taken out
    again; each of these texts is compiled before the next one is written. -/
def failedEdit : List (Move (Coupling service) (Option BusyEngine.Act)) × Coupling service :=
  performOn "#pagebreak()\n"
    [.asks (.compile ⟨default, "#pagebreak()\n#error", 13⟩), .answers 0, .answers 0,
      .asks (.compile ⟨default, "x\n#pagebreak()\n#error", 0⟩), .answers 0, .answers 0,
      .asks (.compile ⟨default, "x\n#pagebreak()\n", 15⟩), .answers 0, .answers 0, .answers 0,
      .answers 0, .answers 0]

/-- Whether a cycle is started only when nothing else is under way. -/
def startsAlone (move : Move (Coupling service) (Option BusyEngine.Act)) : Bool :=
  match move.act with
  | some (.starts _ _) => move.before.errands.isEmpty
  | _ => true

theorem failedEdit_moves :
    (∀ move ∈ failedEdit.1, Orderly move ∧ startsAlone move ∧ compilesOnly move.act) ∧
    EachEditsPage "#pagebreak()\n" (sources failedEdit.1) ∧
    latestText "#pagebreak()\n" (sources failedEdit.1) = "x\n#pagebreak()\n" ∧
    (failedEdit.1.getLast?.bind fun move => rendered? move.act).map (fun last =>
      last.1.source.content) = some "x\n#pagebreak()\n" ∧
    shownText 0 "#pagebreak()\n" failedEdit.1 = "#pagebreak()\n" ∧
    owed 0 failedEdit.1 = true ∧ owed 1 failedEdit.1 = false := by
  decide +kernel

theorem edited_page_key : PageKey.of (pagePng "") 0 ≠ PageKey.of (pagePng "x") 0 := by
  decide +kernel

/-- The texts on both sides of the edit of the first page. -/
theorem edited_page (text : String) (edited : (splitPages text)[0]? = some "x") :
    (keysOf (splitPages "#pagebreak()\n"))[0]? ≠ (keysOf (splitPages text))[0]? := by
  have empty : (splitPages "#pagebreak()\n")[0]? = some "" := by decide +kernel
  rw [keysOf_getElem?, keysOf_getElem?, empty, edited]
  exact fun same => edited_page_key (Option.some.inj same)

end LivePreview.Toy
