import LivePreview.Proofs.Compiler.Ranking
import LivePreview.Proofs.Preview.Coupling

/-!
# The compiler as a service

A call to the compiler goes on from request to request while the engine waits for its
answer, and is dropped when its time is over.  Nothing is assumed of what the system
answers; it is kept for the record.  Generations are allocated in the order of the
tickets of the compiles (`allocations_increasing`).
-/

namespace LivePreview.Compiler

open Preview (Activity Coupling Cycle Demand Errand Ledger Progress Service Ticket BusyEngine)

/-- What the system was asked for, with its answer. -/
abbrev Answered : Type :=
  (request : Host.Request) × request.Reply

/-- A compiler, and what the system has answered so far. -/
structure Site where
  compiler : Compiler
  answered : List Answered

abbrev Standing (call : Call) : Type :=
  Progress (Stage call.operation) (Except Failure call.operation.Answer)

def service : Service where
  State := Site
  Ongoing := Standing
  accept site call :=
    ((site.compiler.call call).2, { site with compiler := (site.compiler.call call).1 })
  Proceeds {call} site standing standing' site' :=
    ∃ (stage : Stage call.operation) (reply : (stage.request site.compiler).Reply),
      standing = .waits stage ∧ standing' = (site.compiler.resume stage reply).2 ∧
        site' = ⟨(site.compiler.resume stage reply).1, site.answered ++ [⟨_, reply⟩]⟩
  Drifts site site' := ∃ lines, site' = { site with compiler := { site.compiler with lines } }
  Answers {call} site standing reply site' :=
    site' = site ∧
      (standing = .ended reply ∨ ∃ after, reply = .error (.timeout call.operation after))

/-! ## Generations and tickets -/

/-- The ticket and the generation of a compile that is called in a move. -/
def allocated? (move : Move (Coupling service) (Option BusyEngine.Act)) : Option (Nat × Nat) :=
  match move.act with
  | some (.resumes (.cycle (.persisting _ ticket)) _ (.waits _)) =>
    if move.after.service.compiler.generation = move.before.service.compiler.generation then none
    else some (ticket.number, move.after.service.compiler.generation)
  | _ => none

/-- The tickets and the generations of the compiles that were called in a run. -/
def allocations (moves : List (Move (Coupling service) (Option BusyEngine.Act))) :
    List (Nat × Nat) :=
  moves.filterMap allocated?

theorem latest_of_allocated {move : Move (Coupling service) (Option BusyEngine.Act)}
    {pair : Nat × Nat} (allocated : allocated? move = some pair) :
    pair.2 = move.after.service.compiler.generation ∧
      move.after.service.compiler.generation ≠ move.before.service.compiler.generation := by
  unfold allocated? at allocated
  split at allocated
  · split at allocated
    · cases allocated
    · next grown =>
      cases allocated
      exact ⟨rfl, grown⟩
  · cases allocated

/-- A ticket with which a generation is allocated is on record as one whose source was
    written. -/
theorem allocated_sublist (move : Move (Coupling service) (Option BusyEngine.Act)) :
    ((allocated? move).toList.map Prod.fst).Sublist
      ((move.act.bind Ledger.writes.entry).toList.map Ticket.number) := by
  obtain ⟨before, act, after⟩ := move
  unfold allocated?
  split
  · next source ticket reply next same =>
    obtain rfl := same
    split
    · exact List.nil_sublist _
    · exact List.Sublist.refl _
  · exact List.nil_sublist _

theorem allocations_sublist (moves : List (Move (Coupling service) (Option BusyEngine.Act))) :
    ((allocations moves).map Prod.fst).Sublist
      (Ledger.writes.record (Coupling.engineMoves moves)) := by
  induction moves with
  | nil => exact List.Sublist.refl _
  | cons move moves inductionHypothesis =>
    have first := allocated_sublist move
    obtain ⟨before, act, after⟩ := move
    cases act with
    | none => exact inductionHypothesis
    | some act =>
      have listed : allocations (⟨before, some act, after⟩ :: moves) =
          (allocated? ⟨before, some act, after⟩).toList ++ allocations moves := by
        rw [allocations, List.filterMap_cons]
        cases allocated? ⟨before, some act, after⟩ <;> rfl
      have recorded : Ledger.writes.record
          (Coupling.engineMoves (⟨before, some act, after⟩ :: moves)) =
          (Ledger.writes.entry act).toList.map Ticket.number ++
            Ledger.writes.record (Coupling.engineMoves moves) := by
        show List.filterMap _ (_ :: _) = _
        rw [List.filterMap_cons]
        cases Ledger.writes.entry act <;> simp [Ledger.record, Coupling.engineMoves]
      rw [listed, recorded, List.map_append]
      exact first.append inductionHypothesis

/-! ## Steps and runs -/

variable [ImageDecoder]

theorem proceeds_alone {s : Coupling service} {a : Activity} {standing : Standing a.call}
    (waits : s.errands = [⟨a, standing⟩]) (stage : Stage a.call.operation)
    (held : standing = .waits stage) (reply : (stage.request s.service.compiler).Reply) :
    Coupling.Step s none ⟨s.engine,
      ⟨(s.service.compiler.resume stage reply).1, s.service.answered ++ [⟨_, reply⟩]⟩,
      [⟨a, (s.service.compiler.resume stage reply).2⟩]⟩ :=
  .proceeds [] waits ⟨stage, reply, held, rfl, rfl⟩

theorem resumes_alone {s : Coupling service} {a : Activity} {standing : Standing a.call}
    (waits : s.errands = [⟨a, standing⟩]) (reply : a.call.Reply)
    (answer : standing = .ended reply) :
    Coupling.Step s (some (.resumes a reply (a.resume s.engine reply).2))
      ⟨(a.resume s.engine reply).1, (service.dispatch s.service (a.resume s.engine reply).2).2,
        (service.dispatch s.service (a.resume s.engine reply).2).1⟩ := by
  have step := Coupling.Step.resumes [] waits ⟨rfl, .inl answer⟩
  rwa [List.nil_append, List.append_nil] at step

def Standing.drafts {call : Call} (standing : Standing call) : List Draft :=
  standing.next.flatMap Stage.drafts

def drafts (errand : Errand service) : List Draft :=
  Standing.drafts errand.ongoing

variable {s t : Coupling service} {act : Option BusyEngine.Act}

/-- The order of generations is kept, whoever waits for the calls. -/
theorem ranked_step {shown : List Nat}
    (ranked : Ranked drafts shown s.errands s.service.compiler) (step : Coupling.Step s act t) :
    ∃ shown, Ranked drafts shown t.errands t.service.compiler := by
  cases step with
  | starts demand =>
    exact ⟨shown, ranked.joins (s.service.compiler.call_begins _) (List.flatMap_singleton ..)⟩
  | resets => exact ⟨shown, ranked⟩
  | @resumes before after errand waits reply service answers =>
    rw [waits, List.append_cons] at ranked
    obtain ⟨rfl, -⟩ := answers
    generalize (errand.activity.resume s.engine reply).2 = progress
    cases progress with
    | waits next =>
      exact ⟨shown, ranked.begins (s.service.compiler.call_begins _) (List.flatMap_singleton ..)⟩
    | ended ending =>
      exact ⟨shown, ranked.replace [] (Nat.le_refl _) List.nodup_nil fun _ mem => nomatch mem⟩
  | @proceeds before after errand waits ongoing site proceeds =>
    obtain ⟨stage, reply, waiting, rfl, rfl⟩ := proceeds
    have advances := s.service.compiler.resume_advances stage reply
    have mine : drafts errand = stage.drafts := by
      rw [drafts, waiting]
      exact List.flatMap_singleton ..
    have goesOn :
        List.flatMap drafts [⟨errand.activity, (s.service.compiler.resume stage reply).2⟩] =
        (s.service.compiler.resume stage reply).2.next.flatMap Stage.drafts :=
      List.flatMap_singleton ..
    obtain ⟨new, -, ranked⟩ := (waits ▸ ranked).advances advances mine goesOn
    rw [List.append_assoc] at ranked
    exact ⟨_, ranked⟩
  | drifts drifts =>
    obtain ⟨lines, rfl⟩ := drifts
    exact ⟨shown, ranked.order, ranked.named, ranked.published⟩

theorem generation_le_of_step (step : Coupling.Step s act t) :
    s.service.compiler.generation ≤ t.service.compiler.generation := by
  cases step with
  | starts demand => exact (s.service.compiler.call_begins _).generation_le
  | resets => exact Nat.le_refl _
  | @resumes before after errand waits reply service answers =>
    obtain ⟨rfl, -⟩ := answers
    generalize (errand.activity.resume s.engine reply).2 = progress
    cases progress with
    | waits next => exact (s.service.compiler.call_begins _).generation_le
    | ended ending => exact Nat.le_refl _
  | @proceeds before after errand waits ongoing site proceeds =>
    obtain ⟨stage, reply, waiting, rfl, rfl⟩ := proceeds
    exact (s.service.compiler.resume_advances stage reply).generation
  | drifts drifts =>
    obtain ⟨lines, rfl⟩ := drifts
    exact Nat.le_refl _

variable {moves : List (Move (Coupling service) (Option BusyEngine.Act))} {engine : Preview.Engine}
  {site : Site}

/-- The tickets of the compiles that are called and the generations that are allocated to
    them are in the same order. -/
theorem allocations_increasing (run : Run Coupling.Step (.idle engine site) moves s) :
    ((allocations moves).map Prod.fst).Pairwise (· < ·) ∧
      ((allocations moves).map Prod.snd).Pairwise (· < ·) := by
  refine ⟨?_, ?_⟩
  · have recorded := Ledger.record_increasing (l := .writes) (Coupling.run_busyEngine run)
    exact recorded.sublist (allocations_sublist moves)
  · have known : ((allocations moves).map Prod.snd).Pairwise (· < ·) ∧
        ∀ n ∈ (allocations moves).map Prod.snd, n ≤ s.service.compiler.generation := by
      refine run.keeps (P := fun moves s => ((allocations moves).map Prod.snd).Pairwise (· < ·) ∧
        ∀ n ∈ (allocations moves).map Prod.snd, n ≤ s.service.compiler.generation)
        ⟨List.Pairwise.nil, fun _ mem => nomatch mem⟩ fun {moves s act t} earlier step => ?_
      obtain ⟨increasing, below⟩ := earlier
      have grows := generation_le_of_step step
      rw [allocations, List.filterMap_append, List.map_append]
      cases allocated : allocated? ⟨s, act, t⟩ with
      | none =>
        simp only [List.filterMap_cons_none allocated, List.filterMap_nil, List.map_nil,
          List.append_nil]
        exact ⟨increasing, fun n mem => Nat.le_trans (below n mem) grows⟩
      | some pair =>
        obtain ⟨latest, grown⟩ := latest_of_allocated allocated
        dsimp only at latest grown
        simp only [List.filterMap_cons_some allocated, List.filterMap_nil, List.map_cons,
          List.map_nil]
        refine ⟨List.pairwise_append.mpr ⟨increasing, List.pairwise_singleton .., ?_⟩, ?_⟩
        · intro n known m new
          have earlier := below n known
          rw [List.mem_singleton.mp new]
          omega
        · intro n mem
          rcases List.mem_append.mp mem with known | new
          · exact Nat.le_trans (below n known) grows
          · rw [List.mem_singleton.mp new]
            exact Nat.le_of_eq latest
    exact known.1

end LivePreview.Compiler
