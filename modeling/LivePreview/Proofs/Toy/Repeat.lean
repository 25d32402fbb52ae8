import LivePreview.Page.Decoder
import LivePreview.Proofs.Toy.Lone

/-!
# A compile that is repeated

From a quiet engine a source is compiled, and nothing else is asked while the compile is under way
(`Lone`).  `Stage` says where such a compile stands after so many answers, and what it has made of
the preview; `Lone.stage` follows it answer by answer.  If it has rendered, and the same source is
compiled again, the second compile finds a preview that has settled, and leaves the scene as it is
(`repeated_compile_redraws_nothing`).
-/

namespace LivePreview.Toy

open Preview (Activity Coupling Cycle Demand Engine Errand Outcome BusyEngine)

/-! ## Nothing else is asked -/

/-- Whether a step is neither a start nor a reset. -/
def asksNothing : Option BusyEngine.Act → Bool
  | some (.starts _ _) => false
  | some .resets => false
  | _ => true

/-- The moves of a compile that is started when nothing is under way, up to any point before
    something else is asked. -/
inductive Lone [ImageDecoder] (source : Snapshot) (s : Coupling service) :
    List (Move (Coupling service) (Option BusyEngine.Act)) → Coupling service → Prop
  | starts {activity : Activity} {t : Coupling service} (quiet : s.errands = [])
      (step : Coupling.Step s (some (.starts (.compile source) activity)) t) :
      Lone source s [⟨s, some (.starts (.compile source) activity), t⟩] t
  | goesOn {moves : List (Move (Coupling service) (Option BusyEngine.Act))}
      {act : Option BusyEngine.Act} {t u : Coupling service} (lone : Lone source s moves t)
      (step : Coupling.Step t act u) (asks : asksNothing act = true) :
      Lone source s (moves ++ [⟨t, act, u⟩]) u

def isReply : Option BusyEngine.Act → Bool
  | some (.resumes _ _ _) => true
  | _ => false

/-- How many answers came. -/
def replies (moves : List (Move (Coupling service) (Option BusyEngine.Act))) : Nat :=
  moves.countP fun move => isReply move.act

def outcome? : Option BusyEngine.Act → Option Outcome
  | some (.resumes _ _ (.ended (.cycle outcome))) => some outcome
  | _ => none

/-- How the cycles ended. -/
def outcomes (moves : List (Move (Coupling service) (Option BusyEngine.Act))) : List Outcome :=
  moves.filterMap fun move => outcome? move.act

section

variable {source : Snapshot} {s t u : Coupling service} {act : Option BusyEngine.Act}
  {moves : List (Move (Coupling service) (Option BusyEngine.Act))}

theorem replies_snoc : replies (moves ++ [⟨t, act, u⟩]) =
    replies moves + if isReply act then 1 else 0 := by
  simp [replies, List.countP_append, List.countP_singleton]

theorem outcomes_snoc :
    outcomes (moves ++ [⟨t, act, u⟩]) = outcomes moves ++ (outcome? act).toList := by
  rw [outcomes, List.filterMap_append]
  cases ends : outcome? act <;> simp [outcomes, ends]

theorem Lone.run [ImageDecoder] (lone : Lone source s moves t) : Run Coupling.Step s moves t := by
  induction lone with
  | starts quiet step => exact .one step
  | goesOn _ step _ inductionHypothesis => exact inductionHypothesis.snoc step

theorem Orderly.willing {move : Move (Coupling service) (Option BusyEngine.Act)}
    (orderly : Orderly move) : move.before.service.Willing :=
  ⟨orderly.1, orderly.2.1, orderly.2.2.1⟩

end

section Compiles

variable [ImageDecoder]

/-! ## Compiles that are carried out -/

/-- The operation that waits first gets its answer, or word that the time for it is over. -/
def deliver (done : List (Move (Coupling service) (Option BusyEngine.Act)) × Coupling service)
    (late : Bool) : List (Move (Coupling service) (Option BusyEngine.Act)) × Coupling service :=
  match done.2.errands with
  | [] => done
  | errand :: rest =>
    let reply :=
      if late then .error (.timeout errand.activity.call.operation 10) else errand.ongoing
    let (e, progress) := errand.activity.resume done.2.engine reply
    let (next, b) := service.dispatch done.2.service progress
    let t : Coupling service := ⟨e, b, next ++ rest⟩
    (done.1 ++ [⟨done.2, some (.resumes errand.activity reply progress), t⟩], t)

/-- The start of a compile. -/
def begun (source : Snapshot) (s : Coupling service) :
    List (Move (Coupling service) (Option BusyEngine.Act)) × Coupling service :=
  let (e, activity) := (Demand.compile source).start s.engine
  let (errand, b) := service.issue s.service activity
  let t : Coupling service := ⟨e, b, s.errands ++ [errand]⟩
  ([⟨s, some (.starts (.compile source) activity), t⟩], t)

/-- The start of a compile, and answers to it, some of them late. -/
@[irreducible] def conduct (source : Snapshot) (s : Coupling service) (lates : List Bool) :
    List (Move (Coupling service) (Option BusyEngine.Act)) × Coupling service :=
  lates.foldl deliver (begun source s)

theorem Lone.deliver {source : Snapshot} {s : Coupling service}
    {done : List (Move (Coupling service) (Option BusyEngine.Act)) × Coupling service}
    (lone : Lone source s done.1 done.2) (late : Bool) :
    Lone source s (deliver done late).1 (deliver done late).2 := by
  unfold Toy.deliver
  split
  · exact lone
  · next errand rest waits =>
    refine lone.goesOn (.resumes [] waits ⟨rfl, ?_⟩) rfl
    cases late with
    | true => exact .inr ⟨_, rfl⟩
    | false => exact .inl rfl

theorem conduct_lone (source : Snapshot) {s : Coupling service} (quiet : s.errands = [])
    (lates : List Bool) : Lone source s (conduct source s lates).1 (conduct source s lates).2 := by
  rw [conduct]
  have starts : Lone source s (begun source s).1 (begun source s).2 :=
    .starts quiet (.starts s (.compile source))
  exact List.foldlRecOn (motive := fun done => Lone source s done.1 done.2) lates Toy.deliver
    starts fun _ lone late _ => lone.deliver late

/-! ## Where the compile stands -/

/-- Where a compile that began at an engine `start` stands after so many answers.  If `start` had
    settled, nothing has changed. -/
inductive Stage (source : Snapshot) (start : Engine) :
    Nat → List Outcome → Coupling service → Prop
  | waits {answered : Nat} {e : Engine} {b : Backend} {c : Cycle} {ongoing : c.call.Reply}
      (awaits : Awaits source b e c ongoing)
      (current : (Activity.cycle c).IsCurrent e.counters) (asked : c.asked = answered + 1)
      (again : Settled source start → Settled source e ∧ start.Keeps e) :
      Stage source start answered [] ⟨e, b, [⟨.cycle c, ongoing⟩]⟩
  | rendered {e : Engine} {b : Backend} {report : Preview.RenderReport}
      (settled : Settled source e)
      (again : Settled source start → start.Keeps e ∧ report =
        ⟨.single (cursorPage source), (splitPages source.content).length, [], 1, 0⟩) :
      Stage source start 5 [.rendered report] ⟨e, b, []⟩
  | failed {answered : Nat} {e : Engine} {b : Backend} {kind : FailureKind}
      (unsettled : ¬ Settled source start) :
      Stage source start answered [.failed kind] ⟨e, b, []⟩

section

variable {source : Snapshot} {start : Engine} {answered : Nat} {ends : List Outcome}
  {s t u : Coupling service} {act : Option BusyEngine.Act}

theorem Stage.of_starts {activity : Activity} (willing : s.service.Willing)
    (quiet : s.errands = [])
    (step : Coupling.Step s (some (.starts (.compile source) activity)) t) :
    Stage source s.engine 0 [] t := by
  cases step
  have persists := willing.persist source.path source.content
  have keeps := s.engine.startCompile_keeps source
  rw [quiet]
  refine .waits (c := .persisting source ⟨s.engine.counters.compiles.latest + 1⟩) ?_ ?_ rfl ?_
  · show Awaits source _ _ (.persisting source _)
      (s.service.respond (.persistSource source.path source.content)).1.reply
    rw [persists]
    exact .written _ (Backend.respond_persist persists)
  · rw [← Cycle.isStale_iff, Cycle.isStale, Bool.not_eq_false']
    exact Preview.Sequence.isCurrent_iff.mpr
      (congrArg (fun k => k.compiles.latest) (s.engine.startCompile_counters source)).symm
  · exact fun settled => ⟨settled.of_keeps keeps (s.engine.startCompile_display source), keeps⟩

theorem Stage.resumes {e : Engine} {b : Backend} {c : Cycle} {ongoing : c.call.Reply}
    (willing : b.Willing) (fits : (splitPages source.content).length < Text.wordLimit)
    (room : 0 < e.state.cache.capacity) (awaits : Awaits source b e c ongoing)
    (current : (Activity.cycle c).IsCurrent e.counters) (asked : c.asked = answered + 1)
    (again : Settled source start → Settled source e ∧ start.Keeps e) :
    Stage source start (answered + 1)
      (outcome? (some (.resumes (.cycle c) ongoing ((Activity.cycle c).resume e ongoing).2))).toList
      ⟨((Activity.cycle c).resume e ongoing).1,
        (service.dispatch b ((Activity.cycle c).resume e ongoing).2).2,
        (service.dispatch b ((Activity.cycle c).resume e ongoing).2).1⟩ := by
  have turns := awaits.turns willing fits room ((c.isStale_iff e).mpr current)
  have advances := c.resume_advances e ongoing
  dsimp only [Activity.resume]
  generalize c.resume e ongoing = step at turns advances ⊢
  cases turns with
  | goesOn awaits next display keeps =>
    cases advances with
    | waits succeeds =>
      refine .waits awaits (BusyEngine.current_of_succeeds current succeeds) ?_ fun settled => ?_
      · rw [next, asked]
      · obtain ⟨now, kept⟩ := again settled
        exact ⟨now.of_keeps (keeps now) display, kept.trans (keeps now)⟩
  | renders last settled once =>
    obtain rfl : answered = 4 := by omega
    refine .rendered settled fun before => ?_
    obtain ⟨now, kept⟩ := again before
    exact ⟨kept.trans (once now).1, (once now).2⟩
  | fails unsettled => exact .failed fun settled => unsettled (again settled).1

/-- One step of a compile alone. -/
theorem Stage.step (stage : Stage source start answered ends t) (willing : t.service.Willing)
    (fits : (splitPages source.content).length < Text.wordLimit)
    (room : 0 < t.engine.state.cache.capacity) (step : Coupling.Step t act u)
    (asks : asksNothing act = true) (timely : inTime act = true) :
    Stage source start (answered + if isReply act then 1 else 0)
      (ends ++ (outcome? act).toList) u := by
  cases step with
  | starts | resets => cases asks
  | @resumes before after errand waits reply b answers =>
    cases stage with
    | rendered | failed => simp at waits
    | @waits answered e service c ongoing awaits current asked again =>
      -- only one operation waits, and its answer was fixed when its call was made
      obtain ⟨rfl, same⟩ | ⟨rfl, none⟩ := List.append_eq_singleton_iff.mp waits.symm
      · obtain ⟨only, rfl⟩ := List.cons.inj same
        subst only
        dsimp only at reply answers timely willing room ⊢
        obtain ⟨rfl, rfl | ⟨after, rfl⟩⟩ := answers
        · simp only [List.nil_append, List.append_nil]
          exact .resumes willing fits room awaits current asked again
        · cases timely
      · cases none
  | proceeds before waits proceeds => exact proceeds.elim
  | drifts drifts =>
    rw [show (outcome? none).toList = [] from rfl, List.append_nil]
    cases stage with
    | waits awaits current asked again => exact .waits (awaits.of_texts drifts) current asked again
    | rendered settled again => exact .rendered settled again
    | failed unsettled => exact .failed unsettled

omit [ImageDecoder] in
theorem Stage.settled {report : Preview.RenderReport}
    (stage : Stage source start answered ends t) (rendered : .rendered report ∈ ends) :
    Settled source t.engine := by
  cases stage with
  | waits => cases rendered
  | rendered settled => exact settled
  | failed => cases List.mem_singleton.mp rendered

theorem Lone.stage {moves : List (Move (Coupling service) (Option BusyEngine.Act))}
    (lone : Lone source s moves t) (orderly : ∀ move ∈ moves, Orderly move)
    (fits : (splitPages source.content).length < Text.wordLimit)
    (room : 0 < s.engine.state.cache.capacity) :
    Stage source s.engine (replies moves) (outcomes moves) t := by
  induction lone with
  | starts quiet step =>
    exact .of_starts (orderly _ (List.mem_singleton_self _)).willing quiet step
  | goesOn lone step asks inductionHypothesis =>
    rw [List.forall_mem_append, List.forall_mem_singleton] at orderly
    obtain ⟨earlier, now⟩ := orderly
    rw [replies_snoc, outcomes_snoc]
    exact (inductionHypothesis earlier).step now.willing fits
      (Nat.lt_of_lt_of_le room (Coupling.capacity_le_of_run lone.run)) step asks now.2.2.2

/-- An answer that a stage waits for can come in time. -/
theorem Awaits.answers {e : Engine} {b : Backend} {c : Cycle} {reply : c.call.Reply}
    (awaits : Awaits source b e c reply) :
    ∃ act u, Coupling.Step (v := service) ⟨e, b, [⟨.cycle c, reply⟩]⟩ act u ∧
      isReply act = true ∧ inTime act = true := by
  refine ⟨_, _, .resumes [] rfl ⟨rfl, .inl rfl⟩, rfl, ?_⟩
  cases awaits <;> rfl

end

/-! ## The same source again -/

/-- Over the toy backend, with any capacity and after any history: if nothing is under way, and a
    source is compiled and rendered, with nothing else asked meanwhile, nothing arranged to fail and
    every answer in time, and the same source is compiled again in this way, then the scene stays as
    it is, and no event tells of pages or of the position.  The second compile takes five answers,
    each of which can come in time, and has rendered the one page of the cursor, which is found in
    the cache and has not changed. -/
theorem repeated_compile_redraws_nothing {capacity : Nat} {backend : Backend} {source : Snapshot}
    {history moves again : List (Move (Coupling service) (Option BusyEngine.Act))}
    {s t u : Coupling service} {report : Preview.RenderReport}
    (reached : Run Coupling.Step (.idle (.start capacity) backend) history s)
    (fits : (splitPages source.content).length < Text.wordLimit)
    (first : Lone source s moves t) (orderly : ∀ move ∈ moves, Orderly move)
    (rendered : .rendered report ∈ outcomes moves)
    (second : Lone source t again u) (calm : ∀ move ∈ again, Orderly move) :
    u.engine.scene = t.engine.scene ∧
    (∃ told, u.engine.events = t.engine.events ++ told ∧
      ∀ event ∈ told, event.redraws = false) ∧
    (u.errands = [] ↔ replies again = 5) ∧
    (u.errands = [] → outcomes again = [.rendered
      ⟨.single (cursorPage source), (splitPages source.content).length, [], 1, 0⟩]) ∧
    (u.errands ≠ [] → replies again < 5 ∧ outcomes again = [] ∧
      ∃ act v, Coupling.Step u act v ∧ isReply act = true ∧ inTime act = true) := by
  have start : 0 < (Engine.start capacity).state.cache.capacity :=
    Nat.lt_of_lt_of_le Nat.zero_lt_one (Nat.le_max_right ..)
  have room := Nat.lt_of_lt_of_le start (Coupling.capacity_le_of_run reached)
  have settled := (first.stage orderly fits room).settled rendered
  have stage := second.stage calm fits
    (Nat.lt_of_lt_of_le room (Coupling.capacity_le_of_run first.run))
  generalize replies again = answered at stage ⊢
  generalize outcomes again = ends at stage ⊢
  cases stage with
  | @waits answered e b c ongoing awaits current asked once =>
    obtain ⟨-, keeps⟩ := once settled
    have few : answered < 5 := Nat.le_trans (Nat.le_of_eq asked.symm) c.asked_le
    exact ⟨keeps.scene, keeps.told, by simp [Nat.ne_of_lt few], nofun,
      fun _ => ⟨few, rfl, awaits.answers⟩⟩
  | rendered _ once =>
    obtain ⟨keeps, rfl⟩ := once settled
    exact ⟨keeps.scene, keeps.told, by simp, fun _ => rfl, fun waits => absurd rfl waits⟩
  | failed unsettled => exact absurd settled unsettled

/-- A preview with room for one page in its cache. -/
def oneRoom : Coupling service :=
  .idle (.start 1) .start

/-- A source is compiled with some late answers, and then again with none. -/
def conductTwice (source : Snapshot) (lates : List Bool) :
    (List (Move (Coupling service) (Option BusyEngine.Act)) × Coupling service) ×
      (List (Move (Coupling service) (Option BusyEngine.Act)) × Coupling service) :=
  let first := conduct source oneRoom lates
  (first, conduct source first.2 [false, false, false, false, false])

end Compiles

attribute [local instance] pngDecoder

theorem conductTwice_facts :
    let (first, second) :=
      conductTwice ⟨default, "x\n#pagebreak()\n", 15⟩ [false, false, false, false, false]
    (∀ move ∈ first.1, Orderly move) ∧ first.2.errands.isEmpty ∧
    outcomes first.1 = [.rendered ⟨.full, 2, [0, 1], 0, 2⟩] ∧
    (∀ move ∈ second.1, Orderly move) ∧ second.2.errands.isEmpty := by
  decide +kernel

/-- The cursor is on the second of two pages, and there is room for one in the cache at first. -/
theorem second_page_redraws_nothing : ∃ moves t again u,
    Lone ⟨default, "x\n#pagebreak()\n", 15⟩ oneRoom moves t ∧
    outcomes moves = [.rendered ⟨.full, 2, [0, 1], 0, 2⟩] ∧
    Lone ⟨default, "x\n#pagebreak()\n", 15⟩ t again u ∧
    u.errands = [] ∧ u.engine.scene = t.engine.scene ∧
    outcomes again = [.rendered ⟨.single 1, 2, [], 1, 0⟩] := by
  obtain ⟨orderly, quiet, rendered, calm, ended⟩ := conductTwice_facts
  have first := conduct_lone ⟨default, "x\n#pagebreak()\n", 15⟩ (s := oneRoom) rfl
    [false, false, false, false, false]
  have second := conduct_lone ⟨default, "x\n#pagebreak()\n", 15⟩ (List.isEmpty_iff.mp quiet)
    [false, false, false, false, false]
  have fits : (splitPages "x\n#pagebreak()\n").length = 2 := by decide +kernel
  have page : cursorPage ⟨default, "x\n#pagebreak()\n", 15⟩ = 1 := by decide +kernel
  obtain ⟨scene, -, -, report, -⟩ := repeated_compile_redraws_nothing .nil
    (fits ▸ by decide) first orderly (rendered ▸ List.mem_singleton_self _) second calm
  have quiet := List.isEmpty_iff.mp ended
  exact ⟨_, _, _, _, first, rendered, second, quiet, scene, page ▸ fits ▸ report quiet⟩

theorem latePlace_facts :
    let (first, second) := conductTwice ⟨default, "a\nb", 2⟩ [false, false, true, false, false]
    (∀ move ∈ first.1, move.before.service.corrupt = [] ∧ move.before.service.failing = [] ∧
      move.before.service.mapsCursor = true) ∧ first.2.errands.isEmpty ∧
    outcomes first.1 = [.rendered ⟨.full, 1, [0], 0, 1⟩] ∧
    (∀ move ∈ second.1, Orderly move) ∧ second.2.errands.isEmpty ∧
    second.2.engine.scene.position ≠ first.2.engine.scene.position ∧
    (second.2.engine.events.drop first.2.engine.events.length).any Event.redraws := by
  decide +kernel

/-- The place of the cursor comes too late in the first compile, and moves the preview in the
    second. -/
theorem late_place_moves_again : ∃ moves t again u,
    Lone ⟨default, "a\nb", 2⟩ oneRoom moves t ∧
    (∀ move ∈ moves, move.before.service.Willing) ∧
    outcomes moves = [.rendered ⟨.full, 1, [0], 0, 1⟩] ∧
    Lone ⟨default, "a\nb", 2⟩ t again u ∧ (∀ move ∈ again, Orderly move) ∧ u.errands = [] ∧
    u.engine.scene.position ≠ t.engine.scene.position ∧
    (u.engine.events.drop t.engine.events.length).any Event.redraws := by
  obtain ⟨willing, quiet, rendered, calm, ended, moved, told⟩ := latePlace_facts
  have first := conduct_lone ⟨default, "a\nb", 2⟩ (s := oneRoom) rfl
    [false, false, true, false, false]
  have second := conduct_lone ⟨default, "a\nb", 2⟩ (List.isEmpty_iff.mp quiet)
    [false, false, false, false, false]
  exact ⟨_, _, _, _, first,
    fun move mem => ⟨(willing move mem).1, (willing move mem).2.1, (willing move mem).2.2⟩,
    rendered, second, calm, List.isEmpty_iff.mp ended, moved, told⟩

end LivePreview.Toy
