import LivePreview.Proofs.Custody
import LivePreview.Proofs.Preview.Succession

/-!
# Ledgers

A `Ledger` follows the tickets of one sequence through a run: operations hold them
while they wait, and some go on record when a reply is taken.  Every ticket is in one
place only, and since a reply is taken only while the ticket is the latest, the record
is strictly increasing (`Ledger.record_increasing`).
-/

namespace LivePreview.Preview

namespace Counters

/-- `k.Before k'`: no sequence goes back between `k` and `k'`. -/
structure Before (k k' : Counters) : Prop where
  compiles : k.compiles.latest ≤ k'.compiles.latest
  renders : k.renders.latest ≤ k'.renders.latest
  clicks : k.clicks.latest ≤ k'.clicks.latest

theorem Before.refl (k : Counters) : k.Before k :=
  ⟨Nat.le_refl _, Nat.le_refl _, Nat.le_refl _⟩

theorem Before.trans {k k' k'' : Counters} (first : k.Before k') (next : k'.Before k'') :
    k.Before k'' :=
  ⟨Nat.le_trans first.compiles next.compiles, Nat.le_trans first.renders next.renders,
    Nat.le_trans first.clicks next.clicks⟩

end Counters

theorem Cycle.Succeeds.before {e : Engine} {c next : Cycle} {reply : c.call.Reply}
    {k : Counters} (succeeds : c.Succeeds e reply next k) : e.counters.Before k := by
  cases succeeds with
  | locating => exact ⟨Nat.le_refl _, Nat.le_succ _, Nat.le_refl _⟩
  | _ => exact .refl _

theorem Activity.Advances.before {a : Activity} {reply : a.call.Reply} {e : Engine}
    {step : Engine × Progress Activity Ending} (advances : a.Advances e reply step) :
    e.counters.Before step.1.counters := by
  cases advances with
  | ends same => exact same ▸ .refl _
  | waits _ succeeds => exact succeeds.before

theorem Demand.start_before (demand : Demand) (e : Engine) :
    e.counters.Before (demand.start e).1.counters := by
  cases demand with
  | compile source =>
    simp only [start, Engine.startCompile_counters]
    exact ⟨Nat.le_succ _, Nat.le_refl _, Nat.le_refl _⟩
  | render source =>
    simp only [start, Engine.startRender_counters]
    exact ⟨Nat.le_refl _, Nat.le_succ _, Nat.le_refl _⟩
  | click text page x y =>
    simp only [start, Engine.startClick_counters]
    exact ⟨Nat.le_refl _, Nat.le_refl _, Nat.le_succ _⟩

theorem Engine.reset_before (e : Engine) : e.counters.Before e.reset.counters := by
  rw [reset_counters]
  exact ⟨Nat.le_succ _, Nat.le_succ _, Nat.le_succ _⟩

/-! ## Steps as exchanges -/

namespace BusyEngine

/-- The cycle whose reply is taken in a step: it resumes, and it is not dropped. -/
def Act.taken? : Act → Option Cycle
  | .resumes (.cycle _) _ (.ended (.cycle .superseded)) => none
  | .resumes (.cycle c) _ _ => some c
  | _ => none

variable [ImageDecoder]

/-- A reply is taken only while every ticket of its cycle is the latest. -/
theorem taken?_resumes {a : Activity} {e : Engine} {reply : a.call.Reply} {c : Cycle}
    (taken : (Act.resumes a reply (a.resume e reply).2).taken? = some c) :
    a = .cycle c ∧ a.IsCurrent e.counters := by
  by_cases current : a.IsCurrent e.counters
  · cases a with
    | cycle c' =>
      simp only [Act.taken?] at taken
      split at taken
      all_goals simp_all
    | click _ => cases taken
  · obtain ⟨lines, dropped⟩ := a.resume_stale current reply
    rw [dropped] at taken
    cases a <;> cases taken

theorem Step.before {s t : BusyEngine} {act : Act} (step : Step s act t) :
    s.engine.counters.Before t.engine.counters := by
  cases step with
  | starts demand => exact demand.start_before s.engine
  | resets => exact s.engine.reset_before
  | resumes _ _ reply => exact (Activity.resume_advances _ s.engine reply).before

theorem before_of_run {s t : BusyEngine} {moves : List (Move BusyEngine Act)}
    (run : Run Step s moves t) : s.engine.counters.Before t.engine.counters :=
  run.keeps (P := fun _ t => s.engine.counters.Before t.engine.counters)
    (.refl _) fun earlier step => earlier.trans step.before

end BusyEngine

/-! ## The ledger of a sequence -/

/-- The tickets of one sequence: who holds them, and which go on record when the reply
    to a cycle is taken. -/
structure Ledger where
  sequence : Counters → Sequence
  held : Activity → Option Ticket
  recorded : Cycle → Option Ticket
  /-- Sequences never go back. -/
  grows : ∀ {k k'}, k.Before k' → (sequence k).latest ≤ (sequence k').latest
  /-- An operation that starts holds a new ticket, if any. -/
  starts : ∀ {demand e}, ∀ ticket ∈ held (Demand.start e demand).2,
    (sequence e.counters).latest < ticket.number ∧
      ticket.number ≤ (sequence (demand.start e).1.counters).latest
  /-- A cycle that goes on holds the ticket it held, or a new one. -/
  goesOn : ∀ {e c reply next k}, Cycle.Succeeds e c reply next k →
    ∀ ticket ∈ held (.cycle next), ticket ∈ held (.cycle c) ∧ recorded c = none ∨
      (sequence e.counters).latest < ticket.number ∧ ticket.number ≤ (sequence k).latest
  /-- A cycle records a ticket of its own. -/
  own : ∀ {c}, ∀ ticket ∈ recorded c, ticket ∈ held (.cycle c)
  /-- A cycle with the latest tickets holds the latest of this sequence. -/
  current : ∀ {c k}, Activity.IsCurrent (.cycle c) k → ∀ ticket ∈ recorded c,
    ticket.number = (sequence k).latest

namespace Ledger

variable (l : Ledger)

/-- The numbers of the tickets an operation holds. -/
def numbers (a : Activity) : List Nat :=
  (l.held a).toList.map Ticket.number

/-- What a step puts on record. -/
def entry (act : BusyEngine.Act) : Option Ticket :=
  act.taken?.bind l.recorded

@[simp] theorem entry_starts (demand : Demand) (a : Activity) :
    l.entry (.starts demand a) = none := rfl

@[simp] theorem entry_resets : l.entry .resets = none := rfl

/-- The numbers of the tickets put on record in a run, oldest first. -/
def record (moves : List (Move BusyEngine BusyEngine.Act)) : List Nat :=
  moves.filterMap fun move => (l.entry move.act).map Ticket.number

theorem record_snoc (moves : List (Move BusyEngine BusyEngine.Act))
    (move : Move BusyEngine BusyEngine.Act) :
    l.record (moves ++ [move]) =
      l.record moves ++ (l.entry move.act).toList.map Ticket.number := by
  rw [record, List.filterMap_append]
  cases entered : l.entry move.act <;> simp [record, entered]

/-- The books are in order: no ticket is in two places, each was given out, and the
    record is increasing. -/
def Sound (record : List Nat) (s : BusyEngine) : Prop :=
  InOrder l.numbers record s.waiting (l.sequence s.engine.counters).latest

variable {l}

theorem mem_numbers {a : Activity} {n : Nat} : n ∈ l.numbers a ↔ ⟨n⟩ ∈ l.held a := by
  rw [numbers, List.mem_map]
  constructor
  · rintro ⟨ticket, held, rfl⟩
    exact Option.mem_toList.mp held
  · exact fun held => ⟨⟨n⟩, Option.mem_toList.mpr held, rfl⟩

theorem numbers_nodup (a : Activity) : (l.numbers a).Nodup := by
  unfold numbers
  cases l.held a <;> simp

/-- A ticket is held by one operation only. -/
theorem Sound.alone {record : List Nat} {s : BusyEngine} {before after : List Activity}
    {a b : Activity} {ticket : Ticket} (sound : l.Sound record s)
    (waits : s.waiting = before ++ a :: after) (held : ticket ∈ l.held a)
    (mem : b ∈ before ++ after) : ticket ∉ l.held b := by
  intro shared
  have apart := (List.nodup_append.mp sound.apart).2.1
  rw [waits, List.flatMap_append, List.flatMap_cons, List.nodup_append] at apart
  have mine := mem_numbers.mpr held
  have others : ∀ holders : List Activity, b ∈ holders →
      ticket.number ∈ holders.flatMap l.numbers := fun holders mem =>
    List.mem_flatMap.mpr ⟨b, mem, mem_numbers.mpr shared⟩
  rcases List.mem_append.mp mem with left | right
  · exact apart.2.2 _ (others _ left) _ (List.mem_append_left _ mine) rfl
  · exact (List.nodup_append.mp apart.2.1).2.2 _ mine _ (others _ right) rfl

variable [ImageDecoder]

/-- What goes on record is the ticket of a cycle whose reply is taken. -/
theorem entry_resumes {a : Activity} {e : Engine} {reply : a.call.Reply} {ticket : Ticket}
    (entered : ticket ∈ l.entry (.resumes a reply (a.resume e reply).2)) :
    ∃ c, a = .cycle c ∧ ticket ∈ l.recorded c ∧ ticket ∈ l.held a ∧
      ticket.number = (l.sequence e.counters).latest := by
  obtain ⟨c, taken, recorded⟩ := Option.bind_eq_some_iff.mp entered
  obtain ⟨rfl, current⟩ := BusyEngine.taken?_resumes taken
  exact ⟨c, rfl, recorded, l.own ticket recorded, l.current current ticket recorded⟩

/-- A cycle that goes on records nothing that the next stage still holds. -/
theorem once_resumes {a : Activity} {e : Engine} (reply : a.call.Reply) :
    ((l.entry (.resumes a reply (a.resume e reply).2)).toList.map Ticket.number ++
      (a.resume e reply).2.next.flatMap l.numbers).Nodup := by
  refine List.nodup_append.mpr ⟨?_, ?_, fun n recorded other keeps same => ?_⟩
  · cases l.entry (.resumes a reply (a.resume e reply).2) <;> simp
  · cases (a.resume e reply).2 with
    | ended _ => simp
    | waits stage => simpa using l.numbers_nodup stage
  · subst same
    obtain ⟨ticket, entered, rfl⟩ := List.mem_map.mp recorded
    obtain ⟨c, rfl, recorded, _, latest⟩ := entry_resumes (Option.mem_toList.mp entered)
    have advances := Activity.resume_advances (.cycle c) e reply
    revert keeps advances
    generalize (Activity.resume e (.cycle c) reply) = step
    rintro keeps (_ | ⟨_, succeeds⟩)
    · simp at keeps
    · simp only [Progress.next_waits, List.flatMap_cons, List.flatMap_nil, List.append_nil] at keeps
      rcases l.goesOn succeeds ticket (mem_numbers.mp keeps) with ⟨_, nothing⟩ | ⟨above, _⟩
      · exact absurd (nothing ▸ recorded) (Option.not_mem_none ticket)
      · omega

/-- What waits after a reply holds a ticket it held before, or a new one. -/
theorem whence_resumes {a : Activity} {e : Engine} (reply : a.call.Reply) {n : Nat}
    (keeps : n ∈ (a.resume e reply).2.next.flatMap l.numbers) :
    n ∈ l.numbers a ∨ (l.sequence e.counters).latest < n ∧
      n ≤ (l.sequence (a.resume e reply).1.counters).latest := by
  have advances := a.resume_advances e reply
  revert keeps advances
  generalize a.resume e reply = step
  rintro keeps (_ | ⟨_, succeeds⟩)
  · simp at keeps
  · simp only [Progress.next_waits, List.flatMap_cons, List.flatMap_nil, List.append_nil,
      mem_numbers] at keeps ⊢
    exact (l.goesOn succeeds _ keeps).imp_left And.left

/-- Every step keeps the books in order. -/
theorem Sound.step {record : List Nat} {s t : BusyEngine} {act : BusyEngine.Act}
    (sound : l.Sound record s) (step : BusyEngine.Step s act t) :
    l.Sound (record ++ (l.entry act).toList.map Ticket.number) t := by
  have grows := l.grows step.before
  unfold Sound at sound ⊢
  cases step with
  | starts demand =>
    have started := sound.join [(demand.start s.engine).2] grows
      (by simpa using l.numbers_nodup _)
      (fun n mem => l.starts _ (mem_numbers.mp (by simpa using mem)))
    simpa using started
  | resets => simpa using sound.join [] grows (by simp) (by simp)
  | @resumes before after a waits reply =>
    have leaves : InOrder l.numbers record (before ++ [a] ++ after)
        (l.sequence s.engine.counters).latest := by simpa [waits] using sound
    refine leaves.exchange _ _ grows (once_resumes reply) ?_ ?_
    · intro n arrived
      rw [List.flatMap_singleton]
      rcases List.mem_append.mp arrived with recorded | keeps
      · obtain ⟨ticket, entered, rfl⟩ := List.mem_map.mp recorded
        obtain ⟨_, _, _, held, _⟩ := entry_resumes (Option.mem_toList.mp entered)
        exact .inl (mem_numbers.mpr held)
      · exact whence_resumes reply keeps
    · intro n recorded
      obtain ⟨ticket, entered, rfl⟩ := List.mem_map.mp recorded
      obtain ⟨_, _, _, _, latest⟩ := entry_resumes (Option.mem_toList.mp entered)
      exact latest

/-- The books are in order after every run. -/
theorem sound_of_run {engine : Engine} {moves : List (Move BusyEngine BusyEngine.Act)}
    {s : BusyEngine} (run : Run BusyEngine.Step (.idle engine) moves s) :
    l.Sound (l.record moves) s := by
  refine run.keeps (P := fun moves s => l.Sound (l.record moves) s) ?_ fun sound step => ?_
  · exact InOrder.start _
  · rw [record_snoc]
    exact sound.step step

/-- Tickets go on record in strictly increasing order. -/
theorem record_increasing {engine : Engine} {moves : List (Move BusyEngine BusyEngine.Act)}
    {s : BusyEngine} (run : Run BusyEngine.Step (.idle engine) moves s) :
    (l.record moves).Pairwise (· < ·) :=
  (sound_of_run run).increasing

end Ledger

end LivePreview.Preview
