import LivePreview.Gate.Debouncer
import LivePreview.Proofs.Run
import Mathlib.Data.List.Basic

/-!
# When a debouncer is ready

A debouncer is used at instants that never go back: payloads are pushed into it, taken if they are
ready, or flushed.  Whatever was done before, it holds the latest payload that was pushed, unless
one was taken since, and it remembers the instants of the two (`Recalls`).  So what was done before
decides what is taken, and the sleep ends exactly when the payload becomes ready
(`readiness_of_history`).
-/

namespace LivePreview.Gate

variable {α : Type} {interval cooldown now : Time}

/-! ## Readiness and sleep -/

namespace Debouncer

variable {d : Debouncer α}

theorem isReady_iff :
    d.isReady now = true ↔ d.pending.isSome ∧ ∃ pushed, d.lastPush = some pushed ∧
      d.interval ≤ now - pushed ∧ ∀ fired ∈ d.lastFire, d.cooldown ≤ now - fired := by
  cases pushed : d.lastPush with
  | none => simp [isReady, pushed]
  | some time =>
    simp only [isReady, pushed, isCool, Option.all_eq_true, Bool.and_eq_true, decide_eq_true_eq,
      Option.some.injEq, exists_eq_left']
    exact and_comm

/-- What is ready stays ready. -/
theorem isReady_mono {later : Time} (after : now ≤ later) (ready : d.isReady now) :
    d.isReady later := by
  obtain ⟨pending, pushed, held, quiet, cool⟩ := isReady_iff.mp ready
  refine isReady_iff.mpr ⟨pending, pushed, held, ?_, fun fired mem => ?_⟩
  · exact Nat.le_trans quiet (Nat.sub_le_sub_right after pushed)
  · exact Nat.le_trans (cool fired mem) (Nat.sub_le_sub_right after fired)

/-- A payload is taken exactly when it is pending and ready. -/
theorem takeIfReady_eq_some {payload : α} :
    (d.takeIfReady now).1 = some payload ↔ d.isReady now ∧ d.pending = some payload := by
  unfold takeIfReady
  split
  · next ready => cases held : d.pending <;> simp [flush, held, ready]
  · next unready => simp [unready]

/-- A sleep is long enough if it lasts a millisecond and the payload is ready after it. -/
theorem sleepDuration_le_iff {pushed wait : Time} (pending : d.pending.isSome)
    (held : d.lastPush = some pushed) (past : pushed ≤ now)
    (fires : ∀ fired ∈ d.lastFire, fired ≤ now) :
    d.sleepDuration now ≤ wait ↔ d.isReady (now + wait) ∧ millisecond ≤ wait := by
  have quiet : d.interval - (now - pushed) ≤ wait ↔ d.interval ≤ now + wait - pushed := by
    rw [Nat.sub_le_iff_le_add, Nat.sub_add_comm past, Nat.add_comm]
  have cool : (d.lastFire.map fun fired => d.cooldown - (now - fired)).getD 0 ≤ wait ↔
      ∀ fired ∈ d.lastFire, d.cooldown ≤ now + wait - fired := by
    cases last : d.lastFire with
    | none => simp
    | some fired =>
      have before := fires fired last
      simp only [Option.map_some, Option.getD_some, Option.mem_some_iff, forall_eq']
      rw [Nat.sub_le_iff_le_add, Nat.sub_add_comm before, Nat.add_comm]
  simp only [sleepDuration, isReady_iff, held, Nat.max_le, quiet, cool, pending, true_and,
    Option.some.injEq, exists_eq_left']

/-- `d.Punctual now`: the sleep that begins now lasts a millisecond at least, the payload is ready
    from its end on, and was not ready before unless the sleep is that short. -/
structure Punctual (d : Debouncer α) (now : Time) : Prop where
  atLeast : millisecond ≤ d.sleepDuration now
  ready : ∀ t, now + d.sleepDuration now ≤ t → d.isReady t
  notBefore : millisecond < d.sleepDuration now → ∀ t < now + d.sleepDuration now, ¬ d.isReady t

theorem punctual_of_pending {pushed : Time} (pending : d.pending.isSome)
    (held : d.lastPush = some pushed) (past : pushed ≤ now)
    (fires : ∀ fired ∈ d.lastFire, fired ≤ now) : d.Punctual now := by
  have enough {wait : Time} :
      d.sleepDuration now ≤ wait ↔ d.isReady (now + wait) ∧ millisecond ≤ wait :=
    sleepDuration_le_iff pending held past fires
  refine ⟨d.millisecond_le_sleepDuration now, fun t after => ?_, fun long t before ready => ?_⟩
  · exact isReady_mono after (enough.mp (Nat.le_refl _)).1
  · have reached : t ≤ now + max (t - now) millisecond :=
      Nat.sub_le_iff_le_add'.mp (Nat.le_max_left ..)
    have short := enough.mpr ⟨isReady_mono reached ready, Nat.le_max_right ..⟩
    refine absurd short (Nat.not_le_of_lt (Nat.max_lt.mpr ⟨?_, long⟩))
    grind

end Debouncer

/-! ## What was done before -/

/-- A debouncer with the instant at which it was last used. -/
structure Timed (α : Type) where
  debouncer : Debouncer α
  clock : Time

namespace Timed

def start (interval cooldown : Time) : Timed α :=
  ⟨.start interval cooldown, 0⟩

inductive Act (α : Type) where
  | pushes (now : Time) (payload : α)
  /-- The payload is asked for, and given if it is ready. -/
  | takes (now : Time) (given : Option α)
  | flushes (now : Time) (given : Option α)

/-- One use of a debouncer, not before the one that came last. -/
inductive Step : Timed α → Act α → Timed α → Prop
  | pushes (s : Timed α) {now : Time} (later : s.clock ≤ now) (payload : α) :
      Step s (.pushes now payload) ⟨s.debouncer.push now payload, now⟩
  | takes (s : Timed α) {now : Time} (later : s.clock ≤ now) :
      Step s (.takes now (s.debouncer.takeIfReady now).1) ⟨(s.debouncer.takeIfReady now).2, now⟩
  | flushes (s : Timed α) {now : Time} (later : s.clock ≤ now) :
      Step s (.flushes now (s.debouncer.flush now).1) ⟨(s.debouncer.flush now).2, now⟩

def Act.pushed? : Act α → Option (Time × α)
  | .pushes now payload => some (now, payload)
  | _ => none

/-- The instant at which a payload is given away. -/
def Act.fired? : Act α → Option Time
  | .takes now (some _) => some now
  | .flushes now (some _) => some now
  | _ => none

abbrev History (α : Type) : Type :=
  List (Move (Timed α) (Act α))

namespace History

variable {moves : History α}

/-- The latest payload that was pushed, and when. -/
def lastPush (moves : History α) : Option (Time × α) :=
  (moves.filterMap fun move => move.act.pushed?).getLast?

/-- When a payload was last given away. -/
def lastFire (moves : History α) : Option Time :=
  (moves.filterMap fun move => move.act.fired?).getLast?

/-- Whether a payload was pushed and none was given away since. -/
def awaits (moves : History α) : Bool :=
  moves.foldl (fun waits move => move.act.pushed?.isSome || waits && move.act.fired?.isNone) false

theorem lastPush_snoc (moves : History α) (move : Move (Timed α) (Act α)) :
    lastPush (moves ++ [move]) = move.act.pushed?.or (lastPush moves) := by
  cases pushed : move.act.pushed? <;> simp [lastPush, List.filterMap_append, pushed]

theorem lastFire_snoc (moves : History α) (move : Move (Timed α) (Act α)) :
    lastFire (moves ++ [move]) = move.act.fired?.or (lastFire moves) := by
  cases fired : move.act.fired? <;> simp [lastFire, List.filterMap_append, fired]

theorem awaits_snoc (moves : History α) (move : Move (Timed α) (Act α)) :
    awaits (moves ++ [move]) =
      (move.act.pushed?.isSome || awaits moves && move.act.fired?.isNone) := by
  simp [awaits, List.foldl_append]

end History

/-! ## What is remembered -/

open History

/-- What a debouncer holds after some moves: nothing, or the latest payload that was pushed. -/
inductive Holds (moves : History α) (s : Timed α) : Prop
  | nothing (empty : s.debouncer.pending = none) (idle : s.debouncer.lastPush = none)
      (given : awaits moves = false)
  | payload (pushed : Time) (payload : α) (pending : s.debouncer.pending = some payload)
      (held : s.debouncer.lastPush = some pushed) (latest : lastPush moves = some (pushed, payload))
      (past : pushed ≤ s.clock) (waits : awaits moves = true)

/-- What a debouncer remembers of some moves. -/
structure Recalls (interval cooldown : Time) (moves : History α) (s : Timed α) : Prop where
  intervalSet : s.debouncer.interval = interval
  cooldownSet : s.debouncer.cooldown = cooldown
  lastFire : s.debouncer.lastFire = lastFire moves
  fires : ∀ fired ∈ s.debouncer.lastFire, fired ≤ s.clock
  holds : Holds moves s

namespace Recalls

variable {moves : History α} {s t : Timed α} {act : Act α}

theorem start (interval cooldown : Time) :
    Recalls interval cooldown [] (Timed.start interval cooldown : Timed α) where
  intervalSet := rfl
  cooldownSet := rfl
  lastFire := rfl
  fires _ mem := nomatch mem
  holds := .nothing rfl rfl rfl

theorem pushes (recalls : Recalls interval cooldown moves s) (later : s.clock ≤ now)
    (payload : α) (pushed : act.pushed? = some (now, payload)) (quiet : act.fired? = none) :
    Recalls interval cooldown (moves ++ [⟨s, act, t⟩]) ⟨s.debouncer.push now payload, now⟩ where
  intervalSet := recalls.intervalSet
  cooldownSet := recalls.cooldownSet
  lastFire := by simpa [lastFire_snoc, quiet, Debouncer.push] using recalls.lastFire
  fires fired mem := Nat.le_trans (recalls.fires fired mem) later
  holds := .payload now payload rfl rfl (by simp [lastPush_snoc, pushed]) (Nat.le_refl _)
    (by simp [awaits_snoc, pushed])

/-- A move that gives nothing away leaves all as it was. -/
theorem passes (recalls : Recalls interval cooldown moves s) (later : s.clock ≤ now)
    (unpushed : act.pushed? = none) (quiet : act.fired? = none) :
    Recalls interval cooldown (moves ++ [⟨s, act, t⟩]) ⟨s.debouncer, now⟩ where
  intervalSet := recalls.intervalSet
  cooldownSet := recalls.cooldownSet
  lastFire := by simpa [lastFire_snoc, quiet] using recalls.lastFire
  fires fired mem := Nat.le_trans (recalls.fires fired mem) later
  holds := by
    have awaits : awaits (moves ++ [⟨s, act, t⟩]) = awaits moves := by
      simp [awaits_snoc, unpushed, quiet]
    cases recalls.holds with
    | nothing empty idle given => exact .nothing empty idle (awaits.trans given)
    | payload pushed payload pending held latest past waits =>
      refine .payload pushed payload pending held ?_ (Nat.le_trans past later) (awaits.trans waits)
      simpa [lastPush_snoc, unpushed] using latest

/-- The payload is given away. -/
theorem gives (recalls : Recalls interval cooldown moves s) (unpushed : act.pushed? = none)
    (fired : act.fired? = some now) :
    Recalls interval cooldown (moves ++ [⟨s, act, t⟩])
      ⟨{ s.debouncer with pending := none, lastPush := none, lastFire := some now }, now⟩ where
  intervalSet := recalls.intervalSet
  cooldownSet := recalls.cooldownSet
  lastFire := by simp [lastFire_snoc, fired]
  fires fired mem := Nat.le_of_eq (Option.mem_some_iff.mp mem).symm
  holds := .nothing rfl rfl (by simp [awaits_snoc, unpushed, fired])

theorem step (recalls : Recalls interval cooldown moves s) (step : Step s act t) :
    Recalls interval cooldown (moves ++ [⟨s, act, t⟩]) t := by
  cases step with
  | pushes later payload => exact recalls.pushes later payload rfl rfl
  | takes later =>
    unfold Debouncer.takeIfReady
    split
    · cases held : s.debouncer.pending with
      | none => simpa [Debouncer.flush, held] using recalls.passes later rfl rfl
      | some payload => simpa [Debouncer.flush, held] using recalls.gives rfl rfl
    · exact recalls.passes later rfl rfl
  | flushes later =>
    cases held : s.debouncer.pending with
    | none => simpa [Debouncer.flush, held] using recalls.passes later rfl rfl
    | some payload => simpa [Debouncer.flush, held] using recalls.gives rfl rfl

theorem of_run (run : Run Step (Timed.start interval cooldown) moves s) :
    Recalls interval cooldown moves s :=
  run.keeps (P := Recalls interval cooldown) (.start interval cooldown) fun recalls step =>
    recalls.step step

end Recalls

/-! ## Every history -/

/-- Whatever was pushed, taken and flushed before, and however long ago: a payload is pending
    exactly when the instant of a push is recorded, that is, when one was pushed and none given
    away since.  It is taken exactly when it is pending, a whole `interval` has passed since the
    latest push and a whole `cooldown` since a payload was last given away, and then it is the one
    that was pushed last.  While it is pending the sleep is exact. -/
theorem readiness_of_history {moves : History α} {s : Timed α}
    (run : Run Step (start interval cooldown) moves s) :
    (s.debouncer.pending.isSome ↔ s.debouncer.lastPush.isSome) ∧
    (s.debouncer.pending.isSome ↔ awaits moves) ∧
    ∀ now, s.clock ≤ now →
      (∀ payload, (s.debouncer.takeIfReady now).1 = some payload ↔
        s.debouncer.pending.isSome ∧ ∃ pushed, lastPush moves = some (pushed, payload) ∧
          pushed + interval ≤ now ∧ ∀ fired ∈ lastFire moves, fired + cooldown ≤ now) ∧
      (s.debouncer.pending.isSome → s.debouncer.Punctual now) := by
  have recalls := Recalls.of_run run
  cases recalls.holds with
  | nothing empty idle given =>
    refine ⟨by simp [empty, idle], by simp [empty, given], fun now later => ⟨fun payload => ?_, ?_⟩⟩
    · simp [Debouncer.takeIfReady_eq_some, empty]
    · simp [empty]
  | payload pushed held pending recorded latest past waits =>
    refine ⟨by simp [pending, recorded], by simp [pending, waits],
      fun now later => ⟨fun payload => ?_, fun waiting => ?_⟩⟩
    · have before : pushed ≤ now := Nat.le_trans past later
      -- no payload was given away later than now, so nothing is cut off by the subtraction
      have cool : (∀ fired ∈ s.debouncer.lastFire, cooldown ≤ now - fired) ↔
          ∀ fired ∈ s.debouncer.lastFire, fired + cooldown ≤ now := by
        refine forall₂_congr fun fired mem => ?_
        exact Nat.le_sub_iff_add_le' (Nat.le_trans (recalls.fires fired mem) later)
      rw [Debouncer.takeIfReady_eq_some, Debouncer.isReady_iff, recalls.intervalSet,
        recalls.cooldownSet, cool, recalls.lastFire]
      simp only [pending, recorded, latest, Option.isSome_some, true_and, Option.some.injEq,
        Prod.mk.injEq, exists_eq_left', Nat.le_sub_iff_add_le' before]
      constructor
      · rintro ⟨⟨quiet, cool⟩, rfl⟩
        exact ⟨pushed, ⟨rfl, rfl⟩, quiet, cool⟩
      · rintro ⟨_, ⟨rfl, rfl⟩, quiet, cool⟩
        exact ⟨⟨quiet, cool⟩, rfl⟩
    · exact Debouncer.punctual_of_pending waiting recorded (Nat.le_trans past later)
        fun fired mem => Nat.le_trans (recalls.fires fired mem) later

/-- A second payload comes as soon as the first one was taken.  It was quiet for long enough when
    the cooldown has still 800 milliseconds to go: this is how long to sleep, and then it is
    taken. -/
theorem taken_after_cooldown : ∃ (moves : History String) (s : Timed String),
    Run Step (start (100 * millisecond) (1000 * millisecond)) moves s ∧
    s.clock ≤ 300 * millisecond ∧
    s.debouncer.sleepDuration (300 * millisecond) = 800 * millisecond ∧
    s.debouncer.Punctual (300 * millisecond) ∧
    (s.debouncer.takeIfReady (300 * millisecond + 800 * millisecond)).1 = some "b" := by
  have waited : 0 ≤ 100 * millisecond := Nat.zero_le _
  have first := (Run.nil.snoc
    (Step.pushes (start (100 * millisecond) (1000 * millisecond)) (Nat.zero_le 0) "a")).snoc
    (.takes _ waited)
  have second := first.snoc (.pushes _ (Nat.le_refl _) "b")
  obtain ⟨-, -, serves⟩ := readiness_of_history second
  refine ⟨_, _, second, by decide, by decide, (serves _ (by decide)).2 rfl, ?_⟩
  refine ((serves _ (by decide)).1 "b").mpr ⟨rfl, 100 * millisecond, by decide, by decide, ?_⟩
  decide

end Timed

end LivePreview.Gate
