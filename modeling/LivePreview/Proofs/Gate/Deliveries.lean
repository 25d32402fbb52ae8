import LivePreview.Gate.Loop
import Mathlib.Data.List.Basic

/-!
# What a gate delivers, and when

A loop is followed through a schedule of triggers.  `Kept` says what is known of it at any time:
which trigger each delivery was, that none came too early, and that a payload which waits is due
when the loop wakes.  A trigger and a waking keep it (`Kept.trigger`, `Kept.wakeUp`), so a whole
schedule does (`Kept.takeAll`), and closing the gate delivers what is left
(`run_serves`).
-/

namespace LivePreview.Gate

variable {α : Type} {interval cooldown clock now stop : Time}

/-- The longest time for which a payload waits once no trigger comes any more. -/
def patience (interval cooldown : Time) : Time :=
  max (max interval cooldown) millisecond

/-- A delivery, with the place in the schedule of the trigger that it delivers. -/
structure Pick (α : Type) where
  place : Nat
  delivery : Delivery α

/-- Whether the trigger was received by the time it is delivered, and no later one was. -/
structure Pick.IsLatest (triggers : List (Time × α)) (pick : Pick α) : Prop where
  received : ∃ time ≤ pick.delivery.1, triggers[pick.place]? = some (time, pick.delivery.2)
  newest : ∀ place later, pick.place < place → triggers[place]? = some later →
    pick.delivery.1 < later.1

/-- Whether a delivery comes a whole `interval` after its trigger. -/
def Pick.IsQuiet (interval : Time) (triggers : List (Time × α)) (pick : Pick α) : Prop :=
  ∀ trigger, triggers[pick.place]? = some trigger → trigger.1 + interval ≤ pick.delivery.1

/-- Whether the next trigger comes so long after the one at `place` that this one has to be
    delivered before. -/
def Settles (interval cooldown : Time) (triggers : List (Time × α)) (place : Nat) (time : Time) :
    Prop :=
  ∀ next later, place < next → triggers[next]? = some later →
    time + patience interval cooldown < later.1

/-! ## A loop and its past -/

/-- What waits in a loop that has taken `taken` and delivered `fired`. -/
inductive Holds (interval cooldown : Time) (taken : List (Time × α)) (fired : List (Pick α))
    (l : Loop α) : Prop
  /-- The last trigger was delivered, if there was one. -/
  | nothing (empty : l.debouncer.pending = none) (idle : l.debouncer.lastPush = none)
      (answered : taken ≠ [] → ∃ pick ∈ fired, pick.place + 1 = taken.length)
  /-- The last trigger waits, and will be due when the loop wakes. -/
  | payload (earlier : List (Time × α)) (time : Time) (payload : α)
      (last : taken = earlier ++ [(time, payload)])
      (pending : l.debouncer.pending = some payload) (pushed : l.debouncer.lastPush = some time)
      (waits : ∀ pick ∈ fired, pick.place < earlier.length)
      (quiet : time + interval ≤ l.wake)
      (cool : ∀ fire ∈ l.debouncer.lastFire, fire + cooldown ≤ l.wake)
      (prompt : l.wake ≤ time + patience interval cooldown)

/-- What is known at the time `clock` of a loop that has taken `taken` and delivered `fired`. -/
structure Kept (interval cooldown clock : Time) (taken : List (Time × α)) (fired : List (Pick α))
    (l : Loop α) : Prop where
  intervalSet : l.debouncer.interval = interval
  cooldownSet : l.debouncer.cooldown = cooldown
  takenBefore : ∀ trigger ∈ taken, trigger.1 ≤ clock
  lastFire : ∀ fire ∈ l.debouncer.lastFire, fire < clock
  firedBefore : ∀ pick ∈ fired, ∃ fire ∈ l.debouncer.lastFire, pick.delivery.1 ≤ fire
  increasing : fired.Pairwise fun pick next => pick.place < next.place
  latest : ∀ pick ∈ fired, pick.IsLatest taken
  quiet : ∀ pick ∈ fired, pick.IsQuiet interval taken
  cool : fired.Pairwise fun pick next => pick.delivery.1 + cooldown ≤ next.delivery.1
  holds : Holds interval cooldown taken fired l
  prompt : ∀ place trigger, taken[place]? = some trigger →
    Settles interval cooldown taken place trigger.1 →
    (∃ pick ∈ fired, pick.place = place ∧
      pick.delivery.1 ≤ trigger.1 + patience interval cooldown) ∨
    place + 1 = taken.length ∧ l.debouncer.pending.isSome

/-! ## Triggers and wakings -/

theorem eq_of_getElem?_snoc {triggers : List (Time × α)} {trigger found : Time × α} {place : Nat}
    (at_place : (triggers ++ [trigger])[place]? = some found) :
    triggers[place]? = some found ∨ place = triggers.length ∧ found = trigger := by
  grind

theorem Pick.IsLatest.lt_length {triggers : List (Time × α)} {pick : Pick α}
    (latest : pick.IsLatest triggers) : pick.place < triggers.length := by
  obtain ⟨_, _, found⟩ := latest.received
  exact (List.getElem?_eq_some_iff.mp found).1

/-- A trigger that comes after the delivery does not make it an older one. -/
theorem Pick.IsLatest.snoc {triggers : List (Time × α)} {pick : Pick α}
    (latest : pick.IsLatest triggers) {trigger : Time × α} (after : pick.delivery.1 < trigger.1) :
    pick.IsLatest (triggers ++ [trigger]) where
  received := by
    rw [List.getElem?_append_left latest.lt_length]
    exact latest.received
  newest place later behind found := by
    rcases eq_of_getElem?_snoc found with old | ⟨_, rfl⟩
    · exact latest.newest place later behind old
    · exact after

theorem Pick.IsQuiet.snoc {triggers : List (Time × α)} {pick : Pick α}
    (quiet : pick.IsQuiet interval triggers) (latest : pick.IsLatest triggers)
    (trigger : Time × α) : pick.IsQuiet interval (triggers ++ [trigger]) := by
  intro found at_place
  rw [List.getElem?_append_left latest.lt_length] at at_place
  exact quiet found at_place

theorem Settles.of_snoc {triggers : List (Time × α)} {trigger : Time × α} {place : Nat}
    {time : Time} (settles : Settles interval cooldown (triggers ++ [trigger]) place time) :
    Settles interval cooldown triggers place time := by
  intro next later behind found
  refine settles next later behind ?_
  rwa [List.getElem?_append_left (List.getElem?_eq_some_iff.mp found).1]

/-- A loop that was just triggered sleeps until the payload is due, and no longer. -/
theorem Debouncer.sleepDuration_push (d : Debouncer α) (past : ∀ fire ∈ d.lastFire, fire ≤ now)
    (payload : α) :
    d.interval ≤ (d.push now payload).sleepDuration now ∧
      (∀ fire ∈ d.lastFire, fire + d.cooldown ≤ now + (d.push now payload).sleepDuration now) ∧
      (d.push now payload).sleepDuration now ≤ patience d.interval d.cooldown := by
  obtain ⟨pending, lastPush, lastFire, interval, cooldown⟩ := d
  cases lastFire with
  | none =>
    simp only [push, sleepDuration, patience, Nat.sub_self, Nat.sub_zero, Option.map_none,
      Option.getD_none]
    grind
  | some fire =>
    have := past fire rfl
    simp only [push, sleepDuration, patience, Option.mem_some_iff, Option.map_some,
      Option.getD_some, forall_eq']
    grind

/-- A payload that is due is delivered when the loop wakes. -/
theorem Loop.wakeUp_eq_of_due {l : Loop α} {payload : α} {time : Time}
    (pending : l.debouncer.pending = some payload) (pushed : l.debouncer.lastPush = some time)
    (quiet : time + l.debouncer.interval ≤ l.wake)
    (cool : ∀ fire ∈ l.debouncer.lastFire, fire + l.debouncer.cooldown ≤ l.wake) :
    l.wakeUp = (some (l.wake, payload), sleep { l.debouncer with
      pending := none, lastPush := none, lastFire := some l.wake } l.wake) := by
  have isCool : l.debouncer.isCool l.wake = true := by
    rw [Debouncer.isCool, Option.all_eq_true]
    intro fire fired
    exact decide_eq_true (Nat.le_sub_of_add_le' (cool fire fired))
  have isReady : l.debouncer.isReady l.wake = true := by
    simp only [Debouncer.isReady, pushed, isCool, pending, Option.isSome_some, Bool.and_true,
      decide_eq_true_eq]
    exact Nat.le_sub_of_add_le' quiet
  simp only [wakeUp, Debouncer.takeIfReady, isReady, if_true, Debouncer.flush, pending,
    Option.map_some]

/-- A loop that holds no payload only goes back to sleep. -/
theorem Loop.wakeUp_eq_of_idle {l : Loop α} (idle : l.debouncer.lastPush = none) :
    l.wakeUp = (none, sleep l.debouncer l.wake) := by
  simp [wakeUp, Debouncer.takeIfReady, Debouncer.isReady, idle]

theorem Loop.le_wake_advance (l : Loop α) (stop : Time) : stop ≤ (l.advance stop).2.wake := by
  induction l using advance.induct stop with
  | case1 l before delivered l' found inductionHypothesis =>
    rw [advance, if_pos before]
    exact inductionHypothesis
  | case2 l after =>
    rw [advance, if_neg after]
    exact Nat.le_of_not_lt after

namespace Kept

variable {taken : List (Time × α)} {fired : List (Pick α)} {l : Loop α}

theorem start (interval cooldown : Time) :
    Kept interval cooldown 0 [] [] (Loop.start interval cooldown : Loop α) where
  intervalSet := rfl
  cooldownSet := rfl
  takenBefore _ mem := nomatch mem
  lastFire _ mem := nomatch mem
  firedBefore _ mem := nomatch mem
  increasing := .nil
  latest _ mem := nomatch mem
  quiet _ mem := nomatch mem
  cool := .nil
  holds := .nothing rfl rfl (absurd rfl)
  prompt _ _ found := nomatch found

theorem mono (kept : Kept interval cooldown clock taken fired l) (later : clock ≤ now) :
    Kept interval cooldown now taken fired l where
  __ := kept
  takenBefore trigger mem := Nat.le_trans (kept.takenBefore trigger mem) later
  lastFire fire mem := Nat.lt_of_lt_of_le (kept.lastFire fire mem) later

theorem firedBefore_clock (kept : Kept interval cooldown clock taken fired l) {pick : Pick α}
    (mem : pick ∈ fired) : pick.delivery.1 < clock := by
  obtain ⟨fire, last, le⟩ := kept.firedBefore pick mem
  exact Nat.lt_of_le_of_lt le (kept.lastFire fire last)

/-- A trigger that is taken before the loop wakes. -/
theorem trigger (kept : Kept interval cooldown now taken fired l) (asleep : now ≤ l.wake)
    (payload : α) :
    Kept interval cooldown now (taken ++ [(now, payload)]) fired (l.trigger now payload) where
  intervalSet := kept.intervalSet
  cooldownSet := kept.cooldownSet
  takenBefore trigger mem := by
    rcases List.mem_append.mp mem with old | new
    · exact kept.takenBefore trigger old
    · exact Nat.le_of_eq (congrArg Prod.fst (List.mem_singleton.mp new))
  lastFire := kept.lastFire
  firedBefore := kept.firedBefore
  increasing := kept.increasing
  latest pick mem := (kept.latest pick mem).snoc (kept.firedBefore_clock mem)
  quiet pick mem := (kept.quiet pick mem).snoc (kept.latest pick mem) _
  cool := kept.cool
  holds := by
    obtain ⟨quiet, cool, prompt⟩ := l.debouncer.sleepDuration_push
      (fun fire fires => Nat.le_of_lt (kept.lastFire fire fires)) payload
    rw [kept.intervalSet, kept.cooldownSet] at prompt
    rw [kept.intervalSet] at quiet
    rw [kept.cooldownSet] at cool
    exact .payload taken now payload rfl rfl rfl
      (fun pick mem => (kept.latest pick mem).lt_length)
      (Nat.add_le_add_left quiet now) cool (Nat.add_le_add_left prompt now)
  prompt place trigger found settles := by
    rcases eq_of_getElem?_snoc found with old | ⟨rfl, _⟩
    · rcases kept.prompt place trigger old settles.of_snoc with delivered | ⟨last, waits⟩
      · exact .inl delivered
      · refine absurd asleep (Nat.not_le_of_lt ?_)
        cases kept.holds with
        | nothing empty => rw [empty] at waits; cases waits
        | payload earlier time payload ends pending pushed waits quiet cool prompt =>
          subst ends
          have : place = earlier.length := by simpa using last
          subst this
          rw [List.getElem?_concat_length] at old
          cases old
          refine Nat.lt_of_le_of_lt prompt (settles _ (now, _) ?_ List.getElem?_concat_length)
          simp
    · exact .inr ⟨by simp, rfl⟩

/-- The trigger that waits is the last one.  Once it is delivered, the deliveries are still in
    order, each was the latest one, and no trigger has waited longer than it must. -/
theorem gives (kept : Kept interval cooldown clock taken fired l) {earlier : List (Time × α)}
    {time moment : Time} {payload : α} (last : taken = earlier ++ [(time, payload)])
    (waits : ∀ pick ∈ fired, pick.place < earlier.length) (due : time ≤ moment)
    (inTime : moment ≤ time + patience interval cooldown) {picks : List (Pick α)}
    (delivered : picks = fired ++ [⟨earlier.length, (moment, payload)⟩]) :
    (picks.Pairwise fun pick next => pick.place < next.place) ∧
    (∀ pick ∈ picks, pick.IsLatest taken) ∧
    ∀ place trigger, taken[place]? = some trigger →
      Settles interval cooldown taken place trigger.1 →
      ∃ pick ∈ picks, pick.place = place ∧
        pick.delivery.1 ≤ trigger.1 + patience interval cooldown := by
  subst delivered
  have newest : taken[earlier.length]? = some (time, payload) := by
    rw [last, List.getElem?_concat_length]
  have length : taken.length = earlier.length + 1 := by simp [last]
  refine ⟨?_, ?_, fun place trigger found settles => ?_⟩
  · exact List.pairwise_append.mpr ⟨kept.increasing, List.pairwise_singleton ..,
      fun pick mem next new => List.mem_singleton.mp new ▸ waits pick mem⟩
  · refine List.forall_mem_append.mpr ⟨kept.latest, List.forall_mem_singleton.mpr ?_⟩
    refine ⟨⟨time, due, newest⟩, fun place later behind found => ?_⟩
    have within := (List.getElem?_eq_some_iff.mp found).1
    exact absurd (Nat.lt_of_lt_of_eq within length) (Nat.not_lt_of_le behind)
  · rcases kept.prompt place trigger found settles with ⟨pick, mem, delivered⟩ | ⟨ends, _⟩
    · exact ⟨pick, List.mem_append_left _ mem, delivered⟩
    · have same : earlier.length = place := Nat.succ.inj (length.symm.trans ends.symm)
      rw [← same, newest] at found
      cases found
      exact ⟨_, List.mem_concat_self, same, inTime⟩

/-- The loop wakes, and delivers what waits. -/
theorem wakeUp (kept : Kept interval cooldown clock taken fired l) (later : clock ≤ now)
    (wakes : l.wake < now) :
    ∃ more, l.wakeUp.1.toList = more.map Pick.delivery ∧
      Kept interval cooldown now taken (fired ++ more) l.wakeUp.2 := by
  have still := kept.mono later
  cases kept.holds with
  | nothing empty idle answered =>
    rw [Loop.wakeUp_eq_of_idle idle]
    refine ⟨[], rfl, ?_⟩
    rw [List.append_nil]
    exact { still with holds := .nothing empty idle answered }
  | payload earlier time payload last pending pushed waits quiet cool prompt =>
    rw [Loop.wakeUp_eq_of_due pending pushed (kept.intervalSet ▸ quiet) (kept.cooldownSet ▸ cool)]
    have newest : taken[earlier.length]? = some (time, payload) := by
      rw [last, List.getElem?_concat_length]
    obtain ⟨increasing, latest, served⟩ :=
      kept.gives last waits (Nat.le_trans (Nat.le_add_right ..) quiet) prompt rfl
    refine ⟨[⟨earlier.length, (l.wake, payload)⟩], rfl, ?_⟩
    -- the loop slept through the cooldown of the last delivery, and all others lie before that one
    have lastDue (pick : Pick α) (mem : pick ∈ fired) : pick.delivery.1 + cooldown ≤ l.wake := by
      obtain ⟨fire, fires, le⟩ := kept.firedBefore pick mem
      exact Nat.le_trans (Nat.add_le_add_right le cooldown) (cool fire fires)
    exact {
      intervalSet := kept.intervalSet
      cooldownSet := kept.cooldownSet
      takenBefore := still.takenBefore
      lastFire := fun fire fires => Option.mem_some_iff.mp fires ▸ wakes
      firedBefore := fun pick mem => by
        refine ⟨l.wake, rfl, ?_⟩
        rcases List.mem_append.mp mem with old | new
        · exact Nat.le_trans (Nat.le_add_right ..) (lastDue pick old)
        · exact Nat.le_of_eq (congrArg (·.delivery.1) (List.mem_singleton.mp new))
      increasing := increasing
      latest := latest
      quiet := by
        refine List.forall_mem_append.mpr ⟨kept.quiet, List.forall_mem_singleton.mpr ?_⟩
        intro trigger found
        rw [newest] at found
        cases found
        exact quiet
      cool := List.pairwise_append.mpr ⟨kept.cool, List.pairwise_singleton ..,
        fun pick mem next new => List.mem_singleton.mp new ▸ lastDue pick mem⟩
      holds := .nothing rfl rfl fun _ => ⟨_, List.mem_concat_self, by simp [last]⟩
      prompt := fun place trigger found settles => .inl (served place trigger found settles) }

theorem advance (kept : Kept interval cooldown clock taken fired l) (later : clock ≤ stop) :
    ∃ more, (l.advance stop).1 = more.map Pick.delivery ∧
      Kept interval cooldown stop taken (fired ++ more) (l.advance stop).2 := by
  induction l using Loop.advance.induct stop generalizing clock fired with
  | case1 l before delivered l' found inductionHypothesis =>
    obtain ⟨first, same, woken⟩ := kept.wakeUp later before
    obtain ⟨rest, others, done⟩ := inductionHypothesis woken (Nat.le_refl stop)
    rw [Loop.advance, if_pos before]
    refine ⟨first ++ rest, ?_, ?_⟩
    · rw [List.map_append, ← same, ← others]
    · rw [← List.append_assoc]
      exact done
  | case2 l after =>
    rw [Loop.advance, if_neg after]
    exact ⟨[], rfl, (List.append_nil fired).symm ▸ kept.mono later⟩

theorem takeAll {triggers : List (Time × α)} (kept : Kept interval cooldown clock taken fired l)
    (sorted : triggers.Pairwise (·.1 ≤ ·.1)) (after : ∀ trigger ∈ triggers, clock ≤ trigger.1)
    (before : ∀ trigger ∈ triggers, trigger.1 ≤ stop) (later : clock ≤ stop) :
    ∃ more, (l.takeAll triggers).1 = more.map Pick.delivery ∧
      Kept interval cooldown stop (taken ++ triggers) (fired ++ more) (l.takeAll triggers).2 := by
  induction triggers generalizing l clock taken fired with
  | nil =>
    rw [List.append_nil]
    exact ⟨[], rfl, (List.append_nil fired).symm ▸ kept.mono later⟩
  | cons head triggers inductionHypothesis =>
    obtain ⟨now, payload⟩ := head
    obtain ⟨sooner, sorted⟩ := List.pairwise_cons.mp sorted
    obtain ⟨_, after⟩ := List.forall_mem_cons.mp after
    obtain ⟨inTime, before⟩ := List.forall_mem_cons.mp before
    obtain ⟨first, same, woken⟩ := kept.advance ‹clock ≤ now›
    obtain ⟨rest, others, done⟩ := inductionHypothesis
      (woken.trigger (l.le_wake_advance now) payload) sorted sooner before inTime
    refine ⟨first ++ rest, ?_, ?_⟩
    · rw [List.map_append, ← same, ← others]
      rfl
    · rw [← List.append_assoc, List.append_cons]
      exact done

end Kept

/-! ## A whole schedule -/

/-- What is asked of a gate: `fired` are its deliveries before it is closed at `stop`, and `flush`
    is the one that the closing makes. -/
structure Serves (interval cooldown : Time) (triggers : List (Time × α)) (stop : Time)
    (fired : List (Pick α)) (flush : Option (Pick α)) : Prop where
  before : ∀ pick ∈ fired, pick.delivery.1 < stop
  flushed : ∀ pick ∈ flush, pick.delivery.1 = stop
  increasing : (fired ++ flush.toList).Pairwise fun pick next => pick.place < next.place
  latest : ∀ pick ∈ fired ++ flush.toList, pick.IsLatest triggers
  last : triggers ≠ [] → ∃ pick ∈ fired ++ flush.toList, pick.place + 1 = triggers.length
  quiet : ∀ pick ∈ fired, pick.IsQuiet interval triggers
  cool : fired.Pairwise fun pick next => pick.delivery.1 + cooldown ≤ next.delivery.1
  prompt : ∀ place trigger, triggers[place]? = some trigger →
    Settles interval cooldown triggers place trigger.1 →
    ∃ pick ∈ fired ++ flush.toList, pick.place = place ∧
      pick.delivery.1 ≤ trigger.1 + patience interval cooldown

/-- A gate that is closed before its loop wakes delivers what waits. -/
theorem Kept.close {triggers : List (Time × α)} {fired : List (Pick α)} {l : Loop α}
    (kept : Kept interval cooldown stop triggers fired l) (asleep : stop ≤ l.wake) :
    ∃ flush, l.close stop = flush.toList.map Pick.delivery ∧
      Serves interval cooldown triggers stop fired flush := by
  cases kept.holds with
  | nothing empty idle answered =>
    refine ⟨none, by simp [Loop.close, Debouncer.flush, empty], ?_⟩
    exact {
      before := fun _ => kept.firedBefore_clock
      flushed := fun _ mem => nomatch mem
      increasing := by simpa using kept.increasing
      latest := by simpa using kept.latest
      last := by simpa using answered
      quiet := kept.quiet
      cool := kept.cool
      prompt := fun place trigger found settles => by
        rcases kept.prompt place trigger found settles with delivered | ⟨_, waits⟩
        · simpa using delivered
        · rw [empty] at waits
          cases waits }
  | payload earlier time payload last pending pushed waits quiet cool prompt =>
    have due : time ≤ stop := kept.takenBefore (time, payload) (last ▸ List.mem_concat_self)
    obtain ⟨increasing, latest, served⟩ :=
      kept.gives last waits due (Nat.le_trans asleep prompt) rfl
    refine ⟨some ⟨earlier.length, (stop, payload)⟩, by simp [Loop.close, Debouncer.flush, pending],
      ?_⟩
    exact {
      before := fun _ => kept.firedBefore_clock
      flushed := fun pick mem => Option.mem_some_iff.mp mem ▸ rfl
      increasing := increasing
      latest := latest
      last := fun _ => ⟨_, List.mem_concat_self, by simp [last]⟩
      quiet := kept.quiet
      cool := kept.cool
      prompt := served }

theorem le_scheduleEnd {triggers : List (Time × α)} (sorted : triggers.Pairwise (·.1 ≤ ·.1))
    (closeAt : Option Time) : ∀ trigger ∈ triggers, trigger.1 ≤ scheduleEnd triggers closeAt := by
  intro trigger mem
  refine Nat.le_trans ?_ (Nat.le_max_left ..)
  rcases List.eq_nil_or_concat triggers with rfl | ⟨earlier, last, rfl⟩
  · cases mem
  · rw [List.concat_eq_append] at mem sorted ⊢
    rw [List.getLast?_concat, Option.map_some, Option.getD_some]
    rcases List.mem_append.mp mem with old | new
    · exact (List.pairwise_append.mp sorted).2.2 trigger old last (List.mem_singleton_self last)
    · exact Nat.le_of_eq (congrArg Prod.fst (List.mem_singleton.mp new))

/-- A gate that is triggered in the order of time and then closed delivers triggers in order, each
    at most once: each is the latest one when it is delivered, and the last of all is delivered.
    Only the closing delivers one before it was quiet and cool for long enough, and no trigger waits
    longer than it must when no other one follows. -/
theorem run_serves (interval cooldown : Time) {triggers : List (Time × α)}
    (sorted : triggers.Pairwise (·.1 ≤ ·.1)) (closeAt : Option Time) :
    ∃ fired flush, run interval cooldown triggers closeAt =
        (fired ++ flush.toList).map Pick.delivery ∧
      Serves interval cooldown triggers (scheduleEnd triggers closeAt) fired flush := by
  have started := Kept.start (α := α) interval cooldown
  obtain ⟨taken, takes, awaited⟩ := started.takeAll sorted (fun _ _ => Nat.zero_le _)
    (le_scheduleEnd sorted closeAt) (Nat.zero_le _)
  obtain ⟨late, wakes, done⟩ := awaited.advance (Nat.le_refl _)
  obtain ⟨flush, closes, serves⟩ := done.close (Loop.le_wake_advance ..)
  refine ⟨taken ++ late, flush, ?_, serves⟩
  rw [List.map_append, List.map_append, ← takes, ← wakes, ← closes]
  rfl

/-- Of two triggers in quick succession the second is delivered once it has been quiet, and a third
    that waits is delivered when the gate is closed. -/
theorem coalesced_then_flushed :
    let triggers := [(0, "a"), (100 * millisecond, "b"), (2000 * millisecond, "c")]
    triggers.Pairwise (·.1 ≤ ·.1) ∧
      run (500 * millisecond) (1000 * millisecond) triggers (some (2100 * millisecond)) =
        [(600 * millisecond, "b"), (2100 * millisecond, "c")] ∧
      ∃ fired flush, run (500 * millisecond) (1000 * millisecond) triggers
          (some (2100 * millisecond)) = (fired ++ flush.toList).map Pick.delivery ∧
        Serves (500 * millisecond) (1000 * millisecond) triggers
          (scheduleEnd triggers (some (2100 * millisecond))) fired flush :=
  ⟨by decide, by decide +kernel, run_serves _ _ (by decide) _⟩

end LivePreview.Gate
