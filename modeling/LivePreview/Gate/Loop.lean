import LivePreview.Gate.Debouncer

/-!
# The gate

A gate stands in front of the compile cycle.  Its loop takes triggers into a
debouncer and sleeps in between; when it wakes it delivers the payload if that is
ready.  When nobody can trigger the gate any more, a payload still pending is
delivered at once, and the loop ends.

`run` drives a loop through a schedule of triggers in order of time.  A trigger
that comes at the instant of waking is taken first.
-/

namespace LivePreview.Gate

/-- The loop of a gate, and when it wakes unless it is triggered before. -/
structure Loop (α : Type) where
  debouncer : Debouncer α
  wake : Time
  deriving Repr

abbrev Delivery (α : Type) := Time × α

namespace Loop

variable {α : Type}

def sleep (d : Debouncer α) (now : Time) : Loop α :=
  ⟨d, now + d.sleepDuration now⟩

def start (interval cooldown : Time) : Loop α :=
  sleep (.start interval cooldown) 0

def trigger (l : Loop α) (now : Time) (payload : α) : Loop α :=
  sleep (l.debouncer.push now payload) now

/-- Wakes, delivers the payload if it is ready, and goes back to sleep. -/
def wakeUp (l : Loop α) : Option (Delivery α) × Loop α :=
  let (payload, d) := l.debouncer.takeIfReady l.wake
  (payload.map fun p => (l.wake, p), sleep d l.wake)

theorem wake_lt_wakeUp (l : Loop α) : l.wake < l.wakeUp.2.wake := by
  have h := (l.debouncer.takeIfReady l.wake).2.millisecond_le_sleepDuration l.wake
  have pos : 0 < millisecond := by decide
  exact Nat.lt_add_of_pos_right (Nat.lt_of_lt_of_le pos h)

/-- Sleeps and wakes until an instant: what was delivered before it. -/
def advance (l : Loop α) (stop : Time) : List (Delivery α) × Loop α :=
  if l.wake < stop then
    let (delivered, l') := l.wakeUp.2.advance stop
    (l.wakeUp.1.toList ++ delivered, l')
  else ([], l)
termination_by stop - l.wake
decreasing_by exact Nat.sub_lt_sub_left ‹l.wake < stop› l.wake_lt_wakeUp

/-- Ends the loop: a pending payload is delivered now. -/
def close (l : Loop α) (now : Time) : List (Delivery α) :=
  (l.debouncer.flush now).1.toList.map fun payload => (now, payload)

def takeAll (l : Loop α) : List (Time × α) → List (Delivery α) × Loop α
  | [] => ([], l)
  | (now, payload) :: triggers =>
    let (before, l) := l.advance now
    let (after, l) := (l.trigger now payload).takeAll triggers
    (before ++ after, l)

end Loop

/-- The instant at which a schedule ends: the close, or the last trigger. -/
def scheduleEnd {α : Type} (triggers : List (Time × α)) (closeAt : Option Time) : Time :=
  max ((triggers.getLast?.map (·.1)).getD 0) (closeAt.getD 0)

/-- What a gate delivers for a schedule of triggers, after which it is closed. -/
def run {α : Type} (interval cooldown : Time) (triggers : List (Time × α))
    (closeAt : Option Time) : List (Delivery α) :=
  let (delivered, l) := (Loop.start interval cooldown).takeAll triggers
  let stop := scheduleEnd triggers closeAt
  let (late, l) := l.advance stop
  delivered ++ late ++ l.close stop

/-- What a gate delivers before it is stopped without being closed. -/
def runUntil {α : Type} (interval cooldown : Time) (triggers : List (Time × α))
    (stop : Time) : List (Delivery α) :=
  let (delivered, l) := (Loop.start interval cooldown).takeAll triggers
  delivered ++ (l.advance stop).1

end LivePreview.Gate
