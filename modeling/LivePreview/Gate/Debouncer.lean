/-!
# Debouncing

A debouncer keeps the latest of the payloads pushed into it.  The payload becomes
ready once a quiet `interval` has passed since the last push and a `cooldown` since
the last payload was taken.  Instants and durations are counted in nanoseconds;
every function is told what time it is.

`sleepDuration` is how long to wait before asking again: exactly until the payload
becomes ready, but at least a millisecond.
-/

namespace LivePreview.Gate

abbrev Time := Nat

def millisecond : Time := 1000000

/-- How long to sleep while there is nothing to wait for: a day. -/
def idleSleep : Time := 86400000 * millisecond

/-- The latest payload and what is needed to time it. -/
structure Debouncer (α : Type) where
  pending : Option α
  lastPush : Option Time
  lastFire : Option Time
  interval : Time
  cooldown : Time
  deriving Repr

namespace Debouncer

variable {α : Type}

def start (interval cooldown : Time) : Debouncer α :=
  ⟨none, none, none, interval, cooldown⟩

def push (d : Debouncer α) (now : Time) (payload : α) : Debouncer α :=
  { d with pending := some payload, lastPush := some now }

/-- Whether the time since the last taking is long enough. -/
def isCool (d : Debouncer α) (now : Time) : Bool :=
  d.lastFire.all fun fired => d.cooldown ≤ now - fired

def isReady (d : Debouncer α) (now : Time) : Bool :=
  match d.lastPush with
  | none => false
  | some pushed => d.interval ≤ now - pushed && d.isCool now && d.pending.isSome

def flush (d : Debouncer α) (now : Time) : Option α × Debouncer α :=
  match d.pending with
  | none => (none, d)
  | some payload =>
    (some payload, { d with pending := none, lastPush := none, lastFire := some now })

def takeIfReady (d : Debouncer α) (now : Time) : Option α × Debouncer α :=
  if d.isReady now then d.flush now else (none, d)

/-- How long to sleep before the payload can be ready. -/
def sleepDuration (d : Debouncer α) (now : Time) : Time :=
  match d.lastPush with
  | none => idleSleep
  | some pushed =>
    let quiet := d.interval - (now - pushed)
    let cool := (d.lastFire.map fun fired => d.cooldown - (now - fired)).getD 0
    max (max quiet cool) millisecond

theorem millisecond_le_sleepDuration (d : Debouncer α) (now : Time) :
    millisecond ≤ d.sleepDuration now := by
  unfold sleepDuration
  split
  · decide
  · exact Nat.le_max_right _ _

end Debouncer

end LivePreview.Gate
