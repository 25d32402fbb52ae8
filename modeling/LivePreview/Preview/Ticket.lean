/-!
# Tickets

Every operation that waits takes a ticket when it starts.  Only the latest ticket
of a sequence is current; an operation that resumes with an older one is stale
and has nothing more to say.  Invalidating makes every ticket stale without
issuing one.
-/

namespace LivePreview.Preview

/-- The number of an operation in its sequence. -/
structure Ticket where
  number : Nat
  deriving DecidableEq, Repr, Inhabited

/-- Issues tickets. -/
structure Sequence where
  latest : Nat
  deriving DecidableEq, Repr, Inhabited

namespace Sequence

def start : Sequence :=
  ⟨0⟩

def issue (s : Sequence) : Ticket × Sequence :=
  (⟨s.latest + 1⟩, ⟨s.latest + 1⟩)

def invalidate (s : Sequence) : Sequence :=
  ⟨s.latest + 1⟩

def isCurrent (s : Sequence) (ticket : Ticket) : Bool :=
  s.latest == ticket.number

end Sequence

end LivePreview.Preview
