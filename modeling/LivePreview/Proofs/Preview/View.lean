import LivePreview.Proofs.Preview.BusyEngine

/-!
# Views that follow the events

A `View` knows the engine by its events.  A phase and the markers are told in full; of
changed pages it is told which slots to read again, and reads them from the page list it
finds then.  So a view that lags behind may read a page list that is newer than the event:
`View.Alike.followAll` says that this makes a difference only for slots that changed since.
-/

namespace LivePreview.Preview

/-- What is seen of an engine: phase, markers and page slots. -/
structure View where
  phase : Phase
  markers : List Marker
  /-- A slot that was never read is empty. -/
  slots : List (Option Slot)

namespace View

def blank : View :=
  ⟨.idle, [], []⟩

/-- The view that shows everything as the engine has it. -/
def of (e : Engine) : View :=
  ⟨e.state.phase, e.state.markers, e.state.pages.map some⟩

/-- Follows an event.  Slots that are named are read again from the page list, others stay
    as they are; slots that are new and not named stay empty. -/
def follow (pages : List Slot) (v : View) : Event → View
  | .phase phase => { v with phase }
  | .diagnostics markers => { v with markers }
  | .pagesChanged indices total =>
    { v with
      slots := (List.range total).map fun i =>
        if i ∈ indices then pages[i]? else v.slots[i]?.join }
  | _ => v

def followAll (pages : List Slot) (v : View) (events : List Event) : View :=
  events.foldl (follow pages) v

@[simp] theorem followAll_nil (pages : List Slot) (v : View) : v.followAll pages [] = v := rfl

@[simp] theorem followAll_cons (pages : List Slot) (v : View) (event : Event)
    (events : List Event) :
    v.followAll pages (event :: events) = (v.follow pages event).followAll pages events := rfl

theorem followAll_append (pages : List Slot) (v : View) (events more : List Event) :
    v.followAll pages (events ++ more) = (v.followAll pages events).followAll pages more :=
  List.foldl_append ..

/-- Two views that differ at most in slots for which `Changed` holds. -/
structure Alike (Changed : Nat → Prop) (v w : View) : Prop where
  phase : v.phase = w.phase
  markers : v.markers = w.markers
  length : v.slots.length = w.slots.length
  slots : ∀ i, ¬ Changed i → v.slots[i]? = w.slots[i]?

variable {v w : View} {pages pages' : List Slot}

theorem Alike.refl (Changed : Nat → Prop) (v : View) : Alike Changed v v :=
  ⟨rfl, rfl, rfl, fun _ _ => rfl⟩

theorem Alike.follow (alike : Alike (fun i => pages'[i]? ≠ pages[i]?) v w) (event : Event) :
    Alike (fun i => pages'[i]? ≠ pages[i]?) (v.follow pages' event) (w.follow pages event) := by
  cases event with
  | phase phase => exact ⟨rfl, alike.markers, alike.length, alike.slots⟩
  | diagnostics markers => exact ⟨alike.phase, rfl, alike.length, alike.slots⟩
  | pagesChanged indices total =>
    refine ⟨alike.phase, alike.markers, by simp [View.follow], fun i same => ?_⟩
    have page : pages'[i]? = pages[i]? := not_not.mp same
    simp only [View.follow, List.getElem?_map]
    cases bound : (List.range total)[i]? with
    | none => rfl
    | some j =>
      obtain ⟨_, rfl⟩ := List.getElem?_eq_some_iff.mp bound
      simp [page, alike.slots i same]
  | _ => exact alike

/-- Reading from another page list makes a difference only where the lists differ. -/
theorem Alike.followAll (alike : Alike (fun i => pages'[i]? ≠ pages[i]?) v w)
    (events : List Event) :
    Alike (fun i => pages'[i]? ≠ pages[i]?) (v.followAll pages' events)
      (w.followAll pages events) := by
  induction events generalizing v w with
  | nil => exact alike
  | cons event events inductionHypothesis => exact inductionHypothesis (alike.follow event)

/-- A view that is told of every slot that changed since, and of the number of pages,
    shows the page list. -/
theorem Alike.slots_follow {e : Engine}
    (alike : Alike (fun i => pages[i]? ≠ e.state.pages[i]?) v (.of e)) {indices : List Nat}
    (named : ∀ i, i < pages.length → i ∉ indices → pages[i]? = e.state.pages[i]?) :
    (v.follow pages (.pagesChanged indices pages.length)).slots = pages.map some := by
  refine List.ext_getElem? fun i => ?_
  simp only [View.follow, List.getElem?_map]
  by_cases bound : i < pages.length
  · simp only [List.getElem?_range bound, Option.map_some, List.getElem?_eq_getElem bound,
      Option.some.injEq]
    split
    · rfl
    · next unnamed =>
      have page := named i bound unnamed
      rw [alike.slots i (not_not.mpr page), of, List.getElem?_map, ← page,
        List.getElem?_eq_getElem bound]
      rfl
  · rw [List.getElem?_eq_none (by simpa using bound), List.getElem?_eq_none (by simpa using bound)]
    rfl

end View

end LivePreview.Preview
