import LivePreview.Proofs.Preview.Coupling
import LivePreview.Proofs.Preview.Showing
import LivePreview.Toy.Backend

/-!
# The toy backend as a service

A call to the toy backend takes effect when it is made, and its answer is fixed from
then on; the answer comes after any time, or the time for it runs out.  What is
arranged for later calls may change at any moment, but not the text that was written
and the one that was compiled.
-/

namespace LivePreview.Toy

open Preview (Service)

def unreadable : ByteArray :=
  "corrupt".toUTF8

/-- Whether a page shows a text, or nothing readable. -/
def Renders (text : String) (page : Page) : Prop :=
  page.data = pagePng text ∨ page.data = unreadable

/-- The keys under which the pages of a text are shown. -/
def keysOf (pages : List String) : List PageKey :=
  pages.zipIdx.map fun (text, i) => .of (pagePng text) i

@[simp] theorem keysOf_length (pages : List String) : (keysOf pages).length = pages.length := by
  simp [keysOf]

@[simp] theorem keysOf_getElem? (pages : List String) (i : Nat) :
    (keysOf pages)[i]? = pages[i]?.map fun text => .of (pagePng text) i := by
  simp [keysOf, List.getElem?_zipIdx, Function.comp_def]

namespace Backend

/-- The text written last, and the text compiled last. -/
def texts (b : Backend) : String × Option String :=
  (b.persisted, b.compiled)

theorem page_renders (b : Backend) (index : Nat) (text : String) :
    Renders text (b.page index text) := by
  unfold Renders page
  by_cases unread : index ∈ b.corrupt
  · exact .inr (by simp [unread, unreadable])
  · exact .inl (by simp [unread])

theorem allPages_render (b : Backend) : List.Forall₂ Renders b.pages b.allPages := by
  rw [allPages, List.forall₂_map_right_iff]
  conv_lhs => rw [← List.zipIdx_map_fst 0 b.pages]
  rw [List.forall₂_map_left_iff, List.forall₂_same]
  exact fun pair _ => b.page_renders pair.2 pair.1

/-! ## What the calls do -/

@[simp] theorem begin_texts (b : Backend) (operation : Operation) :
    (b.begin operation).2.2.texts = b.texts := rfl

theorem respond_texts (b : Backend) {call : Call} (question : call.IsQuestion) :
    (b.respond call).2.texts = b.texts := by
  cases call with
  | resolveClick text page x y =>
    simp only [respond, answer]
    split <;> rfl
  | pageCount => rfl
  | renderAllPages => rfl
  | renderPage index => rfl
  | resolveCursorPosition offset text path => rfl
  | _ => cases question

theorem respond_compiled (b : Backend) {call : Call} (question : call.IsQuestion) :
    (b.respond call).2.compiled = b.compiled :=
  congrArg Prod.snd (b.respond_texts question)

theorem respond_persist {b : Backend} {path : Path} {text : String}
    (ok : (b.respond (.persistSource path text)).1.reply = .ok ()) :
    (b.respond (.persistSource path text)).2.persisted = text := by
  revert ok
  simp only [respond, answer]
  split
  · exact fun ok => nomatch ok
  · exact fun _ => rfl

/-- The answer of a compile is about the text written last, which is compiled then. -/
theorem respond_compile {b : Backend} :
    (∀ diagnostics, (b.respond .compile).1.reply = .ok diagnostics →
      diagnostics = scanDiagnostics b.persisted ∧
        (b.respond .compile).2.compiled = some b.persisted) ∧
    ∀ diagnostics, (b.respond .compile).1.reply = .error (.compile diagnostics) →
      diagnostics = scanDiagnostics b.persisted := by
  simp only [respond, answer]
  split
  · exact ⟨(fun _ ok => nomatch ok), fun _ refused => nomatch refused⟩
  · split
    · refine ⟨(fun _ ok => nomatch ok), fun diagnostics refused => ?_⟩
      exact (Failure.compile.inj (Except.error.inj refused)).symm
    · refine ⟨fun diagnostics ok => ?_, fun _ refused => nomatch refused⟩
      exact ⟨(Except.ok.inj ok).symm, rfl⟩

theorem respond_cursor {b : Backend} {offset : Nat} {text : String} {path : Path} {p : Position}
    (ok : (b.respond (.resolveCursorPosition offset text path)).1.reply = .ok (some p)) :
    p.page = (locate text offset).1 := by
  revert ok
  simp only [respond, answer]
  split
  · exact fun ok => nomatch ok
  · split
    · intro ok
      rw [← Option.some.inj (Except.ok.inj ok)]
    · exact fun ok => nomatch ok

theorem respond_allPages {b : Backend} {text : String} {pages : List Page}
    (compiled : b.compiled = some text)
    (ok : (b.respond .renderAllPages).1.reply = .ok pages) :
    List.Forall₂ Renders (splitPages text) pages := by
  revert ok
  simp only [respond, answer]
  split
  · exact fun ok => nomatch ok
  · intro ok
    rw [← Except.ok.inj ok]
    have render := (b.begin .renderAllPages).2.2.allPages_render
    rwa [Backend.pages, show (b.begin .renderAllPages).2.2.compiled = some text from compiled]
      at render

theorem respond_page {b : Backend} {text : String} {index : Nat} {page : Page}
    (compiled : b.compiled = some text)
    (ok : (b.respond (.renderPage index)).1.reply = .ok page) :
    ∃ shown, (splitPages text)[index]? = some shown ∧ Renders shown page := by
  revert ok
  have pages : (b.begin .renderPage).2.2.pages = splitPages text := by
    rw [Backend.pages, show (b.begin .renderPage).2.2.compiled = some text from compiled]
    rfl
  simp only [respond, answer, pages]
  split
  · exact fun ok => nomatch ok
  · split
    · next shown found =>
      intro ok
      exact ⟨shown, found, Except.ok.inj ok ▸ page_renders ..⟩
    · exact fun ok => nomatch ok

end Backend

def service : Service where
  State := Backend
  Ongoing call := call.Reply
  accept b call := ((b.respond call).1.reply, (b.respond call).2)
  Proceeds _ _ _ _ := False
  Drifts b b' := b'.texts = b.texts
  Answers {call} b ongoing reply b' :=
    b' = b ∧ (reply = ongoing ∨ ∃ after, reply = .error (.timeout call.operation after))

end LivePreview.Toy
