import LivePreview.Proofs.Toy.Drawn

/-!
# Edits of one page

A text is edited page by page: every source has as many pages as the text before it, and differs
from it on the page of its own cursor only (`EachEditsPage`).
-/

namespace LivePreview.Toy

/-- Whether a source has as many pages as a text, and differs from it only on the page of its
    cursor. -/
structure EditsPage (text : String) (source : Snapshot) : Prop where
  length : (splitPages source.content).length = (splitPages text).length
  elsewhere : ∀ i, cursorPage source ≠ i →
    (splitPages source.content)[i]? = (splitPages text)[i]?

/-- It is enough to look at the pages that are there. -/
theorem editsPage_iff {text : String} {source : Snapshot} : EditsPage text source ↔
    (splitPages source.content).length = (splitPages text).length ∧
      ∀ i < (splitPages text).length, cursorPage source ≠ i →
        (splitPages source.content)[i]? = (splitPages text)[i]? := by
  refine ⟨fun edits => ⟨edits.length, fun i _ => edits.elsewhere i⟩,
    fun ⟨length, elsewhere⟩ => ⟨length, fun i apart => ?_⟩⟩
  by_cases within : i < (splitPages text).length
  · exact elsewhere i within apart
  · rw [List.getElem?_eq_none (by omega), List.getElem?_eq_none (by omega)]

instance (text : String) (source : Snapshot) : Decidable (EditsPage text source) :=
  decidable_of_iff _ editsPage_iff.symm

/-- Whether each source edits one page of the text before it. -/
def EachEditsPage : String → List Snapshot → Prop
  | _, [] => True
  | text, source :: sources => EditsPage text source ∧ EachEditsPage source.content sources

instance decidableEachEditsPage :
    (text : String) → (sources : List Snapshot) → Decidable (EachEditsPage text sources)
  | _, [] => .isTrue trivial
  | text, source :: sources =>
    have := decidableEachEditsPage source.content sources
    inferInstanceAs (Decidable (EditsPage text source ∧ EachEditsPage source.content sources))

/-- The last of the sources, if there are any. -/
def latestText : String → List Snapshot → String
  | text, [] => text
  | _, source :: sources => latestText source.content sources

theorem latestText_append (text : String) (sources later : List Snapshot) :
    latestText text (sources ++ later) = latestText (latestText text sources) later := by
  induction sources generalizing text with
  | nil => rfl
  | cons source sources inductionHypothesis => exact inductionHypothesis source.content

theorem latestText_of_getLast? {text : String} {sources : List Snapshot} {source : Snapshot}
    (last : sources.getLast? = some source) : latestText text sources = source.content := by
  obtain ⟨earlier, rfl⟩ := List.getLast?_eq_some_iff.mp last
  rw [latestText_append]
  rfl

theorem latestText_mem (text : String) (sources : List Snapshot) :
    latestText text sources ∈ text :: sources.map Snapshot.content := by
  induction sources generalizing text with
  | nil => exact List.mem_singleton_self text
  | cons source sources inductionHypothesis =>
    exact List.mem_cons_of_mem _ (inductionHypothesis source.content)

namespace EachEditsPage

variable {text : String} {sources later : List Snapshot}

theorem append_iff : EachEditsPage text (sources ++ later) ↔
    EachEditsPage text sources ∧ EachEditsPage (latestText text sources) later := by
  induction sources generalizing text with
  | nil => simp [EachEditsPage, latestText]
  | cons source sources inductionHypothesis =>
    simp only [List.cons_append, EachEditsPage, latestText, inductionHypothesis, and_assoc]

/-- All texts have the same number of pages. -/
theorem length (edits : EachEditsPage text sources) :
    ∀ shown ∈ text :: sources.map Snapshot.content,
      (splitPages shown).length = (splitPages text).length := by
  induction sources generalizing text with
  | nil => exact List.forall_mem_singleton.mpr rfl
  | cons source sources inductionHypothesis =>
    refine List.forall_mem_cons.mpr ⟨rfl, fun shown mem => ?_⟩
    exact (inductionHypothesis edits.2 shown mem).trans edits.1.length

end EachEditsPage

end LivePreview.Toy
