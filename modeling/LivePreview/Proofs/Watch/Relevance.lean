import LivePreview.Proofs.Application.Acceptance
import LivePreview.Watch.Change
import Mathlib.Data.Set.List

/-!
# Changes of the main document

A change is passed over if anything on the way down to it is hidden.  A document is accepted by its
extension alone, so the changes of one that is hidden itself, or lies in a hidden directory, are
passed over like all others there; those of every other document get through
(`main_isRelevant_iff`).
-/

namespace LivePreview

namespace Path

variable {p q : Path}

theorem rooted_of_isAbsolute (absolute : p.isAbsolute = true) :
    p.components.head? = some .root := by
  obtain ⟨cs, -, parts⟩ := components_of_isAbsolute absolute
  rw [parts, List.head?_cons]

theorem rooted_parent? (absolute : p.isAbsolute = true) (above : p.parent? = some q) :
    q.components.head? = some .root := by
  obtain ⟨c, notRoot, cut⟩ := components_parent? above
  exact rooted_of_concat notRoot (cut ▸ rooted_of_isAbsolute absolute)

end Path

theorem DocumentKind.extension_of_isCompilable {p : Path}
    (source : (ofPath p).isCompilable = true) :
    ∃ extension, p.extension? = some extension ∧ Text.lowered extension = "typ" := by
  rw [isCompilable, beq_iff_eq, ofPath] at source
  cases has : p.extension? with
  | none =>
    rw [has] at source
    cases source
  | some extension =>
    refine ⟨extension, rfl, ?_⟩
    rw [has, Option.map_some, Option.getD_some, ofExtension] at source
    split at source
    · assumption
    · split at source <;> cases source

namespace Watch

open Application (Document Ensures)
open Host (Request)

variable {name : List Char}

/-- Whether a name is that of a hidden file or of a backup copy. -/
def IsPassedOver (name : List Char) : Prop :=
  name.head? = some '.' ∨ name.getLast? = some '~'

theorem isHidden_name : isHidden (.name name) = true ↔ IsPassedOver name := by
  rw [isHidden, Bool.or_eq_true, beq_iff_eq, beq_iff_eq, IsPassedOver]

/-- The names on the way from the root to the main document. -/
def Way (d : Document) (names : List (List Char)) : Prop :=
  d.main.components = d.root.components ++ names.map .name

theorem exists_way {d : Document} (accepted : d.IsAccepted) : ∃ names, Way d names := by
  obtain ⟨rest, whole⟩ := Path.startsWith_iff.mp accepted.inside
  have rooted : d.root.components.head? = some .root :=
    accepted.root.elim Path.rooted_of_isAbsolute (Path.rooted_parent? accepted.main.absolute)
  obtain ⟨cs, -, parts⟩ := Path.components_of_isAbsolute accepted.main.absolute
  have named : ∀ c ∈ rest, c ∈ Set.range Path.Component.name := by
    intro c mem
    obtain ⟨top, more, begins⟩ : ∃ top more, d.root.components = top :: more :=
      List.exists_cons_of_ne_nil fun none => by simp [none] at rooted
    have inPieces : c ∈ Path.pieces cs := by
      rw [parts, begins, List.cons_append, List.cons.injEq] at whole
      exact whole.2 ▸ List.mem_append_right more mem
    rcases Path.mem_pieces inPieces with rfl | ⟨name, rfl⟩
    · exact absurd (whole ▸ List.mem_append_right _ mem) accepted.main.noUp
    · exact Set.mem_range_self name
  have listed : rest ∈ Set.range (List.map Path.Component.name) := by
    rw [Set.range_list_map]
    exact named
  obtain ⟨names, rfl⟩ := listed
  exact ⟨names, whole.symm⟩

theorem isRelevant_iff {d : Document} {names : List (List Char)} (accepted : d.IsAccepted)
    (way : Way d names) :
    isRelevant d.root d.main = true ↔ ∀ name ∈ names, ¬ IsPassedOver name := by
  obtain ⟨rest, below, parts⟩ := Path.components_below? accepted.main.absolute
    (Path.startsWith_iff.mp accepted.inside)
  rw [way, List.drop_left] at parts
  rw [isRelevant, below]
  simp only [parts, Bool.not_eq_true', List.any_eq_false, List.mem_map]
  simp only [← isHidden_name]
  grind

/-- The name of a source ends in its extension, so it is not that of a backup copy. -/
theorem not_backup_of_source {d : Document} {names : List (List Char)} (accepted : d.IsAccepted)
    (way : Way d names) : ∀ name ∈ names.getLast?, name.getLast? ≠ some '~' := by
  intro name last
  obtain ⟨extension, has, lower⟩ := DocumentKind.extension_of_isCompilable accepted.source
  obtain ⟨file, named, ofFile⟩ := Option.bind_eq_some_iff.mp has
  obtain ⟨chars, cut, rfl⟩ := Option.map_eq_some_iff.mp ofFile
  obtain ⟨init, ends⟩ := Path.components_of_fileNameOf? named
  obtain ⟨front, rfl⟩ := List.getLast?_eq_some_iff.mp last
  have same : name = file := by
    rw [Way, Path.components, ends, List.map_append, ← List.append_assoc] at way
    exact (Path.Component.name.inj (List.cons.inj (List.append_inj' way rfl).2).1).symm
  obtain ⟨-, -, whole⟩ := Path.cutExtension_eq_some_iff.mp (Prod.ext rfl cut)
  have letters := congrArg String.toList lower
  rw [Text.lowered, String.toList_ofList, String.toList_ofList] at letters
  have final := congrArg List.getLast? letters
  rw [List.getLast?_map] at final
  rw [same, whole, List.append_cons, List.getLast?_append]
  intro tilde
  cases letter : chars.getLast? with
  | none =>
    rw [letter] at final
    cases final
  | some c =>
    rw [letter] at final tilde
    obtain rfl : c = '~' := Option.some.inj tilde
    exact absurd final (by decide)

/-- On a system whose canonical paths are canonical, the changes of a document that was found get
    through exactly if no name on the way to it from the root is that of a hidden file or of a
    backup copy.  Its own name is none of the latter anyway. -/
theorem main_isRelevant_iff {σ : Type} (answer : (request : Request) → StateM σ request.Reply)
    (canonical : ∀ p q s s', (answer (.canonical p)).run s = (.ok q, s') → q.IsCanonical)
    (options : CommandLine.DocumentOptions) (s s' : σ) (d : Document)
    (found : ((Document.find options).run.run answer).run s = (.ok d, s')) :
    ∃ names, Way d names ∧ (∀ name ∈ names.getLast?, name.getLast? ≠ some '~') ∧
      (isRelevant d.root d.main = true ↔ ∀ name ∈ names, ¬ IsPassedOver name) := by
  have accepted := Document.find_accepts canonical options s d s' found
  obtain ⟨names, way⟩ := exists_way accepted
  exact ⟨names, way, not_backup_of_source accepted way, isRelevant_iff accepted way⟩

/-- A workspace, a document in a directory of it, and one that is hidden. -/
def places : List (Path × Path) :=
  [(⟨"."⟩, ⟨"/w"⟩), (⟨"b/m.typ"⟩, ⟨"/w/b/m.typ"⟩), (⟨".m.typ"⟩, ⟨"/w/.m.typ"⟩)]

/-- A system on which paths lead to these places. -/
def leads : (request : Request) → StateM Unit request.Reply
  | .canonical p => pure ((places.lookup p).elim (.error .notFound) fun place => .ok place)
  | request => pure (Host.refuse request)

theorem places_canonical : ∀ place ∈ places, place.2.IsCanonical := by
  simp only [places, List.forall_mem_cons]
  exact ⟨⟨by decide, by decide⟩, ⟨by decide, by decide⟩, ⟨by decide, by decide⟩, nofun⟩

theorem leads_canonical (p q : Path) (s s' : Unit)
    (tells : (leads (.canonical p)).run s = (.ok q, s')) : q.IsCanonical := by
  have reply : ((places.lookup p).elim (.error .notFound) fun place => .ok place :
      Except SystemError Path) = .ok q := congrArg Prod.fst tells
  cases found : places.lookup p with
  | none =>
    rw [found] at reply
    cases reply
  | some place =>
    rw [found] at reply
    obtain rfl := Except.ok.inj reply
    obtain ⟨before, after, listed, -⟩ := List.lookup_eq_some_iff.mp found
    exact places_canonical (p, place) (by simp [listed])

/-- The command line of a document, with nothing else set. -/
def plain (file : Path) (root : Option Path) : CommandLine.DocumentOptions where
  file
  root
  cursor := none
  typst := none
  ppi := none
  timeout := none

/-- Changes of a document in a directory of the workspace get through. -/
theorem nested_main_relevant :
    (∀ p q s s', (leads (.canonical p)).run s = (.ok q, s') → q.IsCanonical) ∧
    ((Document.find (plain ⟨"b/m.typ"⟩ (some ⟨"."⟩))).run.run leads).run () =
      (.ok ⟨⟨"/w"⟩, ⟨"/w/b/m.typ"⟩⟩, ()) ∧
    ∃ names, Way ⟨⟨"/w"⟩, ⟨"/w/b/m.typ"⟩⟩ names ∧
      (∀ name ∈ names.getLast?, name.getLast? ≠ some '~') ∧
      (isRelevant ⟨"/w"⟩ ⟨"/w/b/m.typ"⟩ = true ↔ ∀ name ∈ names, ¬ IsPassedOver name) ∧
      isRelevant ⟨"/w"⟩ ⟨"/w/b/m.typ"⟩ = true := by
  have found : (Document.find (plain ⟨"b/m.typ"⟩ (some ⟨"."⟩))).run.run leads =
      pure (.ok ⟨⟨"/w"⟩, ⟨"/w/b/m.typ"⟩⟩) :=
    Document.run_find rfl (by decide) (.inr ⟨_, rfl, rfl⟩) (by decide)
  obtain ⟨names, way, noBackup, relevant⟩ :=
    main_isRelevant_iff _ leads_canonical _ _ _ _ (congrFun found ())
  exact ⟨leads_canonical, congrFun found (), names, way, noBackup, relevant, by decide⟩

/-- A hidden document is found as well, but its changes are passed over. -/
theorem hidden_main_passed_over :
    ¬ ∀ (answer : (request : Request) → StateM Unit request.Reply),
      (∀ p q s s', (answer (.canonical p)).run s = (.ok q, s') → q.IsCanonical) →
      ∀ options s s' d, ((Document.find options).run.run answer).run s = (.ok d, s') →
        isRelevant d.root d.main = true := by
  intro always
  have found : (Document.find (plain ⟨".m.typ"⟩ none)).run.run leads =
      pure (.ok ⟨⟨"/w"⟩, ⟨"/w/.m.typ"⟩⟩) :=
    Document.run_find rfl (by decide) (.inl ⟨rfl, by decide⟩) (by decide)
  have relevant := always _ leads_canonical _ _ _ _ (congrFun found ())
  exact absurd relevant (by decide)

end Watch

end LivePreview
