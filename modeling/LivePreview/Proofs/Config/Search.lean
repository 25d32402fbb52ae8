import LivePreview.Config.Locate
import LivePreview.Proofs.Host.Runs
import LivePreview.Proofs.Path.Ancestors

/-!
# Where the configuration is found

The directories from the start up to the root are tried in this order, so that what is found is in
the deepest of those that have the name (`locate_nearest`).
-/

namespace LivePreview

/-- In a list of falling ranks, what is found first has the highest rank. -/
theorem find?_eq_some_iff_of_pairwise {α : Type} {rank : α → Nat} {l : List α} {has : α → Bool}
    {a : α} (ordered : l.Pairwise fun a b => rank b < rank a) :
    l.find? has = some a ↔ a ∈ l ∧ has a = true ∧ ∀ b ∈ l, rank a < rank b → has b = false := by
  constructor
  · intro found
    obtain ⟨here, before, after, rfl, others⟩ := List.find?_eq_some_iff_append.mp found
    refine ⟨by simp, here, fun b mem higher => ?_⟩
    rw [List.pairwise_append, List.pairwise_cons] at ordered
    rcases List.mem_append.mp mem with inFront | rest
    · simpa using others b inFront
    · rcases List.mem_cons.mp rest with rfl | behind
      · omega
      · have lower := ordered.2.1.1 b behind
        omega
  · rintro ⟨mem, here, highest⟩
    cases found : l.find? has with
    | none => exact absurd here (List.find?_eq_none.mp found a mem)
    | some b =>
      obtain ⟨there, before, after, rfl, others⟩ := List.find?_eq_some_iff_append.mp found
      rw [List.pairwise_append, List.pairwise_cons] at ordered
      rcases List.mem_append.mp mem with inFront | rest
      · have absent := others a inFront
        simp [here] at absent
      · rcases List.mem_cons.mp rest with rfl | behind
        · rfl
        · have absent := highest b (by simp) (ordered.2.1.1 a behind)
          simp [there] at absent

namespace Config

open Host (Program Request)

variable {there : Path → Bool} {start name file : Path}

/-- Whether a directory is the deepest one that encloses `start` and has the name. -/
structure IsNearest (there : Path → Bool) (start name dir : Path) : Prop where
  encloses : dir.Encloses start
  has : there (dir.join name) = true
  deepest : ∀ other : Path, other.Encloses start →
    dir.components.length < other.components.length → there (other.join name) = false

theorem locate_of_relative (relative : name.isAbsolute = false) :
    locate there start name =
      (start.ancestors.find? fun dir => there (dir.join name)).map fun dir => dir.join name := by
  rw [locate, candidates, relative, if_neg Bool.false_ne_true, List.find?_map]
  rfl

theorem locate_eq_some_iff (absolute : start.isAbsolute = true)
    (relative : name.isAbsolute = false) :
    locate there start name = some file ↔
      ∃ dir, IsNearest there start name dir ∧ file = dir.join name := by
  rw [locate_of_relative relative, Option.map_eq_some_iff]
  refine exists_congr fun dir => ?_
  rw [find?_eq_some_iff_of_pairwise (Path.ancestors_pairwise absolute)]
  simp only [Path.mem_ancestors]
  constructor
  · rintro ⟨⟨encloses, has, deepest⟩, rfl⟩
    exact ⟨⟨encloses, has, deepest⟩, rfl⟩
  · rintro ⟨⟨encloses, has, deepest⟩, rfl⟩
    exact ⟨⟨encloses, has, deepest⟩, rfl⟩

theorem locate_eq_none_iff (relative : name.isAbsolute = false) :
    locate there start name = none ↔
      ∀ dir : Path, dir.Encloses start → there (dir.join name) = false := by
  rw [locate_of_relative relative, Option.map_eq_none_iff, List.find?_eq_none]
  simp only [Path.mem_ancestors, Bool.not_eq_true]

theorem locate_of_absolute (absolute : name.isAbsolute = true) :
    locate there start name = if there name then some name else none := by
  rw [locate, candidates, if_pos absolute, List.find?_singleton]

/-- A search on a system finds what is there. -/
theorem run_search {answer : (request : Request) → Id request.Reply}
    (tells : ∀ file, (answer (.inspect file)).isOk = there file) :
    (search start name).run answer = locate there start name := by
  refine Program.run_find answer (fun file => ?_) _
  rw [Program.run_isThere]
  exact tells file

/-- The search ends on every system.  Of the directories from an absolute start up to the root,
    one for each beginning of its components, the deepest one that has the name is found, and
    nothing is found exactly if none has it.  An absolute name stands for itself, if it is
    there. -/
theorem locate_nearest (there : Path → Bool) (name : Path) :
    (∀ start : Path, start.isAbsolute = true →
      (∀ init, (∃! dir : Path, dir.Encloses start ∧ dir.components = init) ↔
        init ≠ [] ∧ init <+: start.components) ∧
      (name.isAbsolute = false →
        (∀ file, locate there start name = some file ↔
          ∃ dir, IsNearest there start name dir ∧ file = dir.join name) ∧
        (locate there start name = none ↔
          ∀ dir : Path, dir.Encloses start → there (dir.join name) = false))) ∧
    (name.isAbsolute = true → ∀ start,
      locate there start name = if there name then some name else none) ∧
    ∀ answer : (request : Request) → Id request.Reply,
      (∀ file, (answer (.inspect file)).isOk = there file) →
        ∀ start, (search start name).run answer = locate there start name := by
  refine ⟨fun start absolute => ⟨fun init => Path.existsUnique_encloses_iff absolute, ?_⟩,
    fun absolute start => locate_of_absolute absolute, fun answer tells start => run_search tells⟩
  intro relative
  exact ⟨fun file => locate_eq_some_iff absolute relative, locate_eq_none_iff relative⟩

/-- Two files with one name, in directories one above the other. -/
def twoFiles (file : Path) : Bool :=
  file.text ∈ ["/../folio.toml", "/w//a/../folio.toml"]

/-- A system on which one can only look whether a file is there. -/
def looksOnly (there : Path → Bool) : (request : Request) → Id request.Reply
  | .inspect file => if there file then .ok .file else .error .notFound
  | request => Host.refuse request

/-- From below both, the deeper one is found.  The start has slashes and dots that the directories
    above it do not keep. -/
theorem deeper_of_two_found :
    (⟨"/w//a/./b/"⟩ : Path).isAbsolute = true ∧ (⟨"../folio.toml"⟩ : Path).isAbsolute = false ∧
      (search ⟨"/w//a/./b/"⟩ ⟨"../folio.toml"⟩).run (looksOnly twoFiles) =
        some ⟨"/w//a/../folio.toml"⟩ ∧
      (∃ dir, IsNearest twoFiles ⟨"/w//a/./b/"⟩ ⟨"../folio.toml"⟩ dir ∧
        ⟨"/w//a/../folio.toml"⟩ = dir.join ⟨"../folio.toml"⟩) ∧
      (⟨"/../folio.toml"⟩ : Path).isAbsolute = true ∧
      locate twoFiles ⟨"/w"⟩ ⟨"/../folio.toml"⟩ = some ⟨"/../folio.toml"⟩ := by
  have absolute : (⟨"/w//a/./b/"⟩ : Path).isAbsolute = true := by decide
  have relative : (⟨"../folio.toml"⟩ : Path).isAbsolute = false := by decide
  have fixed : (⟨"/../folio.toml"⟩ : Path).isAbsolute = true := by decide
  have tells (file : Path) : (looksOnly twoFiles (.inspect file)).isOk = twoFiles file := by
    rw [looksOnly]
    cases twoFiles file <;> rfl
  have here : locate twoFiles ⟨"/w//a/./b/"⟩ ⟨"../folio.toml"⟩ = some ⟨"/w//a/../folio.toml"⟩ := by
    decide +kernel
  obtain ⟨walk, -, runs⟩ := locate_nearest twoFiles ⟨"../folio.toml"⟩
  obtain ⟨-, alone, -⟩ := locate_nearest twoFiles ⟨"/../folio.toml"⟩
  obtain ⟨found, -⟩ := (walk _ absolute).2 relative
  exact ⟨absolute, relative, (runs _ tells _).trans here, (found _).mp here, fixed,
    alone fixed ⟨"/w"⟩⟩

end Config

end LivePreview
