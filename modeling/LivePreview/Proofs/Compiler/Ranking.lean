import LivePreview.Proofs.Compiler.Holding
import LivePreview.Proofs.Custody

/-!
# The order of generations

Calls that compile hold the number of their generation, and a number goes on record
when the generation is published, which it is only while it is the latest.  Calls are
told by what they draft, whatever else is known of them (`Ranked`).
-/

namespace LivePreview.Compiler

open Preview (Progress)

/-- The directory that is published between two states. -/
def newlyPublished (c c' : Compiler) : List Path :=
  if c'.published = c.published then [] else c'.published.toList

theorem newlyPublished_of_eq {c c' : Compiler} (same : c'.published = c.published) :
    newlyPublished c c' = [] :=
  if_pos same

theorem newlyPublished_of_ne {c c' : Compiler} (other : c'.published ≠ c.published) :
    newlyPublished c c' = c'.published.toList :=
  if_neg other

def generations (drafts : List Draft) : List Nat :=
  drafts.map Draft.generation

theorem Stage.generations_nodup {operation : Operation} (stage : Stage operation) :
    (generations stage.drafts).Nodup := by
  cases stage <;> simp [generations, drafts]

/-- What is published is the latest generation, whose number the call held. -/
theorem Stage.Advances.publishes {operation : Operation} {c : Compiler} {stage : Stage operation}
    {reply : (stage.request c).Reply} {step : Step operation}
    (advances : Advances c stage reply step)
    (named : ∀ draft ∈ stage.drafts, draft.dir = folder c.outDir draft.generation)
    (apart : ∀ draft ∈ stage.drafts, some draft.dir ≠ c.published) :
    ∃ new : List Nat, newlyPublished c step.1 = new.map (folder c.outDir) ∧
      (new ++ generations (step.2.next.flatMap drafts)).Sublist (generations stage.drafts) ∧
      (∀ n ∈ new, n = c.generation) ∧
      ∀ dir ∈ step.1.published, dir ∈ c.published ∨ ∃ n ∈ new, dir = folder c.outDir n := by
  have kept : (generations (step.2.next.flatMap drafts)).Sublist (generations stage.drafts) :=
    advances.next_drafts.map _
  cases advances with
  | @published lines draft names progress diagnostics latest undrafted empty removing settled =>
    have mine : draft ∈ [draft] := List.mem_singleton_self _
    refine ⟨[draft.generation], ?_, ?_, ?_, ?_⟩
    · rw [newlyPublished_of_ne (apart draft mine), List.map_singleton, ← named draft mine]
      rfl
    · rw [undrafted]
      exact List.Sublist.refl _
    · intro n mem
      rw [List.mem_singleton.mp mem, latest]
    · rintro dir ⟨⟩
      exact .inr ⟨_, List.mem_singleton_self _, named draft mine⟩
  | @forgot _ _ _ _ _ _ selects drafts hand =>
    refine ⟨[], ?_, kept, (fun n mem => nomatch mem), fun dir mem => nomatch mem⟩
    unfold newlyPublished
    split <;> rfl
  | _ => exact ⟨[], newlyPublished_of_eq rfl, kept, (fun n mem => nomatch mem), fun dir mem => .inl mem⟩

variable {α : Type} {drafts : α → List Draft}

/-- Generations are held by one call each, and published in their order. -/
structure Ranked (drafts : α → List Draft) (shown : List Nat) (calls : List α) (c : Compiler) :
    Prop where
  order : InOrder (fun call => generations (drafts call)) shown calls c.generation
  named : ∀ call ∈ calls, ∀ draft ∈ drafts call, draft.dir = folder c.outDir draft.generation
  published : ∀ dir ∈ c.published, ∃ n ∈ shown, dir = folder c.outDir n

namespace Ranked

variable {shown : List Nat} {calls before after : List α} {call : α} {c : Compiler}

/-- When no call waits, it does not matter how calls are told. -/
theorem rest {β : Type} (ranked : Ranked drafts shown [] c) (drafts' : β → List Draft) :
    Ranked drafts' shown [] c :=
  ⟨⟨ranked.order.apart, ranked.order.issued, ranked.order.increasing⟩,
    (fun _ mem => nomatch mem), ranked.published⟩

/-- A generation on record is not held by a call. -/
theorem not_shown (ranked : Ranked drafts shown calls c) (mem : call ∈ calls) {draft : Draft}
    (held : draft ∈ drafts call) : draft.generation ∉ shown := by
  intro known
  have holds : draft.generation ∈ calls.flatMap fun call => generations (drafts call) :=
    List.mem_flatMap.mpr ⟨call, mem, List.mem_map.mpr ⟨draft, held, rfl⟩⟩
  exact (List.nodup_append.mp ranked.order.apart).2.2 _ known _ holds rfl

theorem not_published (ranked : Ranked drafts shown calls c) (mem : call ∈ calls) {draft : Draft}
    (held : draft ∈ drafts call) : some draft.dir ≠ c.published := by
  intro same
  obtain ⟨n, known, here⟩ := ranked.published _ same.symm
  have number := folder_injective ((ranked.named call mem draft held).symm.trans here)
  exact ranked.not_shown mem held (number ▸ known)

theorem generation_le (ranked : Ranked drafts shown calls c) (mem : call ∈ calls) {draft : Draft}
    (held : draft ∈ drafts call) : draft.generation ≤ c.generation := by
  apply ranked.order.issued
  apply List.mem_append_right
  exact List.mem_flatMap.mpr ⟨call, mem, List.mem_map.mpr ⟨draft, held, rfl⟩⟩

/-- What is published is older than a draft of the latest generation. -/
theorem earlier (ranked : Ranked drafts shown calls c) (mem : call ∈ calls) {draft : Draft}
    (held : draft ∈ drafts call) (latest : c.generation = draft.generation) {dir : Path}
    (published : dir ∈ c.published) : ∃ n < draft.generation, dir = folder c.outDir n := by
  obtain ⟨n, known, here⟩ := ranked.published dir published
  have below := ranked.order.issued n (List.mem_append_left _ known)
  have different : n ≠ draft.generation := fun same => ranked.not_shown mem held (same ▸ known)
  exact ⟨n, by omega, here⟩

theorem apart (ranked : Ranked drafts shown (before ++ call :: after) c) {other : α}
    (mem : other ∈ before ++ after) {draft draft' : Draft} (held : draft ∈ drafts call)
    (held' : draft' ∈ drafts other) : draft'.generation ≠ draft.generation := by
  intro same
  have nodup := (List.nodup_append.mp ranked.order.apart).2.1
  rw [List.flatMap_append, List.flatMap_cons, List.nodup_append, List.nodup_append] at nodup
  obtain ⟨-, ⟨-, -, behind⟩, ahead⟩ := nodup
  have mine : draft.generation ∈ generations (drafts call) := List.mem_map.mpr ⟨draft, held, rfl⟩
  have theirs : ∀ others : List α, other ∈ others →
      draft.generation ∈ others.flatMap fun call => generations (drafts call) := fun others mem =>
    List.mem_flatMap.mpr ⟨other, mem, List.mem_map.mpr ⟨draft', held', same⟩⟩
  rcases List.mem_append.mp mem with left | right
  · exact ahead _ (theirs before left) _ (List.mem_append_left _ mine) rfl
  · exact behind _ mine _ (theirs after right) rfl

/-- Calls leave, and others come, with generations that are new. -/
theorem replace {left : List α} (ranked : Ranked drafts shown (before ++ left ++ after) c)
    (next : List α) {generation : Nat} (grows : c.generation ≤ generation)
    (once : (next.flatMap fun call => generations (drafts call)).Nodup)
    (newer : ∀ call ∈ next, ∀ draft ∈ drafts call, c.generation < draft.generation ∧
      draft.generation ≤ generation ∧ draft.dir = folder c.outDir draft.generation) :
    Ranked drafts shown (before ++ next ++ after) { c with generation } := by
  refine ⟨?_, fun call mem draft held => ?_, ranked.published⟩
  · have order := ranked.order.exchange [] next grows once (fun n mem => .inr ?_)
      (fun _ mem => nomatch mem)
    · rwa [List.append_nil] at order
    · obtain ⟨call, new, numbers⟩ := List.mem_flatMap.mp mem
      obtain ⟨draft, held, rfl⟩ := List.mem_map.mp numbers
      exact ⟨(newer call new draft held).1, (newer call new draft held).2.1⟩
  · simp only [List.mem_append] at mem
    rcases mem with (old | new) | old
    · exact ranked.named call (List.mem_append_left _ (List.mem_append_left _ old)) draft held
    · exact (newer call new draft held).2.2
    · exact ranked.named call (List.mem_append_right _ old) draft held

/-- Calls leave, and one begins in their place. -/
theorem begins {left : List α} (ranked : Ranked drafts shown (before ++ left ++ after) c)
    {operation : Operation} {step : Step operation} (begins : Begins c step) {next : List α}
    (goesOn : next.flatMap drafts = step.2.next.flatMap Stage.drafts) :
    Ranked drafts shown (before ++ next ++ after) step.1 := by
  have numbers : (next.flatMap fun call => generations (drafts call)) =
      generations (step.2.next.flatMap Stage.drafts) := by
    rw [← goesOn, generations, List.map_flatMap]
    rfl
  have mem : ∀ call ∈ next, ∀ draft ∈ drafts call, draft ∈ step.2.next.flatMap Stage.drafts :=
    fun call new draft held => goesOn ▸ List.mem_flatMap.mpr ⟨call, new, held⟩
  cases begins with
  | idles undrafted =>
    refine ranked.replace next (Nat.le_refl _) ?_ fun call new draft held => ?_
    · rw [numbers, undrafted]
      exact List.nodup_nil
    · cases undrafted ▸ mem call new draft held
  | drafted target =>
    refine ranked.replace next (Nat.le_succ _) ?_ fun call new draft held => ?_
    · rw [numbers]
      exact List.nodup_singleton _
    · rw [List.mem_singleton.mp (mem call new draft held)]
      exact ⟨Nat.lt_succ_self _, Nat.le_refl _, rfl⟩

theorem joins (ranked : Ranked drafts shown calls c) {operation : Operation}
    {step : Step operation} (begins : Begins c step) {next : List α}
    (goesOn : next.flatMap drafts = step.2.next.flatMap Stage.drafts) :
    Ranked drafts shown (calls ++ next) step.1 := by
  have alone : Ranked drafts shown (calls ++ [] ++ []) c := by
    rwa [List.append_nil, List.append_nil]
  have joined := alone.begins begins goesOn
  rwa [List.append_nil] at joined

/-- A call goes on.  What it publishes is the latest generation, whose number it held. -/
theorem advances (ranked : Ranked drafts shown (before ++ call :: after) c)
    {operation : Operation} {stage : Stage operation} {reply : (stage.request c).Reply}
    {step : Step operation} (advances : stage.Advances c reply step)
    (mine : drafts call = stage.drafts) {next : List α}
    (goesOn : next.flatMap drafts = step.2.next.flatMap Stage.drafts) :
    ∃ new : List Nat, newlyPublished c step.1 = new.map (folder c.outDir) ∧
      Ranked drafts (shown ++ new) (before ++ next ++ after) step.1 := by
  have waiting : call ∈ before ++ call :: after := List.mem_append_cons_self
  have named := mine ▸ ranked.named call waiting
  have numbers : (next.flatMap fun call => generations (drafts call)) =
      generations (step.2.next.flatMap Stage.drafts) := by
    rw [← goesOn, generations, List.map_flatMap]
    rfl
  have apart : ∀ draft ∈ stage.drafts, some draft.dir ≠ c.published := fun draft held =>
    ranked.not_published waiting (mine ▸ held)
  obtain ⟨new, newly, sublist, latest, published⟩ := advances.publishes named apart
  refine ⟨new, newly, ?_, ?_, ?_⟩
  · have order := ranked.order
    rw [List.append_cons] at order
    refine order.exchange new next advances.generation ?_ (fun n mem => .inl ?_) latest
    · rw [numbers]
      exact sublist.nodup stage.generations_nodup
    · rw [numbers] at mem
      rw [List.flatMap_singleton, mine]
      exact sublist.subset mem
  · intro call' mem draft held
    rw [advances.outDir]
    rcases beside_or_next mem with old | new
    · exact ranked.named call' (mem_of_beside rfl old) draft held
    · have passed : draft ∈ step.2.next.flatMap Stage.drafts :=
        goesOn ▸ List.mem_flatMap.mpr ⟨call', new, held⟩
      exact named draft (advances.next_drafts.subset passed)
  · intro dir mem
    rw [advances.outDir]
    rcases published dir mem with old | ⟨n, arrived, here⟩
    · obtain ⟨n, known, here⟩ := ranked.published dir old
      exact ⟨n, List.mem_append_left _ known, here⟩
    · exact ⟨n, List.mem_append_right _ arrived, here⟩

end Ranked

end LivePreview.Compiler
