import Mathlib.Data.List.Nodup

/-!
# Custody

Several holders wait in a list, each with some tokens of its own: a ticket, say, or
a directory.  When one of them leaves, whoever waits then has waited beside it or has
taken its place (`beside_or_next`).  The tokens of those that leave may go to the ones
that take their place, or on record; new tokens may be given out.  No token is ever in two
places if that was so before (`nodup_exchange`).  If the tokens are numbers that are
given out in order, and only the latest goes on record, then the record is strictly
increasing (`InOrder`).
-/

namespace LivePreview

open scoped List

variable {α τ : Type} {held : α → List τ}

/-! ## Who waits -/

section Waiting

variable {waiting before next after : List α} {a b : α}

theorem mem_of_beside (waits : waiting = before ++ a :: after) (mem : b ∈ before ++ after) :
    b ∈ waiting := by
  rw [waits]
  exact List.mem_append.mpr ((List.mem_append.mp mem).imp_right (.tail a))

/-- Whoever waits is the one that is told apart, or waits beside it. -/
theorem eq_or_beside (waits : waiting = before ++ a :: after) (mem : b ∈ waiting) :
    b = a ∨ b ∈ before ++ after := by
  simpa only [waits, List.mem_append, List.mem_cons, or_left_comm] using mem

/-- Whoever waits after others took a place waited beside it, or is one of them. -/
theorem beside_or_next (mem : b ∈ before ++ next ++ after) :
    b ∈ before ++ after ∨ b ∈ next := by
  simpa only [List.mem_append, or_right_comm] using mem

end Waiting

/-! ## Tokens -/

/-- Holders leave, others take their place, and tokens go on record.  Each of their
    tokens was held by one that left, or is new. -/
theorem nodup_exchange {record new : List τ} {before left next after : List α}
    (nodup : (record ++ (before ++ left ++ after).flatMap held).Nodup)
    (once : (new ++ next.flatMap held).Nodup)
    (whence : ∀ token ∈ new ++ next.flatMap held,
      token ∈ left.flatMap held ∨ token ∉ record ++ (before ++ left ++ after).flatMap held) :
    (record ++ new ++ (before ++ next ++ after).flatMap held).Nodup := by
  have others : (record ++ before.flatMap held ++ after.flatMap held).Nodup := by
    refine nodup.sublist ?_
    simp only [List.flatMap_append, List.append_assoc]
    exact (List.Sublist.refl _).append
      ((List.Sublist.refl _).append (List.sublist_append_right _ _))
  have apart : List.Disjoint (new ++ next.flatMap held)
      (record ++ before.flatMap held ++ after.flatMap held) := by
    intro token mine theirs
    rcases whence token mine with own | unknown
    · simp only [List.flatMap_append, List.nodup_append, List.mem_append] at nodup
      simp only [List.mem_append] at theirs
      grind
    · apply unknown
      simp only [List.flatMap_append, List.mem_append] at theirs ⊢
      grind
  refine (once.append others apart).perm ?_
  simp only [List.flatMap_append, List.append_assoc]
  calc new ++ (next.flatMap held ++ (record ++ (before.flatMap held ++ after.flatMap held)))
      _ ~ new ++ (record ++ (next.flatMap held ++ (before.flatMap held ++ after.flatMap held))) :=
        (List.perm_append_comm_assoc ..).append_left new
      _ ~ record ++ (new ++ (next.flatMap held ++ (before.flatMap held ++ after.flatMap held))) :=
        List.perm_append_comm_assoc ..
      _ ~ record ++ (new ++ (before.flatMap held ++ (next.flatMap held ++ after.flatMap held))) :=
        ((List.perm_append_comm_assoc ..).append_left new).append_left record

/-! ## Numbers given out in order -/

/-- No number is in two places, each was given out, and the record is increasing. -/
structure InOrder (number : α → List Nat) (record : List Nat) (holders : List α)
    (latest : Nat) : Prop where
  apart : (record ++ holders.flatMap number).Nodup
  issued : ∀ n ∈ record ++ holders.flatMap number, n ≤ latest
  increasing : record.Pairwise (· < ·)

namespace InOrder

variable {number : α → List Nat}

/-- Nobody holds a number yet. -/
theorem start (latest : Nat) : InOrder number [] [] latest :=
  ⟨List.nodup_nil, (fun _ mem => nomatch mem), List.Pairwise.nil⟩

/-- Holders leave, others take their place, and numbers go on record, each of them the
    latest. -/
theorem exchange {record : List Nat} {before left after : List α} {latest latest' : Nat}
    (inOrder : InOrder number record (before ++ left ++ after) latest) (new : List Nat)
    (next : List α) (grows : latest ≤ latest') (once : (new ++ next.flatMap number).Nodup)
    (whence : ∀ n ∈ new ++ next.flatMap number,
      n ∈ left.flatMap number ∨ latest < n ∧ n ≤ latest')
    (current : ∀ n ∈ new, n = latest) :
    InOrder number (record ++ new) (before ++ next ++ after) latest' := by
  have nodup : (record ++ new ++ (before ++ next ++ after).flatMap number).Nodup := by
    refine nodup_exchange inOrder.apart once fun n mem => ?_
    rcases whence n mem with own | ⟨above, _⟩
    · exact .inl own
    · exact .inr fun known => absurd (inOrder.issued n known) (by omega)
  refine ⟨nodup, fun n mem => ?_, ?_⟩
  · by_cases known : n ∈ record ++ (before ++ left ++ after).flatMap number
    · exact Nat.le_trans (inOrder.issued n known) grows
    · have arrived : n ∈ new ++ next.flatMap number := by
        simp only [List.flatMap_append, List.mem_append] at mem known ⊢
        grind
      rcases whence n arrived with own | ⟨_, below⟩
      · simp only [List.flatMap_append, List.mem_append] at known
        grind
      · exact below
  · have distinct : (record ++ new).Nodup := (List.nodup_append.mp nodup).1
    refine List.pairwise_append.mpr ⟨inOrder.increasing, ?_, fun n known m arrived => ?_⟩
    · -- all of the new ones are the latest, so there is one at most
      refine (List.nodup_append.mp distinct).2.1.imp_of_mem fun mine theirs apart => ?_
      exact absurd ((current _ mine).trans (current _ theirs).symm) apart
    · have below := inOrder.issued n (List.mem_append_left _ known)
      have different := (List.nodup_append.mp distinct).2.2 n known m arrived
      have latest := current m arrived
      omega

/-- Others join, with numbers that are given out to them. -/
theorem join {record : List Nat} {holders : List α} {latest latest' : Nat}
    (inOrder : InOrder number record holders latest) (next : List α) (grows : latest ≤ latest')
    (once : (next.flatMap number).Nodup)
    (fresh : ∀ n ∈ next.flatMap number, latest < n ∧ n ≤ latest') :
    InOrder number record (holders ++ next) latest' := by
  have arrives : InOrder number record (holders ++ [] ++ []) latest := by
    rwa [List.append_nil, List.append_nil]
  have joined := arrives.exchange [] next grows once (fun n mem => .inr (fresh n mem))
    (fun _ mem => nomatch mem)
  rwa [List.append_nil, List.append_nil] at joined

end InOrder

end LivePreview
