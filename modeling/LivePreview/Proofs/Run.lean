import Mathlib.Data.List.Basic

/-!
# Runs

A system goes from state to state, and the act of every move says what was done.
`Run Step start moves last` says that the moves lead from `start` to `last`, one
after the other.  What holds at the start and is kept by every step holds after
every run (`Run.keeps`), and every move of a run stands between two shorter runs
(`Run.around`).
-/

namespace LivePreview

/-- One move of a system: what was done, between the states before and after. -/
structure Move (σ κ : Type) where
  before : σ
  act : κ
  after : σ

/-- The moves that lead from a start to a last state. -/
inductive Run {σ κ : Type} (Step : σ → κ → σ → Prop) (start : σ) : List (Move σ κ) → σ → Prop
  | nil : Run Step start [] start
  | snoc {moves : List (Move σ κ)} {s t : σ} {act : κ} :
      Run Step start moves s → Step s act t → Run Step start (moves ++ [⟨s, act, t⟩]) t

namespace Run

variable {σ κ : Type} {Step : σ → κ → σ → Prop} {start middle last : σ}

theorem one {act : κ} (step : Step start act last) : Run Step start [⟨start, act, last⟩] last :=
  Run.nil.snoc step

theorem append {first rest : List (Move σ κ)} (begun : Run Step start first middle)
    (continued : Run Step middle rest last) : Run Step start (first ++ rest) last := by
  induction continued with
  | nil => simpa using begun
  | snoc _ step inductionHypothesis =>
    rw [← List.append_assoc]
    exact inductionHypothesis.snoc step

/-- The run up to a move, and the run from there on. -/
theorem split {moves first rest : List (Move σ κ)} (run : Run Step start moves last)
    (cut : moves = first ++ rest) :
    ∃ middle, Run Step start first middle ∧ Run Step middle rest last := by
  induction run generalizing rest with
  | nil =>
    obtain ⟨rfl, rfl⟩ := List.nil_eq_append_iff.mp cut
    exact ⟨start, .nil, .nil⟩
  | @snoc moves s t act earlier step inductionHypothesis =>
    rcases rest.eq_nil_or_concat with rfl | ⟨shorter, final, rfl⟩
    · rw [List.append_nil] at cut
      exact ⟨t, cut ▸ earlier.snoc step, .nil⟩
    · rw [List.concat_eq_append, ← List.append_assoc] at cut
      obtain ⟨same, ends⟩ := List.append_inj' cut rfl
      obtain ⟨middle, begun, continued⟩ := inductionHypothesis same
      obtain rfl : ⟨s, act, t⟩ = final := by simpa using ends
      exact ⟨middle, begun, by simpa using continued.snoc step⟩

/-- A move of a run is a step, with a run before it and a run after it. -/
theorem around {moves first rest : List (Move σ κ)} {move : Move σ κ}
    (run : Run Step start moves last) (cut : moves = first ++ move :: rest) :
    Run Step start first move.before ∧ Step move.before move.act move.after ∧
      Run Step move.after rest last := by
  rw [List.append_cons] at cut
  obtain ⟨middle, begun, continued⟩ := run.split cut
  generalize joined : first ++ [move] = upTo at begun
  cases begun with
  | nil => simp at joined
  | snoc earlier step =>
    obtain ⟨rfl, same⟩ := List.append_inj' joined rfl
    obtain rfl : move = _ := by simpa using same
    exact ⟨earlier, step, continued⟩

/-- A member of the moves of a run is a step from a state that a run leads to. -/
theorem reach {moves : List (Move σ κ)} {move : Move σ κ} (run : Run Step start moves last)
    (member : move ∈ moves) :
    ∃ earlier, Run Step start earlier move.before ∧ Step move.before move.act move.after := by
  obtain ⟨first, rest, cut⟩ := List.append_of_mem member
  obtain ⟨earlier, step, _⟩ := run.around cut
  exact ⟨first, earlier, step⟩

/-- What holds at the start and is kept by every step holds after every run. -/
theorem keeps {P : List (Move σ κ) → σ → Prop} {moves : List (Move σ κ)}
    (run : Run Step start moves last) (base : P [] start)
    (step : ∀ {moves s act t}, P moves s → Step s act t → P (moves ++ [⟨s, act, t⟩]) t) :
    P moves last := by
  induction run with
  | nil => exact base
  | snoc _ taken inductionHypothesis => exact step inductionHypothesis taken

/-- As in `keeps`, where a step may use the run that leads to it. -/
theorem keepsAlong {P : List (Move σ κ) → σ → Prop} {moves : List (Move σ κ)}
    (run : Run Step start moves last) (base : P [] start)
    (step : ∀ {moves s act t}, Run Step start moves s → P moves s → Step s act t →
      P (moves ++ [⟨s, act, t⟩]) t) :
    P moves last := by
  induction run with
  | nil => exact base
  | snoc earlier taken inductionHypothesis => exact step earlier inductionHypothesis taken

/-- The run of another system that does the same step by step. -/
theorem map {τ : Type} {Step' : τ → κ → τ → Prop} {f : σ → τ}
    (simulates : ∀ {s act t}, Step s act t → Step' (f s) act (f t)) {moves : List (Move σ κ)}
    (run : Run Step start moves last) :
    Run Step' (f start) (moves.map fun move => ⟨f move.before, move.act, f move.after⟩)
      (f last) := by
  induction run with
  | nil => exact .nil
  | snoc _ step inductionHypothesis =>
    rw [List.map_append]
    exact inductionHypothesis.snoc (simulates step)

end Run

end LivePreview
