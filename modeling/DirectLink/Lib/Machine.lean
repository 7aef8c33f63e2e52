import Mathlib.Logic.Relation

/-!
# Machines

A machine is a partial step function on states.  `Machine.Reach G` is reachability by moves that
satisfy `G`, with its invariant rule; `Machine.run` computes the states that a list of moves leads
to.
-/

namespace DirectLink

/-- States, moves, and where a move leads if it can be made. -/
structure Machine : Type 1 where
  State : Type
  Move : Type
  next : State → Move → Option State

namespace Machine

variable {M : Machine} {G G' : M.State → M.Move → Prop} {s₀ s s' : M.State} {m : M.Move}

/-- `Reach G s₀ s`: moves that satisfy `G` lead from `s₀` to `s`. -/
def Reach (M : Machine) (G : M.State → M.Move → Prop) : M.State → M.State → Prop :=
  Relation.ReflTransGen fun s s' => ∃ m, G s m ∧ M.next s m = some s'

theorem Reach.step (reach : M.Reach G s₀ s) (guard : G s m) (step : M.next s m = some s') :
    M.Reach G s₀ s' :=
  reach.tail ⟨m, guard, step⟩

theorem Reach.mono (reach : M.Reach G s₀ s) (weaken : ∀ s m, G s m → G' s m) : M.Reach G' s₀ s := by
  induction reach with
  | refl => exact .refl
  | tail _ edge ih =>
    obtain ⟨m, guard, step⟩ := edge
    exact ih.step (weaken _ m guard) step

/-- What holds at the start and is kept by every guarded move holds in every reachable state. -/
theorem Reach.invariant {I : M.State → Prop} (start : I s₀)
    (keeps : ∀ s m s', I s → G s m → M.next s m = some s' → I s') (reach : M.Reach G s₀ s) :
    I s := by
  induction reach with
  | refl => exact start
  | tail _ edge ih =>
    obtain ⟨m, guard, step⟩ := edge
    exact keeps _ m _ ih guard step

/-- A state without a move is left by no run. -/
theorem Reach.eq_of_final (final : ∀ m s', M.next s m ≠ some s') (reach : M.Reach G s s') :
    s' = s := by
  induction reach with
  | refl => rfl
  | tail _ edge ih =>
    obtain ⟨m, _, step⟩ := edge
    subst ih
    exact absurd step (final m _)

/-- The moves one after another, each of which passes the check. -/
def run (M : Machine) (check : M.State → M.Move → Bool) : List M.Move → M.State → Option M.State
  | [], s => some s
  | m :: moves, s =>
    match M.next s m with
    | none => none
    | some s' => if check s m then run M check moves s' else none

/-- A run that is computed is a run. -/
theorem reach_of_run {check : M.State → M.Move → Bool} {moves : List M.Move}
    (computed : M.run check moves s = some s') : M.Reach (fun s m => check s m = true) s s' := by
  induction moves generalizing s with
  | nil =>
    cases computed
    exact .refl
  | cons m moves ih =>
    rw [run] at computed
    cases next : M.next s m with
    | none =>
      rw [next] at computed
      cases computed
    | some s₁ =>
      rw [next] at computed
      dsimp only at computed
      split at computed
      · next passed => exact .head ⟨m, passed, next⟩ (ih computed)
      · cases computed

theorem reach_of_moves (moves : List M.Move)
    (computed : M.run (fun _ _ => true) moves s = some s') : M.Reach (fun _ _ => True) s s' :=
  (reach_of_run computed).mono fun _ _ _ => trivial

end Machine

end DirectLink
