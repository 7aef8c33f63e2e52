import DirectLink.Lib.Pool

/-!
# Replaying a schedule

A schedule says which thread moves and, by a hint, which of the replies it may get it does get.
`Prog.replay` and `Pool.replay` compute the run a schedule describes; `Prog.replay_runs` and
`Pool.replay_reach` say that a computed run is a run.
-/

namespace DirectLink

variable {S : Sig}

/-- How hints pick one of the steps a command has. -/
structure Replayer {σ : Type} (step : σ → (c : S.Cmd) → S.Reply c → σ → Prop) : Type 1 where
  Hint : Type
  perform : Hint → σ → (c : S.Cmd) → Option (S.Reply c × σ)
  sound : ∀ h s c r s', perform h s c = some (r, s') → step s c r s'

/-! ## One program -/

namespace Prog

variable {σ α : Type} {step : σ → (c : S.Cmd) → S.Reply c → σ → Prop}

/-- Run a program alone, one hint for each command; the hints left over are returned. -/
def replay (R : Replayer step) : Prog S α → List R.Hint → σ → Option (α × List R.Hint × σ)
  | .done a, hints, s => some (a, hints, s)
  | .call _ _, [], _ => none
  | .call c k, h :: hints, s =>
    match R.perform h s c with
    | none => none
    | some (r, s') => (k r).replay R hints s'

theorem replay_runs {R : Replayer step} {p : Prog S α} {hints rest : List R.Hint} {s s' : σ} {a : α}
    (computed : p.replay R hints s = some (a, rest, s')) : p.Runs step s a s' := by
  induction p generalizing hints s with
  | done a =>
    rw [replay] at computed
    cases computed
    exact .done
  | call c k ih =>
    cases hints with
    | nil => cases computed
    | cons h hints =>
      rw [replay] at computed
      cases performed : R.perform h s c with
      | none =>
        rw [performed] at computed
        cases computed
      | some moved =>
        obtain ⟨r, s₁⟩ := moved
        rw [performed] at computed
        exact .call (R.sound h s c r s₁ performed) (ih r computed)

end Prog

/-! ## A pool of threads -/

/-- A choice of the scheduler, with a hint where a command is executed. -/
inductive Choice (Y : System S) (Hint : Type) : Type
  | start (call : Y.Call)
  | exec (i : Nat) (hint : Hint)
  | tick (t : Y.Tick)

namespace Pool

variable {Y : System S}

/-- One choice: the move it makes and where it leads. -/
def choose (R : Replayer Y.Exec) (wait : Y.World → Y.Tick → Option Y.World) (s : Pool Y) :
    Choice Y R.Hint → Option (Move Y × Pool Y)
  | .start call => some (.start call, ⟨s.world, s.threads ++ [⟨call, [], Y.code call⟩]⟩)
  | .exec i hint =>
    match s.threads[i]? with
    | none => none
    | some t =>
      match t.prog with
      | .done _ => none
      | .call c k =>
        match R.perform hint s.world c with
        | none => none
        | some (r, world) => some (.exec i ⟨c, r⟩, s.advance i t ⟨c, r⟩ world (k r))
  | .tick t =>
    match wait s.world t with
    | none => none
    | some world => some (.tick t, ⟨world, s.threads⟩)

/-- A schedule, every move of which passes the check. -/
def replay (R : Replayer Y.Exec) (wait : Y.World → Y.Tick → Option Y.World)
    (check : Pool Y → Move Y → Bool) : List (Choice Y R.Hint) → Pool Y → Option (Pool Y)
  | [], s => some s
  | choice :: choices, s =>
    match s.choose R wait choice with
    | none => none
    | some (m, s') => if check s m then replay R wait check choices s' else none

variable {R : Replayer Y.Exec} {wait : Y.World → Y.Tick → Option Y.World} {s s' : Pool Y}

theorem step_of_choose {choice : Choice Y R.Hint} {m : Move Y}
    (waits : ∀ w t w', wait w t = some w' → Y.Env w t w')
    (chosen : s.choose R wait choice = some (m, s')) : Step s m s' := by
  cases choice with
  | start call =>
    cases chosen
    exact .start call
  | exec i hint =>
    rw [choose] at chosen
    cases at_ : s.threads[i]? with
    | none =>
      rw [at_] at chosen
      cases chosen
    | some t =>
      rw [at_] at chosen
      dsimp only at chosen
      split at chosen
      · cases chosen
      · next c k next =>
        cases performed : R.perform hint s.world c with
        | none =>
          rw [performed] at chosen
          cases chosen
        | some moved =>
          obtain ⟨r, world⟩ := moved
          rw [performed] at chosen
          cases chosen
          exact .exec at_ next (R.sound _ _ _ _ _ performed)
  | tick t =>
    rw [choose] at chosen
    cases waited : wait s.world t with
    | none =>
      rw [waited] at chosen
      cases chosen
    | some world =>
      rw [waited] at chosen
      cases chosen
      exact .tick (waits _ _ _ waited)

/-- A replayed schedule is a run whose moves pass the check. -/
theorem replay_reach {check : Pool Y → Move Y → Bool} {choices : List (Choice Y R.Hint)}
    (waits : ∀ w t w', wait w t = some w' → Y.Env w t w')
    (computed : replay R wait check choices s = some s') :
    Reach (fun s m => check s m = true) s s' := by
  induction choices generalizing s with
  | nil =>
    cases computed
    exact .refl
  | cons choice choices ih =>
    rw [replay] at computed
    cases chosen : s.choose R wait choice with
    | none =>
      rw [chosen] at computed
      cases computed
    | some moved =>
      obtain ⟨m, s₁⟩ := moved
      rw [chosen] at computed
      dsimp only at computed
      split at computed
      · next passed => exact .head ⟨m, passed, step_of_choose waits chosen⟩ (ih computed)
      · cases computed

section Watch

variable {γ : Type} {update : Pool Y → Move Y → Pool Y → γ → γ}

/-- A schedule, with an observer. -/
def replayWatch (R : Replayer Y.Exec) (wait : Y.World → Y.Tick → Option Y.World)
    (update : Pool Y → Move Y → Pool Y → γ → γ) :
    List (Choice Y R.Hint) → Pool Y → γ → Option (Pool Y × γ)
  | [], s, g => some (s, g)
  | choice :: choices, s, g =>
    match s.choose R wait choice with
    | none => none
    | some (m, s') => replayWatch R wait update choices s' (update s m s' g)

theorem watch_of_replay {s₀ : Pool Y} {g₀ g g' : γ} {choices : List (Choice Y R.Hint)}
    (waits : ∀ w t w', wait w t = some w' → Y.Env w t w')
    (watch : Watch update (fun _ _ => True) s₀ g₀ s g)
    (computed : replayWatch R wait update choices s g = some (s', g')) :
    Watch update (fun _ _ => True) s₀ g₀ s' g' := by
  induction choices generalizing s g with
  | nil =>
    cases computed
    exact watch
  | cons choice choices ih =>
    rw [replayWatch] at computed
    cases chosen : s.choose R wait choice with
    | none =>
      rw [chosen] at computed
      cases computed
    | some moved =>
      rw [chosen] at computed
      exact ih (watch.move trivial (step_of_choose waits chosen)) computed

end Watch

end Pool

end DirectLink
