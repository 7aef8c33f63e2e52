import DirectLink.Runs
import DirectLink.Session.Sequential
import DirectLink.Session.StoreFaults

/-!
# Replies lost, commands refused

A reported error does not tell whether the command was carried out.  Here a program runs alone, any
command of it can fail either way, and a log says which: the command was answered, its reply was
lost, or it was refused.  The world moves as under `Exec` with every fault admitted.

`wp_retry_op` is the rule for a retried operation: what its attempts keep holds after the loop, the
operation was issued, and the loop succeeds exactly if an attempt was answered.
-/

namespace DirectLink

/-- What became of a command. -/
inductive Fate : Type
  /-- It was carried out and its reply came. -/
  | answered
  /-- It was carried out, and an error reported. -/
  | lost
  /-- It was not carried out, and an error reported. -/
  | refused
  deriving DecidableEq

/-- The world and the commands so far, each with its fate. -/
structure Fated : Type where
  world : World
  fates : List (Cmd × Fate)

/-- One command meets its fate. -/
inductive FatedStep (s : Fated) : (c : Cmd) → c.Reply → Fated → Prop
  | answered {c : Cmd} {r : c.Reply} {w' : World} : Performs s.world c r w' →
    FatedStep s c r ⟨w', s.fates ++ [(c, .answered)]⟩
  | lost {c : Cmd} {r r' : c.Reply} {w' : World} {err : Err} : c.Reports r err →
    Performs s.world c r' w' → FatedStep s c r ⟨w', s.fates ++ [(c, .lost)]⟩
  | refused {c : Cmd} {r : c.Reply} {err : Err} : c.Reports r err →
    FatedStep s c r ⟨s.world, s.fates ++ [(c, .refused)]⟩

/-- The logic of a program whose commands can fail either way. -/
@[reducible] def fatedLogic : Logic backend where
  State := Fated
  Allows _ _ := True
  Step := FatedStep

variable {α : Type} {s s' : Fated} {fates : List (Cmd × Fate)} {c c' : Cmd} {fate : Fate}

/-! ### The same runs -/

theorem FatedStep.exec {r : c.Reply} (step : FatedStep s c r s') :
    Exec (fun _ _ => True) s.world c r s'.world := by
  cases step with
  | answered performs => exact .inl performs
  | lost reports performs => exact .inr ⟨_, trivial, reports, .inr ⟨_, performs⟩⟩
  | refused reports => exact .inr ⟨_, trivial, reports, .inl rfl⟩

theorem fatedStep_of_exec {w' : World} {r : c.Reply}
    (exec : Exec (fun _ _ => True) s.world c r w') :
    ∃ fate, FatedStep s c r ⟨w', s.fates ++ [(c, fate)]⟩ := by
  rcases exec with performs | ⟨err, _, reports, rfl | ⟨r', performs⟩⟩
  · exact ⟨.answered, .answered performs⟩
  · exact ⟨.refused, .refused reports⟩
  · exact ⟨.lost, .lost reports performs⟩

/-- The runs whose commands have fates are those in which any command can fail either way. -/
theorem runs_fatedStep_iff {p : Go α} {a : α} {w' : World} :
    p.Runs (Exec fun _ _ => True) s.world a w' ↔ ∃ fates, p.Runs FatedStep s a ⟨w', fates⟩ := by
  constructor
  · intro run
    generalize start : s.world = w at run
    induction run generalizing s with
    | done =>
      cases start
      exact ⟨s.fates, .done⟩
    | call exec _ ih =>
      cases start
      obtain ⟨fate, step⟩ := fatedStep_of_exec exec
      obtain ⟨fates, rest⟩ := ih (s := ⟨_, s.fates ++ [(_, fate)]⟩) rfl
      exact ⟨fates, .call step rest⟩
  · intro ⟨fates, run⟩
    generalize finish : (⟨w', fates⟩ : Fated) = t at run
    induction run with
    | done =>
      cases finish
      exact .done
    | call step _ ih => exact .call step.exec (ih finish)

/-! ### Fates -/

/-- The command was issued. -/
def Occurs (fates : List (Cmd × Fate)) (c : Cmd) : Prop := ∃ fate, (c, fate) ∈ fates

/-- The command was carried out, whatever was reported. -/
def CarriedOut (fates : List (Cmd × Fate)) (c : Cmd) : Prop :=
  ∃ fate, fate ≠ .refused ∧ (c, fate) ∈ fates

/-- The command was issued, and every time refused. -/
def AllRefused (fates : List (Cmd × Fate)) (c : Cmd) : Prop := Occurs fates c ∧ ¬ CarriedOut fates c

/-- The command was issued, and never answered. -/
def Unanswered (fates : List (Cmd × Fate)) (c : Cmd) : Prop :=
  Occurs fates c ∧ (c, Fate.answered) ∉ fates

theorem mem_snoc_iff {entry : Cmd × Fate} :
    entry ∈ fates ++ [(c, fate)] ↔ entry ∈ fates ∨ entry = (c, fate) := by
  rw [List.mem_append, List.mem_singleton]

theorem occurs_snoc : Occurs (fates ++ [(c, fate)]) c' ↔ Occurs fates c' ∨ c' = c := by
  constructor
  · intro holds
    rcases holds with ⟨fate', mem⟩
    rcases mem_snoc_iff.mp mem with old | new
    · exact .inl ⟨fate', old⟩
    · exact .inr (Prod.mk.inj new).1
  · intro either
    rcases either with ⟨fate', old⟩ | rfl
    · exact ⟨fate', mem_snoc_iff.mpr (.inl old)⟩
    · exact ⟨fate, mem_snoc_iff.mpr (.inr rfl)⟩

theorem carriedOut_snoc :
    CarriedOut (fates ++ [(c, fate)]) c' ↔ CarriedOut fates c' ∨ c' = c ∧ fate ≠ .refused := by
  constructor
  · intro holds
    rcases holds with ⟨fate', carried, mem⟩
    rcases mem_snoc_iff.mp mem with old | new
    · exact .inl ⟨fate', carried, old⟩
    · cases new
      exact .inr ⟨rfl, carried⟩
  · intro either
    rcases either with ⟨fate', carried, old⟩ | ⟨rfl, carried⟩
    · exact ⟨fate', carried, mem_snoc_iff.mpr (.inl old)⟩
    · exact ⟨fate, carried, mem_snoc_iff.mpr (.inr rfl)⟩

/-- Another command carries nothing of this one out. -/
theorem carriedOut_snoc_of_ne (other : c' ≠ c) :
    CarriedOut (fates ++ [(c, fate)]) c' ↔ CarriedOut fates c' := by
  rw [carriedOut_snoc]
  exact or_iff_left fun same => other same.1

theorem carriedOut_snoc_refused :
    CarriedOut (fates ++ [(c, .refused)]) c' ↔ CarriedOut fates c' := by
  rw [carriedOut_snoc]
  exact or_iff_left fun refused => refused.2 rfl

theorem CarriedOut.occurs (carried : CarriedOut fates c) : Occurs fates c := by
  obtain ⟨fate, _, mem⟩ := carried
  exact ⟨fate, mem⟩

theorem carriedOut_of_answered (answered : (c, Fate.answered) ∈ fates) : CarriedOut fates c :=
  ⟨.answered, nofun, answered⟩

/-- Other commands do not change what became of this one. -/
theorem mem_append_of_other {new : List (Cmd × Fate)} (other : c ∉ new.map Prod.fst) :
    (c, fate) ∈ fates ++ new ↔ (c, fate) ∈ fates := by
  rw [List.mem_append]
  exact or_iff_left fun later => other (List.mem_map_of_mem later)

/-! ### Steps -/

theorem fated_issue {f : c.Reply → Go α} {Q : α → Fated → Prop}
    (next : ∀ r s', FatedStep s c r s' → (f r).wp fatedLogic Q s') :
    (issue c >>= f).wp fatedLogic Q s :=
  ⟨trivial, next⟩

/-- What a command does to an assertion, whether it is carried out or not. -/
theorem fated_keeps {J : Fated → Prop}
    (carried : ∀ fate r w', fate ≠ .refused → Performs s.world c r w' →
      J ⟨w', s.fates ++ [(c, fate)]⟩)
    (refused : J ⟨s.world, s.fates ++ [(c, .refused)]⟩) :
    fatedLogic.Call s c fun _ s' => J s' := by
  refine ⟨trivial, fun reply s' step => ?_⟩
  cases step with
  | answered performs => exact carried .answered reply _ nofun performs
  | lost _ performs => exact carried .lost _ _ nofun performs
  | refused => exact refused

/-- What one command brings about holds exactly if it was carried out, or held before. -/
theorem fated_latch {X : World → Prop} {held : Prop}
    (latched : X s.world ↔ held ∨ CarriedOut s.fates c)
    (own : ∀ r w', Performs s.world c r w' → X w')
    (other : c' ≠ c → ∀ r w', Performs s.world c' r w' → (X w' ↔ X s.world)) :
    fatedLogic.Call s c' fun _ s' => X s'.world ↔ held ∨ CarriedOut s'.fates c := by
  refine fated_keeps ?_ ?_
  · intro fate r w' carried performs
    by_cases same : c' = c
    · subst same
      exact iff_of_true (own r w' performs) (.inr (carriedOut_snoc.mpr (.inr ⟨rfl, carried⟩)))
    · rw [other same r w' performs, latched, carriedOut_snoc_of_ne (Ne.symm same)]
  · rw [carriedOut_snoc_refused]
    exact latched

theorem FatedStep.fates_eq {r : c.Reply} (step : FatedStep s c r s') :
    ∃ fate, s'.fates = s.fates ++ [(c, fate)] := by
  cases step with
  | answered => exact ⟨.answered, rfl⟩
  | lost => exact ⟨.lost, rfl⟩
  | refused => exact ⟨.refused, rfl⟩

theorem FatedStep.occurs_self {r : c.Reply} (step : FatedStep s c r s') : Occurs s'.fates c := by
  obtain ⟨fate, extended⟩ := step.fates_eq
  rw [extended]
  exact occurs_snoc.mpr (.inr rfl)

theorem FatedStep.occurs {r : c.Reply} (step : FatedStep s c r s') (issued : Occurs s.fates c') :
    Occurs s'.fates c' := by
  obtain ⟨fate, extended⟩ := step.fates_eq
  rw [extended]
  exact occurs_snoc.mpr (.inl issued)

namespace RedisStore

variable {r : RedisStore} {J : Fated → Prop}

end RedisStore

/-! ### Replaying -/

/-- What a command replies that fails with an error. -/
def Cmd.failure (err : Err) : (c : Cmd) → Option c.Reply
  | .redis _ | .createIngress _ | .deleteIngress _ | .deleteRoom _ | .after _ | .randInt _ =>
    some (.error err)
  | .timeNow | .utcNow | .newUuid | .metric _ => none

theorem Cmd.reports_of_failure {err : Err} {r : c.Reply} (failed : c.failure err = some r) :
    c.Reports r err := by
  cases c <;> cases failed <;> rfl

/-- How runs are replayed in which commands fail either way. -/
noncomputable def fatedReplayer : Replayer (S := backend) FatedStep where
  Hint := Hint
  perform
    | .lost err, s, c =>
      match Hint.perform s.world c .plain with
      | some (_, w') => (c.failure err).map fun r => (r, ⟨w', s.fates ++ [(c, .lost)]⟩)
      | none => none
    | .refused err, s, c =>
      (c.failure err).map fun r => (r, ⟨s.world, s.fates ++ [(c, .refused)]⟩)
    | h, s, c =>
      (Hint.perform s.world c h).map fun moved => (moved.1, ⟨moved.2, s.fates ++ [(c, .answered)]⟩)
  sound hint s c r s' performed := by
    cases hint with
    | lost err =>
      dsimp only at performed
      split at performed
      · next r' w' carried =>
        obtain ⟨reply, failed, same⟩ := Option.map_eq_some_iff.mp performed
        cases same
        exact .lost (Cmd.reports_of_failure failed) (Hint.performs_of_perform carried)
      · cases performed
    | refused err =>
      obtain ⟨reply, failed, same⟩ := Option.map_eq_some_iff.mp performed
      cases same
      exact .refused (Cmd.reports_of_failure failed)
    | _ =>
      obtain ⟨moved, carried, same⟩ := Option.map_eq_some_iff.mp performed
      cases same
      exact .answered (Hint.performs_of_perform carried)

end DirectLink
