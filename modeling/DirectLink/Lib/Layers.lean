import DirectLink.Lib.Program

/-!
# Programs over the calls of a lower layer

A program over one signature becomes a program over another once each of its commands has a program
there.  Its executions are those in which each command is one whole execution of its program.
-/

namespace DirectLink

namespace Prog

variable {S T : Sig} {α β : Type} {σ : Type}

/-- Replace each command by its program. -/
def handle (code : (c : S.Cmd) → Prog T (S.Reply c)) : Prog S α → Prog T α
  | .done a => .done a
  | .call c k => code c >>= fun r => (k r).handle code

variable {code : (c : S.Cmd) → Prog T (S.Reply c)}

@[simp] theorem handle_done (a : α) : (Prog.done a : Prog S α).handle code = .done a := rfl

@[simp] theorem handle_call (c : S.Cmd) (k : S.Reply c → Prog S α) :
    (Prog.call c k).handle code = (code c >>= fun r => (k r).handle code) := rfl

@[simp] theorem handle_issue (c : S.Cmd) : (issue c).handle code = code c := bind_done (code c)

@[simp] theorem handle_bind (p : Prog S α) (f : α → Prog S β) :
    (p >>= f).handle code = (p.handle code >>= fun a => (f a).handle code) := by
  induction p with
  | done a => rfl
  | call c k ih =>
    rw [call_bind, handle_call, handle_call, bind_assoc]
    exact congrArg (code c >>= ·) (funext ih)

theorem handle_handle {U : Sig} {lower : (c : T.Cmd) → Prog U (T.Reply c)} (p : Prog S α) :
    (p.handle code).handle lower = p.handle fun c => (code c).handle lower := by
  induction p with
  | done a => rfl
  | call c k ih =>
    rw [handle_call, handle_bind, handle_call]
    exact congrArg ((code c).handle lower >>= ·) (funext ih)

theorem handle_issue_eq (p : Prog S α) : (p.handle fun c => issue c) = p := by
  induction p with
  | done a => rfl
  | call c k ih =>
    rw [handle_call, issue_bind]
    exact congrArg (Prog.call c) (funext ih)

/-- An execution of a sequence is one of its first part and one of its second. -/
theorem runs_bind {step : σ → (c : S.Cmd) → S.Reply c → σ → Prop} {p : Prog S α}
    {f : α → Prog S β} {s s'' : σ} {b : β} :
    (p >>= f).Runs step s b s'' ↔ ∃ a s', p.Runs step s a s' ∧ (f a).Runs step s' b s'' := by
  constructor
  · intro run
    induction p generalizing s with
    | done a => exact ⟨a, s, .done, run⟩
    | call c k ih =>
      cases run with
      | call first rest =>
        obtain ⟨a, s', run, run'⟩ := ih _ rest
        exact ⟨a, s', .call first run, run'⟩
  · intro ⟨a, s', run, run'⟩
    induction run with
    | done => exact run'
    | call first _ ih => exact .call first (ih run')

/-- **Layers**: an execution of the lower program is an execution of the upper one, each command of
which is a whole execution of its program. -/
theorem runs_handle {step : σ → (c : T.Cmd) → T.Reply c → σ → Prop} {p : Prog S α} {s s' : σ}
    {a : α} :
    (p.handle code).Runs step s a s' ↔
      p.Runs (fun s c r s' => (code c).Runs step s r s') s a s' := by
  induction p generalizing s with
  | done b =>
    constructor
    · intro run
      cases run
      exact .done
    · intro run
      cases run
      exact .done
  | call c k ih =>
    rw [handle_call, runs_bind]
    constructor
    · intro ⟨r, s₁, first, rest⟩
      exact .call first ((ih r).mp rest)
    · intro run
      cases run with
      | call first rest => exact ⟨_, _, first, (ih _).mpr rest⟩

/-- More steps, more executions. -/
theorem Runs.mono {step step' : σ → (c : S.Cmd) → S.Reply c → σ → Prop} {p : Prog S α} {s s' : σ}
    {a : α} (run : p.Runs step s a s')
    (weaken : ∀ s c r s', step s c r s' → step' s c r s') : p.Runs step' s a s' := by
  induction run with
  | done => exact .done
  | call first _ ih => exact .call (weaken _ _ _ _ first) ih

end Prog

end DirectLink
