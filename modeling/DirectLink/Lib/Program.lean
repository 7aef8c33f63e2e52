import Mathlib.Logic.Relation
import Mathlib.Data.List.Basic

/-!
# Programs as command trees

A program is a tree: it has returned a value, or it has issued a command and waits for the reply
that selects the rest of the program.  Nothing here fixes what a command does; that is a step
relation on some state, and one program can be read under several of them.

* `Prog S α`: programs over an effect signature `S`, a monad.
* `Logic S`: a step relation on local states together with what may be issued in each state.
  `Prog.wp L p Q s` says that `p`, started in `s`, issues only what `L` allows and returns with `Q`.
* `Prog.Issues`, `Prog.EndsIn`: what a program can issue at all, and from some command on.
* `Prog.Runs`: the big-step executions under a step relation.  `Prog.wp_sound` and `Prog.wp_total`
  connect them with `Prog.wp`; a program is a well-founded tree, so it always returns.
* `histLogic`: the logic whose state is the list of events seen so far.
* `ghostLogic`: the logic whose state is a ghost state that every event moves.
-/

namespace DirectLink

/-- An effect signature: the commands a program can issue and the type of each command's reply. -/
structure Sig : Type 1 where
  Cmd : Type
  Reply : Cmd → Type

/-- One command together with the reply it got. -/
structure Event (S : Sig) : Type where
  cmd : S.Cmd
  reply : S.Reply cmd

/-- A program: either a returned value, or a command and the continuation of each of its replies. -/
inductive Prog (S : Sig) (α : Type) : Type
  | done (a : α) : Prog S α
  | call (c : S.Cmd) (k : S.Reply c → Prog S α) : Prog S α

variable {S : Sig} {α β γ : Type}

namespace Prog

/-- Run `p`, then continue with what it returned. -/
def bind : Prog S α → (α → Prog S β) → Prog S β
  | .done a, f => f a
  | .call c k, f => .call c fun r => (k r).bind f

/-- Issue one command and return its reply. -/
def issue (c : S.Cmd) : Prog S (S.Reply c) := .call c .done

instance : Monad (Prog S) where
  pure := .done
  bind := bind

@[simp] theorem pure_eq (a : α) : (pure a : Prog S α) = .done a := rfl

@[simp] theorem done_bind (a : α) (f : α → Prog S β) : (Prog.done a >>= f) = f a := rfl

@[simp] theorem call_bind (c : S.Cmd) (k : S.Reply c → Prog S α) (f : α → Prog S β) :
    (Prog.call c k >>= f) = .call c fun r => k r >>= f := rfl

@[simp] theorem issue_bind (c : S.Cmd) (f : S.Reply c → Prog S β) :
    (issue c >>= f) = .call c f := rfl

theorem bind_done (p : Prog S α) : (p >>= Prog.done) = p := by
  induction p with
  | done a => rfl
  | call c k ih =>
    rw [call_bind]
    exact congrArg (Prog.call c) (funext ih)

theorem bind_assoc (p : Prog S α) (f : α → Prog S β) (g : β → Prog S γ) :
    (p >>= f >>= g) = (p >>= fun a => f a >>= g) := by
  induction p with
  | done a => rfl
  | call c k ih =>
    simp only [call_bind]
    exact congrArg (Prog.call c) (funext ih)

/-- The program is waiting for no reply. -/
def Returned : Prog S α → Prop
  | .done _ => True
  | .call _ _ => False

instance : DecidablePred (Returned (S := S) (α := α))
  | .done _ => .isTrue trivial
  | .call _ _ => .isFalse id

theorem Returned.exists_eq {p : Prog S α} (returned : p.Returned) : ∃ a, p = .done a := by
  cases p with
  | done a => exact ⟨a, rfl⟩
  | call c k => exact returned.elim

end Prog

/-! ## Logics of local states -/

/-- What a program may issue in each local state, and how the state moves with the reply. -/
structure Logic (S : Sig) : Type 1 where
  State : Type
  Allows : State → S.Cmd → Prop
  Step : State → (c : S.Cmd) → S.Reply c → State → Prop

namespace Logic

/-- In state `s` the command `c` is allowed, and every step it can make ends in `P`. -/
def Call (L : Logic S) (s : L.State) (c : S.Cmd) (P : S.Reply c → L.State → Prop) : Prop :=
  L.Allows s c ∧ ∀ r s', L.Step s c r s' → P r s'

theorem Call.mono {L : Logic S} {s : L.State} {c : S.Cmd} {P P' : S.Reply c → L.State → Prop}
    (call : L.Call s c P) (weaken : ∀ r s', P r s' → P' r s') : L.Call s c P' :=
  ⟨call.1, fun r s' step => weaken r s' (call.2 r s' step)⟩

end Logic

namespace Prog

/-- `p` started in `s` issues only allowed commands and returns with `Q`. -/
def wp (L : Logic S) : Prog S α → (α → L.State → Prop) → L.State → Prop
  | .done a, Q, s => Q a s
  | .call c k, Q, s => L.Call s c fun r s' => (k r).wp L Q s'

variable {L : Logic S} {Q Q' : α → L.State → Prop} {s s' : L.State}

@[simp] theorem wp_done {a : α} : (Prog.done a).wp L Q s ↔ Q a s := Iff.rfl

@[simp] theorem wp_call {c : S.Cmd} {k : S.Reply c → Prog S α} :
    (Prog.call c k).wp L Q s ↔ L.Call s c fun r s' => (k r).wp L Q s' := Iff.rfl

@[simp] theorem wp_issue {c : S.Cmd} {Q : S.Reply c → L.State → Prop} :
    (issue c).wp L Q s ↔ L.Call s c Q := Iff.rfl

theorem wp_mono {p : Prog S α} (holds : p.wp L Q s) (weaken : ∀ a s', Q a s' → Q' a s') :
    p.wp L Q' s := by
  induction p generalizing s with
  | done a => exact weaken a s holds
  | call c k ih => exact holds.mono fun r s' rest => ih r rest

/-- Where everything is allowed, what always holds holds at the end. -/
theorem wp_of_forall {p : Prog S α} (allowed : ∀ s c, L.Allows s c) (holds : ∀ a s, Q a s) :
    p.wp L Q s := by
  induction p generalizing s with
  | done a => exact holds a s
  | call c k ih => exact ⟨allowed s c, fun r s' _ => ih r⟩

theorem wp_bind {p : Prog S α} {f : α → Prog S β} {Q : β → L.State → Prop} :
    (p >>= f).wp L Q s ↔ p.wp L (fun a s' => (f a).wp L Q s') s := by
  induction p generalizing s with
  | done a => rfl
  | call c k ih =>
    simp only [call_bind, wp_call, Logic.Call, ih]

/-- Every command `p` can issue, whatever the replies, satisfies `P`. -/
def Issues (P : S.Cmd → Prop) : Prog S α → Prop
  | .done _ => True
  | .call c k => P c ∧ ∀ r, (k r).Issues P

theorem Issues.bind {P : S.Cmd → Prop} {p : Prog S α} {f : α → Prog S β} (first : p.Issues P)
    (rest : ∀ a, (f a).Issues P) : (p >>= f).Issues P := by
  induction p with
  | done a => exact rest a
  | call c k ih => exact ⟨first.1, fun r => ih r (first.2 r)⟩

theorem Issues.mono {P P' : S.Cmd → Prop} {p : Prog S α} (issues : p.Issues P)
    (weaken : ∀ c, P c → P' c) : p.Issues P' := by
  induction p with
  | done a => trivial
  | call c k ih => exact ⟨weaken c issues.1, fun r => ih r (issues.2 r)⟩

theorem issues_of_forall {P : S.Cmd → Prop} {p : Prog S α} (holds : ∀ c, P c) : p.Issues P := by
  induction p with
  | done a => trivial
  | call c k ih => exact ⟨holds c, ih⟩

/-- An assertion kept by every command of a program is kept by the program. -/
theorem Issues.wp {P : S.Cmd → Prop} {J : L.State → Prop} {p : Prog S α} (issues : p.Issues P)
    (keeps : ∀ s c, J s → P c → L.Call s c fun _ s' => J s') (start : J s) :
    p.wp L (fun _ => J) s := by
  induction p generalizing s with
  | done a => exact start
  | call c k ih => exact (keeps s c start issues.1).mono fun r s' kept => ih r (issues.2 r) kept

/-- Wherever the program issues a command in `X`, that and whatever it issues afterwards satisfies
`P`. -/
def EndsIn (X P : S.Cmd → Prop) : Prog S α → Prop
  | .done _ => True
  | .call c k => (X c → P c ∧ ∀ r, (k r).Issues P) ∧ ∀ r, (k r).EndsIn X P

section EndsIn

variable {X P : S.Cmd → Prop} {p : Prog S α}

theorem EndsIn.of_never (never : p.Issues fun c => ¬ X c) : p.EndsIn X P := by
  induction p with
  | done a => trivial
  | call c k ih => exact ⟨fun ends => absurd ends never.1, fun r => ih r (never.2 r)⟩

/-- What is returned is still worked on. -/
theorem EndsIn.map (ends : p.EndsIn X P) (f : α → β) :
    (p >>= fun a => .done (f a)).EndsIn X P := by
  induction p with
  | done a => trivial
  | call c k ih =>
    refine ⟨fun ending => ⟨(ends.1 ending).1, fun r => ?_⟩, fun r => ih r (ends.2 r)⟩
    exact ((ends.1 ending).2 r).bind fun _ => trivial

theorem EndsIn.last {c : S.Cmd} {k : S.Reply c → Prog S α} (holds : P c)
    (rest : ∀ r, (k r).Issues P) (ends : ∀ r, (k r).EndsIn X P) :
    (Prog.call c k).EndsIn X P :=
  ⟨fun _ => ⟨holds, rest⟩, ends⟩

/-- What comes before the first command in `X`. -/
theorem Issues.endsIn {f : α → Prog S β} (never : p.Issues fun c => ¬ X c)
    (rest : ∀ a, (f a).EndsIn X P) : (p >>= f).EndsIn X P := by
  induction p with
  | done a => exact rest a
  | call c k ih => exact ⟨fun ends => absurd ends never.1, fun r => ih r (never.2 r)⟩

end EndsIn

/-! ## Big-step executions -/

/-- `Runs step p s a s'`: executing `p` alone from `s` can return `a` in `s'`. -/
inductive Runs {σ : Type} (step : σ → (c : S.Cmd) → S.Reply c → σ → Prop) :
    Prog S α → σ → α → σ → Prop
  | done {a : α} {s : σ} : Runs step (.done a) s a s
  | call {c : S.Cmd} {k : S.Reply c → Prog S α} {r : S.Reply c} {a : α} {s s' s'' : σ} :
    step s c r s' → Runs step (k r) s' a s'' → Runs step (.call c k) s a s''

/-- What `wp` promises holds of every execution. -/
theorem wp_sound {p : Prog S α} {a : α} (holds : p.wp L Q s) (run : p.Runs L.Step s a s') :
    Q a s' := by
  induction run with
  | done => exact holds
  | call step _ ih => exact ih (holds.2 _ _ step)

/-- Where an allowed command always has a step, the program returns. -/
theorem wp_total {p : Prog S α} (enabled : ∀ s c, L.Allows s c → ∃ r s', L.Step s c r s')
    (holds : p.wp L Q s) : ∃ a s', p.Runs L.Step s a s' ∧ Q a s' := by
  induction p generalizing s with
  | done a => exact ⟨a, s, .done, holds⟩
  | call c k ih =>
    obtain ⟨allowed, rest⟩ := holds
    obtain ⟨r, s₁, step⟩ := enabled s c allowed
    obtain ⟨a, s₂, run, post⟩ := ih r (rest r s₁ step)
    exact ⟨a, s₂, .call step run, post⟩

/-- `p` started in `s` returns `a` and nothing else. -/
def Returns {σ : Type} (step : σ → (c : S.Cmd) → S.Reply c → σ → Prop) (p : Prog S α) (s : σ)
    (a : α) : Prop :=
  (∃ s', p.Runs step s a s') ∧ ∀ a' s', p.Runs step s a' s' → a' = a

theorem returns_of_wp {p : Prog S α} {a : α}
    (enabled : ∀ s c, L.Allows s c → ∃ r s', L.Step s c r s')
    (holds : p.wp L (fun a' _ => a' = a) s) : p.Returns L.Step s a := by
  constructor
  · obtain ⟨a', s', run, rfl⟩ := wp_total enabled holds
    exact ⟨s', run⟩
  · intro a' s' run
    exact wp_sound holds run

end Prog

/-! ## The logic of event histories -/

/-- The local state is the list of events seen so far.  `Expects` bounds the replies that can come
and `Allows` says what may be issued after which history. -/
@[reducible] def histLogic (Expects : Event S → Prop) (Allows : List (Event S) → S.Cmd → Prop) :
    Logic S where
  State := List (Event S)
  Allows := Allows
  Step past c r past' := Expects ⟨c, r⟩ ∧ past' = past ++ [⟨c, r⟩]

section History

variable {E : Event S → Prop} {A : List (Event S) → S.Cmd → Prop} {past : List (Event S)}

theorem histLogic_call {c : S.Cmd} {P : S.Reply c → List (Event S) → Prop} :
    (histLogic E A).Call past c P ↔
      A past c ∧ ∀ r, E ⟨c, r⟩ → P r (past ++ [⟨c, r⟩]) := by
  constructor
  · intro holds
    rcases holds with ⟨allowed, rest⟩
    exact ⟨allowed, fun r expected => rest r _ ⟨expected, rfl⟩⟩
  · intro holds
    rcases holds with ⟨allowed, rest⟩
    refine ⟨allowed, ?_⟩
    intro r past' holds
    rcases holds with ⟨expected, rfl⟩
    exact rest r expected

/-- A program whose commands are allowed from `past` on only lets the history grow. -/
theorem Prog.Issues.wp_grow {p : Prog S α}
    (issues : p.Issues fun c => ∀ past', past ⊆ past' → A past' c) :
    p.wp (histLogic E A) (fun _ past' => past ⊆ past') past := by
  refine issues.wp (L := histLogic E A) (J := fun past' => past ⊆ past') ?_ (List.Subset.refl past)
  intro past' c grown allowed
  exact histLogic_call.mpr ⟨allowed past' grown, fun r _ =>
    List.Subset.trans grown (List.subset_append_left ..)⟩

/-- A program that only issues commands of an always allowed kind appends events of that kind. -/
theorem Prog.Issues.wp_hist {p : Prog S α} {P : S.Cmd → Prop} (issues : p.Issues P)
    (allowed : ∀ past c, P c → A past c) :
    p.wp (histLogic E A)
      (fun _ past' => ∃ new : List (Event S), past' = past ++ new ∧ ∀ e ∈ new, P e.cmd) past := by
  refine issues.wp ?_ ⟨[], (List.append_nil past).symm, fun e member => by cases member⟩
  intro _ c holds isP
  rcases holds with ⟨new, rfl, all⟩
  refine histLogic_call.mpr ⟨allowed _ c isP, fun r _ => ⟨new ++ [⟨c, r⟩], ?_, ?_⟩⟩
  · rw [List.append_assoc]
  · intro e member
    rcases List.mem_append.mp member with earlier | last
    · exact all e earlier
    · rw [List.mem_singleton.mp last]
      exact isP

end History

/-! ## Ghost states -/

/-- The local state is a ghost state that every event moves by `next`. -/
@[reducible] def ghostLogic {σ : Type} (Expects : Event S → Prop) (next : σ → Event S → σ)
    (Allows : σ → S.Cmd → Prop) : Logic S where
  State := σ
  Allows := Allows
  Step g c r g' := Expects ⟨c, r⟩ ∧ g' = next g ⟨c, r⟩

section Ghost

variable {σ : Type} {E : Event S → Prop} {next : σ → Event S → σ} {A : σ → S.Cmd → Prop} {g : σ}

theorem ghostLogic_call {c : S.Cmd} {P : S.Reply c → σ → Prop} :
    (ghostLogic E next A).Call g c P ↔ A g c ∧ ∀ r, E ⟨c, r⟩ → P r (next g ⟨c, r⟩) := by
  constructor
  · intro call
    exact ⟨call.1, fun r expected => call.2 r _ ⟨expected, rfl⟩⟩
  · intro holds
    refine ⟨holds.1, fun r g' step => ?_⟩
    obtain ⟨expected, rfl⟩ := step
    exact holds.2 r expected

/-- What is shown with a ghost state holds of the histories that lead to it. -/
theorem Prog.wp_of_ghost {p : Prog S α} {Q : α → σ → Prop} {past : List (Event S)}
    (holds : p.wp (ghostLogic E next A) Q (past.foldl next g)) :
    p.wp (histLogic E fun past c => A (past.foldl next g) c)
      (fun a past' => Q a (past'.foldl next g)) past := by
  induction p generalizing past with
  | done a => exact holds
  | call c k ih =>
    obtain ⟨allowed, rest⟩ := ghostLogic_call.mp holds
    refine histLogic_call.mpr ⟨allowed, fun r expected => ih r ?_⟩
    rw [List.foldl_append]
    exact rest r expected

end Ghost

end DirectLink
