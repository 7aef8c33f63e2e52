import DirectLink.Lib.Program
import Mathlib.Algebra.BigOperators.Group.List.Basic
import Mathlib.Algebra.Ring.Int.Defs

/-!
# Interleaved and sequential runs of a system

A `System` is a world, the calls clients can make of it with the program that answers each, what
one command can do to the world, and what the environment does between two commands.

* `Pool`: the world together with every thread started so far; a thread keeps its call, the events
  it has seen and the rest of its program.  `Pool.Step` is one move of the scheduler: start a call,
  execute the next command of one thread, or let the environment move.
* `Pool.Reach G`: reachability by moves that satisfy `G`.  `Pool.Reach.invariant` is the invariant
  rule, `Pool.Reach.follows` the rule for what each thread has done, by a `Contract` of each call.
* `Hist G`: histories of calls made one at a time, each run to its end, with the environment
  moving in between.
-/

namespace DirectLink

variable {S : Sig}

/-- A world, the calls on it, what a command does to it and what happens in between. -/
structure System (S : Sig) : Type 1 where
  World : Type
  Call : Type
  Result : Type
  Tick : Type
  code : Call → Prog S Result
  Exec : World → (c : S.Cmd) → S.Reply c → World → Prop
  Env : World → Tick → World → Prop

/-- A started call: what was asked, the events so far, and the rest of its program. -/
structure Thread (Y : System S) : Type where
  call : Y.Call
  past : List (Event S)
  prog : Prog S Y.Result

/-- The world and every call started so far, in starting order. -/
structure Pool (Y : System S) : Type where
  world : Y.World
  threads : List (Thread Y)

variable {Y : System S}

/-- The thread has not returned. -/
def Thread.InFlight (t : Thread Y) : Prop := ¬ t.prog.Returned

/-- A move of the scheduler. -/
inductive Move (Y : System S) : Type
  | start (call : Y.Call)
  | exec (i : Nat) (e : Event S)
  | tick (t : Y.Tick)

namespace Pool

/-- Thread `i` has seen `e`, which changed the world to `world`, and goes on with `prog`. -/
def advance (s : Pool Y) (i : Nat) (t : Thread Y) (e : Event S) (world : Y.World)
    (prog : Prog S Y.Result) : Pool Y :=
  ⟨world, s.threads.set i ⟨t.call, t.past ++ [e], prog⟩⟩

/-- One move of the scheduler. -/
inductive Step : Pool Y → Move Y → Pool Y → Prop
  | start {s : Pool Y} (call : Y.Call) :
    Step s (.start call) ⟨s.world, s.threads ++ [⟨call, [], Y.code call⟩]⟩
  | exec {s : Pool Y} {i : Nat} {t : Thread Y} {c : S.Cmd} {k : S.Reply c → Prog S Y.Result}
      {r : S.Reply c} {world : Y.World} :
    s.threads[i]? = some t → t.prog = .call c k → Y.Exec s.world c r world →
    Step s (.exec i ⟨c, r⟩) (s.advance i t ⟨c, r⟩ world (k r))
  | tick {s : Pool Y} {t : Y.Tick} {world : Y.World} :
    Y.Env s.world t world → Step s (.tick t) ⟨world, s.threads⟩

/-- No call is in flight. -/
def Quiet (s : Pool Y) : Prop := ∀ t ∈ s.threads, t.prog.Returned

/-- `Reach G s₀ s`: moves that satisfy `G` lead from `s₀` to `s`. -/
def Reach (G : Pool Y → Move Y → Prop) : Pool Y → Pool Y → Prop :=
  Relation.ReflTransGen fun s s' => ∃ m, G s m ∧ Step s m s'

variable {G G' : Pool Y → Move Y → Prop} {s₀ s s' : Pool Y} {m : Move Y}

theorem Reach.step (reach : Reach G s₀ s) (guard : G s m) (step : Step s m s') : Reach G s₀ s' :=
  reach.tail ⟨m, guard, step⟩

theorem Reach.mono (reach : Reach G s₀ s) (weaken : ∀ s m, G s m → G' s m) : Reach G' s₀ s :=
  Relation.ReflTransGen.mono (fun _ _ ⟨m, guard, step⟩ => ⟨m, weaken _ m guard, step⟩) _ _ reach

/-- What holds at the start and is kept by every guarded move holds in every reachable state. -/
theorem Reach.invariant {I : Pool Y → Prop} (start : I s₀)
    (keeps : ∀ s m s', Reach G s₀ s → I s → G s m → Step s m s' → I s') (reach : Reach G s₀ s) :
    I s := by
  induction reach with
  | refl => exact start
  | tail reached edge ih =>
    obtain ⟨m, guard, step⟩ := edge
    exact keeps _ m _ reached ih guard step

/-- `Watch update G s₀ g₀ s g`: moves that satisfy `G` lead from `s₀` to `s`, and an observer who
starts with `g₀` and updates it at each move ends with `g`. -/
inductive Watch {γ : Type} (update : Pool Y → Move Y → Pool Y → γ → γ)
    (G : Pool Y → Move Y → Prop) (s₀ : Pool Y) (g₀ : γ) : Pool Y → γ → Prop
  | start : Watch update G s₀ g₀ s₀ g₀
  | move {s s' : Pool Y} {g : γ} {m : Move Y} : Watch update G s₀ g₀ s g → G s m → Step s m s' →
    Watch update G s₀ g₀ s' (update s m s' g)

section Watch

variable {γ : Type} {update : Pool Y → Move Y → Pool Y → γ → γ} {g₀ g : γ}

theorem Watch.reach (watch : Watch update G s₀ g₀ s g) : Reach G s₀ s := by
  induction watch with
  | start => exact .refl
  | move _ guard step ih => exact ih.step guard step

/-- What holds at the start and is kept by every guarded move holds whenever the observer looks. -/
theorem Watch.invariant {I : Pool Y → γ → Prop} (start : I s₀ g₀)
    (keeps : ∀ s g m s', Reach G s₀ s → I s g → G s m → Step s m s' → I s' (update s m s' g))
    (watch : Watch update G s₀ g₀ s g) : I s g := by
  induction watch with
  | start => exact start
  | move watch guard step ih => exact keeps _ _ _ _ watch.reach ih guard step

end Watch

@[simp] theorem advance_world {i : Nat} {t : Thread Y} {e : Event S} {world : Y.World}
    {prog : Prog S Y.Result} : (s.advance i t e world prog).world = world := rfl

/-- A thread after a move of thread `i` is an old thread or the moved one. -/
theorem mem_advance {i : Nat} {t t' : Thread Y} {e : Event S} {world : Y.World}
    {prog : Prog S Y.Result} (member : t' ∈ (s.advance i t e world prog).threads) :
    t' ∈ s.threads ∨ t' = ⟨t.call, t.past ++ [e], prog⟩ :=
  List.mem_or_eq_of_mem_set member

/-- The moved thread is in the pool. -/
theorem moved_mem_advance {i : Nat} {t : Thread Y} {e : Event S} {world : Y.World}
    {prog : Prog S Y.Result} (at_ : s.threads[i]? = some t) :
    ⟨t.call, t.past ++ [e], prog⟩ ∈ (s.advance i t e world prog).threads :=
  List.mem_set (List.getElem?_eq_some_iff.mp at_).1 _

/-- A thread before a move of thread `i` is that thread or stays in the pool. -/
theorem mem_of_mem_advance {i : Nat} {t t' : Thread Y} (e : Event S) (world : Y.World)
    (prog : Prog S Y.Result) (at_ : s.threads[i]? = some t) (member : t' ∈ s.threads) :
    t' = t ∨ t' ∈ (s.advance i t e world prog).threads := by
  obtain ⟨j, at'⟩ := List.mem_iff_getElem?.mp member
  by_cases same : i = j
  · subst same
    exact .inl (Option.some.inj (at'.symm.trans at_))
  · refine .inr (List.mem_iff_getElem?.mpr ⟨j, ?_⟩)
    rw [advance, List.getElem?_set_ne same]
    exact at'

/-- A fact about some thread survives a move that keeps it for the moved thread. -/
theorem exists_advance {i : Nat} {t : Thread Y} {e : Event S} {world : Y.World}
    {prog : Prog S Y.Result} {P : Thread Y → Prop} (at_ : s.threads[i]? = some t)
    (some_ : ∃ t' ∈ s.threads, P t') (keeps : P t → P ⟨t.call, t.past ++ [e], prog⟩) :
    ∃ t' ∈ (s.advance i t e world prog).threads, P t' := by
  obtain ⟨t', member, holds⟩ := some_
  rcases mem_of_mem_advance e world prog at_ member with rfl | stays
  · exact ⟨_, moved_mem_advance at_, keeps holds⟩
  · exact ⟨t', stays, holds⟩

/-- Some thread has seen the event. -/
def Seen (s : Pool Y) (e : Event S) : Prop := ∃ t ∈ s.threads, e ∈ t.past

theorem seen_start {call : Y.Call} {e : Event S} :
    Seen ⟨s.world, s.threads ++ [⟨call, [], Y.code call⟩]⟩ e ↔ s.Seen e := by
  constructor
  · intro holds
    rcases holds with ⟨t, member, seen⟩
    rcases List.mem_append.mp member with old | new
    · exact ⟨t, old, seen⟩
    · rw [List.mem_singleton.mp new] at seen
      cases seen
  · intro holds
    rcases holds with ⟨t, member, seen⟩
    exact ⟨t, List.mem_append_left _ member, seen⟩

theorem seen_advance {i : Nat} {t : Thread Y} {e e' : Event S} {world : Y.World}
    {prog : Prog S Y.Result} (at_ : s.threads[i]? = some t) :
    (s.advance i t e world prog).Seen e' ↔ s.Seen e' ∨ e' = e := by
  constructor
  · intro holds
    rcases holds with ⟨t', member, seen⟩
    rcases mem_advance member with old | rfl
    · exact .inl ⟨t', old, seen⟩
    · rcases List.mem_append.mp seen with before | last
      · exact .inl ⟨t, List.mem_of_getElem? at_, before⟩
      · exact .inr (List.mem_singleton.mp last)
  · intro either
    rcases either with old | rfl
    · exact exists_advance at_ old fun before => List.mem_append_left _ before
    · exact ⟨_, moved_mem_advance at_, List.mem_append_right _ (List.mem_singleton.mpr rfl)⟩

/-- What has been seen stays seen. -/
theorem Step.seen {e : Event S} (step : Step s m s') (seen : s.Seen e) : s'.Seen e := by
  cases step with
  | start call => exact seen_start.mpr seen
  | exec at_ _ _ => exact (seen_advance at_).mpr (.inl seen)
  | tick _ => exact seen

theorem Step.seen_exec {i : Nat} {e : Event S} (step : Step s (.exec i e) s') : s'.Seen e := by
  cases step with
  | exec at_ _ _ => exact (seen_advance at_).mpr (.inr rfl)

/-- Every thread of `s` is in `s'`, with its call and at least what it had seen. -/
def Extends (s s' : Pool Y) : Prop :=
  ∀ t ∈ s.threads, ∃ t' ∈ s'.threads, t'.call = t.call ∧ t.past ⊆ t'.past

theorem extends_start {call : Y.Call} :
    Extends s ⟨s.world, s.threads ++ [⟨call, [], Y.code call⟩]⟩ := by
  intro t member
  exact ⟨t, List.mem_append_left _ member, rfl, List.Subset.refl _⟩

theorem extends_advance {i : Nat} {t : Thread Y} {e : Event S} {world : Y.World}
    {prog : Prog S Y.Result} (at_ : s.threads[i]? = some t) :
    Extends s (s.advance i t e world prog) := by
  intro t' member
  rcases mem_of_mem_advance e world prog at_ member with rfl | stays
  · exact ⟨_, moved_mem_advance at_, rfl, List.subset_append_left ..⟩
  · exact ⟨t', stays, rfl, List.Subset.refl _⟩

theorem extends_tick {world : Y.World} : Extends s ⟨world, s.threads⟩ :=
  fun t member => ⟨t, member, rfl, List.Subset.refl _⟩

/-- A thread that has returned stays in the pool as it is. -/
theorem Step.returned {t : Thread Y} {a : Y.Result} (step : Step s m s') (member : t ∈ s.threads)
    (returned : t.prog = .done a) : t ∈ s'.threads := by
  cases step with
  | start call => exact List.mem_append_left _ member
  | exec at_ next _ =>
    rcases mem_of_mem_advance _ _ _ at_ member with rfl | stays
    · rw [returned] at next
      cases next
    · exact stays
  | tick _ => exact member

/-- The threads by position after a move of thread `i`. -/
theorem getElem?_advance {i j : Nat} {t t' : Thread Y} {e : Event S} {world : Y.World}
    {prog : Prog S Y.Result} (at_ : (s.advance i t e world prog).threads[j]? = some t') :
    (j = i ∧ t' = ⟨t.call, t.past ++ [e], prog⟩) ∨ (j ≠ i ∧ s.threads[j]? = some t') := by
  by_cases same : i = j
  · subst same
    have lt : i < s.threads.length := by
      have := (List.getElem?_eq_some_iff.mp at_).1
      rwa [advance, List.length_set] at this
    rw [advance, List.getElem?_set_self lt] at at_
    exact .inl ⟨rfl, (Option.some.inj at_).symm⟩
  · rw [advance, List.getElem?_set_ne same] at at_
    exact .inr ⟨fun eq => same eq.symm, at_⟩

/-- The threads by position after a call is started. -/
theorem getElem?_start {j : Nat} {t₀ t' : Thread Y}
    (at_ : (s.threads ++ [t₀])[j]? = some t') : s.threads[j]? = some t' ∨ t' = t₀ := by
  rw [List.getElem?_append] at at_
  split at at_
  · exact .inl at_
  · exact .inr (List.mem_singleton.mp (List.mem_of_getElem? at_))

/-- Only calls that may be started are in the pool. -/
theorem Reach.calls {P : Y.Call → Prop} (none_ : s₀.threads = [])
    (starts : ∀ s call, G s (.start call) → P call) (reach : Reach G s₀ s) :
    ∀ t ∈ s.threads, P t.call := by
  refine Reach.invariant (I := fun s => ∀ t ∈ s.threads, P t.call) ?_ ?_ reach
  · intro t member
    rw [none_] at member
    cases member
  · rintro s m s' - all guard step
    cases step with
    | start call =>
      intro t member
      rcases List.mem_append.mp member with old | new
      · exact all t old
      · rw [List.mem_singleton.mp new]
        exact starts s call guard
    | @exec i t _ _ _ _ at_ _ _ =>
      intro t' member
      rcases mem_advance member with old | rfl
      · exact all t' old
      · exact all t (List.mem_of_getElem? at_)
    | tick _ => exact all

/-- At most one thread has seen events of the kind `P`. -/
def Sole (P : Event S → Prop) (s : Pool Y) : Prop :=
  ∀ (i j : Nat) (t t' : Thread Y) (e e' : Event S), s.threads[i]? = some t →
    s.threads[j]? = some t' → e ∈ t.past → e' ∈ t'.past → P e → P e' → i = j

/-- **Once only**: an event of a kind `P` that happens only while `U` is false of the world,
and makes it true for good, is in the past of at most one thread. -/
theorem Reach.once {P : Event S → Prop} {U : Y.World → Prop} (none_ : s₀.threads = [])
    (exec : ∀ w c r w', Y.Exec w c r w' → (U w → U w') ∧ (P ⟨c, r⟩ → ¬ U w ∧ U w'))
    (env : ∀ w t w', Y.Env w t w' → U w → U w') (reach : Reach G s₀ s) :
    (∀ t ∈ s.threads, ∀ e ∈ t.past, P e → U s.world) ∧ s.Sole P := by
  refine Reach.invariant
    (I := fun s => (∀ t ∈ s.threads, ∀ e ∈ t.past, P e → U s.world) ∧ s.Sole P) ?_ ?_ reach
  · constructor
    · intro t member
      rw [none_] at member
      cases member
    · intro i j t t' e e' at_
      simp [none_] at at_
  · rintro s m s' - ⟨seen, unique⟩ - step
    cases step with
    | start call =>
      refine ⟨fun t member e inPast => ?_, fun i j t t' e e' at_ at' inPast inPast' => ?_⟩
      · rcases List.mem_append.mp member with old | new
        · exact seen t old e inPast
        · rw [List.mem_singleton.mp new] at inPast
          cases inPast
      · rcases getElem?_start at_ with old | rfl
        · rcases getElem?_start at' with old' | rfl
          · exact unique i j t t' e e' old old' inPast inPast'
          · cases inPast'
        · cases inPast
    | @exec i t c k r world at_ next exec' =>
      obtain ⟨stays, fresh⟩ := exec _ _ _ _ exec'
      have self := List.mem_of_getElem? at_
      have split : ∀ {e}, e ∈ t.past ++ [(⟨c, r⟩ : Event S)] → e ∈ t.past ∨ e = ⟨c, r⟩ := by
        intro e member
        rcases List.mem_append.mp member with old | new
        · exact .inl old
        · exact .inr (List.mem_singleton.mp new)
      have clash : ∀ {t' e}, t' ∈ s.threads → e ∈ t'.past → P e → ¬ P ⟨c, r⟩ :=
        fun member inPast is again => (fresh again).1 (seen _ member _ inPast is)
      refine ⟨fun t' member e inPast is => ?_, fun j j' t₁ t₂ e e' at₁ at₂ in₁ in₂ is is' => ?_⟩
      · rcases mem_advance member with old | rfl
        · exact stays (seen t' old e inPast is)
        · rcases split inPast with old | rfl
          · exact stays (seen t self e old is)
          · exact (fresh is).2
      · rcases getElem?_advance at₁ with ⟨rfl, rfl⟩ | ⟨_, old₁⟩ <;>
          rcases getElem?_advance at₂ with ⟨rfl, rfl⟩ | ⟨_, old₂⟩
        · rfl
        · rcases split in₁ with before | rfl
          · exact unique j j' t t₂ e e' at_ old₂ before in₂ is is'
          · exact absurd is (clash (List.mem_of_getElem? old₂) in₂ is')
        · rcases split in₂ with before | rfl
          · exact unique j j' t₁ t e e' old₁ at_ in₁ before is is'
          · exact absurd is' (clash (List.mem_of_getElem? old₁) in₁ is)
        · exact unique j j' t₁ t₂ e e' old₁ old₂ in₁ in₂ is is'
    | tick env' =>
      exact ⟨fun t member e inPast is => env _ _ _ env' (seen t member e inPast is), unique⟩

/-- A new thread adds its own value to a sum over the threads. -/
theorem sum_start {t : Thread Y} (f : Thread Y → Int) :
    ((s.threads ++ [t]).map f).sum = (s.threads.map f).sum + f t := by
  rw [List.map_append, List.sum_append, List.map_cons, List.map_nil, List.sum_cons, List.sum_nil,
    Int.add_zero]

/-- A sum over the threads changes by the change of the moved thread. -/
theorem sum_advance {i : Nat} {t : Thread Y} {e : Event S} {world : Y.World}
    {prog : Prog S Y.Result} (f : Thread Y → Int) (at_ : s.threads[i]? = some t) :
    ((s.advance i t e world prog).threads.map f).sum =
      (s.threads.map f).sum - f t + f ⟨t.call, t.past ++ [e], prog⟩ := by
  obtain ⟨lt, rfl⟩ := List.getElem?_eq_some_iff.mp at_
  have before := List.sum_take_add_sum_drop (s.threads.map f) i
  have lt' : i < (s.threads.map f).length := by rwa [List.length_map]
  rw [List.drop_eq_getElem_cons lt', List.sum_cons, List.getElem_map] at before
  rw [advance, List.map_set, List.set_eq_take_append_cons_drop, if_pos lt', List.sum_append,
    List.sum_cons, ← before]
  omega

end Pool

/-! ## What each thread has done -/

/-- What is promised of the threads of a system: `Expects` of the replies that can come,
`Allows call past c` when a thread issues `c`, and `Post` when it returns. -/
structure Contract (Y : System S) : Type where
  Expects : Event S → Prop
  Allows : Y.Call → List (Event S) → S.Cmd → Prop
  Post : Y.Call → Y.Result → List (Event S) → Prop

namespace Contract

/-- The thread will keep the contract. -/
def Follows (C : Contract Y) (t : Thread Y) : Prop :=
  t.prog.wp (histLogic C.Expects (C.Allows t.call)) (C.Post t.call) t.past

/-- Whatever the thread has seen and issued so far kept the contract. -/
def Kept (C : Contract Y) (t : Thread Y) : Prop :=
  ∀ pre e post, t.past = pre ++ e :: post → C.Allows t.call pre e.cmd ∧ C.Expects e

/-- Every execution of `call` keeps the contract. -/
def Covers (C : Contract Y) (call : Y.Call) : Prop :=
  (Y.code call).wp (histLogic C.Expects (C.Allows call)) (C.Post call) []

variable {C : Contract Y} {t : Thread Y}

theorem Follows.allows {c : S.Cmd} {k : S.Reply c → Prog S Y.Result} (follows : C.Follows t)
    (next : t.prog = .call c k) : C.Allows t.call t.past c := by
  rw [Follows, next] at follows
  exact follows.1

theorem Follows.moved {c : S.Cmd} {k : S.Reply c → Prog S Y.Result} {r : S.Reply c}
    (follows : C.Follows t) (next : t.prog = .call c k) (expected : C.Expects ⟨c, r⟩) :
    C.Follows ⟨t.call, t.past ++ [⟨c, r⟩], k r⟩ := by
  rw [Follows, next] at follows
  exact follows.2 r _ ⟨expected, rfl⟩

theorem Kept.moved {e : Event S} {prog : Prog S Y.Result} (kept : C.Kept t)
    (allowed : C.Allows t.call t.past e.cmd) (expected : C.Expects e) :
    C.Kept ⟨t.call, t.past ++ [e], prog⟩ := by
  intro pre e' post split
  rcases List.eq_nil_or_concat post with rfl | ⟨post, last, rfl⟩
  · obtain ⟨rfl, same⟩ := List.append_inj' split rfl
    cases same
    exact ⟨allowed, expected⟩
  · refine kept pre e' post ?_
    rw [List.concat_eq_append, ← List.cons_append, ← List.append_assoc] at split
    exact (List.append_inj' split rfl).1

theorem Kept.expects {e : Event S} (kept : C.Kept t) (member : e ∈ t.past) : C.Expects e := by
  obtain ⟨pre, post, split⟩ := List.append_of_mem member
  exact (kept pre e post split).2

theorem Follows.post {a : Y.Result} (follows : C.Follows t) (returned : t.prog = .done a) :
    C.Post t.call a t.past := by
  rw [Follows, returned] at follows
  exact follows

end Contract

/-- **The contract rule**: where every started call keeps the contract and `I` is kept by every
allowed command, whose replies are then expected, `I` holds in every reachable state and every
thread has kept the contract and will keep it. -/
theorem Pool.Reach.contract {G : Pool Y → Move Y → Prop} {s₀ s : Pool Y} {C : Contract Y}
    {I : Pool Y → Prop} (start : I s₀) (none_ : s₀.threads = [])
    (covers : ∀ s call, G s (.start call) → C.Covers call)
    (starts : ∀ s call, Reach G s₀ s → I s → G s (.start call) →
      I ⟨s.world, s.threads ++ [⟨call, [], Y.code call⟩]⟩)
    (execs : ∀ s i t c k r world, Reach G s₀ s → I s →
      (∀ t ∈ s.threads, C.Follows t ∧ C.Kept t) → G s (.exec i ⟨c, r⟩) →
      s.threads[i]? = some t → t.prog = .call c k →
      C.Allows t.call t.past c → Y.Exec s.world c r world →
      C.Expects ⟨c, r⟩ ∧ I (s.advance i t ⟨c, r⟩ world (k r)))
    (ticks : ∀ s t world, Reach G s₀ s → I s → G s (.tick t) → Y.Env s.world t world →
      I ⟨world, s.threads⟩)
    (reach : Reach G s₀ s) : I s ∧ ∀ t ∈ s.threads, C.Follows t ∧ C.Kept t := by
  refine Reach.invariant (I := fun s => I s ∧ ∀ t ∈ s.threads, C.Follows t ∧ C.Kept t)
    ⟨start, ?_⟩ ?_ reach
  · intro t member
    rw [none_] at member
    cases member
  · intro s m s' reached holds guard step
    rcases holds with ⟨inv, follows⟩
    cases step with
    | start call =>
      refine ⟨starts s call reached inv guard, fun t member => ?_⟩
      rcases List.mem_append.mp member with old | new
      · exact follows t old
      · rw [List.mem_singleton.mp new]
        exact ⟨covers s call guard, fun pre e post split => by simp at split⟩
    | @exec i t c k r world at_ next exec =>
      obtain ⟨self, kept⟩ := follows t (List.mem_of_getElem? at_)
      obtain ⟨expected, inv'⟩ :=
        execs s i t c k r world reached inv follows guard at_ next (self.allows next) exec
      refine ⟨inv', fun t' member => ?_⟩
      rcases mem_advance member with old | rfl
      · exact follows t' old
      · exact ⟨self.moved next expected, kept.moved (self.allows next) expected⟩
    | tick env => exact ⟨ticks s _ _ reached inv guard env, follows⟩

/-! ## Calls made one at a time -/

/-- `Hist G w calls w'`: the calls are made one at a time from `w`, each run to its end with the
result shown, the environment moving in between.  `G` bounds which calls and moves are made in
which world. -/
inductive Hist (G : Y.World → Y.Call ⊕ Y.Tick → Prop) :
    Y.World → List (Y.Call × Y.Result) → Y.World → Prop
  | nil {w : Y.World} : Hist G w [] w
  | call {w w' w'' : Y.World} {calls : List (Y.Call × Y.Result)} {call : Y.Call} {a : Y.Result} :
    Hist G w calls w' → G w' (.inl call) → (Y.code call).Runs Y.Exec w' a w'' →
    Hist G w (calls ++ [(call, a)]) w''
  | tick {w w' w'' : Y.World} {calls : List (Y.Call × Y.Result)} {t : Y.Tick} :
    Hist G w calls w' → G w' (.inr t) → Y.Env w' t w'' → Hist G w calls w''

/-- What holds at the start and is kept by every call and every move of the environment holds after
every history. -/
theorem Hist.invariant {G : Y.World → Y.Call ⊕ Y.Tick → Prop} {w w' : Y.World}
    {calls : List (Y.Call × Y.Result)} {I : List (Y.Call × Y.Result) → Y.World → Prop}
    (start : I [] w)
    (runs : ∀ calls w' call a w'', Hist G w calls w' → I calls w' → G w' (.inl call) →
      (Y.code call).Runs Y.Exec w' a w'' → I (calls ++ [(call, a)]) w'')
    (ticks : ∀ calls w' t w'', Hist G w calls w' → I calls w' → G w' (.inr t) →
      Y.Env w' t w'' → I calls w'')
    (hist : Hist G w calls w') : I calls w' := by
  induction hist with
  | nil => exact start
  | call before guard run ih => exact runs _ _ _ _ _ before ih guard run
  | tick before guard env ih => exact ticks _ _ _ _ before ih guard env

end DirectLink
