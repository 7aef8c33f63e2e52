import DirectLink.Signaling.Shutdown

/-!
# The process and its goroutines

`run` of `cmd/signaling/main.go`, `ListenAndServe` and `shutdown` of the server, and the loops `Run`
and `WatchStore` of the janitor, each as the place where its goroutine is.  The requests, sweeps and
pings are the calls of a pool; a goroutine starts one and goes on when it has returned.  A ticker
may fire at any moment, and a `select` takes any case that is ready.

* `Daemon.goroutines_lawful`: what the pool does is a run of the process of `Shutdown`.
* `Daemon.sweeps_on_recovery`: the sweeps that are not `Run`'s are one for each recovery of Redis.
* `Daemon.exits_clean`: a process that exits with 0 leaves no call behind.
-/

namespace DirectLink

namespace Daemon

/-! ### The goroutines -/

/-- Where `run` is, from the moment it has started the janitor. -/
inductive Main : Type
  | listening
  | serving
  /-- In `shutdown`, as far as the phase of the process says. -/
  | shuttingDown
  /-- At `wg.Wait`. -/
  | waiting
  | closingLockClient
  | exited (code : Nat)
  deriving DecidableEq

/-- Where `Run` is.  The call it waits for is a thread of the pool. -/
inductive Ticking : Type
  | starting
  | sweeping (i : Nat)
  | selecting
  | returned
  deriving DecidableEq

/-- Where `WatchStore` is. -/
inductive Watching : Type
  | selecting (wasHealthy : Bool)
  | pinging (wasHealthy : Bool) (i : Nat)
  | sweeping (i : Nat)
  | returned
  deriving DecidableEq

/-- The call that `Run` waits for. -/
def Ticking.call? : Ticking → Option Nat
  | .sweeping i => some i
  | .starting | .selecting | .returned => none

/-- The call that `WatchStore` waits for. -/
def Watching.call? : Watching → Option Nat
  | .pinging _ i | .sweeping i => some i
  | .selecting _ | .returned => none

/-- The goroutines beside the calls.  `ticks` counts the sweeps of `Run` and `heard` lists the
pings of `WatchStore`, true for those that succeeded. -/
structure Control : Type where
  main : Main
  run : Ticking
  watch : Watching
  ready : Bool
  lockClientOpen : Bool
  ticks : Nat
  heard : List Bool

/-- `run` has started the goroutines of the janitor. -/
def Control.start : Control := ⟨.listening, .starting, .selecting true, false, true, 0, []⟩

end Daemon

/-- The process: its calls and its goroutines. -/
structure Daemon (b : Backend) (faults : Cmd → Err → Prop) : Type where
  pool : Pool (b.process faults)
  control : Daemon.Control

namespace Daemon

variable {b : Backend} {faults : Cmd → Err → Prop}

/-- The gRPC server takes requests: `Serve` runs and `GracefulStop` has not been called. -/
def Serves (main : Main) (phase : Phase) : Prop :=
  (main = .serving ∨ main = .shuttingDown) ∧ phase.accepts = true

/-- The call has returned. -/
def Over (s : Pool (b.process faults)) (i : Nat) : Prop :=
  ∃ t, s.threads[i]? = some t ∧ t.prog.Returned

/-- The ping has returned, with an error or not. -/
def Pinged (s : Pool (b.process faults)) (i : Nat) (healthy : Bool) : Prop :=
  ∃ t r, s.threads[i]? = some t ∧ t.prog = .done (.unit r) ∧ healthy = r.isOk

/-- What one of the goroutines, a client or a call in flight does, with its move of the pool. -/
inductive Turns (instanceID : String) (s : Pool (b.process faults)) (c : Control) :
    Option (Move (b.process faults)) → Control → Prop
  | exec (i : Nat) (e : Event backend) : Turns instanceID s c (some (.exec i e)) c
  | time (t : Nat) : Turns instanceID s c (some (.tick (.time t))) c
  | request (call : Call) (janitor : call.ofJanitor = false) (store : call.isStore = false)
      (serves : Serves c.main s.world.phase) : Turns instanceID s c (some (.start call)) c
  | signal : Turns instanceID s c (some (.tick .cancel)) c
  -- `Run`: at once, then on every tick
  | tick (free : c.run = .starting ∨ c.run = .selecting) :
      Turns instanceID s c (some (.start (.sweepAt instanceID s.world.world.now)))
        { c with run := .sweeping s.threads.length, ticks := c.ticks + 1 }
  | swept {i : Nat} (at_ : c.run = .sweeping i) (ended : Over s i) :
      Turns instanceID s c none { c with run := .selecting }
  | runLeaves (at_ : c.run = .selecting) (cancelled : s.world.phase ≠ .serving) :
      Turns instanceID s c none { c with run := .returned }
  -- `WatchStore`
  | ping {wasHealthy : Bool} (at_ : c.watch = .selecting wasHealthy) :
      Turns instanceID s c (some (.start (.store .ping)))
        { c with watch := .pinging wasHealthy s.threads.length }
  | recovered {i : Nat} (at_ : c.watch = .pinging false i) (pinged : Pinged s i true) :
      Turns instanceID s c (some (.start (.sweepAt instanceID s.world.world.now)))
        { c with watch := .sweeping s.threads.length, heard := c.heard ++ [true] }
  | pinged {wasHealthy healthy : Bool} {i : Nat} (at_ : c.watch = .pinging wasHealthy i)
      (pinged : Pinged s i healthy) (steady : (!wasHealthy && healthy) = false) :
      Turns instanceID s c none
        { c with watch := .selecting healthy, heard := c.heard ++ [healthy] }
  | reconciled {i : Nat} (at_ : c.watch = .sweeping i) (ended : Over s i) :
      Turns instanceID s c none { c with watch := .selecting true }
  | watchLeaves {wasHealthy : Bool} (at_ : c.watch = .selecting wasHealthy)
      (cancelled : s.world.phase ≠ .serving) :
      Turns instanceID s c none { c with watch := .returned }
  -- `ListenAndServe`
  | listens (at_ : c.main = .listening) :
      Turns instanceID s c none { c with main := .serving, ready := true }
  | listenFails (at_ : c.main = .listening) :
      Turns instanceID s c none { c with main := .exited 1 }
  | serveFails (at_ : c.main = .serving) : Turns instanceID s c none { c with main := .exited 1 }
  -- `shutdown`
  | shutsDown (at_ : c.main = .serving) (cancelled : s.world.phase ≠ .serving) :
      Turns instanceID s c none { c with main := .shuttingDown, ready := false }
  | closesStore (at_ : c.main = .shuttingDown) :
      Turns instanceID s c (some (.tick .closeStore)) c
  | stops (at_ : c.main = .shuttingDown) : Turns instanceID s c (some (.tick .gracefulStop)) c
  | stopped (at_ : c.main = .shuttingDown)
      (done : ∀ t ∈ s.threads, t.call.ofJanitor = false → t.prog.Returned) :
      Turns instanceID s c (some (.tick .handlersDone)) c
  | httpStopped (at_ : c.main = .shuttingDown) (phase : s.world.phase = .stopped) :
      Turns instanceID s c none { c with main := .waiting }
  | httpTimesOut (at_ : c.main = .shuttingDown) (phase : s.world.phase = .stopped) :
      Turns instanceID s c none { c with main := .exited 1 }
  -- `run`: the janitor's client is closed when both its goroutines have returned
  | joins (at_ : c.main = .waiting) (run : c.run = .returned) (watch : c.watch = .returned) :
      Turns instanceID s c (some (.tick .janitorLeaves)) { c with main := .closingLockClient }
  | closesLockClient (at_ : c.main = .closingLockClient) :
      Turns instanceID s c none { c with main := .exited 0, lockClientOpen := false }

/-- One step of a process that has not exited. -/
inductive Step (instanceID : String) : Daemon b faults → Daemon b faults → Prop
  | alone {s : Pool (b.process faults)} {c c' : Control} (runs : ∀ code, c.main ≠ .exited code) :
    Turns instanceID s c none c' → Step instanceID ⟨s, c⟩ ⟨s, c'⟩
  | together {s s' : Pool (b.process faults)} {m : Move (b.process faults)} {c c' : Control}
      (runs : ∀ code, c.main ≠ .exited code) :
    Turns instanceID s c (some m) c' → Pool.Step s m s' → Step instanceID ⟨s, c⟩ ⟨s', c'⟩

/-- `Reach instanceID w d`: the process started in the world `w` comes to `d`. -/
def Reach (instanceID : String) (w : World) : Daemon b faults → Prop :=
  Relation.ReflTransGen (Step instanceID) ⟨b.serving faults w, .start⟩

/-! ### Which calls the goroutines wait for -/

/-- A call of the janitor that is in flight. -/
def Pending (s : Pool (b.process faults)) (i : Nat) : Prop :=
  ∃ t, s.threads[i]? = some t ∧ t.call.ofJanitor = true ∧ ¬ t.prog.Returned

/-- A call of the janitor in flight is the one that one of its goroutines waits for, and as long as
they run the process says so. -/
structure Attended (s : Pool (b.process faults)) (c : Control) : Prop where
  calls : ∀ i, Pending s i → c.run.call? = some i ∨ c.watch.call? = some i
  joined : s.world.janitorRuns = false → c.run = .returned ∧ c.watch = .returned

theorem Over.not_pending {s : Pool (b.process faults)} {i : Nat} (ended : Over s i) :
    ¬ Pending s i := by
  intro holds
  rcases holds with ⟨t, at_, _, inFlight⟩
  obtain ⟨t', at', returned⟩ := ended
  rw [at_] at at'
  cases at'
  exact inFlight returned

theorem Pinged.ended {s : Pool (b.process faults)} {i : Nat} {healthy : Bool}
    (pinged : Pinged s i healthy) : Over s i := by
  obtain ⟨t, r, at_, done, _⟩ := pinged
  refine ⟨t, at_, ?_⟩
  rw [done]
  trivial

/-- A call that begins is pending when it is the janitor's; the others are as before. -/
theorem Pending.of_start {s : Pool (b.process faults)} {call : Call} {i : Nat}
    (pending : Pending ⟨s.world, s.threads ++ [⟨call, [], b.code call⟩]⟩ i) :
    Pending s i ∨ i = s.threads.length ∧ call.ofJanitor = true := by
  obtain ⟨t, at_, janitor, inFlight⟩ := pending
  rcases Nat.lt_or_ge i s.threads.length with lt | ge
  · rw [List.getElem?_append_left lt] at at_
    exact .inl ⟨t, at_, janitor, inFlight⟩
  · rw [List.getElem?_append_right ge, List.getElem?_singleton] at at_
    split at at_
    · next last =>
      cases at_
      exact .inr ⟨by omega, janitor⟩
    · cases at_

/-- A move of a thread leaves the pending calls pending or returns one. -/
theorem Pending.of_advance {s : Pool (b.process faults)} {i j : Nat}
    {t : Thread (b.process faults)} {e : Event backend} {world : Process} {prog : Go Result}
    (at_ : s.threads[i]? = some t) (inFlight : ¬ t.prog.Returned)
    (pending : Pending (s.advance i t e world prog) j) : Pending s j := by
  obtain ⟨t', at', janitor, inFlight'⟩ := pending
  rw [Pool.advance, List.getElem?_set] at at'
  split at at'
  · next same =>
    split at at'
    · cases at'
      exact ⟨t, same ▸ at_, janitor, inFlight⟩
    · cases at'
  · exact ⟨t', at', janitor, inFlight'⟩

namespace Attended

variable {s s' : Pool (b.process faults)} {c c' : Control} {instanceID : String}

/-- A goroutine that does something alone does not lose sight of a call. -/
theorem alone (attended : Attended s c) (turns : Turns instanceID s c none c') :
    Attended s c' := by
  have lose : ∀ i, Over s i → ∀ j, Pending s j → j ≠ i := by
    intro i ended j pending same
    subst same
    exact ended.not_pending pending
  cases turns with
  | @swept i at_ ended =>
    refine ⟨fun j pending => .inr ?_, fun left => ?_⟩
    · rcases attended.calls j pending with own | other
      · rw [at_] at own
        exact absurd (Option.some.inj own).symm (lose i ended j pending)
      · exact other
    · have returned := (attended.joined left).1
      rw [at_] at returned
      cases returned
  | runLeaves at_ cancelled =>
    refine ⟨fun j pending => .inr ?_, fun left => ⟨rfl, (attended.joined left).2⟩⟩
    rcases attended.calls j pending with own | other
    · rw [at_] at own
      cases own
    · exact other
  | @pinged wasHealthy healthy i at_ pinged steady =>
    refine ⟨fun j pending => .inl ?_, fun left => ?_⟩
    · rcases attended.calls j pending with other | own
      · exact other
      · rw [at_] at own
        exact absurd (Option.some.inj own).symm (lose i pinged.ended j pending)
    · have returned := (attended.joined left).2
      rw [at_] at returned
      cases returned
  | @reconciled i at_ ended =>
    refine ⟨fun j pending => .inl ?_, fun left => ?_⟩
    · rcases attended.calls j pending with other | own
      · exact other
      · rw [at_] at own
        exact absurd (Option.some.inj own).symm (lose i ended j pending)
    · have returned := (attended.joined left).2
      rw [at_] at returned
      cases returned
  | watchLeaves at_ cancelled =>
    refine ⟨fun j pending => .inl ?_, fun left => ⟨(attended.joined left).1, rfl⟩⟩
    rcases attended.calls j pending with other | own
    · exact other
    · rw [at_] at own
      cases own
  | listens | listenFails | serveFails | shutsDown | httpStopped | httpTimesOut
  | closesLockClient => exact ⟨attended.calls, attended.joined⟩

/-- A turn of the shutdown or of time concerns no call; the janitor leaves when both goroutines
have returned. -/
theorem turn {turn : Turn} {world : Process} (attended : Attended s c)
    (turns : Turns instanceID s c (some (.tick turn)) c') (env : Process.Env s.world turn world) :
    Attended ⟨world, s.threads⟩ c' := by
  cases turns with
  | joins at_ run watch => exact ⟨attended.calls, fun _ => ⟨run, watch⟩⟩
  | time | signal | closesStore | stops | stopped =>
    obtain ⟨_, rfl⟩ := env
    exact ⟨attended.calls, attended.joined⟩

/-- The call that begins is attended. -/
theorem start {call : Call} (attended : Attended s c)
    (turns : Turns instanceID s c (some (.start call)) c') :
    Attended ⟨s.world, s.threads ++ [⟨call, [], b.code call⟩]⟩ c' := by
  cases turns with
  | request call janitor store serves =>
    refine ⟨fun i pending => ?_, attended.joined⟩
    rcases pending.of_start with old | ⟨_, impossible⟩
    · exact attended.calls i old
    · rw [janitor] at impossible
      cases impossible
  | tick free =>
    refine ⟨fun i pending => ?_, fun left => ?_⟩
    · rcases pending.of_start with old | ⟨rfl, _⟩
      · rcases attended.calls i old with own | other
        · rcases free with at_ | at_ <;> rw [at_] at own <;> cases own
        · exact .inr other
      · exact .inl rfl
    · have returned := (attended.joined left).1
      rcases free with at_ | at_ <;> rw [at_] at returned <;> cases returned
  | ping at_ =>
    refine ⟨fun i pending => ?_, fun left => ?_⟩
    · rcases pending.of_start with old | ⟨rfl, _⟩
      · rcases attended.calls i old with other | own
        · exact .inl other
        · rw [at_] at own
          cases own
      · exact .inr rfl
    · have returned := (attended.joined left).2
      rw [at_] at returned
      cases returned
  | @recovered i at_ pinged =>
    refine ⟨fun j pending => ?_, fun left => ?_⟩
    · rcases pending.of_start with old | ⟨rfl, _⟩
      · rcases attended.calls j old with other | own
        · exact .inl other
        · rw [at_] at own
          cases own
          exact absurd old pinged.ended.not_pending
      · exact .inr rfl
    · have returned := (attended.joined left).2
      rw [at_] at returned
      cases returned

theorem together {m : Move (b.process faults)} (attended : Attended s c)
    (turns : Turns instanceID s c (some m) c') (step : Pool.Step s m s') : Attended s' c' := by
  cases step with
  | start call => exact attended.start turns
  | tick env => exact attended.turn turns env
  | @exec i t command k r world at_ next exec =>
    cases turns
    have runs : world.janitorRuns = s.world.janitorRuns := by
      obtain ⟨_, w, _, rfl⟩ | ⟨_, _, rfl⟩ := exec <;> rfl
    refine ⟨fun j pending => attended.calls j (pending.of_advance at_ ?_), fun left => ?_⟩
    · rw [next]
      exact id
    · rw [Pool.advance_world, runs] at left
      exact attended.joined left

end Attended

/-! ### A run of the process -/

section Runs

variable {instanceID : String} {w : World} {d : Daemon b faults}

/-- What is kept by the turns of the goroutines holds of every state of the process. -/
theorem Reach.invariant {I : Pool (b.process faults) → Control → Prop}
    (start : I (b.serving faults w) .start)
    (alone : ∀ s c c', I s c → Turns instanceID s c none c' → I s c')
    (together : ∀ s m s' c c', I s c → Turns instanceID s c (some m) c' → Pool.Step s m s' →
      I s' c') (reach : Reach instanceID w d) : I d.pool d.control := by
  induction reach with
  | refl => exact start
  | tail _ step ih =>
    cases step with
    | alone _ turns => exact alone _ _ _ ih turns
    | together _ turns step => exact together _ _ _ _ _ ih turns step

theorem attended_start (w : World) : Attended (b.serving faults w) .start := by
  refine ⟨fun i pending => ?_, fun left => by cases left⟩
  obtain ⟨t, at_, _⟩ := pending
  cases at_

theorem Reach.attended (reach : Reach instanceID w d) : Attended d.pool d.control :=
  reach.invariant (attended_start w) (fun _ _ _ => Attended.alone)
    fun _ _ _ _ _ => Attended.together

/-- What the goroutines do with the pool is lawful. -/
theorem Attended.lawful {s : Pool (b.process faults)} {c c' : Control}
    {m : Move (b.process faults)} (attended : Attended s c)
    (turns : Turns instanceID s c (some m) c') : Lawful s m := by
  have runs : c.run ≠ .returned ∨ c.watch ≠ .returned → s.world.janitorRuns = true := by
    intro some_
    cases left : s.world.janitorRuns with
    | true => rfl
    | false =>
      obtain ⟨run, watch⟩ := attended.joined left
      rcases some_ with other | other
      · exact absurd run other
      · exact absurd watch other
  cases turns with
  | exec | time | signal | closesStore | stops => trivial
  | stopped at_ done => exact done
  | request call janitor store serves =>
    rw [Lawful, janitor]
    exact ⟨store, serves.2⟩
  | tick free =>
    refine runs (.inl ?_)
    rcases free with at_ | at_ <;> rw [at_] <;> simp
  | ping at_ =>
    refine runs (.inr ?_)
    rw [at_]
    simp
  | recovered at_ pinged =>
    refine runs (.inr ?_)
    rw [at_]
    simp
  | joins at_ run watch =>
    intro t member janitor
    by_contra inFlight
    obtain ⟨i, at'⟩ := List.mem_iff_getElem?.mp member
    rcases attended.calls i ⟨t, at', janitor, inFlight⟩ with own | own
    · rw [run] at own
      cases own
    · rw [watch] at own
      cases own

/-- **The goroutines make lawful moves**: whatever `run`, `ListenAndServe`, the two loops of the
janitor and the clients do, in any order, the calls of the process are a run of the process that
`Lawful` describes. -/
theorem goroutines_lawful (reach : Reach instanceID w d) :
    Pool.Reach Lawful (b.serving faults w) d.pool := by
  have holds : Attended d.pool d.control ∧ Pool.Reach Lawful (b.serving faults w) d.pool := by
    refine reach.invariant (I := fun s c => Attended s c ∧
      Pool.Reach Lawful (b.serving faults w) s) ⟨attended_start w, .refl⟩ ?_ ?_
    · intro s c c' post turns
      rcases post with ⟨attended, run⟩
      exact ⟨attended.alone turns, run⟩
    · intro s m s' c c' post turns step
      rcases post with ⟨attended, run⟩
      exact ⟨attended.together turns step, run.step (attended.lawful turns) step⟩
  exact holds.2

/-! ### Sweeps -/

/-- The call is a sweep. -/
def isSweep (t : Thread (b.process faults)) : Bool :=
  match t.call with
  | .sweepAt _ _ => true
  | _ => false

/-- How often Redis came back: a ping that succeeded after one that failed. -/
def recoveries : Bool → List Bool → Nat
  | _, [] => 0
  | wasHealthy, healthy :: heard =>
    (if !wasHealthy && healthy then 1 else 0) + recoveries healthy heard

/-- What `WatchStore` was told last. -/
def lastHeard (heard : List Bool) : Bool := heard.getLastD true

theorem recoveries_append (wasHealthy healthy : Bool) (heard : List Bool) :
    recoveries wasHealthy (heard ++ [healthy]) = recoveries wasHealthy heard +
      if !heard.getLastD wasHealthy && healthy then 1 else 0 := by
  induction heard generalizing wasHealthy with
  | nil => simp [recoveries]
  | cons other heard ih =>
    rw [List.cons_append, recoveries, recoveries, ih, Nat.add_assoc, List.getLastD_cons]

/-- The sweeps so far are those of `Run` and one for each recovery, and `WatchStore` remembers the
last ping. -/
structure Reconciled (s : Pool (b.process faults)) (c : Control) : Prop where
  sweeps : s.threads.countP isSweep = c.ticks + recoveries true c.heard
  remembers : match c.watch with
    | .selecting wasHealthy | .pinging wasHealthy _ => wasHealthy = lastHeard c.heard
    | .sweeping _ => lastHeard c.heard = true
    | .returned => True

/-- A move of a thread changes no call. -/
theorem countP_advance {s : Pool (b.process faults)} {i : Nat} {t : Thread (b.process faults)}
    {e : Event backend} {world : Process} {prog : Go Result} (at_ : s.threads[i]? = some t) :
    (s.advance i t e world prog).threads.countP isSweep = s.threads.countP isSweep := by
  obtain ⟨lt, rfl⟩ := List.getElem?_eq_some_iff.mp at_
  rw [Pool.advance, List.countP_set lt]
  have positive : isSweep s.threads[i] = true → 0 < s.threads.countP isSweep := fun sweep =>
    List.countP_pos_iff.mpr ⟨_, List.getElem_mem lt, sweep⟩
  cases sweep : isSweep s.threads[i] with
  | true =>
    have := positive sweep
    simp only [isSweep] at sweep ⊢
    simp only [sweep, if_true]
    omega
  | false =>
    simp only [isSweep] at sweep ⊢
    simp [sweep]

theorem countP_start {s : Pool (b.process faults)} {call : Call} :
    List.countP isSweep (s.threads ++ [(⟨call, [], b.code call⟩ : Thread (b.process faults))]) =
      s.threads.countP isSweep +
        if isSweep (⟨call, [], b.code call⟩ : Thread (b.process faults)) then 1 else 0 := by
  rw [List.countP_append, List.countP_singleton]

theorem Reconciled.alone {s : Pool (b.process faults)} {c c' : Control}
    (reconciled : Reconciled s c) (turns : Turns instanceID s c none c') : Reconciled s c' := by
  have remembers := reconciled.remembers
  cases turns with
  | @pinged wasHealthy healthy i at_ pinged steady =>
    rw [at_] at remembers
    refine ⟨?_, ?_⟩
    · have more := recoveries_append true healthy c.heard
      have last : c.heard.getLastD true = wasHealthy := remembers.symm
      rw [last, steady] at more
      exact reconciled.sweeps.trans (congrArg (c.ticks + ·) more.symm)
    · exact (List.getLastD_concat ..).symm
  | @reconciled i at_ ended =>
    rw [at_] at remembers
    exact ⟨reconciled.sweeps, remembers.symm⟩
  | watchLeaves => exact ⟨reconciled.sweeps, trivial⟩
  | swept | runLeaves | listens | listenFails | serveFails | shutsDown | httpStopped
  | httpTimesOut | closesLockClient => exact ⟨reconciled.sweeps, remembers⟩

theorem Reconciled.start {s : Pool (b.process faults)} {c c' : Control} {call : Call}
    (reconciled : Reconciled s c) (turns : Turns instanceID s c (some (.start call)) c') :
    Reconciled ⟨s.world, s.threads ++ [⟨call, [], b.code call⟩]⟩ c' := by
  have remembers := reconciled.remembers
  have sweeps := reconciled.sweeps
  cases turns with
  | request call janitor store serves =>
    refine ⟨?_, remembers⟩
    rw [countP_start, sweeps]
    cases call <;> first | rfl | cases janitor
  | tick free =>
    refine ⟨?_, remembers⟩
    rw [countP_start, sweeps]
    exact Nat.add_right_comm ..
  | ping at_ =>
    rw [at_] at remembers
    refine ⟨?_, remembers⟩
    rw [countP_start, sweeps]
    rfl
  | @recovered i at_ pinged =>
    rw [at_] at remembers
    refine ⟨?_, List.getLastD_concat ..⟩
    have more := recoveries_append true true c.heard
    have last : c.heard.getLastD true = false := remembers.symm
    rw [last] at more
    rw [countP_start, sweeps]
    exact (Nat.add_assoc ..).trans (congrArg (c.ticks + ·) more.symm)

theorem Reconciled.together {s s' : Pool (b.process faults)} {c c' : Control}
    {m : Move (b.process faults)} (reconciled : Reconciled s c)
    (turns : Turns instanceID s c (some m) c') (step : Pool.Step s m s') : Reconciled s' c' := by
  cases step with
  | start call => exact reconciled.start turns
  | exec at_ next exec =>
    cases turns
    exact ⟨(countP_advance at_).trans reconciled.sweeps, reconciled.remembers⟩
  | tick env =>
    cases turns <;> exact ⟨reconciled.sweeps, reconciled.remembers⟩

/-- What a ping that has returned was told. -/
def answer? (t : Thread (b.process faults)) : Option Bool :=
  if t.call = .store .ping then
    match t.prog with
    | .done (.unit r) => some r.isOk
    | _ => none
  else none

/-- What the pings that have returned were told, in the order in which they were made. -/
def told (s : Pool (b.process faults)) : List Bool := s.threads.filterMap answer?

theorem answer?_of_ne {t : Thread (b.process faults)} (other : t.call ≠ .store .ping) :
    answer? t = none :=
  if_neg other

theorem answer?_of_inFlight {t : Thread (b.process faults)} (inFlight : ¬ t.prog.Returned) :
    answer? t = none := by
  rw [answer?]
  split
  · split
    · next done =>
      rw [done] at inFlight
      exact absurd trivial inFlight
    · rfl
  · rfl

/-- A list with one more answer, where none stood before and none stands behind. -/
theorem filterMap_set {α β : Type} {f : α → Option β} {l : List α} {i : Nat} {old new : α}
    (at_ : l[i]? = some old) (before : f old = none)
    (behind : f new ≠ none → ∀ j a, i < j → l[j]? = some a → f a = none) :
    (l.set i new).filterMap f = l.filterMap f ++ (f new).toList := by
  obtain ⟨lt, rfl⟩ := List.getElem?_eq_some_iff.mp at_
  have whole : l = l.take i ++ l[i] :: l.drop (i + 1) := by
    rw [List.getElem_cons_drop, List.take_append_drop]
  have parts : l.filterMap f = (l.take i).filterMap f ++ (l.drop (i + 1)).filterMap f := by
    conv_lhs => rw [whole]
    rw [List.filterMap_append, List.filterMap_cons_none before]
  rw [List.set_eq_take_append_cons_drop, if_pos lt, List.filterMap_append, parts]
  cases value : f new with
  | none => rw [List.filterMap_cons_none value, Option.toList_none, List.append_nil]
  | some b =>
    have rest : (l.drop (i + 1)).filterMap f = [] := by
      refine List.filterMap_eq_nil_iff.mpr fun a member => ?_
      obtain ⟨n, at'⟩ := List.mem_iff_getElem?.mp member
      rw [List.getElem?_drop] at at'
      exact behind (by rw [value]; simp) _ a (by omega) at'
    rw [List.filterMap_cons_some value, rest, List.append_nil, Option.toList_some]

theorem told_advance {s : Pool (b.process faults)} {i : Nat} {t : Thread (b.process faults)}
    (e : Event backend) (world : Process) (prog : Go Result) (at_ : s.threads[i]? = some t)
    (inFlight : ¬ t.prog.Returned) (last : t.call = .store .ping →
      ∀ j t', i < j → s.threads[j]? = some t' → t'.call ≠ .store .ping) :
    told (s.advance i t e world prog) =
      told s ++ (answer? (⟨t.call, t.past ++ [e], prog⟩ : Thread (b.process faults))).toList := by
  refine filterMap_set at_ (answer?_of_inFlight inFlight) ?_
  intro answered j t' behind at'
  refine answer?_of_ne (last ?_ j t' behind at')
  by_contra other
  exact answered (answer?_of_ne other)

theorem told_start {s : Pool (b.process faults)} {call : Call} :
    told ⟨s.world, s.threads ++ [⟨call, [], b.code call⟩]⟩ = told s := by
  have unanswered : answer? (⟨call, [], b.code call⟩ : Thread (b.process faults)) = none := by
    by_cases ping : call = .store .ping
    · subst ping
      exact answer?_of_inFlight id
    · exact answer?_of_ne ping
  rw [told, List.filterMap_append, List.filterMap_cons_none unanswered]
  exact List.append_nil _

/-- The call is not a ping. -/
def NoPing (s : Pool (b.process faults)) (i : Nat) : Prop :=
  ∃ t, s.threads[i]? = some t ∧ t.call ≠ .store .ping

/-- The call is a ping, and none is behind it. -/
structure LastPing (s : Pool (b.process faults)) (i : Nat) : Prop where
  ping : ∃ t, s.threads[i]? = some t ∧ t.call = .store .ping
  behind : ∀ j t, i < j → s.threads[j]? = some t → t.call ≠ .store .ping

/-- `WatchStore` waits for the last ping and has heard all others. -/
structure Listens (s : Pool (b.process faults)) (c : Control) : Prop where
  run : ∀ i, c.run = .sweeping i → NoPing s i
  watch : match c.watch with
    | .pinging _ i => LastPing s i ∧ (Pending s i → told s = c.heard) ∧
        ∀ healthy, Pinged s i healthy → told s = c.heard ++ [healthy]
    | .sweeping i => NoPing s i ∧ told s = c.heard
    | .selecting _ | .returned => told s = c.heard

section Started

variable {s : Pool (b.process faults)} {call : Call} {i : Nat}

theorem at_start {t : Thread (b.process faults)} (at_ : s.threads[i]? = some t) :
    (s.threads ++ [⟨call, [], b.code call⟩])[i]? = some t := by
  rw [List.getElem?_append_left (List.getElem?_eq_some_iff.mp at_).1]
  exact at_

theorem NoPing.start (noPing : NoPing s i) :
    NoPing ⟨s.world, s.threads ++ [⟨call, [], b.code call⟩]⟩ i := by
  obtain ⟨t, at_, other⟩ := noPing
  exact ⟨t, at_start at_, other⟩

theorem noPing_started (other : call ≠ .store .ping) :
    NoPing (⟨s.world, s.threads ++ [⟨call, [], b.code call⟩]⟩ : Pool (b.process faults))
      s.threads.length :=
  ⟨⟨call, [], b.code call⟩, List.getElem?_concat_length, other⟩

theorem LastPing.start (last : LastPing s i) (other : call ≠ .store .ping) :
    LastPing ⟨s.world, s.threads ++ [⟨call, [], b.code call⟩]⟩ i := by
  obtain ⟨⟨t, at_, ping⟩, behind⟩ := last
  refine ⟨⟨t, at_start at_, ping⟩, fun j t' lt at' => ?_⟩
  rcases Nat.lt_or_ge j s.threads.length with inside | outside
  · rw [List.getElem?_append_left inside] at at'
    exact behind j t' lt at'
  · rw [List.getElem?_append_right outside, List.getElem?_singleton] at at'
    split at at'
    · cases at'
      exact other
    · cases at'

/-- What is known of a call before stays known. -/
theorem of_start {t t' : Thread (b.process faults)} (at_ : s.threads[i]? = some t)
    (at' : (s.threads ++ [⟨call, [], b.code call⟩])[i]? = some t') : t' = t := by
  rw [at_start at_] at at'
  exact (Option.some.inj at').symm

end Started

namespace Listens

variable {s s' : Pool (b.process faults)} {c c' : Control}

theorem alone (listens : Listens s c) (turns : Turns instanceID s c none c') : Listens s c' := by
  have watch := listens.watch
  cases turns with
  | @pinged wasHealthy healthy i at_ pinged steady =>
    rw [at_] at watch
    exact ⟨listens.run, watch.2.2 healthy pinged⟩
  | reconciled at_ ended =>
    rw [at_] at watch
    exact ⟨listens.run, watch.2⟩
  | watchLeaves at_ cancelled =>
    rw [at_] at watch
    exact ⟨listens.run, watch⟩
  | swept | runLeaves =>
    refine ⟨?_, watch⟩
    intro i impossible
    cases impossible
  | listens | listenFails | serveFails | shutsDown | httpStopped | httpTimesOut
  | closesLockClient => exact ⟨listens.run, watch⟩

/-- A call that is not a ping changes nothing of what is known. -/
theorem start_other {call : Call} (listens : Listens s c) (other : call ≠ .store .ping) :
    Listens ⟨s.world, s.threads ++ [⟨call, [], b.code call⟩]⟩ c := by
  refine ⟨fun i at_ => (listens.run i at_).start, ?_⟩
  have watch := listens.watch
  split at watch
  · obtain ⟨last, pending, pinged⟩ := watch
    obtain ⟨t, at', ping⟩ := last.ping
    refine ⟨last.start other, fun pending' => ?_, fun healthy pinged' => ?_⟩
    · obtain ⟨t', there, janitor, inFlight⟩ := pending'
      cases of_start at' there
      exact told_start.trans (pending ⟨_, at', janitor, inFlight⟩)
    · obtain ⟨t', r, there, done, same⟩ := pinged'
      cases of_start at' there
      exact told_start.trans (pinged healthy ⟨_, r, at', done, same⟩)
  · exact ⟨watch.1.start, told_start.trans watch.2⟩
  · exact told_start.trans watch
  · exact told_start.trans watch

theorem start {call : Call} (listens : Listens s c)
    (turns : Turns instanceID s c (some (.start call)) c') :
    Listens ⟨s.world, s.threads ++ [⟨call, [], b.code call⟩]⟩ c' := by
  have watch := listens.watch
  cases turns with
  | request call janitor store serves =>
    refine listens.start_other ?_
    intro same
    subst same
    cases store
  | tick free =>
    refine ⟨?_, (listens.start_other (by simp)).watch⟩
    intro i impossible
    cases impossible
    exact noPing_started (by simp)
  | ping at_ =>
    rw [at_] at watch
    have fresh : (s.threads ++ [⟨.store .ping, [], b.code (.store .ping)⟩])[s.threads.length]? =
        some (⟨.store .ping, [], b.code (.store .ping)⟩ : Thread (b.process faults)) :=
      List.getElem?_concat_length
    refine ⟨fun i at' => (listens.run i at').start, ⟨⟨_, fresh, rfl⟩, ?_⟩, ?_, ?_⟩
    · intro j t lt at'
      have outside := (List.getElem?_eq_some_iff.mp at').1
      rw [List.length_append, List.length_singleton] at outside
      omega
    · exact fun _ => told_start.trans watch
    · intro healthy holds
      rcases holds with ⟨t, r, at', done, _⟩
      rw [fresh] at at'
      cases at'
      cases done
  | @recovered i at_ pinged =>
    rw [at_] at watch
    exact ⟨fun j at' => (listens.run j at').start, noPing_started (by simp),
      told_start.trans (watch.2.2 true pinged)⟩

/-- A ping in flight is the one that `WatchStore` waits for. -/
theorem of_ping {i : Nat} {t : Thread (b.process faults)} (listens : Listens s c)
    (attended : Attended s c) (at_ : s.threads[i]? = some t) (inFlight : ¬ t.prog.Returned)
    (ping : t.call = .store .ping) : ∃ wasHealthy, c.watch = .pinging wasHealthy i := by
  have watch := listens.watch
  have janitor : t.call.ofJanitor = true := by
    rw [ping]
    rfl
  rcases attended.calls i ⟨t, at_, janitor, inFlight⟩ with own | own
  · cases run : c.run with
    | sweeping j =>
      rw [run] at own
      cases own
      obtain ⟨t', at', other⟩ := listens.run _ run
      rw [at_] at at'
      cases at'
      exact absurd ping other
    | starting | selecting | returned =>
      rw [run] at own
      cases own
  · cases waits : c.watch with
    | pinging wasHealthy j =>
      rw [waits] at own
      cases own
      exact ⟨wasHealthy, rfl⟩
    | sweeping j =>
      rw [waits] at own watch
      cases own
      obtain ⟨t', at', other⟩ := watch.1
      rw [at_] at at'
      cases at'
      exact absurd ping other
    | selecting | returned =>
      rw [waits] at own
      cases own

end Listens

section Advanced

variable {s : Pool (b.process faults)} {i j : Nat} {t : Thread (b.process faults)}
variable {e : Event backend} {world : Process} {prog : Go Result}

/-- A call stays the call it is. -/
theorem call_advance {t' : Thread (b.process faults)} (at_ : s.threads[i]? = some t)
    (at' : (s.advance i t e world prog).threads[j]? = some t') :
    ∃ t₀, s.threads[j]? = some t₀ ∧ t'.call = t₀.call := by
  rw [Pool.advance, List.getElem?_set] at at'
  split at at'
  · next same =>
    split at at'
    · cases at'
      exact ⟨t, same ▸ at_, rfl⟩
    · cases at'
  · exact ⟨t', at', rfl⟩

theorem exists_advance {t' : Thread (b.process faults)} (at_ : s.threads[i]? = some t)
    (at' : s.threads[j]? = some t') :
    ∃ t₀, (s.advance i t e world prog).threads[j]? = some t₀ ∧ t₀.call = t'.call := by
  rw [Pool.advance, List.getElem?_set]
  split
  · next same =>
    subst same
    rw [at_] at at'
    cases at'
    rw [if_pos (List.getElem?_eq_some_iff.mp at_).1]
    exact ⟨_, rfl, rfl⟩
  · exact ⟨t', at', rfl⟩

theorem NoPing.advance (noPing : NoPing s j) (at_ : s.threads[i]? = some t) :
    NoPing (s.advance i t e world prog) j := by
  obtain ⟨t', at', other⟩ := noPing
  obtain ⟨t₀, there, call⟩ := exists_advance at_ at'
  exact ⟨t₀, there, call ▸ other⟩

theorem LastPing.advance (last : LastPing s j) (at_ : s.threads[i]? = some t) :
    LastPing (s.advance i t e world prog) j := by
  obtain ⟨⟨t', at', ping⟩, behind⟩ := last
  obtain ⟨t₀, there, call⟩ := exists_advance at_ at'
  refine ⟨⟨t₀, there, call ▸ ping⟩, fun k t'' lt at'' => ?_⟩
  obtain ⟨t₁, before, same⟩ := call_advance at_ at''
  rw [same]
  exact behind k t₁ lt before

end Advanced

namespace Listens

variable {s s' : Pool (b.process faults)} {c c' : Control}

theorem exec {i : Nat} {t : Thread (b.process faults)} {e : Event backend} {world : Process}
    {prog : Go Result} (listens : Listens s c) (attended : Attended s c)
    (at_ : s.threads[i]? = some t) (inFlight : ¬ t.prog.Returned) :
    Listens (s.advance i t e world prog) c := by
  refine ⟨fun j at' => (listens.run j at').advance at_, ?_⟩
  have watch := listens.watch
  by_cases ping : t.call = .store .ping
  · obtain ⟨wasHealthy, waits⟩ := listens.of_ping attended at_ inFlight ping
    rw [waits] at watch ⊢
    obtain ⟨last, pending, _⟩ := watch
    have janitor : t.call.ofJanitor = true := by
      rw [ping]
      rfl
    have before := pending ⟨t, at_, janitor, inFlight⟩
    have after := told_advance e world prog at_ inFlight
      fun _ => last.behind
    rw [before] at after
    have there : (s.advance i t e world prog).threads[i]? = some ⟨t.call, t.past ++ [e], prog⟩ := by
      rw [Pool.advance, List.getElem?_set_self (List.getElem?_eq_some_iff.mp at_).1]
    refine ⟨last.advance at_, ?_, ?_⟩
    · intro holds
      rcases holds with ⟨t', at', _, inFlight'⟩
      rw [there] at at'
      cases at'
      rw [after, answer?_of_inFlight inFlight']
      exact List.append_nil _
    · intro healthy holds
      rcases holds with ⟨t', r, at', done, rfl⟩
      rw [there] at at'
      cases at'
      rw [after, answer?, if_pos ping]
      dsimp only at done ⊢
      rw [done]
      rfl
  · have same : told (s.advance i t e world prog) = told s := by
      have after := told_advance e world prog at_ inFlight
        fun impossible => absurd impossible ping
      have unanswered : answer? (⟨t.call, t.past ++ [e], prog⟩ : Thread (b.process faults)) =
          none := answer?_of_ne ping
      rw [unanswered] at after
      exact after.trans (List.append_nil _)
    rw [same]
    split at watch
    · obtain ⟨last, pending, pinged⟩ := watch
      refine ⟨last.advance at_, fun pending' => pending (pending'.of_advance at_ inFlight), ?_⟩
      intro healthy holds
      rcases holds with ⟨t', r, at', done, rfl⟩
      refine pinged _ ⟨t', r, ?_, done, rfl⟩
      rw [Pool.advance, List.getElem?_set] at at'
      split at at'
      · next own =>
        obtain ⟨t₀, at₀, isPing⟩ := last.ping
        rw [← own, at_] at at₀
        cases at₀
        exact absurd isPing ping
      · exact at'
    · exact ⟨watch.1.advance at_, watch.2⟩
    · exact watch
    · exact watch

/-- Nothing of this depends on the world. -/
theorem tick (listens : Listens s c) (world : Process) : Listens ⟨world, s.threads⟩ c := by
  refine ⟨listens.run, ?_⟩
  have watch := listens.watch
  split at watch
  · exact ⟨⟨watch.1.ping, watch.1.behind⟩, watch.2⟩
  all_goals exact watch

theorem together {m : Move (b.process faults)} (listens : Listens s c) (attended : Attended s c)
    (turns : Turns instanceID s c (some m) c') (step : Pool.Step s m s') : Listens s' c' := by
  cases step with
  | start call => exact listens.start turns
  | exec at_ next exec =>
    cases turns
    refine listens.exec attended at_ ?_
    rw [next]
    exact id
  | @tick turn world env =>
    have stays := listens.tick world
    cases turns <;> exact ⟨stays.run, stays.watch⟩

end Listens

theorem listens_start (w : World) : Listens (b.serving faults w) .start := by
  refine ⟨?_, rfl⟩
  intro i impossible
  cases impossible

/-- **Sweeps on recovery**: whenever `WatchStore` waits for no ping, the sweeps made so far are
those of `Run` and exactly one for each ping that succeeded after one that failed; and at most two
calls of the janitor are ever in flight. -/
theorem sweeps_on_recovery (reach : Reach instanceID w d) :
    ((∀ wasHealthy i, d.control.watch ≠ .pinging wasHealthy i) →
      d.pool.threads.countP isSweep = d.control.ticks + recoveries true (told d.pool)) ∧
    ∀ i j k, Pending d.pool i → Pending d.pool j → Pending d.pool k → i = j ∨ i = k ∨ j = k := by
  have attended := reach.attended
  refine ⟨fun between => ?_, fun i j k first second third => ?_⟩
  · have holds : (Attended d.pool d.control ∧ Listens d.pool d.control) ∧
        Reconciled d.pool d.control := by
      refine reach.invariant (I := fun s c => (Attended s c ∧ Listens s c) ∧ Reconciled s c)
        ⟨⟨attended_start w, listens_start w⟩, rfl, rfl⟩ ?_ ?_
      · intro s c c' post turns
        rcases post with ⟨⟨attended, listens⟩, reconciled⟩
        exact ⟨⟨attended.alone turns, listens.alone turns⟩, reconciled.alone turns⟩
      · intro s m s' c c' post turns step
        rcases post with ⟨⟨attended, listens⟩, reconciled⟩
        exact ⟨⟨attended.together turns step, listens.together attended turns step⟩,
          reconciled.together turns step⟩
    have heard : told d.pool = d.control.heard := by
      have watch := holds.1.2.watch
      split at watch
      · next waits => exact absurd waits (between _ _)
      · exact watch.2
      · exact watch
      · exact watch
    rw [heard]
    exact holds.2.sweeps
  · rcases attended.calls i first with a | a <;> rcases attended.calls j second with b | b <;>
      rcases attended.calls k third with c | c <;> simp_all

/-! ### The end of the process -/

/-- The steps of `ListenAndServe`, of the shutdown and of `run` come in their order. -/
structure Ordered (s : Pool (b.process faults)) (c : Control) : Prop where
  early : c.main = .listening ∨ c.main = .serving →
    s.world.phase = .serving ∨ s.world.phase = .cancelled
  /-- `GracefulStop` has waited for the requests. -/
  quiet : s.world.phase = .stopped →
    ∀ t ∈ s.threads, t.call.ofJanitor = false → t.prog.Returned
  late : c.main = .waiting ∨ c.main = .closingLockClient ∨ c.main = .exited 0 →
    s.world.phase = .stopped
  joined : c.main = .closingLockClient ∨ c.main = .exited 0 →
    c.run = .returned ∧ c.watch = .returned
  client : c.lockClientOpen = false → c.main = .exited 0
  ready : c.ready = true → c.main = .serving ∨ c.main = .exited 1

namespace Ordered

variable {s s' : Pool (b.process faults)} {c c' : Control}

theorem alone (ordered : Ordered s c) (turns : Turns instanceID s c none c') : Ordered s c' := by
  obtain ⟨early, quiet, late, joined, client, ready⟩ := ordered
  cases turns with
  | swept at_ | runLeaves at_ | pinged at_ | reconciled at_ | watchLeaves at_ =>
    refine ⟨early, quiet, late, fun closing => ?_, client, ready⟩
    have left := joined closing
    rw [at_] at left
    simp at left
  | listens at_ => constructor <;> simp_all
  | listenFails at_ | serveFails at_ => constructor <;> simp_all
  | shutsDown at_ | httpStopped at_ | httpTimesOut at_ => constructor <;> simp_all
  | closesLockClient at_ => constructor <;> simp_all

theorem turn {turn : Turn} {world : Process} (ordered : Ordered s c)
    (turns : Turns instanceID s c (some (.tick turn)) c') (env : Process.Env s.world turn world) :
    Ordered ⟨world, s.threads⟩ c' := by
  obtain ⟨early, quiet, late, joined, client, ready⟩ := ordered
  cases turns with
  | time =>
    obtain ⟨_, rfl⟩ := env
    exact ⟨early, quiet, late, joined, client, ready⟩
  | signal | closesStore at_ | stops at_ | joins at_ =>
    obtain ⟨phase, rfl⟩ := env
    constructor <;> simp_all
  | stopped at_ done =>
    obtain ⟨phase, rfl⟩ := env
    constructor <;> simp_all

theorem start {call : Call} (ordered : Ordered s c)
    (turns : Turns instanceID s c (some (.start call)) c') :
    Ordered ⟨s.world, s.threads ++ [⟨call, [], b.code call⟩]⟩ c' := by
  obtain ⟨early, quiet, late, joined, client, ready⟩ := ordered
  have grown : (s.world.phase = .stopped → call.ofJanitor = true) → s.world.phase = .stopped →
      ∀ t ∈ s.threads ++ [(⟨call, [], b.code call⟩ : Thread (b.process faults))],
        t.call.ofJanitor = false → t.prog.Returned := by
    intro janitor stopped t member request
    rcases List.mem_append.mp member with old | new
    · exact quiet stopped t old request
    · rw [List.mem_singleton.mp new] at request
      exact absurd (janitor stopped) (by rw [request]; simp)
  cases turns with
  | request call janitor store serves =>
    refine ⟨early, grown fun stopped => ?_, late, joined, client, ready⟩
    have accepts := serves.2
    rw [stopped] at accepts
    cases accepts
  | tick free =>
    refine ⟨early, grown fun _ => rfl, late, fun closing => ?_, client, ready⟩
    have left := (joined closing).1
    rcases free with at_ | at_ <;> rw [at_] at left <;> cases left
  | ping at_ | recovered at_ =>
    refine ⟨early, grown fun _ => rfl, late, fun closing => ?_, client, ready⟩
    have left := (joined closing).2
    rw [at_] at left
    cases left

theorem together {m : Move (b.process faults)} (ordered : Ordered s c)
    (turns : Turns instanceID s c (some m) c') (step : Pool.Step s m s') : Ordered s' c' := by
  cases step with
  | start call => exact ordered.start turns
  | tick env => exact ordered.turn turns env
  | @exec i t command k r world at_ next exec =>
    cases turns
    have phase : world.phase = s.world.phase := by
      obtain ⟨_, w, _, rfl⟩ | ⟨_, _, rfl⟩ := exec <;> rfl
    obtain ⟨early, quiet, late, joined, client, ready⟩ := ordered
    refine ⟨phase ▸ early, fun stopped t' member request => ?_, phase ▸ late, joined, client, ready⟩
    have stopped' : s.world.phase = .stopped := phase ▸ stopped
    rcases Pool.mem_advance member with old | rfl
    · exact quiet stopped' t' old request
    · have returned := quiet stopped' t (List.mem_of_getElem? at_) request
      rw [next] at returned
      exact returned.elim

end Ordered

theorem ordered_start (w : World) : Ordered (b.serving faults w) .start := by
  constructor <;> simp [Backend.serving, Control.start]

/-- **A clean exit**: once the janitor's client of Redis is closed, and so when the process exits
with 0, no call is in flight, the store is closed and the gRPC server has stopped; and the process
says that it is ready only while it serves. -/
theorem exits_clean (reach : Reach instanceID w d) :
    (d.control.lockClientOpen = false ∨ d.control.main = .exited 0 →
      d.pool.Quiet ∧ d.pool.world.phase = .stopped) ∧
    (d.control.ready = true → d.control.main = .serving ∨ d.control.main = .exited 1) := by
  have ordered : Ordered d.pool d.control :=
    reach.invariant (ordered_start w) (fun _ _ _ => Ordered.alone) fun _ _ _ _ _ => Ordered.together
  refine ⟨fun closed => ?_, ordered.ready⟩
  have exited : d.control.main = .exited 0 := closed.elim ordered.client id
  have stopped := ordered.late (.inr (.inr exited))
  obtain ⟨run, watch⟩ := ordered.joined (.inr exited)
  refine ⟨fun t member => ?_, stopped⟩
  cases janitor : t.call.ofJanitor with
  | false => exact ordered.quiet stopped t member janitor
  | true =>
    by_contra inFlight
    obtain ⟨i, at_⟩ := List.mem_iff_getElem?.mp member
    rcases reach.attended.calls i ⟨t, at_, janitor, inFlight⟩ with own | own
    · rw [run] at own
      cases own
    · rw [watch] at own
      cases own

end Runs

/-! ### A process from its start to its end -/

section Steps

variable {instanceID : String} {w : World} {s : Pool (b.process faults)} {c c' : Control}

theorem Reach.alone (reach : Reach instanceID w ⟨s, c⟩) (runs : ∀ code, c.main ≠ .exited code)
    (turns : Turns instanceID s c none c') : Reach instanceID w ⟨s, c'⟩ :=
  reach.tail (.alone runs turns)

theorem Reach.start {call : Call} (reach : Reach instanceID w ⟨s, c⟩)
    (runs : ∀ code, c.main ≠ .exited code) (turns : Turns instanceID s c (some (.start call)) c') :
    Reach instanceID w ⟨⟨s.world, s.threads ++ [⟨call, [], b.code call⟩]⟩, c'⟩ :=
  reach.tail (.together runs turns (Pool.Step.start (Y := b.process faults) call))

theorem Reach.turn {turn : Turn} {world : Process} (reach : Reach instanceID w ⟨s, c⟩)
    (runs : ∀ code, c.main ≠ .exited code) (turns : Turns instanceID s c (some (.tick turn)) c')
    (env : Process.Env s.world turn world) : Reach instanceID w ⟨⟨world, s.threads⟩, c'⟩ :=
  reach.tail (.together runs turns (.tick env))

theorem Reach.redis {i : Nat} {t : Thread (b.process faults)} {command : Redis.Cmd}
    {k : Except Err command.Reply → Go Result} (r : Except Err command.Reply)
    (reach : Reach instanceID w ⟨s, c⟩) (runs : ∀ code, c.main ≠ .exited code)
    (at_ : s.threads[i]? = some t) (next : t.prog = .call (.redis command) k)
    (serves : s.world.serves (.redis command) = true) {w' : World}
    (exec : Exec faults s.world.world (.redis command) r w') :
    Reach instanceID w
      ⟨s.advance i t ⟨.redis command, r⟩ { s.world with world := w' } (k r), c⟩ := by
  have step : Pool.Step (Y := b.process faults) s (.exec i ⟨.redis command, r⟩)
      (s.advance i t ⟨.redis command, r⟩ { s.world with world := w' } (k r)) :=
    .exec at_ next (.inl ⟨serves, w', exec, rfl⟩)
  exact reach.tail (.together runs (.exec i _) step)

end Steps

/-- Any command can fail. -/
abbrev anyFault (_ : Cmd) (_ : Err) : Prop := True

/-- The sweep at the start is refused the lock, a ping fails and the next succeeds, and the process
is told to stop. -/
theorem sample_exits : ∃ d : Daemon Sample.backend anyFault,
    Reach "janitor-1" (.empty 0 fun _ => 7) d ∧ d.control.main = .exited 0 ∧
      d.control.watch = .returned ∧ told d.pool = [false, true] := by
  have lost : ∀ {w : World} (c : Redis.Cmd),
      Exec anyFault w (.redis c) (.error (.other "EOF")) w := fun c =>
    .inr ⟨.other "EOF", trivial, rfl, .inl rfl⟩
  have begins : Reach "janitor-1" (.empty 0 fun _ => 7)
      (⟨Sample.backend.serving anyFault _, .start⟩ : Daemon Sample.backend anyFault) := .refl
  have listens := begins.alone (by simp [Control.start]) (.listens rfl)
  have sweeps := listens.start (by simp) (.tick (.inl rfl))
  have refused := sweeps.redis (i := 0) (.error (.other "EOF")) (by simp) rfl rfl rfl (lost _)
  have swept := refused.alone (by simp) (.swept rfl ⟨_, rfl, trivial⟩)
  have pings := swept.start (by simp) (.ping rfl)
  have unheard := pings.redis (i := 1) (.error (.other "EOF")) (by simp) rfl rfl rfl (lost _)
  have broken := unheard.alone (by simp) (.pinged rfl ⟨_, _, rfl, rfl, rfl⟩ rfl)
  have again := broken.start (by simp) (.ping rfl)
  have answered := again.redis (i := 2) (.ok ()) (by simp) rfl rfl rfl
    (.inl ⟨Hint.listing .plain, rfl, rfl⟩)
  have back := answered.start (by simp) (.recovered rfl ⟨_, _, rfl, rfl, rfl⟩)
  have locked := back.redis (i := 3) (.error (.other "EOF")) (by simp) rfl rfl rfl (lost _)
  have reconciled := locked.alone (by simp) (.reconciled rfl ⟨_, rfl, trivial⟩)
  have cancelled := reconciled.turn (by simp) .signal ⟨rfl, rfl⟩
  have left := cancelled.alone (by simp) (.runLeaves rfl (by simp))
  have gone := left.alone (by simp) (.watchLeaves rfl (by simp))
  have shuts := gone.alone (by simp) (.shutsDown rfl (by simp))
  have closed := shuts.turn (by simp) (.closesStore rfl) ⟨rfl, rfl⟩
  have stopping := closed.turn (by simp) (.stops rfl) ⟨rfl, rfl⟩
  have stopped := stopping.turn (by simp) (.stopped rfl (by decide)) ⟨rfl, rfl⟩
  have http := stopped.alone (by simp) (.httpStopped rfl rfl)
  have joined := http.turn (by simp) (.joins rfl rfl rfl) ⟨by simp, rfl⟩
  have exited := joined.alone (by simp) (.closesLockClient rfl)
  exact ⟨_, exited, rfl, rfl, rfl⟩

/-- The calls of such a process. -/
theorem goroutines_lawful_run : ∃ d : Daemon Sample.backend anyFault,
    d.control.main = .exited 0 ∧ Pool.Reach Lawful
      (Sample.backend.serving anyFault (.empty 0 fun _ => 7)) d.pool := by
  obtain ⟨d, reach, exited, _⟩ := sample_exits
  exact ⟨d, exited, goroutines_lawful reach⟩

theorem sweeps_on_recovery_run : ∃ d : Daemon Sample.backend anyFault,
    d.pool.threads.countP isSweep = d.control.ticks + 1 ∧
      ∀ i j k, Pending d.pool i → Pending d.pool j → Pending d.pool k →
        i = j ∨ i = k ∨ j = k := by
  obtain ⟨d, reach, _, watch, answers⟩ := sample_exits
  have holds := sweeps_on_recovery reach
  rw [watch, answers] at holds
  refine ⟨d, holds.1 ?_, holds.2⟩
  intro wasHealthy i impossible
  cases impossible

theorem exits_clean_run : ∃ d : Daemon Sample.backend anyFault, d.control.main = .exited 0 ∧
    d.pool.Quiet ∧ d.pool.world.phase = .stopped := by
  obtain ⟨d, reach, exited, _⟩ := sample_exits
  exact ⟨d, exited, (exits_clean reach).1 (.inr exited)⟩

end Daemon

end DirectLink
