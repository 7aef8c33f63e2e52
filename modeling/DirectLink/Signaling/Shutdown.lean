import DirectLink.Interleaving.Commands
import DirectLink.Interleaving.Counters

/-!
# Shutting the server down

`ListenAndServe` and `shutdown` of `internal/signaling/server.go` beside the handlers and the
goroutines that `run` of `cmd/signaling/main.go` starts.  `shutdown` closes the store, stops the
gRPC server and waits for its handlers, in this order; `run` waits for the janitor only then.  The
HTTP server and the janitor's own Redis client take no part.

No call uses the closed store if the calls in flight have returned, or are at one of the commands
that their code ends with, when `store.Close` runs, and no other begins afterwards.
-/

namespace DirectLink

/-! ### The process -/

/-- How far the shutdown has come. -/
inductive Phase : Type
  | serving
  /-- The context is cancelled. -/
  | cancelled
  /-- `store.Close` has run. -/
  | storeClosed
  /-- `GracefulStop` has closed the listener and waits for the handlers. -/
  | stopping
  /-- `GracefulStop` has returned. -/
  | stopped
  deriving DecidableEq

/-- The client of the store can be used. -/
def Phase.storeOpen : Phase → Bool
  | .serving | .cancelled => true
  | .storeClosed | .stopping | .stopped => false

/-- The gRPC server accepts requests. -/
def Phase.accepts : Phase → Bool
  | .serving | .cancelled | .storeClosed => true
  | .stopping | .stopped => false

/-- The backend with its shutdown.  `late` are the commands that the store's client was asked for
after it was closed. -/
structure Process : Type where
  world : World
  phase : Phase
  /-- One of the janitor's goroutines has not returned. -/
  janitorRuns : Bool
  late : List Cmd

/-- What happens beside the calls. -/
inductive Turn : Type
  | time (t : Nat)
  | cancel
  | closeStore
  | gracefulStop
  | handlersDone
  | janitorLeaves

/-- The command goes through the client of the store.  The sweep lock has a client of its own. -/
def Cmd.usesStore : Cmd → Bool
  | .redis (.setNX _ _ _) | .redis (.delIfEq _ _) => false
  | .redis _ => true
  | _ => false

/-- `redis.ErrClosed`. -/
def errClosed : Err := .other "redis: client is closed"

namespace Process

/-- The command is served as before the shutdown. -/
def serves (p : Process) (c : Cmd) : Bool := p.phase.storeOpen || !c.usesStore

/-- A command: once the store is closed, its client answers with an error. -/
def Exec (faults : Cmd → Err → Prop) (p : Process) (c : Cmd) (r : c.Reply) (p' : Process) : Prop :=
  (p.serves c = true ∧ ∃ w, DirectLink.Exec faults p.world c r w ∧ p' = { p with world := w }) ∨
    (p.serves c = false ∧ c.Reports r errClosed ∧ p' = { p with late := p.late ++ [c] })

/-- One step of the shutdown, or of time. -/
def Env (p : Process) : Turn → Process → Prop
  | .time t, p' => p.world.now ≤ t ∧ p' = { p with world := p.world.at_ t }
  | .cancel, p' => p.phase = .serving ∧ p' = { p with phase := .cancelled }
  | .closeStore, p' => p.phase = .cancelled ∧ p' = { p with phase := .storeClosed }
  | .gracefulStop, p' => p.phase = .storeClosed ∧ p' = { p with phase := .stopping }
  | .handlersDone, p' => p.phase = .stopping ∧ p' = { p with phase := .stopped }
  | .janitorLeaves, p' => p.phase ≠ .serving ∧ p' = { p with janitorRuns := false }

end Process

/-- The backend `b` with its shutdown. -/
@[reducible] def Backend.process (b : Backend) (faults : Cmd → Err → Prop) : System backend where
  World := Process
  Call := Call
  Result := Result
  Tick := Turn
  code := b.code
  Exec := Process.Exec faults
  Env := Process.Env

/-- Made by a goroutine of the janitor: a sweep of `Run` or `WatchStore`, or the ping of
`WatchStore`. -/
def Call.ofJanitor : Call → Bool
  | .sweepAt _ _ | .store .ping => true
  | _ => false

section Moves

variable {b : Backend} {faults : Cmd → Err → Prop}

/-- The moves of the process: requests are accepted until `GracefulStop`, which returns when they
are done, and the janitor makes its calls until its goroutines return. -/
def Lawful (s : Pool (b.process faults)) : Move (b.process faults) → Prop
  | .start call =>
    if call.ofJanitor then s.world.janitorRuns = true
    else call.isStore = false ∧ s.world.phase.accepts = true
  | .tick .handlersDone => ∀ t ∈ s.threads, t.call.ofJanitor = false → t.prog.Returned
  | .tick .janitorLeaves => ∀ t ∈ s.threads, t.call.ofJanitor = true → t.prog.Returned
  | _ => True

/-- What the code of a call ends with: a join counts its token or deletes its ingress again, a
close counts the session, and a sweep releases its lock. -/
def Call.endsWith : Call → Cmd → Bool
  | .joinSession _, .metric _ | .joinSession _, .deleteIngress _ => true
  | .closeSession _, .metric _ => true
  | .sweepAt _ _, .redis (.delIfEq _ _) => true
  | _, _ => false

/-- The call has returned, or is about to issue a command that its code ends with. -/
def Ending (t : Thread (b.process faults)) : Prop :=
  match t.prog with
  | .done _ => True
  | .call c _ => t.call.endsWith c = true

/-- The store is closed when every handler, sweep and ping in flight has come to its end, and none
begins afterwards unless it is answered at once. -/
def ClosesDrained (s : Pool (b.process faults)) : Move (b.process faults) → Prop
  | .tick .closeStore => ∀ t ∈ s.threads, Ending t
  | .start call => s.world.phase.storeOpen = true ∨ (b.code call).Returned
  | _ => True

/-- A call without the shutdown. -/
def Undisturbed.thread (t : Thread (b.process faults)) : Thread (b.system faults) :=
  ⟨t.call, t.past, t.prog⟩

/-- The calls and the world without the shutdown. -/
def undisturbed (s : Pool (b.process faults)) : Pool (b.system faults) :=
  ⟨s.world.world, s.threads.map Undisturbed.thread⟩

/-- The process when it starts to serve. -/
def Backend.serving (b : Backend) (faults : Cmd → Err → Prop) (w : World) :
    Pool (b.process faults) :=
  ⟨⟨w, .serving, true, []⟩, []⟩

/-- No shutdown whose moves satisfy `C` disturbs a call: its closed store is not asked for anything,
and the calls get the replies and the results of a run without it. -/
def ShutdownHarmless (b : Backend) (faults : Cmd → Err → Prop)
    (C : Pool (b.process faults) → Move (b.process faults) → Prop) : Prop :=
  ∀ w s, Pool.Reach (fun s m => Lawful s m ∧ C s m) (b.serving faults w) s →
    s.world.late = [] ∧ Pool.Reach (fun _ _ => True) (⟨w, []⟩ : Pool (b.system faults))
      (undisturbed s)

end Moves

/-! ### How the calls end -/

section Endings

variable {b : Backend} {s : Server} {α : Type}

/-- The program issues nothing that the code of the call ends with. -/
theorem never_of_store {r : RedisStore} {p : Go α} (stores : p.Issues (StoreCmd r true))
    (call : Call) : p.Issues fun c => ¬ call.endsWith c = true := by
  refine stores.mono ?_
  intro c store ends
  cases store with
  | after backoff => cases call <;> cases ends
  | timeNow => cases call <;> cases ends
  | op o own =>
    cases o
    case dropLock => exact own.elim
    all_goals cases call <;> cases ends

/-- The code of the call uses the store no more once it issues a command that it ends with. -/
def EndsApart (call : Call) (p : Go α) : Prop :=
  p.EndsIn (fun c => call.endsWith c = true) fun c : Cmd => c.usesStore = false

theorem endsApart_joinAsCamera {req : JoinRequest} {sess : Session} {join : JoinRequest} :
    EndsApart (.joinSession join) (s.joinAsCamera req sess) := by
  have count : ∀ reply : Except Status JoinReply, EndsApart (.joinSession join)
      (issue (.metric (.tokenGenerationsInc "camera")) >>= fun _ => (return reply : Go _)) :=
    fun _ => .last rfl (fun _ => trivial) fun _ => trivial
  refine ⟨fun ends => (by cases ends), ?_⟩
  intro created
  cases created with
  | error err => trivial
  | ok info =>
    refine (never_of_store StoreCmd.grantAccess _).endsIn ?_
    intro granted
    cases granted with
    | error err => exact .last rfl (fun _ => trivial) fun _ => trivial
    | ok _ => exact (never_of_store StoreCmd.addIngressID _).endsIn fun _ => count _

theorem endsApart_joinAsDirector {req : JoinRequest} {sess : Session} {join : JoinRequest} :
    EndsApart (.joinSession join) (s.joinAsDirector req sess) := by
  refine (never_of_store StoreCmd.grantAccess _).endsIn ?_
  intro granted
  cases granted with
  | error err => trivial
  | ok _ =>
    refine ⟨fun ends => (by cases ends), ?_⟩
    intro now
    dsimp only [Prog.bind]
    split
    · trivial
    · exact .last rfl (fun _ => trivial) fun _ => trivial

theorem endsApart_joinSession (req : JoinRequest) :
    EndsApart (.joinSession req) (s.joinSession req) := by
  unfold Server.joinSession
  split; · trivial
  split; · trivial
  split; · trivial
  refine (never_of_store StoreCmd.getSessionByRoomCode _).endsIn ?_
  intro found
  cases found with
  | error err => trivial
  | ok sess =>
    dsimp only
    split; · trivial
    split; · exact endsApart_joinAsCamera
    split; · exact endsApart_joinAsDirector
    trivial

theorem endsApart_closeSession (req : CloseSessionRequest) :
    EndsApart (.closeSession req) (s.closeSession req) := by
  unfold Server.closeSession
  split; · trivial
  split; · trivial
  refine (never_of_store StoreCmd.getSessionByRoomCode _).endsIn ?_
  intro found
  cases found with
  | error err => trivial
  | ok sess =>
    dsimp only
    split; · trivial
    have quiet : (s.deleteRoom sess.id).Issues
        fun c => ¬ Call.endsWith (.closeSession req) c = true := by
      refine silent_deleteRoom.mono ?_
      intro c silent ends
      cases c
      case metric op => exact silent op rfl
      all_goals cases ends
    refine quiet.endsIn fun _ => ?_
    refine (never_of_store StoreCmd.updateSessionStatus _).endsIn ?_
    intro closed
    cases closed with
    | error err => trivial
    | ok _ => exact .last rfl (fun _ => trivial) fun _ => trivial

theorem endsApart_sweepAt {j : Janitor} {id : String} {now : Nat}
    (room : j.deleteRoom = s.deleteRoom) : EndsApart (.sweepAt id now) (j.sweepAt now) := by
  -- nothing but the release of the lock gives it up
  have usual : Usual fun c => ¬ Call.endsWith (.sweepAt id now) c = true := by
    refine ⟨?_, ?_, fun _ ends => (by cases ends), fun _ ends => (by cases ends)⟩
    · intro c other ends
      cases c
      case redis c => exact other c rfl
      all_goals cases ends
    · intro c holds _ ends
      cases c with
      | delIfEq key value => exact holds key value rfl
      | _ => cases ends
  have released : EndsApart (.sweepAt id now) j.releaseLock :=
    .last rfl (fun _ => trivial) fun _ => trivial
  refine ⟨fun ends => (by cases ends), ?_⟩
  intro taken
  rcases taken with err | taken
  · trivial
  cases taken with
  | false => trivial
  | true =>
    refine usual.getExpiredSessions.endsIn ?_
    intro expired
    cases expired with
    | error err => exact released
    | ok sessions =>
      refine (usual.closeExpiredSessions fun _ => ?_).endsIn fun _ => released
      rw [room]
      exact usual.deleteRoom

/-- **How the calls end**: past the commands that its code ends with, no call uses the store. -/
theorem endsApart_call (b : Backend) (call : Call) : EndsApart call (b.code call) := by
  cases call with
  | joinSession req => exact (endsApart_joinSession req).map _
  | closeSession req => exact (endsApart_closeSession req).map _
  | sweepAt id now => exact (endsApart_sweepAt rfl).map _
  | store call => exact .of_never (Prog.issues_of_forall fun _ ends => (by cases ends))
  | createSession req => exact .of_never (Prog.issues_of_forall fun _ ends => (by cases ends))
  | getMySessions req => exact .of_never (Prog.issues_of_forall fun _ ends => (by cases ends))

theorem usesStore_of_endsWith {call : Call} {c : Cmd} (ends : call.endsWith c = true) :
    c.usesStore = false := by
  unfold Call.endsWith at ends
  split at ends
  · rfl
  · rfl
  · rfl
  · rfl
  · cases ends

end Endings

/-! ### Without the shutdown -/

section Runs

variable {b : Backend} {faults : Cmd → Err → Prop} {s s' : Pool (b.process faults)}
variable {m : Move (b.process faults)}

/-- While the closed store is not used, a move is one without the shutdown, or none. -/
theorem step_undisturbed (step : Pool.Step s m s')
    (serves : ∀ i c (r : c.Reply), m = .exec i ⟨c, r⟩ → s.world.serves c = true) :
    s'.world.late = s.world.late ∧
      (undisturbed s' = undisturbed s ∨ ∃ m', Pool.Step (undisturbed s) m' (undisturbed s')) := by
  cases step with
  | start call =>
    refine ⟨rfl, .inr ⟨.start call, ?_⟩⟩
    have same : undisturbed (⟨s.world, s.threads ++ [⟨call, [], b.code call⟩]⟩ :
        Pool (b.process faults)) =
          ⟨s.world.world, (undisturbed s).threads ++ [⟨call, [], b.code call⟩]⟩ := by
      rw [undisturbed, undisturbed, List.map_append]
      rfl
    rw [same]
    exact Pool.Step.start (Y := b.system faults) (s := undisturbed s) call
  | @exec i t c k r p at_ next exec =>
    obtain ⟨_, w, exec, rfl⟩ | ⟨refused, _⟩ := exec
    · refine ⟨rfl, .inr ⟨.exec i ⟨c, r⟩, ?_⟩⟩
      have same : undisturbed (s.advance i t ⟨c, r⟩ { s.world with world := w } (k r)) =
          (undisturbed s).advance i (Undisturbed.thread t) ⟨c, r⟩ w (k r) := by
        rw [undisturbed, Pool.advance, Pool.advance, List.map_set]
        rfl
      have there : (undisturbed s).threads[i]? = some (Undisturbed.thread t) := by
        rw [undisturbed, List.getElem?_map, at_]
        rfl
      rw [same]
      exact .exec there next exec
    · rw [serves i c r rfl] at refused
      cases refused
  | @tick turn p env =>
    cases turn
    case time t =>
      obtain ⟨later, rfl⟩ := env
      exact ⟨rfl, .inr ⟨.tick t, .tick ⟨later, rfl⟩⟩⟩
    all_goals
      obtain ⟨_, rfl⟩ := env
      exact ⟨rfl, .inl rfl⟩

/-- The program is past its last use of the store. -/
def PastStore (p : Go Result) : Prop := p.Issues fun c : Cmd => c.usesStore = false

/-- Every call in flight ends as its code does; and the store is open, or no call will use it. -/
structure Unused (s : Pool (b.process faults)) : Prop where
  ends : ∀ t ∈ s.threads, EndsApart t.call t.prog
  past : s.world.phase.storeOpen = true ∨ ∀ t ∈ s.threads, PastStore t.prog

/-- A call that has come to its end is past its last use of the store. -/
theorem Ending.pastStore {t : Thread (b.process faults)} (ending : Ending t)
    (ends : EndsApart t.call t.prog) : PastStore t.prog := by
  unfold Ending at ending
  unfold EndsApart at ends
  unfold PastStore
  cases prog : t.prog with
  | done a => trivial
  | call c k =>
    rw [prog] at ending ends
    exact ⟨usesStore_of_endsWith ending, (ends.1 ending).2⟩

theorem pastStore_of_returned {p : Go Result} (returned : p.Returned) : PastStore p := by
  obtain ⟨a, rfl⟩ := returned.exists_eq
  trivial

/-- What a call in flight issues is served. -/
theorem Unused.serves (unused : Unused s) (step : Pool.Step s m s') {i : Nat} {c : Cmd}
    {r : c.Reply} (issues : m = .exec i ⟨c, r⟩) : s.world.serves c = true := by
  cases step with
  | @exec i t c k r p at_ next exec =>
    cases issues
    obtain open_ | past := unused.past
    · rw [Process.serves, open_, Bool.true_or]
    · have calls := past t (List.mem_of_getElem? at_)
      rw [PastStore, next] at calls
      rw [Process.serves, calls.1, Bool.not_false, Bool.or_true]
  | start | tick => cases issues

theorem Unused.step (unused : Unused s) (closes : ClosesDrained s m) (step : Pool.Step s m s') :
    Unused s' := by
  cases step with
  | start call =>
    refine ⟨fun t mem => ?_, ?_⟩
    · obtain old | own := List.mem_append.mp mem
      · exact unused.ends t old
      · rw [List.mem_singleton.mp own]
        exact endsApart_call b call
    · obtain open_ | past := unused.past
      · exact .inl open_
      obtain open_ | returned := closes
      · exact .inl open_
      refine .inr fun t mem => ?_
      obtain old | own := List.mem_append.mp mem
      · exact past t old
      · rw [List.mem_singleton.mp own]
        exact pastStore_of_returned returned
  | @exec i t c k r p at_ next exec =>
    have phase : p.phase = s.world.phase := by
      obtain ⟨_, w, _, rfl⟩ | ⟨_, _, rfl⟩ := exec <;> rfl
    refine ⟨fun t' mem => ?_, ?_⟩
    · obtain old | rfl := Pool.mem_advance mem
      · exact unused.ends t' old
      · have ends := unused.ends t (List.mem_of_getElem? at_)
        rw [EndsApart, next] at ends
        exact ends.2 r
    · obtain open_ | past := unused.past
      · exact .inl (phase ▸ open_)
      refine .inr fun t' mem => ?_
      obtain old | rfl := Pool.mem_advance mem
      · exact past t' old
      · have calls := past t (List.mem_of_getElem? at_)
        rw [PastStore, next] at calls
        exact calls.2 r
  | @tick turn p env =>
    refine ⟨unused.ends, ?_⟩
    cases turn with
    | closeStore => exact .inr fun t mem => (closes t mem).pastStore (unused.ends t mem)
    | cancel => exact .inl (env.2 ▸ rfl)
    | gracefulStop | handlersDone =>
      obtain open_ | past := unused.past
      · rw [env.1] at open_
        cases open_
      · exact .inr past
    | time | janitorLeaves =>
      obtain ⟨_, rfl⟩ := env
      exact unused.past

/-- **A shutdown disturbs no call** if the calls have come to their end when the store is closed. -/
theorem shutdown_harmless (b : Backend) (faults : Cmd → Err → Prop) :
    ShutdownHarmless b faults ClosesDrained := by
  intro w s reach
  have start : undisturbed (b.serving faults w) = ⟨w, []⟩ := rfl
  have holds : Unused s ∧ s.world.late = [] ∧ Pool.Reach (fun _ _ => True)
      (⟨w, []⟩ : Pool (b.system faults)) (undisturbed s) := by
    refine Pool.Reach.invariant (I := fun s : Pool (b.process faults) => Unused s ∧
      s.world.late = [] ∧ Pool.Reach (fun _ _ => True) (⟨w, []⟩ : Pool (b.system faults))
        (undisturbed s))
      ⟨⟨fun _ mem => absurd mem List.not_mem_nil, .inl rfl⟩, rfl, start ▸ .refl⟩ ?_ reach
    intro s m s' _ inv guard step
    obtain ⟨unused, none_, without⟩ := inv
    obtain ⟨late, same | ⟨m', step'⟩⟩ :=
      step_undisturbed step fun i c r issues => unused.serves step issues
    · exact ⟨unused.step guard.2 step, late.trans none_, same ▸ without⟩
    · exact ⟨unused.step guard.2 step, late.trans none_, without.step trivial step'⟩
  exact holds.2

end Runs

/-! ### A shutdown under a request -/

/-- How the runs of the process in which no command fails are replayed. -/
noncomputable def processReplayer : Replayer (S := backend) (Process.Exec noFaults) where
  Hint := Hint
  perform h p c :=
    if p.serves c = true then
      (Hint.perform p.world c h).map fun moved => (moved.1, { p with world := moved.2 })
    else
      match c with
      | .redis c => some (.error errClosed, { p with late := p.late ++ [.redis c] })
      | _ => none
  sound h p c r p' computed := by
    split at computed
    · next served =>
      obtain ⟨moved, performed, same⟩ := Option.map_eq_some_iff.mp computed
      cases same
      exact .inl ⟨served, moved.2, .inl (Hint.performs_of_perform performed), rfl⟩
    · next refused =>
      cases c
      case redis c =>
        cases computed
        exact .inr ⟨Bool.eq_false_of_not_eq_true refused, rfl, rfl⟩
      all_goals cases computed

/-- The steps of the shutdown that can be replayed. -/
def Process.turn (p : Process) : Turn → Option Process
  | .cancel => if p.phase = .serving then some { p with phase := .cancelled } else none
  | .closeStore => if p.phase = .cancelled then some { p with phase := .storeClosed } else none
  | _ => none

theorem Process.env_of_turn {p p' : Process} {turn : Turn} (turned : p.turn turn = some p') :
    Process.Env p turn p' := by
  cases turn
  case cancel | closeStore =>
    rw [Process.turn] at turned
    split at turned
    · next phase =>
      cases turned
      exact ⟨phase, rfl⟩
    · cases turned
  all_goals cases turned

namespace Sample

/-- Only requests are started, while they are accepted, and nothing is waited for. -/
def isAccepted (s : Pool (backend.process noFaults)) : Move (backend.process noFaults) → Bool
  | .start call => !call.ofJanitor && !call.isStore && s.world.phase.accepts
  | .tick .handlersDone | .tick .janitorLeaves => false
  | _ => true

theorem lawful_of_isAccepted {s : Pool (backend.process noFaults)}
    {m : Move (backend.process noFaults)} (passed : isAccepted s m = true) : Lawful s m := by
  cases m with
  | start call =>
    simp only [isAccepted, Bool.and_eq_true, Bool.not_eq_true'] at passed
    obtain ⟨⟨janitor, store⟩, accepts⟩ := passed
    rw [Lawful, janitor]
    exact ⟨store, accepts⟩
  | exec i e => trivial
  | tick turn =>
    cases turn
    case handlersDone | janitorLeaves => cases passed
    all_goals trivial

/-- The store is closed under a `CreateSession` that has stored its session and goes on to grant
its creator access. -/
noncomputable def halfCreated : Option (Pool (backend.process noFaults)) :=
  Pool.replay (Y := backend.process noFaults) processReplayer Process.turn isAccepted
    (.start (.createSession ⟨"alice", 2⟩) :: ((create id₁).take 13).map (.exec 0) ++
      [.tick .cancel, .tick .closeStore] ++ (List.replicate 5 Hint.plain).map (.exec 0))
    (backend.serving noFaults (.empty 0 fun _ => 7))

end Sample

/-- A request that was accepted before the shutdown goes on to use the closed store. -/
theorem shutdown_harms : ¬ ShutdownHarmless Sample.backend noFaults fun _ _ => True := by
  intro harmless
  have observed : (Sample.halfCreated.any fun s => decide (s.world.late.length = 3)) = true := by
    decide +kernel
  obtain ⟨s, computed, observed⟩ := (Option.any_eq_true _ _).mp observed
  have reach := Pool.replay_reach (Y := Sample.backend.process noFaults)
    (fun _ _ _ => Process.env_of_turn) computed
  have none_ := (harmless _ s (reach.mono fun s m passed =>
    ⟨Sample.lawful_of_isAccepted passed, trivial⟩)).1
  have some_ := of_decide_eq_true observed
  rw [none_] at some_
  cases some_

end DirectLink
