import DirectLink.Lib.Ledger
import DirectLink.Runs
import DirectLink.Session.StoreCommands

/-!
# The business metrics

Every metric the server and the janitor change is a running account: what a call adds to it depends
on its result alone, whatever failed on the way.  `Weights` values the changes; the account of any
valuation in which the two changes of a sweep cancel follows from the results of the calls
(`account_exact`).  The counters and the gauge are such accounts.
-/

namespace DirectLink

open RedisStore

/-- What each change of a metric is worth.  A sweep always makes both of its changes. -/
structure Weights : Type where
  activeInc : Int
  activeDec : Int
  createdInc : Int
  expiredInc : Int
  token : String → Int
  swept : expiredInc + activeDec = 0

namespace Weights

variable (v : Weights)

def op : MetricOp → Int
  | .sessionsActiveInc => v.activeInc
  | .sessionsActiveDec => v.activeDec
  | .sessionsCreatedInc => v.createdInc
  | .sessionsExpiredInc => v.expiredInc
  | .tokenGenerationsInc label => v.token label

def event : Event backend → Int
  | ⟨.metric m, _⟩ => v.op m
  | _ => 0

/-- The result of a `CreateSession` that has stored its session. -/
def stored : Except Status CreateSessionReply → Bool
  | .ok _ => true
  | .error status => status = ⟨.internal, "failed to grant access"⟩

/-- What the metrics change by for a call with this result. -/
def price : Call → Result → Int
  | .joinSession req, .join (.ok _) => v.token req.role
  | .createSession _, .create r => if stored r then v.createdInc + v.activeInc else 0
  | .closeSession _, .close (.ok _) => v.activeDec
  | _, _ => 0

end Weights

/-! ### Methods that change no metric -/

/-- The command changes no metric. -/
def Silent (c : Cmd) : Prop := ∀ m, c ≠ .metric m

theorem silent_of_store {r : RedisStore} {c : Cmd} (store : StoreCmd r true c) : Silent c := by
  intro m same
  cases store <;> cases same

section Silent

variable {r : RedisStore} {s : Server} {α : Type}

theorem StoreCmd.silent {p : Go α} (stores : p.Issues (StoreCmd r true)) : p.Issues Silent :=
  stores.mono fun _ store => silent_of_store store

theorem silent_newRoomCodeFrom {attempts : Nat} : (newRoomCodeFrom r attempts).Issues Silent := by
  induction attempts with
  | zero => trivial
  | succ attempts ih =>
    refine ⟨by simp [Silent], ?_⟩
    intro drawn
    cases drawn with
    | error err => trivial
    | ok n =>
      refine (StoreCmd.silent StoreCmd.getSessionByRoomCode).bind ?_
      intro found
      cases found with
      | ok sess => exact ih
      | error err =>
        dsimp only
        split <;> trivial

theorem silent_deleteRoom {id : String} : (s.deleteRoom id).Issues Silent := by
  have finish : ∀ errs, (finishRoom id errs).Issues Silent := by
    intro errs
    refine ⟨by simp [Silent], ?_⟩
    intro reply
    cases reply <;> trivial
  refine (StoreCmd.silent StoreCmd.getIngressIDs).bind ?_
  intro listed
  cases listed with
  | error err => exact finish _
  | ok ids =>
    refine (issues_deleteIngresses ?_).bind finish
    intro id _ m same
    cases same

theorem free_of_silent {v : Weights} {p : Go α} (silent : p.Issues Silent) :
    p.Issues fun c => ∀ reply, v.event ⟨c, reply⟩ = 0 := by
  refine silent.mono ?_
  intro c quiet reply
  cases c
  case metric m => exact absurd rfl (quiet m)
  all_goals rfl

theorem free_of_store {v : Weights} {p : Go α} (stores : p.Issues (StoreCmd r true)) :
    p.Issues fun c => ∀ reply, v.event ⟨c, reply⟩ = 0 :=
  free_of_silent (StoreCmd.silent stores)

/-- A command that changes no metric, before the rest. -/
theorem wp_ledger_silent {v : Weights} {c : Cmd} {k : c.Reply → Go α} {Q : α → Int → Prop} {g : Int}
    (silent : Silent c) (rest : ∀ reply, (k reply).wp (ledgerLogic v.event) Q g) :
    (issue c >>= k).wp (ledgerLogic v.event) Q g :=
  wp_ledger_bind (free_of_silent ⟨silent, fun _ => trivial⟩) rest

end Silent

/-! ### What each request and each sweep adds -/

section Accounts

variable {b : Backend} {v : Weights} {g : Int}

theorem wp_joinAsCamera_account {req : JoinRequest} {sess : Session}
    (camera : req.role = "camera") :
    (b.server.joinAsCamera req sess).wp (ledgerLogic v.event)
      (fun a g => g = v.price (.joinSession req) (.join a)) 0 := by
  refine wp_ledger_silent (by simp [Silent]) ?_
  intro created
  cases created with
  | error err => rfl
  | ok info =>
    refine wp_ledger_bind (free_of_store StoreCmd.grantAccess) ?_
    intro granted
    cases granted with
    | error err => exact wp_ledger_silent (by simp [Silent]) fun _ => rfl
    | ok _ =>
      refine wp_ledger_bind (free_of_store StoreCmd.addIngressID) ?_
      intro _
      refine wp_ledger_issue (v.token "camera") (fun _ => rfl) ?_
      intro _
      change 0 + v.token "camera" = v.token req.role
      rw [camera, Int.zero_add]

theorem wp_joinAsDirector_account {req : JoinRequest} {sess : Session}
    (director : req.role = "director") :
    (b.server.joinAsDirector req sess).wp (ledgerLogic v.event)
      (fun a g => g = v.price (.joinSession req) (.join a)) 0 := by
  refine wp_ledger_bind (free_of_store StoreCmd.grantAccess) ?_
  intro granted
  cases granted with
  | error err => rfl
  | ok _ =>
    refine wp_ledger_silent (by simp [Silent]) ?_
    intro now
    split
    · rfl
    · refine wp_ledger_issue (v.token "director") (fun _ => rfl) ?_
      intro _
      change 0 + v.token "director" = v.token req.role
      rw [director, Int.zero_add]

theorem wp_joinSession_account {req : JoinRequest} :
    (b.server.joinSession req).wp (ledgerLogic v.event)
      (fun a g => g = v.price (.joinSession req) (.join a)) 0 := by
  unfold Server.joinSession
  split; · rfl
  split; · rfl
  split; · rfl
  refine wp_ledger_bind (free_of_store StoreCmd.getSessionByRoomCode) ?_
  intro found
  cases found with
  | error err => rfl
  | ok sess =>
    dsimp only
    split; · rfl
    split
    · next camera => exact wp_joinAsCamera_account camera
    split
    · next director => exact wp_joinAsDirector_account director
    · rfl

theorem wp_createSession_account {req : CreateSessionRequest} :
    (b.server.createSession req).wp (ledgerLogic v.event)
      (fun a g => g = v.price (.createSession req) (.create a)) 0 := by
  unfold Server.createSession
  split; · rfl
  split; · rfl
  refine wp_ledger_silent (by simp [Silent]) ?_
  intro id
  refine wp_ledger_bind (free_of_silent silent_newRoomCodeFrom) ?_
  intro drawn
  cases drawn with
  | error err => rfl
  | ok code =>
    refine wp_ledger_silent (by simp [Silent]) ?_
    intro createdAt
    refine wp_ledger_bind (free_of_store StoreCmd.createSession) ?_
    intro stored
    cases stored with
    | error err => rfl
    | ok _ =>
      refine wp_ledger_issue v.createdInc (fun _ => rfl) fun _ => ?_
      refine wp_ledger_issue v.activeInc (fun _ => rfl) fun _ => ?_
      refine wp_ledger_bind (free_of_store StoreCmd.grantAccess) ?_
      intro granted
      cases granted <;> simp [Weights.price, Weights.stored]

theorem wp_closeSession_account {req : CloseSessionRequest} :
    (b.server.closeSession req).wp (ledgerLogic v.event)
      (fun a g => g = v.price (.closeSession req) (.close a)) 0 := by
  unfold Server.closeSession
  split; · rfl
  split; · rfl
  refine wp_ledger_bind (free_of_store StoreCmd.getSessionByRoomCode) ?_
  intro found
  cases found with
  | error err => rfl
  | ok sess =>
    dsimp only
    split; · rfl
    refine wp_ledger_bind (free_of_silent silent_deleteRoom) fun _ => ?_
    refine wp_ledger_bind (free_of_store StoreCmd.updateSessionStatus) ?_
    intro closed
    cases closed with
    | error err => rfl
    | ok _ => exact wp_ledger_issue v.activeDec (fun _ => rfl) fun _ => Int.zero_add _

theorem wp_getMySessions_account {req : GetMySessionsRequest} :
    (b.server.getMySessions req).wp (ledgerLogic v.event) (fun _ g => g = 0) 0 := by
  unfold Server.getMySessions
  split; · rfl
  refine wp_ledger_bind (free_of_store StoreCmd.getUserSessions) ?_
  intro listed
  cases listed <;> rfl

/-- The two changes that a sweep makes for a session cancel. -/
theorem wp_closeExpiredSessions_account {instanceID : String} {sessions : List Session} :
    ((b.janitor instanceID).closeExpiredSessions sessions).wp (ledgerLogic v.event)
      (fun _ g => g = 0) 0 := by
  induction sessions with
  | nil => rfl
  | cons sess sessions ih =>
    rw [Janitor.closeExpiredSessions, Janitor.closeExpiredSession, Prog.bind_assoc]
    refine wp_ledger_bind (free_of_silent silent_deleteRoom) fun _ => ?_
    rw [Prog.bind_assoc]
    refine wp_ledger_bind (free_of_store StoreCmd.updateSessionStatus) ?_
    intro closed
    cases closed with
    | error err => exact ih
    | ok _ =>
      refine wp_ledger_issue v.expiredInc (fun _ => rfl) fun _ => ?_
      refine wp_ledger_issue v.activeDec (fun _ => rfl) fun _ => ?_
      have cancel : (0 : Int) + v.expiredInc + v.activeDec = 0 := by
        rw [Int.zero_add, v.swept]
      rw [cancel]
      exact ih

theorem wp_sweepAt_account {instanceID : String} {now : Nat} :
    ((b.janitor instanceID).sweepAt now).wp (ledgerLogic v.event) (fun _ g => g = 0) 0 := by
  have release : ((b.janitor instanceID).releaseLock).wp (ledgerLogic v.event)
      (fun _ g => g = 0) 0 := wp_ledger_silent (by simp [Silent]) fun _ => rfl
  refine wp_ledger_silent (by simp [Silent]) ?_
  intro taken
  match taken with
  | .error err => rfl
  | .ok false => rfl
  | .ok true =>
    refine wp_ledger_bind (free_of_store StoreCmd.getExpiredSessions) ?_
    intro expired
    cases expired with
    | error err => exact release
    | ok sessions =>
      dsimp only
      rw [Prog.wp_bind]
      refine Prog.wp_mono wp_closeExpiredSessions_account ?_
      intro _ g same
      subst same
      exact release

end Accounts

/-! ### The metrics when no call is in flight -/

section Counters

variable {b : Backend} {faults : Cmd → Err → Prop} {s₀ s : Pool (b.system faults)}
variable {G : Pool (b.system faults) → Move (b.system faults) → Prop}

/-- A command changes the metrics by its own change, whatever fails. -/
theorem exec_metrics {w w' : World} {c : Cmd} {r : c.Reply} (exec : Exec faults w c r w')
    (v : Weights) (f : Metrics → Int) (adds : ∀ m op, f (m.apply op) = f m + v.op op) :
    f w'.metrics = f w.metrics + v.event ⟨c, r⟩ := by
  by_cases metric : ∃ op, c = .metric op
  · obtain ⟨op, rfl⟩ := metric
    rcases exec with performs | ⟨err, _, impossible, _⟩
    · cases performs
      exact adds w.metrics op
    · exact impossible.elim
  · push Not at metric
    have free : v.event ⟨c, r⟩ = 0 := by
      cases c
      case metric op => exact absurd rfl (metric op)
      all_goals rfl
    rw [free, Int.add_zero]
    refine exec.elim (P := fun w' => f w'.metrics = f w.metrics) rfl fun r' performs => ?_
    cases c with
    | redis c =>
      obtain ⟨_, _, rfl⟩ := performs
      rfl
    | metric op => exact absurd rfl (metric op)
    | createIngress req =>
      obtain ⟨_, _, _, rfl⟩ := performs
      rfl
    | newUuid =>
      obtain ⟨_, _, rfl⟩ := performs
      rfl
    | deleteIngress | deleteRoom | timeNow | randInt | after =>
      obtain ⟨_, rfl⟩ := performs
      rfl
    | utcNow =>
      cases performs
      rfl

theorem covers_account (v : Weights) (call : Call) :
    (b.code call).wp (ledgerLogic v.event) (fun a g => g = v.price call a) 0 := by
  have result : ∀ {α : Type} {f : α → Result} {p : Go α},
      p.wp (ledgerLogic v.event) (fun a g => g = v.price call (f a)) 0 →
      (p >>= fun a => Prog.done (f a)).wp (ledgerLogic v.event)
        (fun a g => g = v.price call a) 0 := by
    intro α f p holds
    rw [Prog.wp_bind]
    exact holds
  cases call with
  | store call => exact wp_ledger_of_free (free_of_store (stores_call call))
  | joinSession req => exact result wp_joinSession_account
  | createSession req => exact result wp_createSession_account
  | closeSession req => exact result wp_closeSession_account
  | getMySessions req => exact result (f := .mySessions) wp_getMySessions_account
  | sweepAt instanceID now => exact result (f := fun _ => .swept) wp_sweepAt_account

/-- **Every account is exact**: when no call is in flight, the value of the metrics is what it was
plus the prices of the results, whatever failed. -/
theorem account_exact (v : Weights) (f : Metrics → Int)
    (adds : ∀ m op, f (m.apply op) = f m + v.op op) (none_ : s₀.threads = [])
    (reach : Pool.Reach G s₀ s) (quiet : s.Quiet) :
    f s.world.metrics = f s₀.world.metrics + (s.threads.map (Pool.Reach.due v.price)).sum := by
  refine Pool.Reach.balanced (Y := b.system faults) (f := fun w => f w.metrics) none_
    (fun w c r w' exec => exec_metrics exec v f adds) ?_
    (fun _ call _ => covers_account v call) reach quiet
  intro w t _ holds
  rcases holds with ⟨_, rfl⟩
  rfl

/-- A `JoinSession` for the role that returned credentials. -/
def grantedAs (label : String) (t : Thread (b.system faults)) : Bool :=
  match t.call, t.prog with
  | .joinSession req, .done (.join (.ok _)) => req.role = label
  | _, _ => false

/-- A `CreateSession` whose store call succeeded. -/
def storedSession (t : Thread (b.system faults)) : Bool :=
  match t.call, t.prog with
  | .createSession _, .done (.create r) => Weights.stored r
  | _, _ => false

/-- A `CloseSession` that returned success. -/
def closedSession (t : Thread (b.system faults)) : Bool :=
  match t.call, t.prog with
  | .closeSession _, .done (.close (.ok _)) => true
  | _, _ => false

theorem sum_due {price : Call → Result → Int} {k : Int} {p : Thread (b.system faults) → Bool}
    (threads : List (Thread (b.system faults)))
    (priced : ∀ t, Pool.Reach.due (Y := b.system faults) price t = if p t then k else 0) :
    (threads.map (Pool.Reach.due (Y := b.system faults) price)).sum = k * threads.countP p := by
  induction threads with
  | nil => exact (Int.mul_zero k).symm
  | cons t threads ih =>
    rw [List.map_cons, List.sum_cons, ih, priced t, List.countP_cons]
    split
    · push_cast
      ring
    · push_cast
      ring

/-- The value of one token label. -/
def tokenWeights (label : String) : Weights where
  activeInc := 0
  activeDec := 0
  createdInc := 0
  expiredInc := 0
  token other := if other = label then 1 else 0
  swept := rfl

def createdWeights : Weights where
  activeInc := 0
  activeDec := 0
  createdInc := 1
  expiredInc := 0
  token _ := 0
  swept := rfl

/-- The gauge, less the sessions created, plus the sessions expired. -/
def closedWeights : Weights where
  activeInc := 1
  activeDec := -1
  createdInc := -1
  expiredInc := 1
  token _ := 0
  swept := rfl

theorem adds_token (label : String) (m : Metrics) (op : MetricOp) :
    ((m.apply op).tokenGenerationsTotal label : Int) =
      m.tokenGenerationsTotal label + (tokenWeights label).op op := by
  cases op with
  | tokenGenerationsInc other =>
    simp only [Metrics.apply, Weights.op, tokenWeights, Function.update_apply]
    by_cases same : label = other
    · rw [if_pos same, if_pos same.symm, same]
      rfl
    · rw [if_neg same, if_neg fun eq => same eq.symm, Int.add_zero]
  | _ => exact (Int.add_zero _).symm

theorem adds_created (m : Metrics) (op : MetricOp) :
    ((m.apply op).sessionsCreatedTotal : Int) =
      m.sessionsCreatedTotal + createdWeights.op op := by
  cases op <;> simp [Metrics.apply, Weights.op, createdWeights]

theorem adds_closed (m : Metrics) (op : MetricOp) :
    (m.apply op).sessionsActive - (m.apply op).sessionsCreatedTotal +
        (m.apply op).sessionsExpiredTotal =
      m.sessionsActive - m.sessionsCreatedTotal + m.sessionsExpiredTotal + closedWeights.op op := by
  cases op <;> simp only [Metrics.apply, Weights.op, closedWeights] <;> omega

theorem due_token (label : String) (t : Thread (b.system faults)) :
    Pool.Reach.due (Y := b.system faults) (tokenWeights label).price t =
      if grantedAs label t then 1 else 0 := by
  obtain ⟨call, past, prog⟩ := t
  cases prog with
  | call c k => cases call <;> rfl
  | done a =>
    cases call <;> cases a <;> try rfl
    case joinSession.join req r =>
      cases r with
      | error status => rfl
      | ok reply => simp [Pool.Reach.due, Weights.price, grantedAs, tokenWeights]
    case createSession.create req r =>
      simp [Pool.Reach.due, Weights.price, grantedAs, tokenWeights]
    case closeSession.close req r => cases r <;> rfl

theorem due_created (t : Thread (b.system faults)) :
    Pool.Reach.due (Y := b.system faults) createdWeights.price t =
      if storedSession t then 1 else 0 := by
  obtain ⟨call, past, prog⟩ := t
  cases prog with
  | call c k => cases call <;> rfl
  | done a =>
    cases call <;> cases a <;> try rfl
    case joinSession.join req r => cases r <;> rfl
    case closeSession.close req r => cases r <;> rfl

theorem due_closed (t : Thread (b.system faults)) :
    Pool.Reach.due (Y := b.system faults) closedWeights.price t =
      if closedSession t then -1 else 0 := by
  obtain ⟨call, past, prog⟩ := t
  cases prog with
  | call c k => cases call <;> rfl
  | done a =>
    cases call <;> cases a <;> try rfl
    case joinSession.join req r => cases r <;> rfl
    case createSession.create req r =>
      simp [Pool.Reach.due, Weights.price, closedSession, closedWeights]
    case closeSession.close req r => cases r <;> rfl

/-- **The metrics count the results**: when no call is in flight, whatever calls were made and
whatever failed, the token counter of a role is the number of `JoinSession` calls for it that
returned credentials, the counter of created sessions that of the `CreateSession` calls whose store
call succeeded, and the gauge of active sessions is short of created less expired by the successful
`CloseSession` calls. -/
theorem metrics_count_results (zero : s₀.world.metrics = .zero) (none_ : s₀.threads = [])
    (reach : Pool.Reach G s₀ s) (quiet : s.Quiet) :
    (∀ label, s.world.metrics.tokenGenerationsTotal label = s.threads.countP (grantedAs label)) ∧
    s.world.metrics.sessionsCreatedTotal = s.threads.countP storedSession ∧
    s.world.metrics.sessionsActive = s.world.metrics.sessionsCreatedTotal -
      s.world.metrics.sessionsExpiredTotal - s.threads.countP closedSession := by
  refine ⟨fun label => ?_, ?_, ?_⟩
  · have account := account_exact (tokenWeights label)
      (fun m => (m.tokenGenerationsTotal label : Int)) (adds_token label) none_ reach quiet
    rw [sum_due s.threads (due_token label), zero] at account
    simp only [Metrics.zero] at account
    omega
  · have account := account_exact createdWeights
      (fun m => (m.sessionsCreatedTotal : Int)) adds_created none_ reach quiet
    rw [sum_due s.threads due_created, zero] at account
    simp only [Metrics.zero] at account
    omega
  · have account := account_exact closedWeights
      (fun m => m.sessionsActive - m.sessionsCreatedTotal + m.sessionsExpiredTotal) adds_closed
      none_ reach quiet
    rw [sum_due s.threads due_closed, zero] at account
    simp only [Metrics.zero] at account
    omega

end Counters

namespace Sample

/-- A session is created, joined as a camera, and closed. -/
noncomputable def wholeLife : Option (Pool (system .never)) :=
  replay isRequest
    (.start (.createSession ⟨"alice", 2⟩) :: go 0 (create id₁) ++
      .start (.joinSession ⟨"ROOM-000007", "bob", "camera"⟩) ::
        go 1 ([.plain, .plain, .ingress ⟨"IN_1", "https://whip", "key"⟩] ++
          List.replicate 6 .plain) ++
      .start (.closeSession ⟨"ROOM-000007", "alice"⟩) ::
        go 2 ([.plain, .plain, .order ["IN_1"]] ++ List.replicate 6 .plain))
    (start .never 7)

end Sample

theorem metrics_count_results_run : ∃ s : Pool (Sample.system .never),
    Pool.Reach RequestsOnly (Sample.start .never 7) s ∧ s.Quiet ∧
      s.threads.countP (grantedAs "camera") = 1 ∧ s.threads.countP closedSession = 1 ∧
      (∀ label, s.world.metrics.tokenGenerationsTotal label =
        s.threads.countP (grantedAs label)) ∧
      s.world.metrics.sessionsCreatedTotal = s.threads.countP storedSession ∧
      s.world.metrics.sessionsActive = s.world.metrics.sessionsCreatedTotal -
        s.world.metrics.sessionsExpiredTotal - s.threads.countP closedSession := by
  have observed : (Sample.wholeLife.any fun s => Sample.atRest s &&
      decide (s.threads.countP (grantedAs "camera") = 1 ∧
        s.threads.countP closedSession = 1)) = true := by
    decide +kernel
  obtain ⟨s, computed, observed⟩ := (Option.any_eq_true _ _).mp observed
  obtain ⟨rest, counted⟩ := Bool.and_eq_true_iff.mp observed
  obtain ⟨one, closed⟩ := of_decide_eq_true counted
  have reach := (Sample.reach_of_replay computed).mono fun _ _ => Sample.requestsOnly_of_isRequest
  have quiet := Sample.quiet_of_atRest rest
  exact ⟨s, reach, quiet, one, closed, metrics_count_results rfl rfl reach quiet⟩

end DirectLink
