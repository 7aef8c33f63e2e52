import DirectLink.Session.RedisStore

/-!
# What the store methods do, over any logic

One rule for each store method, for every logic of local states: which commands the method issues
in turn and what it returns, where Redis answers each command (`Logic.Answers`).  A method that is
answered makes a single attempt, so the retry wrapper leaves no trace in these rules.
`wp_retryRedisOp_inv` is the rule for the wrapper when attempts can fail.
-/

namespace DirectLink

variable {L : Logic backend} {s : L.State} {α β : Type}

/-- In `s` the Redis command `c` is allowed, and it is answered, ending in `P`. -/
def Logic.Answers (L : Logic backend) (s : L.State) (c : Redis.Cmd)
    (P : c.Reply → L.State → Prop) : Prop :=
  L.Call s (.redis c) fun r s' => ∃ v, r = .ok v ∧ P v s'

/-- The Redis commands `cs` are allowed and answered one after the other, ending in `P`. -/
def Logic.AnswersAll (L : Logic backend) : L.State → List Redis.Cmd → (L.State → Prop) → Prop
  | s, [], P => P s
  | s, c :: cs, P => L.Answers s c fun _ s' => L.AnswersAll s' cs P

theorem Logic.Answers.mono {c : Redis.Cmd} {P P' : c.Reply → L.State → Prop}
    (answers : L.Answers s c P) (weaken : ∀ v s', P v s' → P' v s') : L.Answers s c P' :=
  Logic.Call.mono answers fun _ s' ⟨v, eq, holds⟩ => ⟨v, eq, weaken v s' holds⟩

theorem wp_redis {c : Redis.Cmd} {Q : Except Err c.Reply → L.State → Prop}
    (answers : L.Answers s c fun v s' => Q (.ok v) s') : (redis c).wp L Q s :=
  Logic.Call.mono answers fun r s' => by
    intro post
    rcases post with ⟨v, rfl, holds⟩
    exact holds

theorem wp_pipeExec {cs : List Redis.Cmd} {Q : Except Err Unit → L.State → Prop}
    (answers : L.AnswersAll s cs fun s' => Q (.ok ()) s') : (pipeExec cs).wp L Q s := by
  induction cs generalizing s Q with
  | nil => exact answers
  | cons c cs ih =>
    rw [pipeExec, Prog.wp_bind]
    refine wp_redis (Logic.Answers.mono answers fun v s' rest => ?_)
    rw [Prog.wp_bind]
    exact ih rest

theorem wp_clientGet {key : String} {Q : Except Err String → L.State → Prop}
    (answers : L.Answers s (.get key) fun v s' =>
      Q (match v with | some value => .ok value | none => .error (.sentinel .redisNil)) s') :
    (clientGet key).wp L Q s := by
  rw [clientGet, Prog.wp_bind]
  refine wp_redis (answers.mono fun v s' holds => ?_)
  cases v <;> exact holds

theorem wp_clientHGet {key name : String} {Q : Except Err String → L.State → Prop}
    (answers : L.Answers s (.hget key name) fun v s' =>
      Q (match v with | some value => .ok value | none => .error (.sentinel .redisNil)) s') :
    (clientHGet key name).wp L Q s := by
  rw [clientHGet, Prog.wp_bind]
  refine wp_redis (answers.mono fun v s' holds => ?_)
  cases v <;> exact holds

/-- Over histories without failures: a command that is allowed is answered. -/
theorem answers_hist {E : Event backend → Prop} {A : List (Event backend) → Cmd → Prop}
    {past : List (Event backend)} {c : Redis.Cmd} {P : c.Reply → List (Event backend) → Prop}
    (clean : ∀ e, E e → e.cmd.Succeeds e.reply) (allowed : A past (.redis c))
    (next : ∀ v, E ⟨.redis c, .ok v⟩ → P v (past ++ [⟨.redis c, .ok v⟩])) :
    (histLogic E A).Answers past c P := by
  refine histLogic_call.mpr ⟨allowed, fun reply expected => ?_⟩
  cases reply with
  | error err => cases clean _ expected
  | ok v => exact ⟨v, rfl, next v expected⟩

/-- Over a ghost state without failures: a command that is allowed is answered. -/
theorem answers_ghost {σ : Type} {E : Event backend → Prop} {step : σ → Event backend → σ}
    {A : σ → Cmd → Prop} {g : σ} {c : Redis.Cmd} {P : c.Reply → σ → Prop}
    (clean : ∀ e, E e → e.cmd.Succeeds e.reply) (allowed : A g (.redis c))
    (next : ∀ v, E ⟨.redis c, .ok v⟩ → P v (step g ⟨.redis c, .ok v⟩)) :
    (ghostLogic E step A).Answers g c P := by
  refine ghostLogic_call.mpr ⟨allowed, fun reply expected => ?_⟩
  cases reply with
  | error err => cases clean _ expected
  | ok v => exact ⟨v, rfl, next v expected⟩

namespace RedisStore

variable {r : RedisStore}

/-! ## The retry wrapper -/

/-- A result that ends the retry loop. -/
def Settled (result : Except Err α) : Prop := ∀ err, result = .error err → isRetryable err = false

@[simp] theorem settled_ok {a : α} : Settled (.ok a : Except Err α) := by
  intro err impossible
  cases impossible

theorem wp_retryFrom {op : Go (Except Err α)} {left attempt : Nat}
    {Q : Except Err α → L.State → Prop}
    (once : op.wp L (fun result s' => Settled result ∧ Q result s') s) :
    (r.retryFrom op left attempt).wp L Q s := by
  cases left with
  | zero => exact Prog.wp_mono once fun _ _ holds => holds.2
  | succ left =>
    rw [retryFrom, Prog.wp_bind]
    refine Prog.wp_mono once fun result s' ⟨settled, holds⟩ => ?_
    cases result with
    | ok a => exact holds
    | error err =>
      dsimp only
      rw [settled err rfl]
      exact holds

/-- An operation that settles at once is attempted once. -/
theorem wp_retryRedisOp {op : Go (Except Err α)} {Q : Except Err α → L.State → Prop}
    (once : op.wp L (fun result s' => Settled result ∧ Q result s') s) :
    (r.retryRedisOp op).wp L Q s :=
  wp_retryFrom once

theorem wp_retryRedisOp_redis {c : Redis.Cmd} {Q : Except Err c.Reply → L.State → Prop}
    (answers : L.Answers s c fun v s' => Q (.ok v) s') :
    (r.retryRedisOp (redis c)).wp L Q s :=
  wp_retryRedisOp (wp_redis (answers.mono fun _ _ holds => ⟨settled_ok, holds⟩))

theorem wp_retryRedisOp_pipeExec {cs : List Redis.Cmd} {Q : Except Err Unit → L.State → Prop}
    (answers : L.AnswersAll s cs fun s' => Q (.ok ()) s') :
    (r.retryRedisOp (pipeExec cs)).wp L Q s := by
  refine wp_retryRedisOp (wp_pipeExec ?_)
  simpa only [settled_ok, true_and] using answers

theorem wp_retryFrom_failing {op : Go (Except Err α)} {left attempt : Nat} {J K : L.State → Prop}
    {Q : Except Err α → L.State → Prop}
    (attempts : ∀ s, J s →
      op.wp L (fun result s' => Q result s' ∧ ∀ err, result = .error err → K s') s)
    (waits : ∀ s backoff, K s → L.Call s (.after backoff) fun reply s' =>
      J s' ∧ ∀ err, reply = .error err → Q (.error err) s')
    (start : J s) : (r.retryFrom op left attempt).wp L Q s := by
  induction left generalizing s attempt with
  | zero => exact Prog.wp_mono (attempts s start) fun _ _ holds => holds.1
  | succ left ih =>
    rw [retryFrom, Prog.wp_bind]
    refine Prog.wp_mono (attempts s start) fun result s' ⟨holds, failed⟩ => ?_
    cases result with
    | ok a => exact holds
    | error err =>
      dsimp only
      split
      · refine Logic.Call.mono (waits s' _ (failed err rfl)) fun reply s'' ⟨kept, ends⟩ => ?_
        cases reply with
        | error ctxErr => exact ends ctxErr rfl
        | ok _ => exact ih kept
      · exact holds

/-- Where every attempt that starts in `J` ends in `Q`, and a wait leads from `K`, where a failed
one has ended, back to `J`, the whole loop ends in `Q`. -/
theorem wp_retryRedisOp_failing {op : Go (Except Err α)} {J K : L.State → Prop}
    {Q : Except Err α → L.State → Prop}
    (attempts : ∀ s, J s →
      op.wp L (fun result s' => Q result s' ∧ ∀ err, result = .error err → K s') s)
    (waits : ∀ s backoff, K s → L.Call s (.after backoff) fun reply s' =>
      J s' ∧ ∀ err, reply = .error err → Q (.error err) s')
    (start : J s) : (r.retryRedisOp op).wp L Q s :=
  wp_retryFrom_failing attempts waits start

/-- Where every attempt ends in `Q` and keeps `J`, as the waits in between do, so does the whole
loop, however many attempts fail. -/
theorem wp_retryRedisOp_inv {op : Go (Except Err α)} {J : L.State → Prop}
    {Q : Except Err α → L.State → Prop}
    (attempts : ∀ s, J s → op.wp L (fun result s' => J s' ∧ Q result s') s)
    (waits : ∀ s backoff, J s → L.Call s (.after backoff) fun reply s' =>
      J s' ∧ ∀ err, reply = .error err → Q (.error err) s')
    (start : J s) : (r.retryRedisOp op).wp L Q s := by
  refine wp_retryRedisOp_failing (fun s' kept => ?_) waits start
  exact Prog.wp_mono (attempts s' kept) fun _ _ ⟨kept, holds⟩ => ⟨holds, fun _ _ => kept⟩

/-! ## The methods -/

theorem wp_createSession {session : Session} {Q : Except Err Unit → L.State → Prop}
    (answers : L.Call s .timeNow fun now s' =>
      L.AnswersAll s' (r.createPipeline session now) fun s'' => Q (.ok ()) s'') :
    (r.createSession session).wp L Q s := by
  refine wp_retryRedisOp (Logic.Call.mono answers fun now s' rest => ?_)
  refine wp_pipeExec ?_
  simpa only [settled_ok, true_and] using rest

theorem wp_getSession {sessionID : String} {Q : Except Err Session → L.State → Prop}
    (answers : L.Answers s (.hgetall (sessionKey sessionID)) fun result s' =>
      Q (parseSession result) s') :
    (r.getSession sessionID).wp L Q s := by
  rw [getSession, Prog.wp_bind]
  exact wp_retryRedisOp_redis answers

theorem wp_getSessionByRoomCode {code : String} {Q : Except Err Session → L.State → Prop}
    (answers : L.Answers s (.get (roomCodeKey code)) fun mapped s' =>
      match mapped with
      | none => Q (.error (.sentinel .invalidRoomCode)) s'
      | some sessionID => L.Answers s' (.hgetall (sessionKey sessionID)) fun result s'' =>
        Q (parseSession result) s'') :
    (r.getSessionByRoomCode code).wp L Q s := by
  rw [getSessionByRoomCode, Prog.wp_bind]
  refine wp_retryRedisOp ?_
  rw [Prog.wp_bind]
  refine wp_clientGet (answers.mono fun mapped s' rest => ?_)
  cases mapped with
  | none =>
    refine ⟨fun err same => ?_, rest⟩
    cases same
    rfl
  | some sessionID => exact ⟨settled_ok, wp_getSession rest⟩

theorem wp_updateSessionStatus {sessionID status : String} {Q : Except Err Unit → L.State → Prop}
    (answers : L.Answers s (.existsKey (sessionKey sessionID)) fun found s' =>
      match found with
      | false => Q (.error (.sentinel .sessionNotFound)) s'
      | true => L.Answers s' (.hset (sessionKey sessionID) [("status", status)]) fun _ s'' =>
        if status = statusClosed then
          L.Answers s'' (.zrem activeSessionsKey sessionID) fun _ s''' => Q (.ok ()) s'''
        else Q (.ok ()) s'') :
    (r.updateSessionStatus sessionID status).wp L Q s := by
  rw [updateSessionStatus, Prog.wp_bind]
  refine wp_retryRedisOp_redis (answers.mono fun found s' rest => ?_)
  cases found with
  | false => exact rest
  | true =>
    rw [Prog.wp_bind]
    refine wp_retryRedisOp_redis (Logic.Answers.mono rest fun _ s'' rest => ?_)
    dsimp only
    split
    · next closing =>
      rw [if_pos closing] at rest
      rw [Prog.wp_bind]
      exact wp_retryRedisOp_redis rest
    · next other =>
      rw [if_neg other] at rest
      exact rest

theorem wp_deleteSession {sessionID : String} {Q : Except Err Unit → L.State → Prop}
    (answers : L.Answers s (.hgetall (sessionKey sessionID)) fun result s' =>
      match parseSession result with
      | .error err => Q (.error err) s'
      | .ok session =>
        L.AnswersAll s' (deletePipeline sessionID session) fun s'' => Q (.ok ()) s'') :
    (r.deleteSession sessionID).wp L Q s := by
  rw [deleteSession, Prog.wp_bind]
  refine wp_getSession (answers.mono fun result s' rest => ?_)
  cases eq : parseSession result with
  | error err =>
    rw [eq] at rest
    exact rest
  | ok session =>
    rw [eq] at rest
    exact wp_retryRedisOp_pipeExec rest

theorem wp_collectExpired_cons {sessionID : String} {sessionIDs : List String}
    {sessions : List Session} {Q : Except Err (List Session) → L.State → Prop}
    (answers : L.Answers s (.hgetall (sessionKey sessionID)) fun result s' =>
      match parseSession result with
      | .error err =>
        if err.is .sessionNotFound then (r.collectExpired sessionIDs sessions).wp L Q s'
        else Q (.error (.wrapped ("failed to get expired session " ++ sessionID ++ ": ") err)) s'
      | .ok session =>
        if session.status = statusClosed then
          L.Answers s' (.zrem activeSessionsKey sessionID) fun _ s'' =>
            (r.collectExpired sessionIDs sessions).wp L Q s''
        else (r.collectExpired sessionIDs (sessions ++ [session])).wp L Q s') :
    (r.collectExpired (sessionID :: sessionIDs) sessions).wp L Q s := by
  rw [collectExpired, Prog.wp_bind]
  refine wp_getSession (answers.mono fun result s' rest => ?_)
  cases eq : parseSession result with
  | error err =>
    rw [eq] at rest
    dsimp only at rest ⊢
    split at rest
    · next missing =>
      rw [if_pos missing]
      exact rest
    · next other =>
      rw [if_neg other]
      exact rest
  | ok session =>
    rw [eq] at rest
    dsimp only at rest ⊢
    split at rest
    · next closed =>
      rw [if_pos closed, Prog.wp_bind]
      exact wp_redis rest
    · next other =>
      rw [if_neg other]
      exact rest

theorem wp_getExpiredSessions {now : Nat} {Q : Except Err (List Session) → L.State → Prop}
    (answers : L.Answers s (.zrangeByScore activeSessionsKey (unix now)) fun sessionIDs s' =>
      (r.collectExpired sessionIDs []).wp L Q s') :
    (r.getExpiredSessions now).wp L Q s := by
  rw [getExpiredSessions, Prog.wp_bind]
  exact wp_retryRedisOp_redis answers

theorem wp_getRole {sessionID userID : String} {Q : Except Err String → L.State → Prop}
    (answers : L.Answers s (.hget (accessKey sessionID) userID) fun role s' =>
      Q (.ok (role.getD "")) s') :
    (r.getRole sessionID userID).wp L Q s := by
  refine wp_retryRedisOp ?_
  rw [Prog.wp_bind]
  refine wp_clientHGet (answers.mono fun role s' holds => ?_)
  cases role <;> exact ⟨settled_ok, holds⟩

theorem wp_grantAccess {sessionID userID role : String} {Q : Except Err Unit → L.State → Prop}
    (answers : L.Answers s (.existsKey (sessionKey sessionID)) fun found s' =>
      match found with
      | false => Q (.error (.sentinel .sessionNotFound)) s'
      | true => L.AnswersAll s'
        [.hset (accessKey sessionID) [(userID, role)], .expire (accessKey sessionID) r.ttl]
          fun s'' => Q (.ok ()) s'') :
    (r.grantAccess sessionID userID role).wp L Q s := by
  rw [grantAccess, Prog.wp_bind]
  refine wp_retryRedisOp_redis (answers.mono fun found s' rest => ?_)
  cases found with
  | false => exact rest
  | true => exact wp_retryRedisOp_pipeExec rest

theorem wp_revokeAccess {sessionID userID : String} {Q : Except Err Unit → L.State → Prop}
    (answers : L.Answers s (.hdel (accessKey sessionID) userID) fun _ s' => Q (.ok ()) s') :
    (r.revokeAccess sessionID userID).wp L Q s :=
  wp_retryRedisOp_redis answers

theorem wp_hasAccess {sessionID userID : String} {Q : Except Err Bool → L.State → Prop}
    (answers : L.Answers s (.hexists (accessKey sessionID) userID) fun found s' =>
      Q (.ok found) s') :
    (r.hasAccess sessionID userID).wp L Q s :=
  wp_retryRedisOp_redis answers

theorem wp_collectUserSessions_cons {userKey sessionID : String} {sessionIDs : List String}
    {sessions : List Session} {Q : Except Err (List Session) → L.State → Prop}
    (answers : L.Answers s (.hgetall (sessionKey sessionID)) fun result s' =>
      match parseSession result with
      | .error err =>
        if err.is .sessionNotFound then
          L.Answers s' (.srem userKey sessionID) fun _ s'' =>
            (r.collectUserSessions userKey sessionIDs sessions).wp L Q s''
        else Q (.error (.wrapped ("failed to get session " ++ sessionID ++ ": ") err)) s'
      | .ok session =>
        (r.collectUserSessions userKey sessionIDs (sessions ++ [session])).wp L Q s') :
    (r.collectUserSessions userKey (sessionID :: sessionIDs) sessions).wp L Q s := by
  rw [collectUserSessions, Prog.wp_bind]
  refine wp_getSession (answers.mono fun result s' rest => ?_)
  cases eq : parseSession result with
  | error err =>
    rw [eq] at rest
    dsimp only at rest ⊢
    split at rest
    · next missing =>
      rw [if_pos missing, Prog.wp_bind]
      exact wp_redis rest
    · next other =>
      rw [if_neg other]
      exact rest
  | ok session =>
    rw [eq] at rest
    exact rest

theorem wp_getUserSessions {userID : String} {Q : Except Err (List Session) → L.State → Prop}
    (answers : L.Answers s (.smembers (userSessionsKey userID)) fun sessionIDs s' =>
      (r.collectUserSessions (userSessionsKey userID) sessionIDs []).wp L Q s') :
    (r.getUserSessions userID).wp L Q s := by
  rw [getUserSessions, Prog.wp_bind]
  exact wp_retryRedisOp_redis answers

theorem wp_addIngressID {sessionID ingressID : String} {Q : Except Err Unit → L.State → Prop}
    (answers : L.AnswersAll s
      [.sadd (ingressKey sessionID) ingressID, .expire (ingressKey sessionID) r.ttl]
        fun s' => Q (.ok ()) s') :
    (r.addIngressID sessionID ingressID).wp L Q s :=
  wp_retryRedisOp_pipeExec answers

theorem wp_getIngressIDs {sessionID : String} {Q : Except Err (List String) → L.State → Prop}
    (answers : L.Answers s (.smembers (ingressKey sessionID)) fun ids s' => Q (.ok ids) s') :
    (r.getIngressIDs sessionID).wp L Q s :=
  wp_retryRedisOp_redis answers

end RedisStore

end DirectLink
