import DirectLink.Interleaving.Duties

/-!
# How far a request has come

Where no command fails, every request and every sweep goes through the same stages in the same
order.  `Stage.next` reads the stage off the events a call has seen; `Stage.Permits` says which
commands are issued at which stage, with the session, the room code and the ingress they are about.
`covers_request` is the one place where the handlers are walked through.
-/

namespace DirectLink

open RedisStore

/-- The stage of a request or a sweep. -/
inductive Stage : Type
  | start
  /-- `CreateSession` has the id of its session and draws room codes. -/
  | drawing (id : String)
  | drawn (id code : String)
  /-- The room code it drew last is not mapped. -/
  | free (id code : String)
  | building (session : Session)
  /-- The hash is written. -/
  | written (session : Session)
  /-- The hash has its expiry. -/
  | dated (session : Session)
  /-- The room code is mapped to the session. -/
  | published (session : Session)
  /-- The session is counted as active. -/
  | counted (session : Session)
  | vouched (session : Session)
  | finished (session : Session)
  /-- `JoinSession` or `CloseSession` has found the session its room code is mapped to. -/
  | looking (id : String)
  /-- A camera found the session open. -/
  | admitted (id : String)
  /-- The access entry is still to be granted; a camera has its ingress. -/
  | holding (id : String) (ingress : Option String)
  /-- The session was found to exist. -/
  | granting (id : String) (ingress : Option String)
  | granted (id : String) (ingress : Option String)
  /-- The ingress is recorded. -/
  | recorded (id : String)
  /-- The session was gone: the ingress is to be deleted again. -/
  | undoing (id ingress : String)
  /-- Sessions still to be read, and sessions found that are to be torn down. -/
  | due (unread found : List String)
  /-- The teardown of a session: ingresses still to be deleted, and sessions after it. -/
  | clearing (id : String) (left found : List String)
  | cleared (id : String) (found : List String)
  /-- The session was found to exist. -/
  | confirmed (id : String) (found : List String)
  /-- The status is written. -/
  | closed (id : String) (found : List String)
  | ended

namespace Stage

/-- Where `JoinSession` and `CloseSession` go from the session they have read. -/
def opened (call : Call) (id : String) (session : Session) : Stage :=
  match call with
  | .joinSession req =>
    if session.status = "closed" then ended
    else if req.role = "camera" then admitted id
    else if req.role = "director" then holding id none
    else ended
  | .closeSession req => if session.createdBy ≠ req.userId then ended else due [] [id]
  | _ => ended

/-- What a sweep makes of the hash of a session with a score in the past. -/
def collected (id : String) (found : List String) (h : Redis.Hash) : List String :=
  match parseSession h with
  | .error _ => found
  | .ok session => if session.status = statusClosed then found else found ++ [id]

/-- The session a `CreateSession` stores. -/
def created (call : Call) (id code : String) (createdAt : UtcTime) : Stage :=
  match call with
  | .createSession req =>
    building ⟨id, code, req.userId, createdAt, req.maxCameras, "active"⟩
  | _ => free id code

/-- The stage after an event. -/
def next (call : Call) (stage : Stage) (e : Event backend) : Stage :=
  match stage with
  | start => match e with
    | ⟨.newUuid, id⟩ => drawing id
    | ⟨.redis (.get _), .ok (some id)⟩ => looking id
    | ⟨.redis (.zrangeByScore _ _), .ok ids⟩ => due ids []
    | _ => start
  | drawing id => match e with
    | ⟨.randInt _, .ok n⟩ => drawn id (roomCodeOf n)
    | _ => drawing id
  | drawn id code => match e with
    | ⟨.redis (.get _), .ok none⟩ => free id code
    | ⟨.redis (.get _), .ok (some _)⟩ => drawing id
    | _ => drawn id code
  | free id code => match e with
    | ⟨.utcNow, createdAt⟩ => created call id code createdAt
    | _ => free id code
  | building session => match e with
    | ⟨.redis (.hset _ _), _⟩ => written session
    | _ => building session
  | written session => match e with
    | ⟨.redis (.expire _ _), _⟩ => dated session
    | _ => written session
  | dated session => match e with
    | ⟨.redis (.set _ _ _), _⟩ => published session
    | _ => dated session
  | published session => match e with
    | ⟨.metric .sessionsActiveInc, _⟩ => counted session
    | _ => published session
  | counted session => match e with
    | ⟨.redis (.existsKey _), .ok true⟩ => vouched session
    | ⟨.redis (.existsKey _), .ok false⟩ => finished session
    | _ => counted session
  | vouched session => match e with
    | ⟨.redis (.hset _ _), _⟩ => finished session
    | _ => vouched session
  | finished session => finished session
  | looking id => match e with
    | ⟨.redis (.hgetall _), .ok h⟩ =>
      match parseSession h with
      | .error _ => ended
      | .ok session => opened call id session
    | _ => looking id
  | admitted id => match e with
    | ⟨.createIngress _, .ok info⟩ => holding id (some info.ingressId)
    | _ => admitted id
  | holding id ingress => match e with
    | ⟨.redis (.existsKey _), .ok true⟩ => granting id ingress
    | ⟨.redis (.existsKey _), .ok false⟩ =>
      match ingress with
      | none => ended
      | some ingressID => undoing id ingressID
    | _ => holding id ingress
  | granting id ingress => match e with
    | ⟨.redis (.hset _ _), _⟩ => granted id ingress
    | _ => granting id ingress
  | granted id ingress => match e with
    | ⟨.redis (.sadd _ _), _⟩ => recorded id
    | _ => granted id ingress
  | recorded id => recorded id
  | undoing id ingress => match e with
    | ⟨.deleteIngress _, _⟩ => ended
    | _ => undoing id ingress
  | due [] (id :: found) => match e with
    | ⟨.redis (.smembers _), .ok ids⟩ => clearing id ids found
    | _ => due [] (id :: found)
  | due (id :: unread) found => match e with
    | ⟨.redis (.hgetall _), .ok h⟩ => due unread (collected id found h)
    | _ => due (id :: unread) found
  | due [] [] => due [] []
  | clearing id (ingress :: left) found => match e with
    | ⟨.deleteIngress _, _⟩ => clearing id left found
    | _ => clearing id (ingress :: left) found
  | clearing id [] found => match e with
    | ⟨.deleteRoom _, _⟩ => cleared id found
    | _ => clearing id [] found
  | cleared id found => match e with
    | ⟨.redis (.existsKey _), .ok true⟩ => confirmed id found
    | ⟨.redis (.existsKey _), .ok false⟩ => due [] found
    | _ => cleared id found
  | confirmed id found => match e with
    | ⟨.redis (.hset _ _), _⟩ => closed id found
    | _ => confirmed id found
  | closed id found => match e with
    | ⟨.metric .sessionsActiveDec, _⟩ => due [] found
    | _ => closed id found
  | ended => ended

/-- The operations issued at a stage, by a store whose keys live for `ttl`. -/
def Permits (ttl : Nat) (stage : Stage) : Op → Prop
  | .getCode code => stage = start ∨ ∃ id, stage = drawn id code
  | .readSession id =>
    stage = start ∨ (∃ id, stage = drawing id) ∨ stage = looking id ∨
      ∃ unread found, stage = due (id :: unread) found
  | .writeSession session => stage = building session
  | .expireSession id t => t = ttl ∧ ∃ session, stage = written session ∧ session.id = id
  | .setCode code id t =>
    t = ttl ∧ ∃ session, stage = dated session ∧ session.id = id ∧ session.roomCode = code
  | .addUserSession _ id | .addActive _ id => ∃ session, stage = published session ∧ session.id = id
  | .expireUser _ _ => ∃ session, stage = published session
  | .existsSession id =>
    (∃ session, stage = counted session ∧ session.id = id) ∨
      (∃ ingress, stage = holding id ingress) ∨ ∃ found, stage = cleared id found
  | .writeRole id _ _ =>
    (∃ session, stage = vouched session ∧ session.id = id) ∨ ∃ ingress, stage = granting id ingress
  | .expireAccess id _ =>
    (∃ session, stage = finished session ∧ session.id = id) ∨ ∃ ingress, stage = granted id ingress
  | .addIngress id ingress => stage = granted id (some ingress)
  | .expireIngress id t => t = ttl ∧ stage = recorded id
  | .readIngress id => ∃ found, stage = due [] (id :: found)
  | .writeStatus id status => status = statusClosed ∧ ∃ found, stage = confirmed id found
  | .dropActive id =>
    (∃ found, stage = closed id found) ∨ ∃ unread found, stage = due unread found
  | .readUser _ | .dropUserSession _ _ | .readActive _ | .takeLock _ _ => stage = start
  | .dropLock _ => stage = start ∨ ∃ unread found, stage = due unread found
  | .delCode _ | .delSession _ | .delAccess _ | .dropRole _ _ | .readRole _ _ | .hasRole _ _
  | .ping => False

/-- The commands issued at a stage. -/
def Issues (ttl : Nat) (stage : Stage) : Cmd → Prop
  | .redis c => ∃ op : Op, op.Wf ∧ op.cmd = c ∧ stage.Permits ttl op
  | .newUuid => stage = start
  | .randInt _ => ∃ id, stage = drawing id
  | .utcNow => ∃ id code, stage = free id code
  | .createIngress req => ∃ id, stage = admitted id ∧ req.roomName = id
  | .deleteIngress ingress =>
    (∃ id left found, stage = clearing id (ingress :: left) found) ∨
      ∃ id, stage = undoing id ingress
  | .deleteRoom id => ∃ found, stage = clearing id [] found
  | .metric .sessionsActiveInc => ∃ session, stage = published session
  | .metric .sessionsActiveDec => ∃ id found, stage = closed id found
  | .metric _ | .timeNow | .after _ => True

/-- Nothing begun is left undone. -/
def Settled : Stage → Prop
  | start | drawing _ | drawn _ _ | finished _ | looking _ | granted _ none | recorded _ | due _ _
  | ended => True
  | _ => False

end Stage

/-- The stage of a call that has seen `past`. -/
def stageOf (call : Call) (past : List (Event backend)) : Stage :=
  past.foldl (Stage.next call) .start

@[simp] theorem stageOf_nil (call : Call) : stageOf call [] = .start := rfl

theorem stageOf_append (call : Call) (past : List (Event backend)) (e : Event backend) :
    stageOf call (past ++ [e]) = (stageOf call past).next call e := by
  rw [stageOf, List.foldl_append]
  rfl

/-- The stages as a contract: what is issued is issued at its stage, and a call returns at a stage
where nothing is left undone. -/
@[reducible] def Backend.staged (b : Backend) : Contract (b.system noFaults) where
  Expects e := e.cmd.Succeeds e.reply ∧ e.cmd.Sound e.reply
  Allows call past c := (stageOf call past).Issues b.server.store.ttl c
  Post call result past :=
    (stageOf call past).Settled ∧ ∀ code, result = .create (.ok ⟨code⟩) →
      ∃ session, stageOf call past = .finished session ∧ session.roomCode = code

/-! ## Every request goes through its stages -/

section Covers

variable {b : Backend} {call : Call} {α : Type}

/-- The logic of the stages. -/
abbrev stageLogic (b : Backend) (call : Call) : Logic backend :=
  ghostLogic b.staged.Expects (Stage.next call) (Stage.Issues b.server.store.ttl)

/-- A handler whose result is settled keeps the contract. -/
theorem covers_of_stages {p : Go α} {f : α → Result}
    (code : b.code call = p >>= fun a => .done (f a))
    (holds : p.wp (stageLogic b call) (fun a stage => stage.Settled ∧
      ∀ roomCode, f a = .create (.ok ⟨roomCode⟩) →
        ∃ session, stage = .finished session ∧ session.roomCode = roomCode) .start) :
    b.staged.Covers call := by
  have whole : (b.code call).wp (stageLogic b call) (fun result stage => stage.Settled ∧
      ∀ roomCode, result = .create (.ok ⟨roomCode⟩) →
        ∃ session, stage = .finished session ∧ session.roomCode = roomCode)
      (([] : List (Event backend)).foldl (Stage.next call) .start) := by
    rw [code, Prog.wp_bind]
    exact holds
  exact Prog.wp_of_ghost whole

/-- A handler that creates no session need only be settled when it returns. -/
theorem covers_of_settled {p : Go α} {f : α → Result}
    (code : b.code call = p >>= fun a => .done (f a))
    (other : ∀ a reply, f a ≠ .create reply)
    (holds : p.wp (stageLogic b call) (fun _ (stage : Stage) => stage.Settled) .start) :
    b.staged.Covers call := by
  refine covers_of_stages code (Prog.wp_mono holds ?_)
  intro a stage settled
  exact ⟨settled, fun roomCode impossible => absurd impossible (other a _)⟩

/-- An operation at its stage. -/
theorem answers_stage {stage : Stage} (op : Op) {P : op.cmd.Reply → Stage → Prop} (wf : op.Wf)
    (permitted : stage.Permits b.server.store.ttl op)
    (next : ∀ v, op.cmd.Sound v → P v (stage.next call ⟨.redis op.cmd, .ok v⟩)) :
    (stageLogic b call).Answers stage op.cmd P := by
  refine answers_ghost (fun e expected => expected.1) ⟨op, wf, rfl, permitted⟩ ?_
  intro v expected
  exact next v expected.2

/-- A command that is not one of Redis, at its stage. -/
theorem call_stage {stage : Stage} {c : Cmd} {P : c.Reply → Stage → Prop}
    (issued : stage.Issues b.server.store.ttl c)
    (next : ∀ r, c.Succeeds r → c.Sound r → P r (stage.next call ⟨c, r⟩)) :
    (stageLogic b call).Call stage c P := by
  refine ghostLogic_call.mpr ⟨issued, ?_⟩
  intro r expected
  exact next r expected.1 expected.2

theorem issue_stage {stage : Stage} {c : Cmd} {f : c.Reply → Go α} {Q : α → Stage → Prop}
    (issued : stage.Issues b.server.store.ttl c)
    (next : ∀ r, c.Succeeds r → c.Sound r →
      (f r).wp (stageLogic b call) Q (stage.next call ⟨c, r⟩)) :
    (issue c >>= f).wp (stageLogic b call) Q stage :=
  call_stage issued next

/-- The lookup of a room code makes no other error one of an unknown room code. -/
theorem parseSession_error {h : Redis.Hash} {err : Err} (failed : parseSession h = .error err) :
    err.is .invalidRoomCode = false := by
  rw [parseSession] at failed
  split at failed
  · cases failed
    rfl
  · split at failed
    · cases failed
      rfl
    · split at failed <;> cases failed
      rfl

theorem wp_newRoomCodeFrom_stage {r : RedisStore} {id : String} {attempts : Nat} :
    (newRoomCodeFrom r attempts).wp (stageLogic b call) (fun result stage =>
      (∃ code, code ≠ "" ∧ result = .ok code ∧ stage = .free id code) ∨
        (∃ err, result = .error err) ∧ stage = .drawing id) (.drawing id) := by
  induction attempts with
  | zero => exact .inr ⟨⟨_, rfl⟩, rfl⟩
  | succ attempts ih =>
    rw [newRoomCodeFrom]
    refine issue_stage ⟨id, rfl⟩ ?_
    intro drawn drew _
    cases drawn with
    | error err => cases drew
    | ok n =>
      dsimp only
      rw [Prog.wp_bind]
      refine wp_getSessionByRoomCode ?_
      refine answers_stage (.getCode (roomCodeOf n)) trivial (.inr ⟨id, rfl⟩) ?_
      intro mapped sound
      cases mapped with
      | none => exact .inl ⟨_, roomCodeOf_ne_empty n, rfl, rfl⟩
      | some other =>
        refine answers_stage (.readSession other) (sound _ rfl other rfl)
          (.inr (.inl ⟨id, rfl⟩)) ?_
        intro h _
        cases parsed : parseSession h with
        | ok session => exact ih
        | error err =>
          dsimp only
          rw [if_neg (by simp [parseSession_error parsed])]
          exact .inr ⟨⟨_, rfl⟩, rfl⟩

/-- The grant of access by a join. -/
theorem wp_grantAccess_join {r : RedisStore} {id userID role : String} {ingress : Option String}
    (uuid : isUuid id = true) :
    (r.grantAccess id userID role).wp (stageLogic b call) (fun result stage =>
      (result = .ok () ∧ stage = .granted id ingress) ∨
        (∃ err, result = .error err) ∧ stage = ingress.elim .ended (.undoing id))
      (.holding id ingress) := by
  refine wp_grantAccess ?_
  refine answers_stage (.existsSession id) uuid (.inr (.inl ⟨ingress, rfl⟩)) ?_
  intro found _
  cases found with
  | false =>
    refine .inr ⟨⟨_, rfl⟩, ?_⟩
    cases ingress <;> rfl
  | true =>
    refine answers_stage (.writeRole id userID role) uuid (.inr ⟨ingress, rfl⟩) ?_
    intro _ _
    refine answers_stage (.expireAccess id _) ⟨uuid, r.ttl_pos⟩ (.inr ⟨ingress, rfl⟩) ?_
    intro _ _
    exact .inl ⟨rfl, rfl⟩

/-- The grant of access by a creation. -/
theorem wp_grantAccess_create {r : RedisStore} (session : Session) {userID role : String}
    (uuid : isUuid session.id = true) :
    (r.grantAccess session.id userID role).wp (stageLogic b call)
      (fun _ stage => stage = .finished session) (.counted session) := by
  refine wp_grantAccess ?_
  refine answers_stage (.existsSession session.id) uuid (.inl ⟨session, rfl, rfl⟩) ?_
  intro found _
  cases found with
  | false => rfl
  | true =>
    refine answers_stage (.writeRole session.id userID role) uuid (.inl ⟨session, rfl, rfl⟩) ?_
    intro _ _
    refine answers_stage (.expireAccess session.id _) ⟨uuid, r.ttl_pos⟩
      (.inl ⟨session, rfl, rfl⟩) ?_
    intro _ _
    rfl

/-- The pipeline of a creation. -/
theorem wp_createSession_stage {session : Session} (uuid : isUuid session.id = true)
    (nonempty : session.roomCode ≠ "") :
    (b.server.store.createSession session).wp (stageLogic b call)
      (fun result stage => result = .ok () ∧ stage = .published session) (.building session) := by
  refine wp_createSession (call_stage trivial ?_)
  intro now _ _
  rw [createPipeline_eq, createOps, indexOps, if_pos nonempty]
  refine answers_stage (.writeSession session) uuid rfl ?_
  intro _ _
  refine answers_stage (.expireSession session.id _) ⟨uuid, ttl_pos _⟩ ⟨rfl, session, rfl, rfl⟩ ?_
  intro _ _
  refine answers_stage (.setCode session.roomCode session.id _) uuid
    ⟨rfl, session, rfl, rfl, rfl⟩ ?_
  intro _ _
  refine answers_stage (.addUserSession session.createdBy session.id) uuid
    ⟨session, rfl, rfl⟩ ?_
  intro _ _
  refine answers_stage (.expireUser session.createdBy _) (ttl_pos _) ⟨session, rfl⟩ ?_
  intro _ _
  refine answers_stage (.addActive _ session.id) uuid ⟨session, rfl, rfl⟩ ?_
  intro _ _
  exact ⟨rfl, rfl⟩

theorem covers_createSession_stages {req : CreateSessionRequest} :
    b.staged.Covers (.createSession req) := by
  refine covers_of_stages rfl ?_
  have failed : ∀ {status : Status} {stage : Stage}, stage.Settled →
      stage.Settled ∧ ∀ roomCode,
        Result.create (.error status) = .create (.ok ⟨roomCode⟩) →
          ∃ session, stage = .finished session ∧ session.roomCode = roomCode := by
    intro status stage settled
    exact ⟨settled, fun roomCode impossible => by cases impossible⟩
  rw [Server.createSession]
  split; · exact failed trivial
  split; · exact failed trivial
  refine issue_stage rfl ?_
  intro id _ uuid
  have uuid : isUuid id = true := uuid
  rw [newRoomCode, Prog.wp_bind]
  refine Prog.wp_mono wp_newRoomCodeFrom_stage ?_
  intro drawn stage outcome
  rcases outcome with ⟨code, nonempty, rfl, rfl⟩ | ⟨⟨err, rfl⟩, rfl⟩
  · refine issue_stage ⟨id, code, rfl⟩ ?_
    intro createdAt _ _
    rw [Prog.wp_bind]
    refine Prog.wp_mono (wp_createSession_stage uuid nonempty) ?_
    intro stored stage outcome
    obtain ⟨rfl, rfl⟩ := outcome
    refine issue_stage trivial ?_
    intro _ _ _
    refine issue_stage ⟨_, rfl⟩ ?_
    intro _ _ _
    rw [Prog.wp_bind]
    refine Prog.wp_mono (wp_grantAccess_create
      ⟨id, code, req.userId, createdAt, req.maxCameras, "active"⟩ uuid) ?_
    intro granted stage finished
    subst finished
    cases granted with
    | error err => exact failed trivial
    | ok _ =>
      refine ⟨trivial, fun roomCode same => ?_⟩
      cases same
      exact ⟨_, rfl, rfl⟩
  · exact failed trivial

/-- The lookup by which a join or a close finds its session. -/
theorem wp_getSessionByRoomCode_stage {r : RedisStore} {code : String}
    {Q : Except Err Session → Stage → Prop}
    (ok : ∀ id session, isUuid id = true → session.id = id →
      Q (.ok session) (Stage.opened call id session))
    (failed : ∀ err, ∀ stage ∈ [Stage.start, Stage.ended], Q (.error err) stage) :
    (r.getSessionByRoomCode code).wp (stageLogic b call) Q .start := by
  refine wp_getSessionByRoomCode ?_
  refine answers_stage (.getCode code) trivial (.inl rfl) ?_
  intro mapped sound
  cases mapped with
  | none => exact failed _ _ List.mem_cons_self
  | some id =>
    have uuid : isUuid id = true := sound code rfl id rfl
    refine answers_stage (.readSession id) uuid (.inr (.inr (.inl rfl))) ?_
    intro h read
    cases parsed : parseSession h with
    | error err =>
      have moved :
          Stage.next call (.looking id) ⟨.redis (Op.readSession id).cmd, .ok h⟩ = .ended := by
        rw [Stage.next, parsed]
      change Q _ (Stage.next call (.looking id) _)
      rw [moved]
      exact failed _ _ (List.mem_cons_of_mem _ List.mem_cons_self)
    | ok session =>
      have moved : Stage.next call (.looking id) ⟨.redis (Op.readSession id).cmd, .ok h⟩ =
          .opened call id session := by
        rw [Stage.next, parsed]
      change Q _ (Stage.next call (.looking id) _)
      rw [moved]
      exact ok id session uuid (id_of_sound uuid read parsed)

theorem covers_joinSession_stages {req : JoinRequest} : b.staged.Covers (.joinSession req) := by
  refine covers_of_settled rfl (fun _ _ impossible => by cases impossible) ?_
  rw [Server.joinSession]
  split; · trivial
  split; · trivial
  split; · trivial
  rw [Prog.wp_bind]
  refine wp_getSessionByRoomCode_stage ?_ ?_
  · intro id session uuid own
    subst own
    dsimp only
    rw [Stage.opened]
    split; · trivial
    split
    · refine issue_stage ⟨session.id, rfl, rfl⟩ ?_
      intro created made _
      cases created with
      | error err => cases made
      | ok info =>
        dsimp only
        rw [Prog.wp_bind]
        refine Prog.wp_mono (wp_grantAccess_join uuid) ?_
        intro granted stage outcome
        rcases outcome with ⟨rfl, rfl⟩ | ⟨⟨err, rfl⟩, rfl⟩
        · dsimp only
          rw [Prog.wp_bind]
          refine wp_addIngressID ?_
          refine answers_stage (.addIngress session.id info.ingressId) uuid rfl ?_
          intro _ _
          refine answers_stage (.expireIngress session.id _) ⟨uuid, ttl_pos _⟩ ⟨rfl, rfl⟩ ?_
          intro _ _
          exact issue_stage trivial fun _ _ _ => trivial
        · exact issue_stage (.inr ⟨session.id, rfl⟩) fun _ _ _ => trivial
    · split
      · rw [Server.joinAsDirector, Prog.wp_bind]
        refine Prog.wp_mono (wp_grantAccess_join uuid) ?_
        intro granted stage outcome
        rcases outcome with ⟨rfl, rfl⟩ | ⟨⟨err, rfl⟩, rfl⟩
        · refine issue_stage trivial ?_
          intro now _ _
          split
          · trivial
          · exact issue_stage trivial fun _ _ _ => trivial
        · trivial
      · trivial
  · intro err stage member
    simp only [List.mem_cons, List.not_mem_nil, or_false] at member
    rcases member with rfl | rfl <;> trivial

/-- The deletions of a teardown. -/
theorem wp_deleteIngresses_stage {id : String} {left found : List String} {errs : List Err} :
    (deleteIngresses left errs).wp (stageLogic b call)
      (fun _ stage => stage = .clearing id [] found) (.clearing id left found) := by
  induction left generalizing errs with
  | nil => rfl
  | cons ingress left ih =>
    rw [deleteIngresses]
    refine issue_stage (.inl ⟨id, left, found, rfl⟩) ?_
    intro reply _ _
    cases reply <;> exact ih

/-- The teardown of the first session found. -/
theorem wp_deleteRoom_stage {id : String} {found : List String} (uuid : isUuid id = true) :
    (b.server.deleteRoom id).wp (stageLogic b call) (fun _ stage => stage = .cleared id found)
      (.due [] (id :: found)) := by
  have finish : ∀ errs : List Err, (finishRoom id errs).wp (stageLogic b call)
      (fun _ stage => stage = .cleared id found) (.clearing id [] found) := by
    intro errs
    refine issue_stage ⟨found, rfl⟩ ?_
    intro reply _ _
    cases reply <;> rfl
  rw [Server.deleteRoom, Prog.wp_bind]
  refine wp_getIngressIDs ?_
  refine answers_stage (.readIngress id) uuid ⟨found, rfl⟩ ?_
  intro ids _
  dsimp only
  rw [Prog.wp_bind]
  refine Prog.wp_mono wp_deleteIngresses_stage ?_
  intro errs stage cleared
  subst cleared
  exact finish errs

/-- The status write of a teardown. -/
theorem wp_updateSessionStatus_stage {r : RedisStore} {id : String} {found : List String}
    (uuid : isUuid id = true) :
    (r.updateSessionStatus id statusClosed).wp (stageLogic b call) (fun result stage =>
      (result = .ok () ∧ stage = .closed id found) ∨
        (∃ err, result = .error err) ∧ stage = .due [] found) (.cleared id found) := by
  refine wp_updateSessionStatus ?_
  refine answers_stage (.existsSession id) uuid (.inr (.inr ⟨found, rfl⟩)) ?_
  intro exists_ _
  cases exists_ with
  | false => exact .inr ⟨⟨_, rfl⟩, rfl⟩
  | true =>
    refine answers_stage (.writeStatus id statusClosed) uuid ⟨rfl, found, rfl⟩ ?_
    intro _ _
    rw [if_pos rfl]
    refine answers_stage (.dropActive id) uuid (.inl ⟨found, rfl⟩) ?_
    intro _ _
    exact .inl ⟨rfl, rfl⟩

theorem covers_closeSession_stages {req : CloseSessionRequest} :
    b.staged.Covers (.closeSession req) := by
  refine covers_of_settled rfl (fun _ _ impossible => by cases impossible) ?_
  rw [Server.closeSession]
  split; · trivial
  split; · trivial
  rw [Prog.wp_bind]
  refine wp_getSessionByRoomCode_stage ?_ ?_
  · intro id session uuid own
    subst own
    dsimp only
    rw [Stage.opened]
    split; · trivial
    rw [Prog.wp_bind]
    refine Prog.wp_mono (wp_deleteRoom_stage uuid) ?_
    intro _ stage cleared
    subst cleared
    rw [Prog.wp_bind]
    refine Prog.wp_mono (wp_updateSessionStatus_stage uuid) ?_
    intro updated stage outcome
    rcases outcome with ⟨rfl, rfl⟩ | ⟨⟨err, rfl⟩, rfl⟩
    · exact issue_stage ⟨session.id, [], rfl⟩ fun _ _ _ => trivial
    · trivial
  · intro err stage member
    simp only [List.mem_cons, List.not_mem_nil, or_false] at member
    rcases member with rfl | rfl <;> trivial

theorem wp_collectUserSessions_stage {r : RedisStore} {userID : String} {ids : List String}
    {sessions : List Session} (uuid : ∀ id ∈ ids, isUuid id = true) :
    (r.collectUserSessions (userSessionsKey userID) ids sessions).wp (stageLogic b call)
      (fun _ stage => stage = .start) .start := by
  induction ids generalizing sessions with
  | nil => rfl
  | cons id ids ih =>
    have isId := uuid id List.mem_cons_self
    have rest : ∀ sessions, (r.collectUserSessions (userSessionsKey userID) ids sessions).wp
        (stageLogic b call) (fun _ stage => stage = .start) .start :=
      fun sessions => ih fun other member => uuid other (List.mem_cons_of_mem _ member)
    refine wp_collectUserSessions_cons ?_
    refine answers_stage (.readSession id) isId (.inl rfl) ?_
    intro h _
    cases parseSession h with
    | ok session => exact rest _
    | error err =>
      dsimp only
      split
      · exact answers_stage (.dropUserSession userID id) isId rfl fun _ _ => rest _
      · rfl

theorem covers_getMySessions_stages {req : GetMySessionsRequest} :
    b.staged.Covers (.getMySessions req) := by
  refine covers_of_settled rfl (fun _ _ impossible => by cases impossible) ?_
  rw [Server.getMySessions]
  split; · trivial
  rw [Prog.wp_bind]
  refine wp_getUserSessions ?_
  refine answers_stage (.readUser req.userId) trivial rfl ?_
  intro ids sound
  refine Prog.wp_mono (wp_collectUserSessions_stage (sound.2 req.userId rfl)) ?_
  intro listed stage started
  subst started
  cases listed <;> trivial

/-! ### Sweeps -/

/-- The sessions a sweep collects are those its stage says. -/
theorem wp_collectExpired_stage {r : RedisStore} {ids : List String} {sessions : List Session}
    {Q : Except Err (List Session) → Stage → Prop} (uuid : ∀ id ∈ ids, isUuid id = true)
    (found : ∀ session ∈ sessions, isUuid session.id = true)
    (ok : ∀ sessions, (∀ session ∈ sessions, isUuid session.id = true) →
      Q (.ok sessions) (.due [] (sessions.map Session.id)))
    (failed : ∀ err unread found, Q (.error err) (.due unread found)) :
    (r.collectExpired ids sessions).wp (stageLogic b call) Q
      (.due ids (sessions.map Session.id)) := by
  induction ids generalizing sessions with
  | nil => exact ok sessions found
  | cons id ids ih =>
    have isId := uuid id List.mem_cons_self
    have rest := fun (sessions : List Session)
        (found : ∀ session ∈ sessions, isUuid session.id = true) =>
      ih (fun other member => uuid other (List.mem_cons_of_mem _ member)) found
    refine wp_collectExpired_cons ?_
    refine answers_stage (.readSession id) isId (.inr (.inr (.inr ⟨ids, _, rfl⟩))) ?_
    intro h read
    have moved : Stage.next call (.due (id :: ids) (sessions.map Session.id))
        ⟨.redis (Op.readSession id).cmd, .ok h⟩ =
        .due ids (Stage.collected id (sessions.map Session.id) h) := rfl
    rw [moved]
    cases parsed : parseSession h with
    | error err =>
      rw [Stage.collected, parsed]
      dsimp only
      split
      · exact rest sessions found
      · exact failed _ _ _
    | ok session =>
      have own : session.id = id := id_of_sound isId read parsed
      rw [Stage.collected, parsed]
      dsimp only
      split
      · refine answers_stage (.dropActive id) isId (.inr ⟨ids, _, rfl⟩) ?_
        intro _ _
        cases ids <;> cases sessions <;> exact rest _ found
      · have appended : sessions.map Session.id ++ [id] =
            (sessions ++ [session]).map Session.id := by
          rw [List.map_append, ← own]
          rfl
        rw [appended]
        refine rest _ ?_
        intro other member
        rcases List.mem_append.mp member with old | new
        · exact found other old
        · rw [List.mem_singleton.mp new, own]
          exact isId

theorem wp_closeExpiredSession_stage {instanceID : String} {session : Session}
    {found : List String} (uuid : isUuid session.id = true) :
    ((b.janitor instanceID).closeExpiredSession session).wp (stageLogic b call)
      (fun _ stage => stage = .due [] found) (.due [] (session.id :: found)) := by
  rw [Janitor.closeExpiredSession, Prog.wp_bind]
  refine Prog.wp_mono (wp_deleteRoom_stage uuid) ?_
  intro _ stage cleared
  subst cleared
  rw [Prog.wp_bind]
  refine Prog.wp_mono (wp_updateSessionStatus_stage uuid) ?_
  intro updated stage outcome
  rcases outcome with ⟨rfl, rfl⟩ | ⟨⟨err, rfl⟩, rfl⟩
  · refine issue_stage trivial ?_
    intro _ _ _
    exact call_stage ⟨session.id, found, rfl⟩ fun _ _ _ => rfl
  · rfl

theorem wp_closeExpiredSessions_stage {instanceID : String} {sessions : List Session}
    (uuid : ∀ session ∈ sessions, isUuid session.id = true) :
    ((b.janitor instanceID).closeExpiredSessions sessions).wp (stageLogic b call)
      (fun _ stage => stage = .due [] []) (.due [] (sessions.map Session.id)) := by
  induction sessions with
  | nil => rfl
  | cons session sessions ih =>
    rw [Janitor.closeExpiredSessions, Prog.wp_bind]
    refine Prog.wp_mono (wp_closeExpiredSession_stage (uuid session List.mem_cons_self)) ?_
    intro _ stage closed
    subst closed
    exact ih fun other member => uuid other (List.mem_cons_of_mem _ member)

theorem covers_sweepAt_stages {instanceID : String} {now : Nat} :
    b.staged.Covers (.sweepAt instanceID now) := by
  refine covers_of_settled (f := fun _ => .swept) rfl (fun _ _ impossible => by cases impossible) ?_
  have release : ∀ unread found, ((b.janitor instanceID).releaseLock).wp
      (stageLogic b (.sweepAt instanceID now)) (fun _ (stage : Stage) => stage.Settled)
      (.due unread found) := by
    intro unread found
    rw [Janitor.releaseLock, Prog.wp_bind]
    refine wp_redis (answers_stage (.dropLock instanceID) trivial (.inr ⟨unread, found, rfl⟩) ?_)
    intro _ _
    cases unread <;> cases found <;> trivial
  rw [Janitor.sweepAt, Prog.wp_bind]
  refine wp_redis (answers_stage (.takeLock instanceID _) trivial rfl ?_)
  intro taken _
  cases taken with
  | false => trivial
  | true =>
    dsimp only
    rw [Prog.wp_bind]
    refine wp_getExpiredSessions ?_
    refine answers_stage (.readActive (unix now)) trivial rfl ?_
    intro ids sound
    have nothing : ∀ session ∈ ([] : List Session), isUuid session.id = true :=
      fun session impossible => by cases impossible
    refine wp_collectExpired_stage sound.2 nothing ?_ fun _ unread found => release unread found
    intro sessions uuid
    dsimp only
    rw [Prog.wp_bind]
    refine Prog.wp_mono (wp_closeExpiredSessions_stage uuid) ?_
    intro _ stage closed
    subst closed
    exact release [] []

/-- Every request and every sweep goes through its stages. -/
theorem covers_request {call : Call} (request : call.isStore = false) : b.staged.Covers call := by
  cases call with
  | store _ => cases request
  | joinSession _ => exact covers_joinSession_stages
  | createSession _ => exact covers_createSession_stages
  | closeSession _ => exact covers_closeSession_stages
  | getMySessions _ => exact covers_getMySessions_stages
  | sweepAt _ _ => exact covers_sweepAt_stages

end Covers

/-! ## Reachable states -/

section Reach

variable {b : Backend} {G : Pool (b.system noFaults) → Move (b.system noFaults) → Prop}
variable {s₀ s : Pool (b.system noFaults)}

/-- The stage of a thread. -/
def Thread.stage (t : Thread (b.system noFaults)) : Stage := stageOf t.call t.past

@[simp] theorem stage_moved {t : Thread (b.system noFaults)} {e : Event backend}
    {prog : Go Result} :
    (⟨t.call, t.past ++ [e], prog⟩ : Thread (b.system noFaults)).stage = t.stage.next t.call e :=
  stageOf_append t.call t.past e

/-- What happens when a command is issued at its stage: an operation is answered, or Redis is left
alone. -/
inductive Stage.Acts (ttl : Nat) (stage : Stage) (w : World) (e : Event backend) (w' : World) : Prop
  | op (op : Op) (o : Redis.Order) (wf : op.Wf) (permitted : stage.Permits ttl op)
    (answered : e = ⟨.redis op.cmd, .ok (op.reply o (op.entry w.redis))⟩) (after : w' = w.after op)
  | other (away : ∀ c, e.cmd ≠ .redis c) (issued : stage.Issues ttl e.cmd)
    (performs : Performs w e.cmd e.reply w')

theorem Stage.Issues.acts {stage : Stage} {ttl : Nat} {w w' : World} {c : Cmd} {r : c.Reply}
    (issued : stage.Issues ttl c) (typed : Typed w.redis) (exec : Exec noFaults w c r w') :
    stage.Acts ttl w ⟨c, r⟩ w' := by
  rcases exec with performs | ⟨err, impossible, _⟩
  · cases c
    case redis c =>
      obtain ⟨op, wf, rfl, permitted⟩ := issued
      obtain ⟨o, rfl, rfl⟩ := performs_op typed wf performs
      exact .op op o wf permitted rfl rfl
    all_goals exact .other (fun c' => by simp) issued performs
  · exact impossible.elim

/-- The operation that was answered a value looked up by `GET`. -/
theorem getCode_of_answered {op : Op} {o : Redis.Order} {entry : Option Redis.Entry} {key : String}
    {v : Option String}
    (answered : (⟨.redis (.get key), .ok v⟩ : Event backend) =
      ⟨.redis op.cmd, .ok (op.reply o entry)⟩) :
    ∃ code, op = .getCode code ∧ v = strOf entry := by
  cases op
  case getCode code =>
    refine ⟨code, rfl, ?_⟩
    have same : key = roomCodeKey code := by
      have := congrArg Event.cmd answered
      cases this
      rfl
    subst same
    have replies := eq_of_heq (Event.mk.inj answered).2
    exact Except.ok.inj replies
  all_goals cases congrArg Event.cmd answered

/-- The operation that was answered members with their scores in a range. -/
theorem readActive_of_answered {op : Op} {o : Redis.Order} {entry : Option Redis.Entry}
    {key : String} {stop : Int} {ids : List String}
    (answered : (⟨.redis (.zrangeByScore key stop), .ok ids⟩ : Event backend) =
      ⟨.redis op.cmd, .ok (op.reply o entry)⟩) :
    op = .readActive stop ∧ ids = o.list ((zsetOf entry).upTo stop) := by
  cases op
  case readActive other =>
    have same : key = activeSessionsKey ∧ stop = other := by
      have := congrArg Event.cmd answered
      cases this
      exact ⟨rfl, rfl⟩
    obtain ⟨rfl, rfl⟩ := same
    have replies := eq_of_heq (Event.mk.inj answered).2
    exact ⟨rfl, Except.ok.inj replies⟩
  all_goals cases congrArg Event.cmd answered

/-- **Stages**: however requests and sweeps interleave, each issues only what its stage permits. -/
theorem reach_stages (typed : Typed s₀.world.redis) (none_ : s₀.threads = [])
    (requests : ∀ s m, G s m → RequestsOnly s m) (reach : Pool.Reach G s₀ s) :
    ∀ t ∈ s.threads, b.staged.Follows t ∧ b.staged.Kept t := by
  refine (Pool.Reach.contract (C := b.staged) (I := fun _ => True) trivial none_ ?_
    (fun _ _ _ _ _ => trivial) ?_ (fun _ _ _ _ _ _ _ => trivial) reach).2
  · intro s call guard
    exact covers_request (requests s _ guard)
  · intro s i t c k r world reached _ _ _ at_ next _ exec
    obtain ⟨typed', issued⟩ := reach_issued typed none_ reached at_ next
    exact ⟨⟨succeeds_of_exec typed' issued exec, (typed_exec typed' issued exec).1⟩, trivial⟩

/-- What a thread does when it moves. -/
theorem reach_acts {i : Nat} {t : Thread (b.system noFaults)} {c : Cmd} {k : c.Reply → Go Result}
    {r : c.Reply} {world : World} (typed : Typed s₀.world.redis) (none_ : s₀.threads = [])
    (requests : ∀ s m, G s m → RequestsOnly s m) (reach : Pool.Reach G s₀ s)
    (at_ : s.threads[i]? = some t) (next : t.prog = .call c k)
    (exec : Exec noFaults s.world c r world) :
    Typed s.world.redis ∧ t.stage.Acts b.server.store.ttl s.world ⟨c, r⟩ world := by
  have typed' := (reach_duties typed none_ reach).1
  obtain ⟨follows, _⟩ := reach_stages typed none_ requests reach t (List.mem_of_getElem? at_)
  have issued : t.stage.Issues b.server.store.ttl c := follows.allows next
  exact ⟨typed', issued.acts typed' exec⟩

end Reach

end DirectLink
