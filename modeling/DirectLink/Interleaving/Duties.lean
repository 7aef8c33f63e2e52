import DirectLink.Session.Ops
import DirectLink.Session.StoreFaults
import DirectLink.System

/-!
# What every call does, whatever fails

One contract for every call of the backend, under arbitrary failures: each Redis command is a
well-formed operation on a key of its own kind, and the operations that create or end something are
issued only after the replies that entitle the call to them.  From it, every reachable state of the
pool has a typed database, and every reply any call has seen was sound.
-/

namespace DirectLink

open RedisStore

/-! ## What a call has seen -/

/-- The command `c` was answered with `r`. -/
def Saw (past : List (Event backend)) (c : Cmd) (r : c.Reply) : Prop :=
  (⟨c, r⟩ : Event backend) ∈ past

/-- The operation `op` was answered with `v`. -/
def Got (past : List (Event backend)) (op : Op) (v : op.cmd.Reply) : Prop :=
  Saw past (.redis op.cmd) (.ok v)

/-- Some call was answered `r` on the command `c`. -/
def Pool.Saw {b : Backend} {faults : Cmd → Err → Prop} (s : Pool (b.system faults)) (c : Cmd)
    (r : c.Reply) : Prop :=
  s.Seen ⟨c, r⟩

/-- Some call was answered `v` on the operation `op`. -/
def Pool.Got {b : Backend} {faults : Cmd → Err → Prop} (s : Pool (b.system faults)) (op : Op)
    (v : op.cmd.Reply) : Prop :=
  s.Saw (.redis op.cmd) (.ok v)

/-- The hash of the session exists. -/
def Stored {b : Backend} {faults : Cmd → Err → Prop} (s : Pool (b.system faults)) (id : String) :
    Prop :=
  (s.world.redis (sessionKey id)).isSome = true

theorem stored_of_status {b : Backend} {faults : Cmd → Err → Prop} {s : Pool (b.system faults)}
    {id status : String} (found : statusOf s.world.redis id = some status) : Stored s id := by
  rw [statusOf] at found
  rw [Stored]
  cases entry : s.world.redis (sessionKey id) with
  | none =>
    rw [entry, hashOf_none, Finmap.lookup_empty] at found
    cases found
  | some _ => rfl

/-- What can be relied on in a reply. -/
def Cmd.Sound : (c : Cmd) → c.Reply → Prop
  | .redis c, .ok v => c.Sound v
  | .newUuid, r => isUuid r = true
  | _, _ => True

/-- What `GetSession` makes of a sound reply. -/
theorem parsed_of_sound {id : String} {h : Redis.Hash} {sess : Session} (uuid : isUuid id = true)
    (sound : (Redis.Cmd.hgetall (sessionKey id)).Sound h) (ok : parseSession h = .ok sess) :
    ∃ stored : Session, h = encode stored ∧ stored.id = id ∧ sess = stored.truncate := by
  rcases sound id rfl uuid with rfl | holds
  · rw [parseSession_empty] at ok
    cases ok
  · exact holds.parsed ok

theorem id_of_sound {id : String} {h : Redis.Hash} {sess : Session} (uuid : isUuid id = true)
    (sound : (Redis.Cmd.hgetall (sessionKey id)).Sound h) (ok : parseSession h = .ok sess) :
    sess.id = id := by
  obtain ⟨stored, _, own, rfl⟩ := parsed_of_sound uuid sound ok
  exact own

/-! ## The contract -/

/-- The call is entitled to end the session: it closes it for the creator it has read, or sweeps it
after finding it among the expired. -/
def Ends (call : Call) (past : List (Event backend)) (id : String) : Prop :=
  isUuid id = true ∧
    ((∃ req h sess, call = .closeSession req ∧ Got past (.readSession id) h ∧
      parseSession h = .ok sess ∧ sess.createdBy = req.userId) ∨
    (∃ instanceID now ids, call = .sweepAt instanceID now ∧
      Got past (.readActive (unix now)) ids ∧ id ∈ ids))

/-- When an RPC or a sweep issues the operation `op`. -/
def Does (call : Call) (past : List (Event backend)) : Op → Prop
  | .writeSession s =>
    ∃ req, call = .createSession req ∧ Saw past .newUuid s.id ∧ s.createdBy = req.userId ∧
      s.status = "active"
  | .setCode _ id _ | .addUserSession _ id | .addActive _ id | .expireSession id _ =>
    ∃ req, call = .createSession req ∧ Saw past .newUuid id
  | .writeStatus id status => status = statusClosed ∧ Ends call past id
  | .addIngress id ingressID => ∃ req info, Saw past (.createIngress req) (.ok info) ∧
    req.roomName = id ∧ info.ingressId = ingressID
  | .delCode _ | .delSession _ | .delAccess _ | .dropRole _ _ => False
  | _ => True

/-- When `call` issues the command `c`. -/
def Issued (call : Call) (past : List (Event backend)) : Cmd → Prop
  | .redis c => ∃ op : Op, op.Wf ∧ op.cmd = c ∧ (call.isStore = false → Does call past op)
  | .newUuid => ∃ req, call = .createSession req
  | .createIngress _ => ∃ req, call = .joinSession req
  | .deleteIngress ingressID =>
    (∃ id ids, Ends call past id ∧ Got past (.readIngress id) ids ∧ ingressID ∈ ids) ∨
    ∃ req created info, call = .joinSession req ∧ Saw past (.createIngress created) (.ok info) ∧
      info.ingressId = ingressID
  | .deleteRoom id => Ends call past id
  | _ => True

/-- The contract of every call. -/
@[reducible] def Backend.duties (b : Backend) (faults : Cmd → Err → Prop) :
    Contract (b.system faults) where
  Expects e := e.cmd.Sound e.reply
  Allows := Issued
  Post _ _ _ := True

section Growth

variable {call : Call} {past past' : List (Event backend)} {id : String} {op : Op} {c : Cmd}

theorem Ends.grow (grown : past ⊆ past') (ends : Ends call past id) : Ends call past' id := by
  refine ⟨ends.1, ?_⟩
  rcases ends.2 with ⟨req, h, sess, eq, read, rest⟩ | ⟨instanceID, now, ids, eq, read, member⟩
  · exact .inl ⟨req, h, sess, eq, grown read, rest⟩
  · exact .inr ⟨instanceID, now, ids, eq, grown read, member⟩

theorem Does.grow (grown : past ⊆ past') (does : Does call past op) : Does call past' op := by
  cases op
  case writeSession s =>
    obtain ⟨req, eq, fresh, rest⟩ := does
    exact ⟨req, eq, grown fresh, rest⟩
  case setCode | addUserSession | addActive | expireSession =>
    obtain ⟨req, eq, fresh⟩ := does
    exact ⟨req, eq, grown fresh⟩
  case writeStatus => exact ⟨does.1, does.2.grow grown⟩
  case addIngress =>
    obtain ⟨req, info, created, rest⟩ := does
    exact ⟨req, info, grown created, rest⟩
  all_goals exact does

theorem persistent_issued : Persistent (Issued call) where
  waits _ _ := trivial
  grow past past' c grown issued := by
    cases c
    case redis c =>
      obtain ⟨op, wf, eq, does⟩ := issued
      exact ⟨op, wf, eq, fun rpc => (does rpc).grow grown⟩
    case deleteIngress ingressID =>
      rcases issued with ⟨id, ids, ends, read, member⟩ | ⟨req, created, info, eq, saw, same⟩
      · exact .inl ⟨id, ids, ends.grow grown, grown read, member⟩
      · exact .inr ⟨req, created, info, eq, grown saw, same⟩
    case deleteRoom id => exact Ends.grow grown issued
    all_goals exact issued

/-- What is issued now is issued after any longer history. -/
theorem Issued.always (issued : Issued call past c) :
    ∀ past', past ⊆ past' → Issued call past' c :=
  fun past' grown => persistent_issued.grow past past' c grown issued

end Growth

/-! ## The contract is kept -/

section Covers

variable {b : Backend} {faults : Cmd → Err → Prop}
variable {call : Call} {past : List (Event backend)} {α : Type}

/-- The logic of the contract. -/
abbrev dutyLogic (call : Call) : Logic backend :=
  histLogic (fun e => e.cmd.Sound e.reply) (Issued call)

theorem issued_op (op : Op) (wf : op.Wf) (does : call.isStore = false → Does call past op) :
    Issued call past (.redis op.cmd) :=
  ⟨op, wf, rfl, does⟩

theorem wp_issues {p : Go α}
    (issues : p.Issues fun c => ∀ past', past ⊆ past' → Issued call past' c) :
    p.wp (dutyLogic call) (fun _ _ => True) past :=
  Prog.wp_mono (Prog.Issues.wp_grow issues) fun _ _ _ => trivial

theorem wp_result {f : α → Result} {p : Go α}
    (holds : p.wp (dutyLogic call) (fun _ _ => True) past) :
    (p >>= fun a => Prog.done (f a)).wp (dutyLogic call) (fun _ _ => True) past := by
  rw [Prog.wp_bind]
  exact holds

theorem wp_getSession_any {r : RedisStore} {id : String} (uuid : isUuid id = true) :
    (r.getSession id).wp (dutyLogic call) (fun _ _ => True) past :=
  hist_getSession persistent_issued (issued_op (.readSession id) uuid fun _ => trivial)
    (fun _ _ _ _ _ => trivial) fun _ _ _ => trivial

theorem wp_getSessionByRoomCode_any {r : RedisStore} {code : String} :
    (r.getSessionByRoomCode code).wp (dutyLogic call) (fun _ _ => True) past :=
  hist_getSessionByRoomCode persistent_issued (issued_op (.getCode code) trivial fun _ => trivial)
    (fun id _ _ sound => issued_op (.readSession id) (sound code rfl id rfl) fun _ => trivial)
    (fun _ _ _ _ _ _ _ _ => trivial) fun _ _ _ => trivial

theorem wp_getUserSessions_any {r : RedisStore} {userID : String} :
    (r.getUserSessions userID).wp (dutyLogic call) (fun _ _ => True) past := by
  rw [getUserSessions, Prog.wp_bind]
  refine hist_retry_redis persistent_issued
    (issued_op (.readUser userID) trivial fun _ => trivial) ?_
    fun _ _ _ => trivial
  intro ids past' _ sound _
  have uuid := sound.2 userID rfl
  exact hist_collectUserSessions persistent_issued
    (fun id member => issued_op (.readSession id) (uuid id member) fun _ => trivial)
    fun id member => issued_op (.dropUserSession userID id) (uuid id member) fun _ => trivial

/-- The expired sessions were listed by the sorted set, and their ids are UUIDs. -/
theorem wp_getExpiredSessions_listed {r : RedisStore} {now : Nat}
    {Q : Except Err (List Session) → List (Event backend) → Prop}
    (ok : ∀ ids found past', past ⊆ past' → Got past' (.readActive (unix now)) ids →
      (∀ sess ∈ found, sess.id ∈ ids ∧ isUuid sess.id = true) → Q (.ok found) past')
    (failed : ∀ err past', past ⊆ past' → Q (.error err) past') :
    (r.getExpiredSessions now).wp (dutyLogic call) Q past := by
  rw [getExpiredSessions, Prog.wp_bind]
  refine hist_retry_redis persistent_issued
    (issued_op (.readActive (unix now)) trivial fun _ => trivial) ?_ failed
  intro ids past' grown sound got
  refine hist_collectExpired persistent_issued
    (fun id member => issued_op (.readSession id) (sound.2 id member) fun _ => trivial)
    (fun id member => issued_op (.dropActive id) (sound.2 id member) fun _ => trivial) ?_ ?_
  · intro found past'' more origin
    refine ok ids found past'' (List.Subset.trans grown more) (more got) fun sess member => ?_
    rcases origin sess member with impossible | ⟨id, listed, h, read, parsed⟩
    · cases impossible
    · have uuid := sound.2 id listed
      rw [id_of_sound uuid read parsed]
      exact ⟨listed, uuid⟩
  · intro err past'' more
    exact failed err past'' (List.Subset.trans grown more)

theorem covers_store {sc : StoreCall} : (b.duties faults).Covers (.store sc) := by
  have op : ∀ (o : Op) {past : List (Event backend)}, o.Wf →
      ∀ past', past ⊆ past' → Issued (.store sc) past' (.redis o.cmd) :=
    fun o _ wf past' _ => issued_op o wf fun rpc => by cases rpc
  have one : ∀ (o : Op) {past : List (Event backend)}, o.Wf →
      (b.server.store.retryRedisOp (redis o.cmd)).wp (dutyLogic (.store sc))
        (fun _ _ => True) past :=
    fun o _ wf => wp_issues (issues_retryRedisOp_redis (op o wf) fun _ _ _ => trivial)
  have pipe : ∀ (ops : List Op) {past : List (Event backend)}, (∀ o ∈ ops, o.Wf) →
      (b.server.store.retryRedisOp (pipeExec (ops.map Op.cmd))).wp (dutyLogic (.store sc))
        (fun _ _ => True) past := by
    intro ops past wf
    refine wp_issues (issues_retryRedisOp (issues_pipeExec fun c member => ?_) fun _ _ _ => trivial)
    obtain ⟨o, listed, rfl⟩ := List.mem_map.mp member
    exact op o (wf o listed)
  cases sc with
  | createSession session =>
    refine wp_result (wp_issues (issues_createSession (fun _ _ => trivial) ?_ fun _ _ _ => trivial))
    intro now c member
    rw [createPipeline_eq] at member
    obtain ⟨o, listed, rfl⟩ := List.mem_map.mp member
    exact op o (wf_of_mem_createOps session.2 listed)
  | getSession id => exact wp_result (wp_getSession_any id.2)
  | getSessionByRoomCode code => exact wp_result wp_getSessionByRoomCode_any
  | updateSessionStatus id status =>
    exact wp_result (wp_issues (issues_updateSessionStatus (op (.existsSession id) id.2)
      (op (.writeStatus id status) id.2) (fun _ => op (.dropActive id) id.2) fun _ _ _ => trivial))
  | deleteSession id =>
    refine wp_result ?_
    rw [deleteSession, Prog.wp_bind]
    refine hist_getSession persistent_issued (issued_op (.readSession id) id.2 fun _ => trivial) ?_
      fun _ _ _ => trivial
    intro h past' _ _ _
    cases parseSession h with
    | error err => trivial
    | ok session =>
      dsimp only
      rw [deletePipeline_eq]
      exact pipe _ fun o listed => wf_of_mem_deleteOps id.2 listed
  | getExpiredSessions now =>
    exact wp_result (wp_getExpiredSessions_listed (fun _ _ _ _ _ _ => trivial) fun _ _ _ => trivial)
  | getRole id userID =>
    refine wp_result (wp_issues (issues_retryRedisOp ?_ fun _ _ _ => trivial))
    refine Prog.Issues.bind ⟨op (.readRole id userID) id.2, fun reply => ?_⟩ fun role => ?_
    · rcases reply with err | found
      · trivial
      · cases found <;> trivial
    · cases role with
      | ok _ => trivial
      | error err =>
        dsimp only
        split <;> trivial
  | grantAccess id userID role =>
    exact wp_result (wp_issues (issues_grantAccess (op (.existsSession id) id.2)
      (op (.writeRole id userID role) id.2) (op (.expireAccess id _) ⟨id.2, ttl_pos _⟩)
      fun _ _ _ => trivial))
  | revokeAccess id userID => exact wp_result (one (.dropRole id userID) id.2)
  | hasAccess id userID => exact wp_result (one (.hasRole id userID) id.2)
  | getUserSessions userID => exact wp_result wp_getUserSessions_any
  | addIngressID id ingressID =>
    exact wp_result (wp_issues (issues_addIngressID (op (.addIngress id ingressID) id.2)
      (op (.expireIngress id _) ⟨id.2, ttl_pos _⟩) fun _ _ _ => trivial))
  | getIngressIDs id => exact wp_result (one (.readIngress id) id.2)
  | ping =>
    refine wp_result (wp_issues ⟨op .ping trivial, fun reply => ?_⟩)
    cases reply <;> trivial

/-! ### Requests -/

/-- The session found under a room code was read under the id it has. -/
theorem wp_getSessionByRoomCode_read {r : RedisStore} {code : String}
    {Q : Except Err Session → List (Event backend) → Prop}
    (ok : ∀ h sess past', past ⊆ past' → Got past' (.readSession sess.id) h →
      parseSession h = .ok sess → isUuid sess.id = true → Q (.ok sess) past')
    (failed : ∀ err past', past ⊆ past' → Q (.error err) past') :
    (r.getSessionByRoomCode code).wp (dutyLogic call) Q past := by
  refine hist_getSessionByRoomCode persistent_issued
    (issued_op (.getCode code) trivial fun _ => trivial)
    (fun id _ _ sound => issued_op (.readSession id) (sound code rfl id rfl) fun _ => trivial)
    ?_ failed
  intro id h past' grown code_sound read_sound _ got
  cases parsed : parseSession h with
  | error err => exact failed err past' grown
  | ok sess =>
    have uuid : isUuid id = true := code_sound code rfl id rfl
    have same := id_of_sound uuid read_sound parsed
    subst same
    exact ok h sess past' grown got parsed uuid

theorem wp_grantAccess_any {r : RedisStore} {id userID role : String} (uuid : isUuid id = true) :
    (r.grantAccess id userID role).wp (dutyLogic call) (fun _ past' => past ⊆ past') past :=
  Prog.Issues.wp_grow (issues_grantAccess
    (issued_op (.existsSession id) uuid fun _ => trivial).always
    (issued_op (.writeRole id userID role) uuid fun _ => trivial).always
    (issued_op (.expireAccess id _) ⟨uuid, ttl_pos _⟩ fun _ => trivial).always
    fun _ _ _ => trivial)

theorem covers_joinSession {req : JoinRequest} : (b.duties faults).Covers (.joinSession req) := by
  refine wp_result ?_
  rw [Server.joinSession]
  split; · trivial
  split; · trivial
  split; · trivial
  rw [Prog.wp_bind]
  refine wp_getSessionByRoomCode_read ?_ fun _ _ _ => trivial
  intro h sess past' _ _ _ uuid
  dsimp only
  split; · trivial
  split
  · refine hist_issue ⟨req, rfl⟩ fun reply past'' _ _ created => ?_
    match reply with
    | .error err => trivial
    | .ok info =>
      dsimp only
      rw [Prog.wp_bind]
      refine Prog.wp_mono (wp_grantAccess_any uuid) fun granted past₃ more => ?_
      cases granted with
      | error err =>
        refine hist_issue (.inr ⟨req, _, info, rfl, more created, rfl⟩) fun _ _ _ _ _ => trivial
      | ok _ =>
        refine wp_issues (Prog.Issues.bind (issues_addIngressID ?_ ?_ fun _ _ _ => trivial)
          fun _ => ⟨fun _ _ => trivial, fun _ => trivial⟩)
        · exact (issued_op (.addIngress sess.id info.ingressId) uuid fun _ =>
            ⟨_, info, more created, rfl, rfl⟩).always
        · exact (issued_op (.expireIngress sess.id _) ⟨uuid, ttl_pos _⟩ fun _ => trivial).always
  · split
    · rw [Server.joinAsDirector, Prog.wp_bind]
      refine Prog.wp_mono (wp_grantAccess_any uuid) fun granted past'' _ => ?_
      cases granted with
      | error err => trivial
      | ok _ =>
        refine hist_issue trivial fun now past₃ _ _ _ => ?_
        split
        · trivial
        · exact hist_issue trivial fun _ _ _ _ _ => trivial
    · trivial

theorem wp_newRoomCodeFrom_any {r : RedisStore} {attempts : Nat} :
    (newRoomCodeFrom r attempts).wp (dutyLogic call) (fun _ past' => past ⊆ past') past := by
  induction attempts generalizing past with
  | zero => exact List.Subset.refl past
  | succ attempts ih =>
    rw [newRoomCodeFrom]
    refine hist_issue trivial fun drawn past' grown _ _ => ?_
    cases drawn with
    | error err => exact grown
    | ok n =>
      dsimp only
      rw [Prog.wp_bind]
      refine wp_getSessionByRoomCode_read ?_ ?_
      · intro h sess past'' more _ _ _
        exact Prog.wp_mono ih fun _ _ rest =>
          List.Subset.trans (List.Subset.trans grown more) rest
      · intro err past'' more
        dsimp only
        split <;> exact List.Subset.trans grown more

theorem covers_createSession {req : CreateSessionRequest} :
    (b.duties faults).Covers (.createSession req) := by
  refine wp_result ?_
  rw [Server.createSession]
  split; · trivial
  split; · trivial
  refine hist_issue ⟨req, rfl⟩ fun id past' _ sound fresh => ?_
  have uuid : isUuid id = true := sound
  rw [Prog.wp_bind]
  refine Prog.wp_mono wp_newRoomCodeFrom_any fun drawn past'' more => ?_
  cases drawn with
  | error err => trivial
  | ok roomCode =>
    refine hist_issue trivial fun createdAt past₃ more' _ _ => ?_
    have fresh' : Saw past₃ .newUuid id := more' (more fresh)
    rw [Prog.wp_bind]
    have storing (session : Session) (own : session.id = id)
        (creator : session.createdBy = req.userId) (active : session.status = "active") :
        (b.server.store.createSession session).Issues fun c =>
          ∀ past', past₃ ⊆ past' → Issued (.createSession req) past' c := by
      refine issues_createSession (fun _ _ => trivial) ?_ fun _ _ _ => trivial
      subst own
      intro now c member
      rw [createPipeline_eq] at member
      obtain ⟨o, listed, rfl⟩ := List.mem_map.mp member
      refine (issued_op o (wf_of_mem_createOps uuid listed) fun _ => ?_).always
      rcases mem_createOps listed with rfl | rfl | ⟨rfl, _⟩ | rfl | rfl | rfl
      · exact ⟨req, rfl, fresh', creator, active⟩
      · exact ⟨req, rfl, fresh'⟩
      · exact ⟨req, rfl, fresh'⟩
      · exact ⟨req, rfl, fresh'⟩
      · trivial
      · exact ⟨req, rfl, fresh'⟩
    refine Prog.wp_mono (Prog.Issues.wp_grow (storing _ rfl rfl rfl)) fun stored past₄ _ => ?_
    cases stored with
    | error err => trivial
    | ok _ =>
      refine hist_issue trivial fun _ past₅ _ _ _ => hist_issue trivial fun _ past₆ _ _ _ => ?_
      rw [Prog.wp_bind]
      refine Prog.wp_mono (wp_grantAccess_any uuid) fun granted _ _ => ?_
      cases granted <;> trivial

/-- The teardown of a room by a call entitled to it. -/
theorem wp_deleteRoom_grow {id : String} (uuid : isUuid id = true) (ends : Ends call past id) :
    (b.server.deleteRoom id).wp (dutyLogic call) (fun _ past' => past ⊆ past') past := by
  have finish : ∀ past' (errs : List Err), past ⊆ past' →
      (finishRoom id errs).wp (dutyLogic call) (fun _ past' => past ⊆ past') past' := by
    intro past' errs grown
    refine hist_issue (ends.grow grown) fun reply past'' more _ _ => ?_
    cases reply <;> exact List.Subset.trans grown more
  rw [Server.deleteRoom, getIngressIDs, Prog.wp_bind]
  refine hist_retry_redis persistent_issued
    (issued_op (.readIngress id) uuid fun _ => trivial) ?_ ?_
  · intro ids past' grown _ got
    dsimp only
    rw [Prog.wp_bind]
    refine Prog.wp_mono (Prog.Issues.wp_grow (issues_deleteIngresses fun ingressID member => ?_)) ?_
    · have allowed : Issued call past' (.deleteIngress ingressID) :=
        .inl ⟨id, ids, ends.grow grown, got, member⟩
      exact allowed.always
    · exact fun errs past'' more => finish past'' errs (List.Subset.trans grown more)
  · intro err past' grown
    exact finish past' _ grown

theorem wp_updateSessionStatus_closed {r : RedisStore} {id : String} (uuid : isUuid id = true)
    (ends : Ends call past id) :
    (r.updateSessionStatus id statusClosed).wp (dutyLogic call)
      (fun _ past' => past ⊆ past') past :=
  Prog.Issues.wp_grow (issues_updateSessionStatus
    (issued_op (.existsSession id) uuid fun _ => trivial).always
    (issued_op (.writeStatus id statusClosed) uuid fun _ => ⟨rfl, ends⟩).always
    (fun _ => (issued_op (.dropActive id) uuid fun _ => trivial).always) fun _ _ _ => trivial)

theorem covers_closeSession {req : CloseSessionRequest} :
    (b.duties faults).Covers (.closeSession req) := by
  refine wp_result ?_
  rw [Server.closeSession]
  split; · trivial
  split; · trivial
  rw [Prog.wp_bind]
  refine wp_getSessionByRoomCode_read ?_ fun _ _ _ => trivial
  intro h sess past' _ read parsed uuid
  dsimp only
  split; · trivial
  · next owner =>
    have ends : Ends (.closeSession req) past' sess.id :=
      ⟨uuid, .inl ⟨req, h, sess, rfl, read, parsed, not_not.mp owner⟩⟩
    rw [Prog.wp_bind]
    refine Prog.wp_mono (wp_deleteRoom_grow uuid ends) fun _ past'' more => ?_
    rw [Prog.wp_bind]
    refine Prog.wp_mono (wp_updateSessionStatus_closed uuid (ends.grow more)) ?_
    intro closed past₃ _
    cases closed with
    | error err => trivial
    | ok _ => exact hist_issue trivial fun _ _ _ _ _ => trivial

theorem covers_getMySessions {req : GetMySessionsRequest} :
    (b.duties faults).Covers (.getMySessions req) := by
  refine wp_result ?_
  rw [Server.getMySessions]
  split; · trivial
  rw [Prog.wp_bind]
  refine Prog.wp_mono wp_getUserSessions_any fun listed _ _ => ?_
  cases listed <;> trivial

/-! ### Sweeps -/

theorem wp_closeExpiredSession_grow {instanceID : String} {sess : Session}
    (uuid : isUuid sess.id = true) (ends : Ends call past sess.id) :
    ((b.janitor instanceID).closeExpiredSession sess).wp (dutyLogic call)
      (fun _ past' => past ⊆ past') past := by
  rw [Janitor.closeExpiredSession, Prog.wp_bind]
  refine Prog.wp_mono (wp_deleteRoom_grow uuid ends) fun _ past' grown => ?_
  rw [Prog.wp_bind]
  refine Prog.wp_mono (wp_updateSessionStatus_closed uuid (ends.grow grown)) ?_
  intro closed past'' more
  have all := List.Subset.trans grown more
  cases closed with
  | error err => exact all
  | ok _ =>
    refine hist_issue trivial fun _ past₃ more' _ _ => ?_
    refine hist_call trivial fun _ past₄ more'' _ _ => ?_
    exact List.Subset.trans all (List.Subset.trans more' more'')

theorem wp_closeExpiredSessions_grow {instanceID : String} {sessions : List Session}
    (uuid : ∀ sess ∈ sessions, isUuid sess.id = true)
    (ends : ∀ sess ∈ sessions, Ends call past sess.id) :
    ((b.janitor instanceID).closeExpiredSessions sessions).wp (dutyLogic call)
      (fun _ past' => past ⊆ past') past := by
  induction sessions generalizing past with
  | nil => exact List.Subset.refl past
  | cons sess sessions ih =>
    rw [Janitor.closeExpiredSessions, Prog.wp_bind]
    refine Prog.wp_mono (wp_closeExpiredSession_grow (uuid sess List.mem_cons_self)
      (ends sess List.mem_cons_self)) fun _ past' grown => ?_
    refine Prog.wp_mono (ih (fun other member => uuid other (List.mem_cons_of_mem _ member))
      fun other member => (ends other (List.mem_cons_of_mem _ member)).grow grown) ?_
    exact fun _ _ more => List.Subset.trans grown more

theorem covers_sweepAt {instanceID : String} {now : Nat} :
    (b.duties faults).Covers (.sweepAt instanceID now) := by
  have release : ∀ past, ((b.janitor instanceID).releaseLock).wp
      (dutyLogic (.sweepAt instanceID now)) (fun _ _ => True) past := fun past =>
    hist_call (issued_op (.dropLock instanceID) trivial fun _ => trivial) fun _ _ _ _ _ => trivial
  refine wp_result (f := fun _ => .swept) ?_
  rw [Janitor.sweepAt]
  refine hist_issue (issued_op (.takeLock instanceID _) trivial fun _ => trivial) ?_
  intro taken past' _ _ _
  match taken with
  | .error err => trivial
  | .ok false => trivial
  | .ok true =>
    dsimp only
    rw [Prog.wp_bind]
    refine wp_getExpiredSessions_listed ?_ fun _ past'' _ => release past''
    intro ids found past'' _ listed uuid
    dsimp only
    rw [Prog.wp_bind]
    refine Prog.wp_mono (wp_closeExpiredSessions_grow (fun sess member => (uuid sess member).2)
      fun sess member => ?_) fun _ past₃ _ => release past₃
    obtain ⟨found, isId⟩ := uuid sess member
    exact ⟨isId, .inr ⟨instanceID, now, ids, rfl, listed, found⟩⟩

/-- Every call keeps the contract, whatever fails. -/
theorem covers_call (call : Call) : (b.duties faults).Covers call :=
  match call with
  | .store _ => covers_store
  | .joinSession _ => covers_joinSession
  | .createSession _ => covers_createSession
  | .closeSession _ => covers_closeSession
  | .getMySessions _ => covers_getMySessions
  | .sweepAt _ _ => covers_sweepAt

end Covers

/-! ## Every reachable state -/

section Reach

variable {b : Backend} {faults : Cmd → Err → Prop}
variable {G : Pool (b.system faults) → Move (b.system faults) → Prop}
variable {s₀ s : Pool (b.system faults)}

/-- A typed database stays typed and replies soundly, whatever a call issues. -/
theorem typed_exec {call : Call} {past : List (Event backend)} {w w' : World} {c : Cmd}
    {r : c.Reply} (typed : Typed w.redis) (issued : Issued call past c)
    (exec : Exec faults w c r w') : c.Sound r ∧ Typed w'.redis := by
  cases c
  case redis c =>
    obtain ⟨op, wf, rfl, _⟩ := issued
    rcases exec_op_cases typed wf exec with ⟨o, rfl, rfl⟩ | ⟨err, _, rfl, rfl | rfl⟩
    · exact ⟨typed.sound wf, typed.apply wf⟩
    · exact ⟨trivial, typed⟩
    · exact ⟨trivial, typed.apply wf⟩
  case newUuid =>
    exact ⟨exec.newUuid.1, by rwa [(exec_frame (fun c' => by simp) exec).1]⟩
  all_goals exact ⟨trivial, by rwa [(exec_frame (fun c' => by simp) exec).1]⟩

/-- What a command a call issues does to a typed database: nothing, or what its operation says. -/
theorem exec_redis_cases {call : Call} {past : List (Event backend)} {w w' : World} {c : Cmd}
    {r : c.Reply} (typed : Typed w.redis) (issued : Issued call past c)
    (exec : Exec faults w c r w') :
    w'.redis = w.redis ∨ ∃ op : Op, op.Wf ∧ c = .redis op.cmd ∧
      (call.isStore = false → Does call past op) ∧ w'.redis = op.apply w.now w.redis := by
  cases c
  case redis c =>
    obtain ⟨op, wf, rfl, does⟩ := issued
    rcases exec_op_cases typed wf exec with ⟨o, rfl, rfl⟩ | ⟨err, _, rfl, rfl | rfl⟩
    · exact .inr ⟨op, wf, rfl, does, rfl⟩
    · exact .inl rfl
    · exact .inr ⟨op, wf, rfl, does, rfl⟩
  all_goals exact .inl (exec_frame (fun c' => by simp) exec).1

/-- An answered operation was answered from the entry of its key. -/
theorem reply_of_exec {w w' : World} (op : Op) {v : op.cmd.Reply} (typed : Typed w.redis)
    (wf : op.Wf) (exec : Exec faults w (.redis op.cmd) (.ok v) w') :
    ∃ o, v = op.reply o (op.entry w.redis) := by
  rcases exec_op_cases typed wf exec with ⟨o, same, _⟩ | ⟨err, _, impossible, _⟩
  · exact ⟨o, Except.ok.inj same⟩
  · cases impossible

/-- **Duties**: from a typed database, however the calls interleave and whatever fails, the database
stays typed and every call keeps its contract. -/
theorem reach_duties (typed : Typed s₀.world.redis) (none_ : s₀.threads = [])
    (reach : Pool.Reach G s₀ s) :
    Typed s.world.redis ∧
      ∀ t ∈ s.threads, (b.duties faults).Follows t ∧ (b.duties faults).Kept t := by
  refine Pool.Reach.contract (C := b.duties faults) (I := fun s => Typed s.world.redis) typed none_
    (fun s call _ => covers_call call) (fun s call _ inv _ => inv) ?_ ?_ reach
  · intro s i t c k r world _ inv _ _ _ _ issued exec
    exact typed_exec inv issued exec
  · intro s t world _ inv _ holds
    rcases holds with ⟨_, rfl⟩
    exact inv.expire t

/-- What a thread is about to issue. -/
theorem reach_issued {i : Nat} {t : Thread (b.system faults)} {c : Cmd}
    {k : c.Reply → Go Result} (typed : Typed s₀.world.redis) (none_ : s₀.threads = [])
    (reach : Pool.Reach G s₀ s) (at_ : s.threads[i]? = some t) (next : t.prog = .call c k) :
    Typed s.world.redis ∧ Issued t.call t.past c := by
  obtain ⟨typed', follows⟩ := reach_duties typed none_ reach
  exact ⟨typed', (follows t (List.mem_of_getElem? at_)).1.allows next⟩

/-- Where no command fails, every command an issuing call makes succeeds. -/
theorem succeeds_of_exec {call : Call} {past : List (Event backend)} {w w' : World} {c : Cmd}
    {r : c.Reply} (typed : Typed w.redis) (issued : Issued call past c)
    (exec : Exec noFaults w c r w') : c.Succeeds r := by
  rcases exec with performs | ⟨err, impossible, _⟩
  · cases c
    case redis c =>
      obtain ⟨op, wf, rfl, _⟩ := issued
      obtain ⟨o, rfl, _⟩ := performs_op typed wf performs
      rfl
    case createIngress req =>
      obtain ⟨_, _, rfl, _⟩ := performs
      rfl
    case deleteIngress | deleteRoom | randInt | after =>
      obtain ⟨rfl, _⟩ := performs
      rfl
    all_goals trivial
  · exact impossible.elim

/-- A UUID was handed to at most one call. -/
theorem reach_sole_uuid (id : String) (none_ : s₀.threads = []) (reach : Pool.Reach G s₀ s) :
    s.Sole (· = ⟨Cmd.newUuid, id⟩) := by
  have exec : ∀ w c r w', Exec faults w c r w' → (id ∈ w.uuids → id ∈ w'.uuids) ∧
      ((⟨c, r⟩ : Event backend) = ⟨.newUuid, id⟩ → id ∉ w.uuids ∧ id ∈ w'.uuids) := by
    intro w c r w' exec
    refine ⟨exec.uuids, fun same => ?_⟩
    cases same
    exact exec.newUuid.2
  have env : ∀ (w : World) t w', w.now ≤ t ∧ w' = w.at_ t → id ∈ w.uuids → id ∈ w'.uuids := by
    intro w t _ holds used
    rcases holds with ⟨_, rfl⟩
    exact used
  exact (Pool.Reach.once (Y := b.system faults) (U := fun w => id ∈ World.uuids w) none_ exec env
    reach).2

end Reach

end DirectLink
