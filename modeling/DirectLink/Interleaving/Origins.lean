import DirectLink.Interleaving.Ownership
import DirectLink.Session.StoreReplies

/-!
# Where stored and returned data comes from

`Admits` strengthens the duties of a call: a session is written as its request asks, a room code is
mapped and a user's set is extended for the session just written, and a role is recorded for the
creator or for a user who named the room code of a session read as open.  `Rests` is what stands in
the history of a request that returned success.
-/

namespace DirectLink

open RedisStore

/-! ## The contract -/

/-- The call creates this session. -/
def Creates (call : Call) (past : List (Event backend)) (sess : Session) : Prop :=
  ∃ req, call = .createSession req ∧ sess.createdBy = req.userId ∧
    sess.maxCameras = req.maxCameras ∧ sess.status = "active" ∧ Saw past .newUuid sess.id ∧
    Saw past .utcNow sess.createdAt ∧
    ∃ n, Saw past (.randInt 1000000) (.ok n) ∧ sess.roomCode = roomCodeOf n

/-- The call creates this session and has sent the write of its hash. -/
def HasWritten (call : Call) (past : List (Event backend)) (sess : Session) : Prop :=
  Creates call past sess ∧ Sent past (Op.writeSession sess).cmd

/-- The call asks for the user to be recorded with the role in the session: it creates the session
for her, or she has named its room code and it was read as not closed. -/
inductive Asked (call : Call) (past : List (Event backend)) : String → String → String → Prop
  | created (sess : Session) (written : HasWritten call past sess) :
    Asked call past sess.id sess.createdBy "director"
  | joined (id : String) (req : JoinRequest) (h : Redis.Hash) (sess : Session)
    (joins : call = .joinSession req) (known : req.role = "camera" ∨ req.role = "director")
    (named : Got past (.getCode req.roomCode) (some id)) (read : Got past (.readSession id) h)
    (parsed : parseSession h = .ok sess) (opened : sess.status ≠ statusClosed) :
    Asked call past id req.userId req.role

/-- When a request or a sweep issues the operation. -/
def Answers (call : Call) (past : List (Event backend)) : Op → Prop
  | .writeSession sess => Creates call past sess
  | .setCode code id _ => ∃ sess, HasWritten call past sess ∧ sess.id = id ∧ sess.roomCode = code
  | .addUserSession userID id =>
    ∃ sess, HasWritten call past sess ∧ sess.id = id ∧ sess.createdBy = userID
  | .writeStatus _ status => status = statusClosed
  | .writeRole id userID role => Asked call past id userID role
  | .delCode _ | .delSession _ | .delAccess _ | .dropRole _ _ => False
  | _ => True

/-- When a request or a sweep issues the command. -/
def Admits (call : Call) (past : List (Event backend)) : Cmd → Prop
  | .redis c => ∃ op : Op, op.Wf ∧ op.cmd = c ∧ Answers call past op
  | .createIngress made => Asked call past made.roomName made.participantIdentity "camera"
  | _ => True

/-- What stands in the history of a request that returned success. -/
def Rests (s : Server) (past : List (Event backend)) : Call → Result → Prop
  | .joinSession req, .join (.ok reply) => ∃ id,
      Asked (.joinSession req) past id req.userId req.role ∧
      Acked past (Op.writeRole id req.userId req.role).cmd ∧
      ((req.role = "camera" ∧ ∃ info,
          Saw past (.createIngress ⟨.whip, id, req.userId, req.userId, false⟩) (.ok info) ∧
          reply = ⟨"", "", info.url, info.streamKey⟩) ∨
        (req.role = "director" ∧ ∃ now token sess, sess.id = id ∧
          s.toJWT now (s.directorToken req sess) = .ok token ∧
          reply = ⟨token, s.liveKitExternalURL, "", ""⟩))
  | .createSession req, .create (.ok reply) => ∃ sess, HasWritten (.createSession req) past sess ∧
      (∃ now, ∀ c ∈ s.store.createPipeline sess now, Acked past c) ∧
      Acked past (Op.writeRole sess.id req.userId "director").cmd ∧
      reply.roomCode = sess.roomCode
  | .closeSession req, .close (.ok _) => ∃ id h sess, Got past (.readSession id) h ∧
      parseSession h = .ok sess ∧ sess.createdBy = req.userId ∧
      Acked past (Op.writeStatus id statusClosed).cmd
  | .getMySessions req, .mySessions (.ok reply) => ∃ ids ids' found,
      Got past (.readUser req.userId) ids ∧ ids.Nodup ∧ ids'.Sublist ids ∧
      (∀ id ∈ ids, isUuid id = true) ∧
      List.Forall₂ (ReadBack (fun e => e.cmd.Sound e.reply) past) ids' found ∧
      reply.sessions = found.map Server.sessionInfo
  | _, _ => True

/-- The contract of requests and sweeps. -/
@[reducible] def Backend.admissions (b : Backend) (faults : Cmd → Err → Prop) :
    Contract (b.system faults) where
  Expects e := e.cmd.Sound e.reply
  Allows := Admits
  Post call result past := Rests b.server past call result

section Growth

variable {call : Call} {past past' : List (Event backend)} {c : Cmd}

theorem Creates.grow {sess : Session} (grown : past ⊆ past') (creates : Creates call past sess) :
    Creates call past' sess := by
  obtain ⟨req, eq, owner, limit, active, fresh, clock, n, drawn, code⟩ := creates
  exact ⟨req, eq, owner, limit, active, grown fresh, grown clock, n, grown drawn, code⟩

theorem HasWritten.grow {sess : Session} (grown : past ⊆ past')
    (written : HasWritten call past sess) : HasWritten call past' sess :=
  ⟨written.1.grow grown, written.2.grow grown⟩

theorem Asked.grow {id userID role : String} (grown : past ⊆ past')
    (asked : Asked call past id userID role) : Asked call past' id userID role := by
  cases asked with
  | created sess written => exact .created sess (written.grow grown)
  | joined _ req h sess joins known named read parsed opened =>
    exact .joined id req h sess joins known (grown named) (grown read) parsed opened

theorem Answers.grow {op : Op} (grown : past ⊆ past') (answers : Answers call past op) :
    Answers call past' op := by
  cases op
  case writeSession sess => exact Creates.grow grown answers
  case setCode | addUserSession =>
    obtain ⟨sess, written, rest⟩ := answers
    exact ⟨sess, written.grow grown, rest⟩
  case writeRole => exact Asked.grow grown answers
  all_goals exact answers

theorem persistent_admits : Persistent (Admits call) where
  waits _ _ := trivial
  grow past past' c grown admits := by
    cases c
    case redis c =>
      obtain ⟨op, wf, eq, answers⟩ := admits
      exact ⟨op, wf, eq, answers.grow grown⟩
    case createIngress made => exact Asked.grow grown admits
    all_goals exact admits

theorem Admits.always (admits : Admits call past c) : ∀ past', past ⊆ past' → Admits call past' c :=
  fun past' grown => persistent_admits.grow past past' c grown admits

end Growth

/-! ## The contract is kept -/

section Covers

variable {b : Backend} {faults : Cmd → Err → Prop}
variable {call : Call} {past : List (Event backend)} {α : Type}

/-- The logic of the contract. -/
abbrev admitLogic (call : Call) : Logic backend :=
  histLogic (fun e => e.cmd.Sound e.reply) (Admits call)

theorem admits_op (op : Op) (wf : op.Wf) (answers : Answers call past op) :
    Admits call past (.redis op.cmd) :=
  ⟨op, wf, rfl, answers⟩

/-- The session found under a room code, with the two replies that led to it. -/
theorem wp_getSessionByRoomCode_found {r : RedisStore} {code : String}
    {Q : Except Err Session → List (Event backend) → Prop}
    (ok : ∀ h sess past', past ⊆ past' → Got past' (.getCode code) (some sess.id) →
      Got past' (.readSession sess.id) h → parseSession h = .ok sess → isUuid sess.id = true →
      Q (.ok sess) past')
    (failed : ∀ err past', past ⊆ past' → Q (.error err) past') :
    (r.getSessionByRoomCode code).wp (admitLogic call) Q past := by
  refine hist_getSessionByRoomCode persistent_admits (admits_op (.getCode code) trivial trivial) ?_
    ?_ failed
  · intro id _ _ sound
    exact admits_op (.readSession id) (sound code rfl id rfl) trivial
  · intro id h past' grown code_sound read_sound named got
    cases parsed : parseSession h with
    | error err => exact failed err past' grown
    | ok sess =>
      have uuid : isUuid id = true := code_sound code rfl id rfl
      have same := id_of_sound uuid read_sound parsed
      subst same
      exact ok h sess past' grown named got parsed uuid

theorem wp_grantAccess_asked {r : RedisStore} {id userID role : String} (uuid : isUuid id = true)
    (asked : Asked call past id userID role) :
    (r.grantAccess id userID role).wp (admitLogic call)
      (fun result past' => past ⊆ past' ∧
        (result = .ok () → Acked past' (Op.writeRole id userID role).cmd)) past :=
  hist_grantAccess_answered persistent_admits (admits_op (.existsSession id) uuid trivial)
    (fun _ grown _ => admits_op (.writeRole id userID role) uuid (asked.grow grown))
    (admits_op (.expireAccess id _) ⟨uuid, ttl_pos _⟩ trivial).always

theorem wp_addIngressID_admits {r : RedisStore} {id ingressID : String} (uuid : isUuid id = true) :
    (r.addIngressID id ingressID).wp (admitLogic call) (fun _ past' => past ⊆ past') past :=
  Prog.Issues.wp_grow (issues_addIngressID
    (admits_op (.addIngress id ingressID) uuid trivial).always
    (admits_op (.expireIngress id _) ⟨uuid, ttl_pos _⟩ trivial).always fun _ _ _ => trivial)

/-! ### Joining -/

theorem covers_joinSession_admits {req : JoinRequest} :
    (b.admissions faults).Covers (.joinSession req) := by
  have code : (b.system faults).code (.joinSession req) =
      (b.server.joinSession req >>= fun a => Prog.done (.join a)) := rfl
  rw [Contract.Covers, code, Prog.wp_bind, Server.joinSession]
  split; · trivial
  split; · trivial
  split; · trivial
  rw [Prog.wp_bind]
  refine wp_getSessionByRoomCode_found ?_ fun _ _ _ => trivial
  intro h sess past _ named read parsed uuid
  dsimp only
  split
  · trivial
  next opened =>
  split
  · next camera =>
    have asked : Asked (.joinSession req) past sess.id req.userId req.role :=
      .joined sess.id req h sess rfl (.inl camera) named read parsed opened
    have seat : Asked (.joinSession req) past sess.id req.userId "camera" := by
      rw [← camera]
      exact asked
    refine hist_issue seat ?_
    intro reply past₁ grown _ created
    cases reply with
    | error err => trivial
    | ok info =>
      dsimp only
      rw [Prog.wp_bind]
      refine Prog.wp_mono (wp_grantAccess_asked uuid (asked.grow grown)) ?_
      intro granted past₂ holds
      rcases holds with ⟨more, recorded⟩
      cases granted with
      | error err => exact hist_issue trivial fun _ _ _ _ _ => trivial
      | ok _ =>
        dsimp only
        rw [Prog.wp_bind]
        refine Prog.wp_mono (wp_addIngressID_admits uuid) ?_
        intro _ past₃ more'
        refine hist_issue trivial ?_
        intro _ past₄ more'' _ _
        have later : past₂ ⊆ past₄ := List.Subset.trans more' more''
        refine ⟨sess.id, asked.grow (List.Subset.trans grown (List.Subset.trans more later)),
          (recorded rfl).grow later, .inl ⟨camera, info, later (more created), rfl⟩⟩
  · split
    · next director =>
      have asked : Asked (.joinSession req) past sess.id req.userId req.role :=
        .joined sess.id req h sess rfl (.inr director) named read parsed opened
      rw [Server.joinAsDirector, Prog.wp_bind]
      refine Prog.wp_mono (wp_grantAccess_asked uuid asked) ?_
      intro granted past₁ holds
      rcases holds with ⟨grown, recorded⟩
      cases granted with
      | error err => trivial
      | ok _ =>
        refine hist_issue trivial ?_
        intro now past₂ more _ _
        split
        · trivial
        · next token signed =>
          refine hist_issue trivial ?_
          intro _ past₃ more' _ _
          have later : past₁ ⊆ past₃ := List.Subset.trans more more'
          exact ⟨sess.id, asked.grow (List.Subset.trans grown later), (recorded rfl).grow later,
            .inr ⟨director, now, token, sess, rfl, signed, rfl⟩⟩
    · trivial

/-! ### Creating -/

/-- A room code that was generated was drawn. -/
theorem wp_newRoomCodeFrom_drawn {r : RedisStore} {attempts : Nat} :
    (newRoomCodeFrom r attempts).wp (admitLogic call) (fun result past' => past ⊆ past' ∧
      ∀ code, result = .ok code → ∃ n, Saw past' (.randInt 1000000) (.ok n) ∧
        code = roomCodeOf n) past := by
  induction attempts generalizing past with
  | zero => exact ⟨List.Subset.refl past, fun code impossible => by cases impossible⟩
  | succ attempts ih =>
    rw [newRoomCodeFrom]
    refine hist_issue trivial ?_
    intro drawn past' grown _ saw
    cases drawn with
    | error err => exact ⟨grown, fun code impossible => by cases impossible⟩
    | ok n =>
      dsimp only
      rw [Prog.wp_bind]
      refine wp_getSessionByRoomCode_found ?_ ?_
      · intro h sess past'' more _ _ _ _
        refine Prog.wp_mono ih ?_
        intro result past₃ holds
        rcases holds with ⟨rest, generated⟩
        exact ⟨List.Subset.trans grown (List.Subset.trans more rest), generated⟩
      · intro err past'' more
        have all := List.Subset.trans grown more
        dsimp only
        split
        · refine ⟨all, ?_⟩
          intro code same
          exact ⟨n, more saw, (Except.ok.inj same).symm⟩
        · exact ⟨all, fun code impossible => by cases impossible⟩

/-- The pipeline of a creation: the hash is written first, the rest is for the session written. -/
theorem inTurn_createPipeline {r : RedisStore} {sess : Session} {now : Nat}
    (uuid : isUuid sess.id = true) (creates : Creates call past sess) :
    InTurn (Admits call) past (r.createPipeline sess now) := by
  intro pre c post past' split grown sent
  rw [createPipeline_eq, createOps, List.map_cons] at split
  cases pre with
  | nil =>
    obtain ⟨rfl, _⟩ := List.cons.inj split
    exact admits_op (.writeSession sess) uuid (creates.grow grown)
  | cons c₀ pre =>
    obtain ⟨rfl, rest⟩ := List.cons.inj split
    have written : HasWritten call past' sess := ⟨creates.grow grown, sent _ List.mem_cons_self⟩
    have member : c ∈ (Op.expireSession sess.id r.ttl :: r.indexOps sess now).map Op.cmd := by
      rw [rest]
      exact List.mem_append_right _ List.mem_cons_self
    obtain ⟨op, listed, rfl⟩ := List.mem_map.mp member
    have wf := wf_of_mem_createOps uuid (List.mem_cons_of_mem (.writeSession sess) listed)
    refine admits_op op wf ?_
    rcases List.mem_cons.mp listed with rfl | index
    · trivial
    · rcases mem_indexOps index with ⟨rfl, _⟩ | rfl | rfl | rfl
      · exact ⟨sess, written, rfl, rfl⟩
      · exact ⟨sess, written, rfl, rfl⟩
      · trivial
      · trivial

theorem covers_createSession_admits {req : CreateSessionRequest} :
    (b.admissions faults).Covers (.createSession req) := by
  have code : (b.system faults).code (.createSession req) =
      (b.server.createSession req >>= fun a => Prog.done (.create a)) := rfl
  rw [Contract.Covers, code, Prog.wp_bind, Server.createSession]
  split; · trivial
  split; · trivial
  refine hist_issue trivial ?_
  intro id past _ sound fresh
  have uuid : isUuid id = true := sound
  rw [Prog.wp_bind]
  refine Prog.wp_mono wp_newRoomCodeFrom_drawn ?_
  intro generated past₁ holds
  rcases holds with ⟨grown, drawn⟩
  cases generated with
  | error err => trivial
  | ok roomCode =>
    refine hist_issue trivial ?_
    intro createdAt past₂ more _ clock
    obtain ⟨n, saw, eq⟩ := drawn roomCode rfl
    have creates : Creates (.createSession req) past₂
        ⟨id, roomCode, req.userId, createdAt, req.maxCameras, "active"⟩ :=
      ⟨req, rfl, rfl, rfl, rfl, more (grown fresh), clock, n, more saw, eq⟩
    rw [Prog.wp_bind]
    refine Prog.wp_mono (hist_createSession persistent_admits (fun _ _ => trivial)
      fun now => inTurn_createPipeline uuid creates) ?_
    intro stored past₃ holds
    rcases holds with ⟨more', answered⟩
    cases stored with
    | error err => trivial
    | ok _ =>
      obtain ⟨now, all⟩ := answered rfl
      refine hist_issue trivial ?_
      intro _ past₄ grown₄ _ _
      refine hist_issue trivial ?_
      intro _ past₅ grown₅ _ _
      have later : past₃ ⊆ past₅ := List.Subset.trans grown₄ grown₅
      have written : HasWritten (.createSession req) past₅
          ⟨id, roomCode, req.userId, createdAt, req.maxCameras, "active"⟩ := by
        obtain ⟨v, member⟩ := all (Op.writeSession _).cmd (List.mem_append_left _
          (List.mem_append_left _ List.mem_cons_self))
        exact ⟨creates.grow (List.Subset.trans more' later), .ok v, later member⟩
      rw [Prog.wp_bind]
      refine Prog.wp_mono (wp_grantAccess_asked uuid (.created _ written)) ?_
      intro granted past₆ holds
      rcases holds with ⟨grown₆, recorded⟩
      cases granted with
      | error err => trivial
      | ok _ =>
        refine ⟨_, written.grow grown₆, ⟨now, fun c member => ?_⟩, recorded rfl, rfl⟩
        exact (all c member).grow (List.Subset.trans later grown₆)

/-! ### Closing, listing and sweeping -/

theorem issues_deleteRoom_of {P : Cmd → Prop} {s : Server} {id : String}
    (list : P (.redis (.smembers (ingressKey id)))) (waits : ∀ backoff, P (.after backoff))
    (ingress : ∀ ingressID, P (.deleteIngress ingressID)) (room : P (.deleteRoom id)) :
    (s.deleteRoom id).Issues P := by
  have finish : ∀ errs, (finishRoom id errs).Issues P := by
    intro errs
    refine ⟨room, ?_⟩
    intro reply
    cases reply <;> trivial
  refine (issues_retryRedisOp_redis list waits).bind ?_
  intro listed
  cases listed with
  | error err => exact finish _
  | ok ids => exact (issues_deleteIngresses fun id _ => ingress id).bind finish

theorem wp_deleteRoom_admits {s : Server} {id : String} (uuid : isUuid id = true) :
    (s.deleteRoom id).wp (admitLogic call) (fun _ past' => past ⊆ past') past :=
  Prog.Issues.wp_grow (issues_deleteRoom_of (admits_op (.readIngress id) uuid trivial).always
    (fun _ _ _ => trivial) (fun _ _ _ => trivial) fun _ _ => trivial)

theorem wp_closeStatus_admits {r : RedisStore} {id : String} (uuid : isUuid id = true) :
    (r.updateSessionStatus id statusClosed).wp (admitLogic call)
      (fun result past' => past ⊆ past' ∧
        (result = .ok () → Acked past' (Op.writeStatus id statusClosed).cmd)) past :=
  hist_updateSessionStatus_answered persistent_admits
    (admits_op (.existsSession id) uuid trivial)
    (admits_op (.writeStatus id statusClosed) uuid rfl).always
    (admits_op (.dropActive id) uuid trivial).always

theorem covers_closeSession_admits {req : CloseSessionRequest} :
    (b.admissions faults).Covers (.closeSession req) := by
  have code : (b.system faults).code (.closeSession req) =
      (b.server.closeSession req >>= fun a => Prog.done (.close a)) := rfl
  rw [Contract.Covers, code, Prog.wp_bind, Server.closeSession]
  split; · trivial
  split; · trivial
  rw [Prog.wp_bind]
  refine wp_getSessionByRoomCode_found ?_ fun _ _ _ => trivial
  intro h sess past _ _ read parsed uuid
  dsimp only
  split
  · trivial
  next owner =>
  rw [Prog.wp_bind]
  refine Prog.wp_mono (wp_deleteRoom_admits uuid) ?_
  intro _ past₁ grown
  rw [Prog.wp_bind]
  refine Prog.wp_mono (wp_closeStatus_admits uuid) ?_
  intro closed past₂ holds
  rcases holds with ⟨more, written⟩
  cases closed with
  | error err => trivial
  | ok _ =>
    refine hist_issue trivial ?_
    intro _ past₃ more' _ _
    have read' : Got past₃ (.readSession sess.id) h := more' (more (grown read))
    exact ⟨sess.id, h, sess, read', parsed, not_not.mp owner, (written rfl).grow more'⟩

theorem covers_getMySessions_admits {req : GetMySessionsRequest} :
    (b.admissions faults).Covers (.getMySessions req) := by
  have code : (b.system faults).code (.getMySessions req) =
      (b.server.getMySessions req >>= fun a => Prog.done (.mySessions a)) := rfl
  rw [Contract.Covers, code, Prog.wp_bind, Server.getMySessions]
  split; · trivial
  rw [Prog.wp_bind]
  refine Prog.wp_mono (hist_getUserSessions persistent_admits
    (admits_op (.readUser req.userId) trivial trivial) ?_) ?_
  · intro ids past' _ sound id listed
    have uuid : isUuid id = true := sound.2 req.userId rfl id listed
    exact ⟨admits_op (.readSession id) uuid trivial,
      admits_op (.dropUserSession req.userId id) uuid trivial⟩
  · intro result past' holds
    rcases holds with ⟨_, collected⟩
    cases result with
    | error err => trivial
    | ok found =>
      obtain ⟨ids, ids', sound, member, sub, all⟩ := collected found rfl
      exact ⟨ids, ids', found, member, sound.1, sub, sound.2 req.userId rfl, all, rfl⟩

theorem wp_closeExpiredSessions_admits {instanceID : String} {sessions : List Session}
    (uuid : ∀ sess ∈ sessions, isUuid sess.id = true) :
    ((b.janitor instanceID).closeExpiredSessions sessions).wp (admitLogic call)
      (fun _ _ => True) past := by
  induction sessions generalizing past with
  | nil => trivial
  | cons sess sessions ih =>
    have own : isUuid sess.id = true := uuid sess List.mem_cons_self
    have rest : ∀ past', ((b.janitor instanceID).closeExpiredSessions sessions).wp
        (admitLogic call) (fun _ _ => True) past' :=
      fun _ => ih fun other member => uuid other (List.mem_cons_of_mem _ member)
    rw [Janitor.closeExpiredSessions, Prog.wp_bind, Janitor.closeExpiredSession, Prog.wp_bind]
    refine Prog.wp_mono (wp_deleteRoom_admits own) ?_
    intro _ past₁ _
    rw [Prog.wp_bind]
    refine Prog.wp_mono (wp_closeStatus_admits own) ?_
    rintro closed past₂ -
    cases closed with
    | error err => exact rest past₂
    | ok _ =>
      refine hist_issue trivial ?_
      intro _ past₃ _ _ _
      exact hist_call trivial fun _ past₄ _ _ _ => rest past₄

theorem covers_sweepAt_admits {instanceID : String} {now : Nat} :
    (b.admissions faults).Covers (.sweepAt instanceID now) := by
  have release : ∀ past, ((b.janitor instanceID).releaseLock).wp
      (admitLogic (.sweepAt instanceID now)) (fun _ _ => True) past := fun past =>
    hist_call (admits_op (.dropLock instanceID) trivial trivial) fun _ _ _ _ _ => trivial
  have code : (b.system faults).code (.sweepAt instanceID now) =
      ((b.janitor instanceID).sweepAt now >>= fun _ => Prog.done .swept) := rfl
  rw [Contract.Covers, code, Prog.wp_bind, Janitor.sweepAt]
  refine hist_issue (admits_op (.takeLock instanceID _) trivial trivial) ?_
  intro taken past _ _ _
  cases taken with
  | error err => trivial
  | ok taken =>
    cases taken with
    | false => trivial
    | true =>
      dsimp only
      rw [Prog.wp_bind, getExpiredSessions, Prog.wp_bind]
      refine hist_retry_redis persistent_admits
        (admits_op (.readActive (unix now)) trivial trivial) ?_ fun _ past' _ => release past'
      intro ids past₁ _ sound _
      refine hist_collectExpired persistent_admits
        (fun id member => admits_op (.readSession id) (sound.2 id member) trivial)
        (fun id member => admits_op (.dropActive id) (sound.2 id member) trivial) ?_
        fun _ past' _ => release past'
      intro found past₂ _ origin
      dsimp only
      rw [Prog.wp_bind]
      refine Prog.wp_mono (wp_closeExpiredSessions_admits ?_) fun _ past' _ => release past'
      intro sess member
      rcases origin sess member with impossible | ⟨id, listed, h, read, parsed⟩
      · cases impossible
      · have uuid := sound.2 id listed
        rw [id_of_sound uuid read parsed]
        exact uuid

/-- Every request and every sweep keeps the contract, whatever fails. -/
theorem covers_admissions {call : Call} (request : call.isStore = false) :
    (b.admissions faults).Covers call :=
  match call with
  | .joinSession _ => covers_joinSession_admits
  | .createSession _ => covers_createSession_admits
  | .closeSession _ => covers_closeSession_admits
  | .getMySessions _ => covers_getMySessions_admits
  | .sweepAt _ _ => covers_sweepAt_admits

end Covers

end DirectLink
