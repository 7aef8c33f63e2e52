import DirectLink.Session.StoreFaults
import DirectLink.System

/-!
# Which commands requests and sweeps issue

A property of commands that holds of whatever requests and sweeps issue, whatever the replies.  Two
kinds of commands are left to the property itself: the grant of a role and the release of the sweep
lock.
-/

namespace DirectLink

open RedisStore

/-- The property holds of every command of a request or a sweep but the grant of a role and the
release of the lock. -/
structure Usual (P : Cmd → Prop) : Prop where
  other : ∀ c : Cmd, (∀ c', c ≠ .redis c') → P c
  simple : ∀ c : Redis.Cmd, (∀ key value, c ≠ .delIfEq key value) →
    (∀ key fields, c ≠ .hset key fields) → P (.redis c)
  session : ∀ session, P (.redis (.hset (sessionKey session.id) (sessionData session)))
  closed : ∀ id, P (.redis (.hset (sessionKey id) [("status", statusClosed)]))

namespace Usual

variable {P : Cmd → Prop} {r : RedisStore} {s : Server} {j : Janitor}

theorem mono {P' : Cmd → Prop} (usual : Usual P) (weaken : ∀ c, P c → P' c) : Usual P' where
  other c away := weaken c (usual.other c away)
  simple c unlock write := weaken _ (usual.simple c unlock write)
  session session := weaken _ (usual.session session)
  closed id := weaken _ (usual.closed id)

/-! ### Store methods -/

theorem retry (usual : Usual P) {c : Redis.Cmd} (unlock : ∀ key value, c ≠ .delIfEq key value)
    (write : ∀ key fields, c ≠ .hset key fields) : (r.retryRedisOp (redis c)).Issues P :=
  issues_retryRedisOp_redis (usual.simple c unlock write) fun _ => usual.other _ (by simp)

theorem getSession (usual : Usual P) {id : String} : (r.getSession id).Issues P := by
  refine (usual.retry (by simp) (by simp)).bind ?_
  intro result
  cases result <;> trivial

theorem getSessionByRoomCode (usual : Usual P) {code : String} :
    (r.getSessionByRoomCode code).Issues P := by
  refine (issues_retryRedisOp ?_ fun _ => usual.other _ (by simp)).bind fun found => ?_
  · have get : P (.redis (.get (roomCodeKey code))) := usual.simple _ (by simp) (by simp)
    refine Prog.Issues.bind (Prog.Issues.bind ⟨get, fun _ => trivial⟩ fun reply => ?_)
      fun found => ?_
    · rcases reply with err | none | id <;> trivial
    · cases found with
      | ok id => trivial
      | error err =>
        dsimp only
        split <;> trivial
  · cases found with
    | error err => trivial
    | ok id => exact usual.getSession

theorem createSession (usual : Usual P) {session : Session} :
    (r.createSession session).Issues P := by
  refine issues_createSession (usual.other _ (by simp)) ?_ fun _ => usual.other _ (by simp)
  intro now c mem
  simp only [createPipeline, List.mem_append, List.mem_cons, List.not_mem_nil, or_false] at mem
  rcases mem with ((rfl | rfl) | coded) | rfl | rfl | rfl
  · exact usual.session session
  · exact usual.simple _ (by simp) (by simp)
  · split at coded
    · rw [List.mem_singleton.mp coded]
      exact usual.simple _ (by simp) (by simp)
    · cases coded
  all_goals exact usual.simple _ (by simp) (by simp)

theorem closeStatus (usual : Usual P) {id : String} :
    (r.updateSessionStatus id statusClosed).Issues P :=
  issues_updateSessionStatus (usual.simple _ (by simp) (by simp)) (usual.closed id)
    (fun _ => usual.simple _ (by simp) (by simp)) fun _ => usual.other _ (by simp)

theorem grantAccess (usual : Usual P) {id userID role : String}
    (grant : P (.redis (.hset (accessKey id) [(userID, role)]))) :
    (r.grantAccess id userID role).Issues P :=
  issues_grantAccess (usual.simple _ (by simp) (by simp)) grant (usual.simple _ (by simp) (by simp))
    fun _ => usual.other _ (by simp)

theorem addIngressID (usual : Usual P) {id ingressID : String} :
    (r.addIngressID id ingressID).Issues P :=
  issues_addIngressID (usual.simple _ (by simp) (by simp)) (usual.simple _ (by simp) (by simp))
    fun _ => usual.other _ (by simp)

theorem collectExpired (usual : Usual P) {ids : List String} {sessions : List Session} :
    (r.collectExpired ids sessions).Issues P := by
  induction ids generalizing sessions with
  | nil => trivial
  | cons id ids ih =>
    refine usual.getSession.bind ?_
    intro found
    cases found with
    | error err =>
      dsimp only
      split
      · exact ih
      · trivial
    | ok session =>
      dsimp only
      split
      · exact ⟨usual.simple _ (by simp) (by simp), fun _ => ih⟩
      · exact ih

theorem getExpiredSessions (usual : Usual P) {now : Nat} :
    (r.getExpiredSessions now).Issues P := by
  refine (usual.retry (by simp) (by simp)).bind ?_
  intro ids
  cases ids with
  | error err => trivial
  | ok ids => exact usual.collectExpired

theorem collectUserSessions (usual : Usual P) {userKey : String} {ids : List String}
    {sessions : List Session} : (r.collectUserSessions userKey ids sessions).Issues P := by
  induction ids generalizing sessions with
  | nil => trivial
  | cons id ids ih =>
    refine usual.getSession.bind ?_
    intro found
    cases found with
    | error err =>
      dsimp only
      split
      · exact ⟨usual.simple _ (by simp) (by simp), fun _ => ih⟩
      · trivial
    | ok session => exact ih

theorem getUserSessions (usual : Usual P) {userID : String} :
    (r.getUserSessions userID).Issues P := by
  refine (usual.retry (by simp) (by simp)).bind ?_
  intro ids
  cases ids with
  | error err => trivial
  | ok ids => exact usual.collectUserSessions

/-! ### Requests -/

theorem newRoomCode (usual : Usual P) : (DirectLink.newRoomCode r).Issues P := by
  have loop : ∀ attempts, (newRoomCodeFrom r attempts).Issues P := by
    intro attempts
    induction attempts with
    | zero => trivial
    | succ attempts ih =>
      refine ⟨usual.other _ (by simp), ?_⟩
      intro drawn
      cases drawn with
      | error err => trivial
      | ok n =>
        refine usual.getSessionByRoomCode.bind ?_
        intro found
        cases found with
        | ok session => exact ih
        | error err =>
          dsimp only
          split <;> trivial
  exact loop maxRoomAttempts

theorem deleteRoom (usual : Usual P) {id : String} : (s.deleteRoom id).Issues P := by
  have finish : ∀ errs, (finishRoom id errs).Issues P := by
    intro errs
    refine ⟨usual.other _ (by simp), ?_⟩
    intro reply
    cases reply <;> trivial
  refine (usual.retry (by simp) (by simp)).bind ?_
  intro listed
  cases listed with
  | error err => exact finish _
  | ok ids =>
    refine (issues_deleteIngresses ?_).bind finish
    intro id _
    exact usual.other _ (by simp)

theorem joinAsCamera (usual : Usual P) {req : JoinRequest} {sess : Session}
    (grant : P (.redis (.hset (accessKey sess.id) [(req.userId, req.role)]))) :
    (s.joinAsCamera req sess).Issues P := by
  refine ⟨usual.other _ (by simp), ?_⟩
  intro created
  cases created with
  | error err => trivial
  | ok info =>
    refine (usual.grantAccess grant).bind ?_
    intro granted
    cases granted with
    | error err => exact ⟨usual.other _ (by simp), fun _ => trivial⟩
    | ok _ => exact usual.addIngressID.bind fun _ => ⟨usual.other _ (by simp), fun _ => trivial⟩

theorem joinAsDirector (usual : Usual P) {req : JoinRequest} {sess : Session}
    (grant : P (.redis (.hset (accessKey sess.id) [(req.userId, req.role)]))) :
    (s.joinAsDirector req sess).Issues P := by
  refine (usual.grantAccess grant).bind ?_
  intro granted
  cases granted with
  | error err => trivial
  | ok _ =>
    refine ⟨usual.other _ (by simp), ?_⟩
    intro now
    dsimp only [Prog.bind]
    split
    · trivial
    · exact ⟨usual.other _ (by simp), fun _ => trivial⟩

theorem joinSession (usual : Usual P) {req : JoinRequest}
    (grant : ∀ id, P (.redis (.hset (accessKey id) [(req.userId, req.role)]))) :
    (s.joinSession req).Issues P := by
  unfold Server.joinSession
  split; · trivial
  split; · trivial
  split; · trivial
  refine usual.getSessionByRoomCode.bind ?_
  intro found
  cases found with
  | error err => trivial
  | ok sess =>
    dsimp only
    split; · trivial
    split; · exact usual.joinAsCamera (grant sess.id)
    split; · exact usual.joinAsDirector (grant sess.id)
    trivial

theorem createRequest (usual : Usual P) {req : CreateSessionRequest}
    (grant : ∀ id, P (.redis (.hset (accessKey id) [(req.userId, "director")]))) :
    (s.createSession req).Issues P := by
  unfold Server.createSession
  split; · trivial
  split; · trivial
  refine ⟨usual.other _ (by simp), ?_⟩
  intro id
  refine usual.newRoomCode.bind ?_
  intro drawn
  cases drawn with
  | error err => trivial
  | ok code =>
    refine ⟨usual.other _ (by simp), ?_⟩
    intro createdAt
    refine usual.createSession.bind ?_
    intro created
    cases created with
    | error err => trivial
    | ok _ =>
      refine ⟨usual.other _ (by simp), fun _ => ⟨usual.other _ (by simp), fun _ => ?_⟩⟩
      refine (usual.grantAccess (grant id)).bind ?_
      intro granted
      cases granted <;> trivial

theorem closeSession (usual : Usual P) {req : CloseSessionRequest} :
    (s.closeSession req).Issues P := by
  unfold Server.closeSession
  split; · trivial
  split; · trivial
  refine usual.getSessionByRoomCode.bind ?_
  intro found
  cases found with
  | error err => trivial
  | ok sess =>
    dsimp only
    split; · trivial
    refine usual.deleteRoom.bind fun _ => ?_
    refine usual.closeStatus.bind ?_
    intro closed
    cases closed with
    | error err => trivial
    | ok _ => exact ⟨usual.other _ (by simp), fun _ => trivial⟩

theorem getMySessions (usual : Usual P) {req : GetMySessionsRequest} :
    (s.getMySessions req).Issues P := by
  unfold Server.getMySessions
  split; · trivial
  refine usual.getUserSessions.bind ?_
  intro listed
  cases listed <;> trivial

/-! ### Sweeps -/

/-- The loop of a sweep. -/
theorem closeExpiredSessions (usual : Usual P) {sessions : List Session}
    (delete : ∀ id, (j.deleteRoom id).Issues P) :
    (j.closeExpiredSessions sessions).Issues P := by
  induction sessions with
  | nil => trivial
  | cons sess sessions ih =>
    have close : (j.closeExpiredSession sess).Issues P := by
      refine (delete sess.id).bind fun _ => ?_
      refine usual.closeStatus.bind ?_
      intro closed
      cases closed with
      | error err => trivial
      | ok _ =>
        dsimp only
        split
        · exact ⟨usual.other _ (by simp), fun _ => ⟨usual.other _ (by simp), fun _ => trivial⟩⟩
        · trivial
    exact close.bind fun _ => ih

theorem sweepAt (usual : Usual P) {now : Nat} (delete : ∀ id, (j.deleteRoom id).Issues P)
    (release : P (.redis (.delIfEq janitorLockKey j.instanceID))) : (j.sweepAt now).Issues P := by
  have released : j.releaseLock.Issues P := ⟨release, fun _ => trivial⟩
  refine ⟨usual.simple _ (by simp) (by simp), ?_⟩
  intro taken
  rcases taken with err | taken
  · trivial
  cases taken with
  | false => trivial
  | true =>
    refine usual.getExpiredSessions.bind ?_
    intro expired
    cases expired with
    | error err => exact released
    | ok sessions => exact (usual.closeExpiredSessions delete).bind fun _ => released

/-! ### Calls -/

/-- A request or a sweep issues what is usual, grants the role it was asked for, and releases the
lock in the name of its process. -/
theorem request (usual : Usual P) {b : Backend} {call : Call} (asked : call.isStore = false)
    (join : ∀ req id, call = .joinSession req →
      P (.redis (.hset (accessKey id) [(req.userId, req.role)])))
    (create : ∀ req id, call = .createSession req →
      P (.redis (.hset (accessKey id) [(req.userId, "director")])))
    (release : ∀ instanceID now, call = .sweepAt instanceID now →
      P (.redis (.delIfEq janitorLockKey instanceID))) : (b.code call).Issues P := by
  cases call with
  | store call => cases asked
  | joinSession req => exact (usual.joinSession fun id => join req id rfl).bind fun _ => trivial
  | createSession req =>
    exact (usual.createRequest fun id => create req id rfl).bind fun _ => trivial
  | closeSession req => exact usual.closeSession.bind fun _ => trivial
  | getMySessions req => exact usual.getMySessions.bind fun _ => trivial
  | sweepAt instanceID now =>
    have release' : P (.redis (.delIfEq janitorLockKey (b.janitor instanceID).instanceID)) :=
      release instanceID now rfl
    exact (usual.sweepAt (fun _ => usual.deleteRoom) release').bind fun _ => trivial

end Usual

end DirectLink
