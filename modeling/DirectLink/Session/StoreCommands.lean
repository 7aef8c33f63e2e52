import DirectLink.Session.Ops
import DirectLink.Session.StoreFaults
import DirectLink.System

/-!
# The commands of the store methods

Whatever the replies, a method of `RedisStore` waits, reads the clock, or sends an operation whose
time to live is the TTL of sessions; the methods that look up or remove send none that can bring a
key into being.  `stores_call` puts the methods together.
-/

namespace DirectLink

open RedisStore

/-- The operation is one of the store's: a time to live it sets is the TTL of sessions, and it
brings a key into being only where that is allowed. -/
def Op.OfStore (r : RedisStore) (grows : Bool) : Op → Prop
  | .setCode _ _ ttl => grows = true ∧ ttl = r.ttl
  | .writeSession _ | .writeStatus _ _ | .writeRole _ _ _ | .addIngress _ _ | .addUserSession _ _
  | .addActive _ _ => grows = true
  | .expireSession _ ttl | .expireAccess _ ttl | .expireIngress _ ttl | .expireUser _ ttl =>
    ttl = r.ttl
  | .takeLock _ _ | .dropLock _ => False
  | _ => True

/-- What a method of the store issues. -/
inductive StoreCmd (r : RedisStore) (grows : Bool) : Cmd → Prop
  | after (backoff : Int) : StoreCmd r grows (.after backoff)
  | timeNow : StoreCmd r grows .timeNow
  | op (o : Op) (own : o.OfStore r grows) : StoreCmd r grows (.redis o.cmd)

namespace StoreCmd

variable {r : RedisStore} {grows : Bool} {α : Type}

theorem retry (o : Op) (own : o.OfStore r grows) :
    (r.retryRedisOp (redis o.cmd)).Issues (StoreCmd r grows) :=
  issues_retryRedisOp_redis (.op o own) .after

theorem pipe {ops : List Op} (own : ∀ o ∈ ops, o.OfStore r grows) :
    (r.retryRedisOp (pipeExec (ops.map Op.cmd))).Issues (StoreCmd r grows) := by
  refine issues_retryRedisOp (issues_pipeExec ?_) .after
  intro c member
  obtain ⟨o, listed, rfl⟩ := List.mem_map.mp member
  exact .op o (own o listed)

theorem getSession {id : String} : (r.getSession id).Issues (StoreCmd r grows) := by
  refine (retry (.readSession id) trivial).bind ?_
  intro result
  cases result <;> trivial

theorem getSessionByRoomCode {code : String} :
    (r.getSessionByRoomCode code).Issues (StoreCmd r grows) := by
  refine (issues_retryRedisOp ?_ .after).bind fun found => ?_
  · refine Prog.Issues.bind (Prog.Issues.bind ⟨.op (.getCode code) trivial, fun _ => trivial⟩
      fun reply => ?_) fun found => ?_
    · rcases reply with err | none | id <;> trivial
    · cases found with
      | ok id => trivial
      | error err =>
        dsimp only
        split <;> trivial
  · cases found with
    | error err => trivial
    | ok id => exact getSession

theorem createSession {sess : Session} : (r.createSession sess).Issues (StoreCmd r true) := by
  refine issues_createSession .timeNow ?_ .after
  intro now c member
  rw [createPipeline_eq] at member
  obtain ⟨o, listed, rfl⟩ := List.mem_map.mp member
  rcases mem_createOps listed with rfl | rfl | ⟨rfl, _⟩ | rfl | rfl | rfl
  · exact .op (.writeSession sess) rfl
  · exact .op (.expireSession sess.id r.ttl) rfl
  · exact .op (.setCode sess.roomCode sess.id r.ttl) ⟨rfl, rfl⟩
  · exact .op (.addUserSession sess.createdBy sess.id) rfl
  · exact .op (.expireUser sess.createdBy r.ttl) rfl
  · exact .op (.addActive _ sess.id) rfl

theorem updateSessionStatus {id status : String} :
    (r.updateSessionStatus id status).Issues (StoreCmd r true) :=
  issues_updateSessionStatus (.op (.existsSession id) trivial) (.op (.writeStatus id status) rfl)
    (fun _ => .op (.dropActive id) trivial) .after

theorem deleteSession {id : String} : (r.deleteSession id).Issues (StoreCmd r grows) := by
  refine getSession.bind ?_
  intro found
  cases found with
  | error err => trivial
  | ok sess =>
    dsimp only
    rw [deletePipeline_eq]
    refine pipe ?_
    intro o listed
    rw [deleteOps] at listed
    split at listed <;> simp only [List.cons_append, List.nil_append, List.append_nil,
      List.mem_cons, List.not_mem_nil, or_false] at listed
    · rcases listed with rfl | rfl | rfl | rfl | rfl <;> trivial
    · rcases listed with rfl | rfl | rfl | rfl <;> trivial

theorem grantAccess {id userID role : String} :
    (r.grantAccess id userID role).Issues (StoreCmd r true) :=
  issues_grantAccess (.op (.existsSession id) trivial) (.op (.writeRole id userID role) rfl)
    (.op (.expireAccess id r.ttl) rfl) .after

theorem addIngressID {id ingressID : String} :
    (r.addIngressID id ingressID).Issues (StoreCmd r true) :=
  issues_addIngressID (.op (.addIngress id ingressID) rfl) (.op (.expireIngress id r.ttl) rfl)
    .after

theorem getIngressIDs {id : String} : (r.getIngressIDs id).Issues (StoreCmd r grows) :=
  retry (.readIngress id) trivial

theorem getRole {id userID : String} : (r.getRole id userID).Issues (StoreCmd r grows) := by
  refine issues_retryRedisOp (Prog.Issues.bind
    (Prog.Issues.bind ⟨.op (.readRole id userID) trivial, fun _ => trivial⟩ ?_) ?_) .after
  · intro reply
    rcases reply with err | none | role <;> trivial
  · intro found
    cases found with
    | ok role => trivial
    | error err =>
      dsimp only
      split <;> trivial

theorem collectExpired {ids : List String} {sessions : List Session} :
    (r.collectExpired ids sessions).Issues (StoreCmd r grows) := by
  induction ids generalizing sessions with
  | nil => trivial
  | cons id ids ih =>
    refine getSession.bind ?_
    intro found
    cases found with
    | error err =>
      dsimp only
      split
      · exact ih
      · trivial
    | ok sess =>
      dsimp only
      split
      · exact ⟨.op (.dropActive id) trivial, fun _ => ih⟩
      · exact ih

theorem getExpiredSessions {now : Nat} : (r.getExpiredSessions now).Issues (StoreCmd r grows) := by
  refine (retry (.readActive (unix now)) trivial).bind ?_
  intro ids
  cases ids with
  | error err => trivial
  | ok ids => exact collectExpired

theorem collectUserSessions {userID : String} {ids : List String} {sessions : List Session} :
    (r.collectUserSessions (userSessionsKey userID) ids sessions).Issues (StoreCmd r grows) := by
  induction ids generalizing sessions with
  | nil => trivial
  | cons id ids ih =>
    refine getSession.bind ?_
    intro found
    cases found with
    | error err =>
      dsimp only
      split
      · exact ⟨.op (.dropUserSession userID id) trivial, fun _ => ih⟩
      · trivial
    | ok sess => exact ih

theorem getUserSessions {userID : String} :
    (r.getUserSessions userID).Issues (StoreCmd r grows) := by
  refine (retry (.readUser userID) trivial).bind ?_
  intro ids
  cases ids with
  | error err => trivial
  | ok ids => exact collectUserSessions

end StoreCmd

/-- Every method of the store issues commands of that kind only. -/
theorem stores_call {r : RedisStore} (call : StoreCall) :
    (call.code r).Issues (StoreCmd r true) := by
  cases call with
  | createSession sess => exact StoreCmd.createSession.bind fun _ => trivial
  | getSession id => exact StoreCmd.getSession.bind fun _ => trivial
  | getSessionByRoomCode code => exact StoreCmd.getSessionByRoomCode.bind fun _ => trivial
  | updateSessionStatus id status => exact StoreCmd.updateSessionStatus.bind fun _ => trivial
  | deleteSession id => exact StoreCmd.deleteSession.bind fun _ => trivial
  | getExpiredSessions now => exact StoreCmd.getExpiredSessions.bind fun _ => trivial
  | getRole id userID => exact StoreCmd.getRole.bind fun _ => trivial
  | grantAccess id userID role => exact StoreCmd.grantAccess.bind fun _ => trivial
  | revokeAccess id userID =>
    exact (StoreCmd.retry (.dropRole id userID) trivial).bind fun _ => trivial
  | hasAccess id userID => exact (StoreCmd.retry (.hasRole id userID) trivial).bind fun _ => trivial
  | getUserSessions userID => exact StoreCmd.getUserSessions.bind fun _ => trivial
  | addIngressID id ingressID => exact StoreCmd.addIngressID.bind fun _ => trivial
  | getIngressIDs id => exact StoreCmd.getIngressIDs.bind fun _ => trivial
  | ping =>
    refine Prog.Issues.bind ⟨.op .ping trivial, fun reply => ?_⟩ fun _ => trivial
    cases reply <;> trivial

end DirectLink
