import DirectLink.Session.Effects

/-!
# The Redis session store

The methods of `RedisStore` in `pkg/session/redis.go`, as programs over single Redis commands.  A
pipeline is not a transaction: its commands reach Redis one by one, in order, and `Exec` reports
the first error.  The durations and error counts of `observeRedisOp` and the log lines are left
out; nothing reads them.
-/

namespace DirectLink

/-- `RedisStore`: the session TTL in whole seconds and the retry settings. -/
structure RedisStore : Type where
  sessionTTL : Nat
  maxRetries : Int
  retryBackOff : Int
  sessionTTL_pos : 0 < sessionTTL
  retryBackOff_pos : 0 < retryBackOff

/-- One Redis command of the client. -/
def redis (c : Redis.Cmd) : Go (Except Err c.Reply) := issue (.redis c)

/-- `pipe.Exec`: every queued command in order; the first error is the result. -/
def pipeExec : List Redis.Cmd → Go (Except Err Unit)
  | [] => return .ok ()
  | c :: cs => do
    let reply ← redis c
    let rest ← pipeExec cs
    match reply with
    | .ok _ => return rest
    | .error err => return .error err

/-- `client.Get`: an absent key is the error `redis.Nil`. -/
def clientGet (key : String) : Go (Except Err String) := do
  match ← redis (.get key) with
  | .ok (some value) => return .ok value
  | .ok none => return .error (.sentinel .redisNil)
  | .error err => return .error err

/-- `client.HGet`: an absent field is the error `redis.Nil`. -/
def clientHGet (key field : String) : Go (Except Err String) := do
  match ← redis (.hget key field) with
  | .ok (some value) => return .ok value
  | .ok none => return .error (.sentinel .redisNil)
  | .error err => return .error err

/-- Errors worth another attempt. -/
def isRetryable (err : Err) : Bool :=
  !(err.is .contextCanceled || err.is .deadlineExceeded) && !err.is .redisNil &&
    !(err.is .sessionNotFound || err.is .invalidRoomCode || err.is .sessionClosed)

namespace RedisStore

variable (r : RedisStore)

/-- The session TTL in nanoseconds. -/
def ttl : Nat := r.sessionTTL * second

theorem ttl_pos : 0 < r.ttl := Nat.mul_pos r.sessionTTL_pos (by decide)

/-- `r.retryBackOff * (1 << attempt)` in the 64 bits of a `time.Duration`. -/
def backoff (attempt : Nat) : Int := Int.bmod (r.retryBackOff * 2 ^ attempt) (2 ^ 64)

/-- The attempts of `retryRedisOp` from number `attempt` on, `left` more of them allowed. -/
def retryFrom {α : Type} (op : Go (Except Err α)) : Nat → Nat → Go (Except Err α)
  | 0, _ => op
  | left + 1, attempt => do
    match ← op with
    | .ok a => return .ok a
    | .error err =>
      if isRetryable err then
        match ← issue (.after (r.backoff attempt)) with
        | .error ctxErr => return .error ctxErr
        | .ok _ => retryFrom op left (attempt + 1)
      else return .error err

/-- `retryRedisOp`: at least one attempt, at most `maxRetries`. -/
def retryRedisOp {α : Type} (op : Go (Except Err α)) : Go (Except Err α) :=
  let maxAttempts := if r.maxRetries < 1 then 1 else r.maxRetries
  r.retryFrom op (maxAttempts - 1).toNat 0

/-- The fields of a session hash. -/
def sessionData (session : Session) : List (String × String) :=
  [("id", session.id), ("room_code", session.roomCode), ("created_by", session.createdBy),
    ("created_at", session.createdAt.formatRFC3339),
    ("max_cameras", formatInt32 session.maxCameras), ("status", session.status)]

/-- The pipeline of `CreateSession`, built at the instant `now`. -/
def createPipeline (session : Session) (now : Nat) : List Redis.Cmd :=
  [.hset (sessionKey session.id) (sessionData session), .expire (sessionKey session.id) r.ttl] ++
    (if session.roomCode ≠ "" then
      [.set (roomCodeKey session.roomCode) session.id (some r.ttl)]
    else []) ++
    [.sadd (userSessionsKey session.createdBy) session.id,
      .expire (userSessionsKey session.createdBy) r.ttl,
      .zadd activeSessionsKey (unix (now + r.ttl)) session.id]

def createSession (session : Session) : Go (Except Err Unit) :=
  r.retryRedisOp do
    let now ← issue .timeNow
    pipeExec (r.createPipeline session now)

/-- `result[field]` of a Go map: empty when the field is missing. -/
def field (result : Redis.Hash) (name : String) : String := (result.lookup name).getD ""

/-- What `GetSession` makes of the fields of a session hash. -/
def parseSession (result : Redis.Hash) : Except Err Session :=
  if result = ∅ then .error (.sentinel .sessionNotFound)
  else
    match UtcTime.parseRFC3339 (field result "created_at") with
    | none => .error (.wrapped "failed to parse created_at " (.other "parsing time"))
    | some createdAt =>
      match parseInt32 (field result "max_cameras") with
      | none => .error (.wrapped "failed to parse max_cameras: " (.other "strconv.ParseInt"))
      | some maxCameras =>
        .ok ⟨field result "id", field result "room_code", field result "created_by", createdAt,
          maxCameras, field result "status"⟩

def getSession (sessionID : String) : Go (Except Err Session) := do
  match ← r.retryRedisOp (redis (.hgetall (sessionKey sessionID))) with
  | .error err => return .error err
  | .ok result => return parseSession result

def getSessionByRoomCode (code : String) : Go (Except Err Session) := do
  let found ← r.retryRedisOp do
    match ← clientGet (roomCodeKey code) with
    | .ok sessionID => return .ok sessionID
    | .error err =>
      if err.is .redisNil then return .error (.sentinel .invalidRoomCode) else return .error err
  match found with
  | .error err => return .error err
  | .ok sessionID => r.getSession sessionID

def updateSessionStatus (sessionID status : String) : Go (Except Err Unit) := do
  match ← r.retryRedisOp (redis (.existsKey (sessionKey sessionID))) with
  | .error err => return .error err
  | .ok false => return .error (.sentinel .sessionNotFound)
  | .ok true =>
    match ← r.retryRedisOp (redis (.hset (sessionKey sessionID) [("status", status)])) with
    | .error err => return .error err
    | .ok _ =>
      if status = statusClosed then
        -- an error is only logged: the janitor is left to reconcile
        let _ ← r.retryRedisOp (redis (.zrem activeSessionsKey sessionID))
        return .ok ()
      else return .ok ()

/-- The pipeline of `DeleteSession`. -/
def deletePipeline (sessionID : String) (session : Session) : List Redis.Cmd :=
  [.del (sessionKey sessionID), .del (accessKey sessionID),
    .srem (userSessionsKey session.createdBy) sessionID, .zrem activeSessionsKey sessionID] ++
    (if session.roomCode ≠ "" then [.del (roomCodeKey session.roomCode)] else [])

def deleteSession (sessionID : String) : Go (Except Err Unit) := do
  match ← r.getSession sessionID with
  | .error err => return .error err
  | .ok session => r.retryRedisOp (pipeExec (deletePipeline sessionID session))

/-- The loop of `GetExpiredSessions`: missing sessions are skipped, closed ones also removed from
the active set, any other error ends the loop. -/
def collectExpired : List String → List Session → Go (Except Err (List Session))
  | [], sessions => return .ok sessions
  | sessionID :: sessionIDs, sessions => do
    match ← r.getSession sessionID with
    | .error err =>
      if err.is .sessionNotFound then collectExpired sessionIDs sessions
      else return .error (.wrapped ("failed to get expired session " ++ sessionID ++ ": ") err)
    | .ok session =>
      if session.status = statusClosed then
        let _ ← redis (.zrem activeSessionsKey sessionID)
        collectExpired sessionIDs sessions
      else collectExpired sessionIDs (sessions ++ [session])

def getExpiredSessions (now : Nat) : Go (Except Err (List Session)) := do
  match ← r.retryRedisOp (redis (.zrangeByScore activeSessionsKey (unix now))) with
  | .error err => return .error err
  | .ok sessionIDs => r.collectExpired sessionIDs []

def getRole (sessionID userID : String) : Go (Except Err String) :=
  r.retryRedisOp do
    match ← clientHGet (accessKey sessionID) userID with
    | .ok role => return .ok role
    | .error err => if err.is .redisNil then return .ok "" else return .error err

def grantAccess (sessionID userID role : String) : Go (Except Err Unit) := do
  match ← r.retryRedisOp (redis (.existsKey (sessionKey sessionID))) with
  | .error err => return .error err
  | .ok false => return .error (.sentinel .sessionNotFound)
  | .ok true =>
    r.retryRedisOp (pipeExec
      [.hset (accessKey sessionID) [(userID, role)], .expire (accessKey sessionID) r.ttl])

def revokeAccess (sessionID userID : String) : Go (Except Err Unit) :=
  r.retryRedisOp (redis (.hdel (accessKey sessionID) userID))

def hasAccess (sessionID userID : String) : Go (Except Err Bool) :=
  r.retryRedisOp (redis (.hexists (accessKey sessionID) userID))

/-- The loop of `GetUserSessions`: a missing session is pruned from the user's set, any other error
ends the loop. -/
def collectUserSessions (userKey : String) :
    List String → List Session → Go (Except Err (List Session))
  | [], sessions => return .ok sessions
  | sessionID :: sessionIDs, sessions => do
    match ← r.getSession sessionID with
    | .error err =>
      if err.is .sessionNotFound then
        let _ ← redis (.srem userKey sessionID)
        collectUserSessions userKey sessionIDs sessions
      else return .error (.wrapped ("failed to get session " ++ sessionID ++ ": ") err)
    | .ok session => collectUserSessions userKey sessionIDs (sessions ++ [session])

def getUserSessions (userID : String) : Go (Except Err (List Session)) := do
  match ← r.retryRedisOp (redis (.smembers (userSessionsKey userID))) with
  | .error err => return .error err
  | .ok sessionIDs => r.collectUserSessions (userSessionsKey userID) sessionIDs []

def addIngressID (sessionID ingressID : String) : Go (Except Err Unit) :=
  r.retryRedisOp (pipeExec
    [.sadd (ingressKey sessionID) ingressID, .expire (ingressKey sessionID) r.ttl])

def getIngressIDs (sessionID : String) : Go (Except Err (List String)) :=
  r.retryRedisOp (redis (.smembers (ingressKey sessionID)))

def ping : Go (Except Err Unit) := do
  match ← redis .ping with
  | .ok _ => return .ok ()
  | .error err => return .error (.joined [.sentinel .redisUnavailable, err])

end RedisStore

end DirectLink
