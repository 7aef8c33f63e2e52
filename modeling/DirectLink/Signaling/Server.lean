import DirectLink.Session.RedisStore

/-!
# The signaling server

The RPC handlers of `internal/signaling/grpc.go`, `deleteRoom` of `livekit.go` and the identifiers
of `pkg/session/room.go`, over the store and the LiveKit clients.  A token is signed by a library
outside the repository, which is a field of `Server`.
-/

namespace DirectLink

/-! ## Requests and replies of `signaling.proto` -/

structure JoinRequest : Type where
  roomCode : String
  userId : String
  role : String
  deriving DecidableEq

structure JoinReply : Type where
  token : String
  livekitUrl : String
  whipUrl : String
  streamKey : String
  deriving DecidableEq

structure CreateSessionRequest : Type where
  userId : String
  maxCameras : Int32
  deriving DecidableEq

structure CreateSessionReply : Type where
  roomCode : String
  deriving DecidableEq

structure CloseSessionRequest : Type where
  roomCode : String
  userId : String
  deriving DecidableEq

structure CloseSessionReply : Type where
  success : Bool
  deriving DecidableEq

structure GetMySessionsRequest : Type where
  userId : String
  deriving DecidableEq

structure SessionInfo : Type where
  sessionId : String
  roomCode : String
  status : String
  maxCameras : Int32
  createdAt : String
  deriving DecidableEq

structure GetMySessionsReply : Type where
  sessions : List SessionInfo
  deriving DecidableEq

/-- The gRPC codes the handlers answer with. -/
inductive Code : Type
  | invalidArgument
  | notFound
  | failedPrecondition
  | permissionDenied
  | internal
  deriving DecidableEq

/-- `status.Error(code, message)`. -/
structure Status : Type where
  code : Code
  message : String
  deriving DecidableEq

/-! ## The server -/

/-- What a LiveKit access token grants. -/
structure AccessToken : Type where
  apiKey : String
  apiSecret : String
  roomJoin : Bool
  room : String
  canPublish : Bool
  canSubscribe : Bool
  identity : String
  validFor : Nat
  deriving DecidableEq

structure Server : Type where
  store : RedisStore
  liveKitAPIKey : String
  liveKitAPISecret : String
  liveKitExternalURL : String
  /-- `AccessToken.ToJWT` at an instant. -/
  toJWT : Nat → AccessToken → Except Err String

/-- `fmt.Sprintf("ROOM-%06d", n)` for a draw below one million. -/
def roomCodeOf (n : Nat) : String := String.ofList ("ROOM-".toList ++ fixedDigits 6 n)

theorem roomCodeOf_ne_empty (n : Nat) : roomCodeOf n ≠ "" := by
  intro empty
  have chars : (roomCodeOf n).toList.length = 0 := congrArg (fun s => s.toList.length) empty
  unfold roomCodeOf at chars
  rw [String.toList_ofList, List.length_append] at chars
  have five : "ROOM-".toList.length = 5 := by decide
  omega

def maxRoomAttempts : Nat := 10

/-- The loop of `NewRoomCode`, with some attempts left. -/
def newRoomCodeFrom (store : RedisStore) : Nat → Go (Except Err String)
  | 0 => return .error (.other "failed to generate unique room code after 10 attempts")
  | attempts + 1 => do
    match ← issue (.randInt 1000000) with
    | .error err => return .error err
    | .ok n =>
      match ← store.getSessionByRoomCode (roomCodeOf n) with
      | .ok _ => newRoomCodeFrom store attempts
      | .error err =>
        if err.is .invalidRoomCode then return .ok (roomCodeOf n) else return .error err

/-- `NewRoomCode`: the first drawn code that is not mapped to a session. -/
def newRoomCode (store : RedisStore) : Go (Except Err String) :=
  newRoomCodeFrom store maxRoomAttempts

/-- `errors.Join`. -/
def joinErrors (errs : List Err) : Except Err Unit :=
  if errs.isEmpty then .ok () else .error (.joined errs)

/-- The deletions of `deleteRoom`; a failed one is noted and the loop goes on. -/
def deleteIngresses : List String → List Err → Go (List Err)
  | [], errs => return errs
  | ingressID :: ingressIDs, errs => do
    match ← issue (.deleteIngress ingressID) with
    | .error err =>
      deleteIngresses ingressIDs (errs ++ [.wrapped ("delete ingress " ++ ingressID ++ ": ") err])
    | .ok _ => deleteIngresses ingressIDs errs

theorem issues_deleteIngresses {P : Cmd → Prop} {ids : List String} {errs : List Err}
    (all : ∀ id ∈ ids, P (.deleteIngress id)) : (deleteIngresses ids errs).Issues P := by
  induction ids generalizing errs with
  | nil => trivial
  | cons id ids ih =>
    rw [deleteIngresses]
    refine Prog.Issues.bind ⟨all id List.mem_cons_self, fun _ => trivial⟩ fun reply => ?_
    cases reply <;> exact ih fun id' member => all id' (List.mem_cons_of_mem _ member)

/-- The last step of `deleteRoom`, with the errors of the steps before it. -/
def finishRoom (sessionID : String) (errs : List Err) : Go (Except Err Unit) := do
  match ← issue (.deleteRoom sessionID) with
  | .error err => return joinErrors (errs ++ [.wrapped "delete room: " err])
  | .ok _ => return joinErrors errs

namespace Server

variable (s : Server)

def deleteRoom (sessionID : String) : Go (Except Err Unit) := do
  match ← s.store.getIngressIDs sessionID with
  | .error err => finishRoom sessionID [.wrapped "fetch ingress IDs: " err]
  | .ok ingressIDs => do
    let errs ← deleteIngresses ingressIDs []
    finishRoom sessionID errs

def joinAsCamera (req : JoinRequest) (sess : Session) : Go (Except Status JoinReply) := do
  match ← issue (.createIngress ⟨.whip, sess.id, req.userId, req.userId, false⟩) with
  | .error _ => return .error ⟨.internal, "failed to create ingress"⟩
  | .ok info =>
    match ← s.store.grantAccess sess.id req.userId req.role with
    | .error _ =>
      -- roll back the ingress; an error of the rollback is only logged
      let _ ← issue (.deleteIngress info.ingressId)
      return .error ⟨.internal, "failed to grant access"⟩
    | .ok _ =>
      let _ ← s.store.addIngressID sess.id info.ingressId
      issue (.metric (.tokenGenerationsInc "camera"))
      return .ok ⟨"", "", info.url, info.streamKey⟩

/-- The token of a director: subscribe only, for one hour. -/
def directorToken (req : JoinRequest) (sess : Session) : AccessToken :=
  { apiKey := s.liveKitAPIKey
    apiSecret := s.liveKitAPISecret
    roomJoin := true
    room := sess.id
    canPublish := false
    canSubscribe := true
    identity := req.userId
    validFor := 3600 * second }

def joinAsDirector (req : JoinRequest) (sess : Session) : Go (Except Status JoinReply) := do
  match ← s.store.grantAccess sess.id req.userId req.role with
  | .error _ => return .error ⟨.internal, "failed to grant access "⟩
  | .ok _ =>
    let now ← issue .timeNow
    match s.toJWT now (s.directorToken req sess) with
    | .error _ => return .error ⟨.internal, "failed to generate token"⟩
    | .ok token =>
      issue (.metric (.tokenGenerationsInc "director"))
      return .ok ⟨token, s.liveKitExternalURL, "", ""⟩

def joinSession (req : JoinRequest) : Go (Except Status JoinReply) := do
  if req.userId = "" then return .error ⟨.invalidArgument, "user_id is required"⟩
  else if req.role = "" then return .error ⟨.invalidArgument, "role is required"⟩
  else if req.roomCode = "" then return .error ⟨.invalidArgument, "room_code is required"⟩
  else
    match ← s.store.getSessionByRoomCode req.roomCode with
    | .error _ => return .error ⟨.notFound, "session not found"⟩
    | .ok sess =>
      if sess.status = "closed" then return .error ⟨.failedPrecondition, "session is closed"⟩
      else if req.role = "camera" then s.joinAsCamera req sess
      else if req.role = "director" then s.joinAsDirector req sess
      else return .error ⟨.invalidArgument, "role must be 'camera' or 'director'"⟩

def createSession (req : CreateSessionRequest) : Go (Except Status CreateSessionReply) := do
  if req.userId = "" then return .error ⟨.invalidArgument, "user_id is required"⟩
  else if req.maxCameras ≤ 0 then
    return .error ⟨.invalidArgument, "max_cameras must be greater than zero"⟩
  else
    let sessionID ← issue .newUuid
    match ← newRoomCode s.store with
    | .error _ => return .error ⟨.internal, "room_code was not generated"⟩
    | .ok roomCode =>
      let createdAt ← issue .utcNow
      match ← s.store.createSession
          ⟨sessionID, roomCode, req.userId, createdAt, req.maxCameras, "active"⟩ with
      | .error _ => return .error ⟨.internal, "failed to create session"⟩
      | .ok _ =>
        issue (.metric .sessionsCreatedInc)
        issue (.metric .sessionsActiveInc)
        match ← s.store.grantAccess sessionID req.userId "director" with
        | .error _ => return .error ⟨.internal, "failed to grant access"⟩
        | .ok _ => return .ok ⟨roomCode⟩

def closeSession (req : CloseSessionRequest) : Go (Except Status CloseSessionReply) := do
  if req.roomCode = "" then return .error ⟨.invalidArgument, "room_code is required"⟩
  else if req.userId = "" then return .error ⟨.invalidArgument, "user_id is required"⟩
  else
    match ← s.store.getSessionByRoomCode req.roomCode with
    | .error _ => return .error ⟨.notFound, "session not found"⟩
    | .ok sess =>
      if sess.createdBy ≠ req.userId then
        return .error ⟨.permissionDenied, "only the session owner can close it"⟩
      else
        -- an incomplete cleanup is only logged
        let _ ← s.deleteRoom sess.id
        match ← s.store.updateSessionStatus sess.id "closed" with
        | .error _ => return .error ⟨.internal, "failed to close session"⟩
        | .ok _ =>
          issue (.metric .sessionsActiveDec)
          return .ok ⟨true⟩

/-- The entry of a session in the list of `GetMySessions`. -/
def sessionInfo (sess : Session) : SessionInfo :=
  { sessionId := sess.id
    roomCode := sess.roomCode
    status := sess.status
    maxCameras := sess.maxCameras
    createdAt := sess.createdAt.formatRFC3339 }

def getMySessions (req : GetMySessionsRequest) : Go (Except Status GetMySessionsReply) := do
  if req.userId = "" then return .error ⟨.invalidArgument, "user_id is required"⟩
  else
    match ← s.store.getUserSessions req.userId with
    | .error _ => return .error ⟨.internal, "failed to retrieve sessions"⟩
    | .ok sessions => return .ok ⟨sessions.map sessionInfo⟩

end Server

end DirectLink
