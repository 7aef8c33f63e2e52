import DirectLink.Lib.Layers
import DirectLink.Signaling.Server

/-!
# The handlers over the calls they make

`Server` holds a `session.Store`; here its handlers are programs whose commands are whole calls of
that interface and the commands of their own.  Each becomes the handler of `Server` once the calls
are those of a `RedisStore` (`createSession_handle` and its siblings).
-/

namespace DirectLink

/-- A call of the store, or another command of a handler. -/
inductive ServerCall : Type
  | createSession (session : Session)
  | getSessionByRoomCode (code : String)
  | updateSessionStatus (sessionID status : String)
  | grantAccess (sessionID userID role : String)
  | getUserSessions (userID : String)
  | addIngressID (sessionID ingressID : String)
  | getIngressIDs (sessionID : String)
  | own (c : Cmd)
  deriving DecidableEq

namespace ServerCall

@[reducible] def Reply : ServerCall → Type
  | createSession _ | updateSessionStatus _ _ | grantAccess _ _ _ | addIngressID _ _ =>
    Except Err Unit
  | getSessionByRoomCode _ => Except Err Session
  | getUserSessions _ => Except Err (List Session)
  | getIngressIDs _ => Except Err (List String)
  | own c => c.Reply

end ServerCall

@[reducible] def serverCalls : Sig := ⟨ServerCall, ServerCall.Reply⟩

/-- The program of a call. -/
def ServerCall.code (r : RedisStore) : (c : ServerCall) → Go c.Reply
  | createSession session => r.createSession session
  | getSessionByRoomCode code => r.getSessionByRoomCode code
  | updateSessionStatus sessionID status => r.updateSessionStatus sessionID status
  | grantAccess sessionID userID role => r.grantAccess sessionID userID role
  | getUserSessions userID => r.getUserSessions userID
  | addIngressID sessionID ingressID => r.addIngressID sessionID ingressID
  | getIngressIDs sessionID => r.getIngressIDs sessionID
  | own c => issue c

/-- A handler, or a part of one, over the calls it makes. -/
abbrev Handler (α : Type) : Type := Prog serverCalls α

/-- Make one call. -/
@[reducible] def make (c : ServerCall) : Handler c.Reply := Prog.issue (S := serverCalls) c

/-- A program that calls no store. -/
def Handler.ofGo {α : Type} (p : Go α) : Handler α := p.handle fun c => make (.own c)

namespace OverStore

/-- The loop of `NewRoomCode`. -/
def newRoomCodeFrom : Nat → Handler (Except Err String)
  | 0 => return .error (.other "failed to generate unique room code after 10 attempts")
  | attempts + 1 => do
    match ← make (.own (.randInt 1000000)) with
    | .error err => return .error err
    | .ok n =>
      match ← make (.getSessionByRoomCode (roomCodeOf n)) with
      | .ok _ => newRoomCodeFrom attempts
      | .error err =>
        if err.is .invalidRoomCode then return .ok (roomCodeOf n) else return .error err

def newRoomCode : Handler (Except Err String) := newRoomCodeFrom maxRoomAttempts

def deleteRoom (sessionID : String) : Handler (Except Err Unit) := do
  match ← make (.getIngressIDs sessionID) with
  | .error err => .ofGo (finishRoom sessionID [.wrapped "fetch ingress IDs: " err])
  | .ok ingressIDs => do
    let errs ← Handler.ofGo (deleteIngresses ingressIDs [])
    .ofGo (finishRoom sessionID errs)

def joinAsCamera (req : JoinRequest) (sess : Session) : Handler (Except Status JoinReply) := do
  match ← make (.own (.createIngress ⟨.whip, sess.id, req.userId, req.userId, false⟩)) with
  | .error _ => return .error ⟨.internal, "failed to create ingress"⟩
  | .ok info =>
    match ← make (.grantAccess sess.id req.userId req.role) with
    | .error _ =>
      let _ ← make (.own (.deleteIngress info.ingressId))
      return .error ⟨.internal, "failed to grant access"⟩
    | .ok _ =>
      let _ ← make (.addIngressID sess.id info.ingressId)
      make (.own (.metric (.tokenGenerationsInc "camera")))
      return .ok ⟨"", "", info.url, info.streamKey⟩

variable (s : Server)

def joinAsDirector (req : JoinRequest) (sess : Session) : Handler (Except Status JoinReply) := do
  match ← make (.grantAccess sess.id req.userId req.role) with
  | .error _ => return .error ⟨.internal, "failed to grant access "⟩
  | .ok _ =>
    let now ← make (.own .timeNow)
    match s.toJWT now (s.directorToken req sess) with
    | .error _ => return .error ⟨.internal, "failed to generate token"⟩
    | .ok token =>
      make (.own (.metric (.tokenGenerationsInc "director")))
      return .ok ⟨token, s.liveKitExternalURL, "", ""⟩

def joinSession (req : JoinRequest) : Handler (Except Status JoinReply) := do
  if req.userId = "" then return .error ⟨.invalidArgument, "user_id is required"⟩
  else if req.role = "" then return .error ⟨.invalidArgument, "role is required"⟩
  else if req.roomCode = "" then return .error ⟨.invalidArgument, "room_code is required"⟩
  else
    match ← make (.getSessionByRoomCode req.roomCode) with
    | .error _ => return .error ⟨.notFound, "session not found"⟩
    | .ok sess =>
      if sess.status = "closed" then return .error ⟨.failedPrecondition, "session is closed"⟩
      else if req.role = "camera" then joinAsCamera req sess
      else if req.role = "director" then joinAsDirector s req sess
      else return .error ⟨.invalidArgument, "role must be 'camera' or 'director'"⟩

def createSession (req : CreateSessionRequest) : Handler (Except Status CreateSessionReply) := do
  if req.userId = "" then return .error ⟨.invalidArgument, "user_id is required"⟩
  else if req.maxCameras ≤ 0 then
    return .error ⟨.invalidArgument, "max_cameras must be greater than zero"⟩
  else
    let sessionID ← make (.own .newUuid)
    match ← newRoomCode with
    | .error _ => return .error ⟨.internal, "room_code was not generated"⟩
    | .ok roomCode =>
      let createdAt ← make (.own .utcNow)
      match ← make (.createSession
          ⟨sessionID, roomCode, req.userId, createdAt, req.maxCameras, "active"⟩) with
      | .error _ => return .error ⟨.internal, "failed to create session"⟩
      | .ok _ =>
        make (.own (.metric .sessionsCreatedInc))
        make (.own (.metric .sessionsActiveInc))
        match ← make (.grantAccess sessionID req.userId "director") with
        | .error _ => return .error ⟨.internal, "failed to grant access"⟩
        | .ok _ => return .ok ⟨roomCode⟩

def closeSession (req : CloseSessionRequest) : Handler (Except Status CloseSessionReply) := do
  if req.roomCode = "" then return .error ⟨.invalidArgument, "room_code is required"⟩
  else if req.userId = "" then return .error ⟨.invalidArgument, "user_id is required"⟩
  else
    match ← make (.getSessionByRoomCode req.roomCode) with
    | .error _ => return .error ⟨.notFound, "session not found"⟩
    | .ok sess =>
      if sess.createdBy ≠ req.userId then
        return .error ⟨.permissionDenied, "only the session owner can close it"⟩
      else
        let _ ← deleteRoom sess.id
        match ← make (.updateSessionStatus sess.id "closed") with
        | .error _ => return .error ⟨.internal, "failed to close session"⟩
        | .ok _ =>
          make (.own (.metric .sessionsActiveDec))
          return .ok ⟨true⟩

def getMySessions (req : GetMySessionsRequest) : Handler (Except Status GetMySessionsReply) := do
  if req.userId = "" then return .error ⟨.invalidArgument, "user_id is required"⟩
  else
    match ← make (.getUserSessions req.userId) with
    | .error _ => return .error ⟨.internal, "failed to retrieve sessions"⟩
    | .ok sessions => return .ok ⟨sessions.map Server.sessionInfo⟩

/-! ## The handlers of `Server` -/

section Handle

variable {s : Server} {r : RedisStore} {α β : Type}

/-- A call with its program in its place. -/
theorem handle_make (c : ServerCall) (f : c.Reply → Handler α) :
    (make c >>= f).handle (ServerCall.code r) =
      (c.code r >>= fun reply => (f reply).handle (ServerCall.code r)) := by
  rw [Prog.handle_bind, Prog.handle_issue]

theorem handle_ofGo (p : Go α) : (Handler.ofGo p).handle (ServerCall.code r) = p := by
  rw [Handler.ofGo, Prog.handle_handle]
  have own : (fun c : Cmd => (make (.own c)).handle (ServerCall.code r)) = fun c => issue c := by
    funext c
    exact Prog.handle_issue (S := serverCalls) (ServerCall.own c)
  rw [own]
  exact Prog.handle_issue_eq p

theorem newRoomCodeFrom_handle (attempts : Nat) :
    (newRoomCodeFrom attempts).handle (ServerCall.code r) =
      DirectLink.newRoomCodeFrom r attempts := by
  induction attempts with
  | zero => rfl
  | succ attempts ih =>
    rw [newRoomCodeFrom, DirectLink.newRoomCodeFrom, handle_make]
    refine congrArg (Prog.bind _) (funext fun drawn => ?_)
    cases drawn with
    | error err => rfl
    | ok n =>
      dsimp only
      rw [handle_make]
      refine congrArg (Prog.bind _) (funext fun found => ?_)
      cases found with
      | ok session => exact ih
      | error err =>
        dsimp only
        split <;> rfl

theorem deleteRoom_handle (sessionID : String) :
    (deleteRoom sessionID).handle (ServerCall.code s.store) = s.deleteRoom sessionID := by
  rw [deleteRoom, Server.deleteRoom, handle_make]
  refine congrArg (Prog.bind _) (funext fun listed => ?_)
  cases listed with
  | error err => exact handle_ofGo _
  | ok ingressIDs =>
    dsimp only
    rw [Prog.handle_bind, handle_ofGo]
    exact congrArg (Prog.bind _) (funext fun errs => handle_ofGo _)

theorem joinAsCamera_handle (req : JoinRequest) (sess : Session) :
    (joinAsCamera req sess).handle (ServerCall.code s.store) = s.joinAsCamera req sess := by
  rw [joinAsCamera, Server.joinAsCamera, handle_make]
  refine congrArg (Prog.bind _) (funext fun created => ?_)
  cases created with
  | error err => rfl
  | ok info =>
    dsimp only
    rw [handle_make]
    refine congrArg (Prog.bind _) (funext fun granted => ?_)
    cases granted with
    | error err => rfl
    | ok _ =>
      dsimp only
      rw [handle_make]
      rfl

theorem joinAsDirector_handle (req : JoinRequest) (sess : Session) :
    (joinAsDirector s req sess).handle (ServerCall.code s.store) = s.joinAsDirector req sess := by
  rw [joinAsDirector, Server.joinAsDirector, handle_make]
  refine congrArg (Prog.bind _) (funext fun granted => ?_)
  cases granted with
  | error err => rfl
  | ok _ =>
    dsimp only
    rw [handle_make]
    refine congrArg (Prog.bind _) (funext fun now => ?_)
    cases signed : s.toJWT now (s.directorToken req sess) with
    | error err => rfl
    | ok token => rfl

theorem joinSession_handle (req : JoinRequest) :
    (joinSession s req).handle (ServerCall.code s.store) = s.joinSession req := by
  unfold joinSession Server.joinSession
  split
  · rfl
  · split
    · rfl
    · split
      · rfl
      · rw [handle_make]
        refine congrArg (Prog.bind _) (funext fun found => ?_)
        cases found with
        | error err => rfl
        | ok sess =>
          dsimp only
          split
          · rfl
          · split
            · exact joinAsCamera_handle req sess
            · split
              · exact joinAsDirector_handle req sess
              · rfl

theorem createSession_handle (req : CreateSessionRequest) :
    (createSession req).handle (ServerCall.code s.store) = s.createSession req := by
  unfold createSession Server.createSession
  split
  · rfl
  · split
    · rfl
    · rw [handle_make]
      refine congrArg (Prog.bind _) (funext fun sessionID => ?_)
      rw [Prog.handle_bind, newRoomCode, newRoomCodeFrom_handle]
      refine congrArg (Prog.bind _) (funext fun drawn => ?_)
      cases drawn with
      | error err => rfl
      | ok roomCode =>
        dsimp only
        rw [handle_make]
        refine congrArg (Prog.bind _) (funext fun createdAt => ?_)
        rw [handle_make]
        refine congrArg (Prog.bind _) (funext fun created => ?_)
        cases created with
        | error err => rfl
        | ok _ =>
          dsimp only
          rw [handle_make]
          refine congrArg (Prog.bind _) (funext fun _ => ?_)
          rw [handle_make]
          refine congrArg (Prog.bind _) (funext fun _ => ?_)
          rw [handle_make]
          refine congrArg (Prog.bind _) (funext fun granted => ?_)
          cases granted <;> rfl

theorem closeSession_handle (req : CloseSessionRequest) :
    (closeSession req).handle (ServerCall.code s.store) = s.closeSession req := by
  unfold closeSession Server.closeSession
  split
  · rfl
  · split
    · rfl
    · rw [handle_make]
      refine congrArg (Prog.bind _) (funext fun found => ?_)
      cases found with
      | error err => rfl
      | ok sess =>
        dsimp only
        split
        · rfl
        · rw [Prog.handle_bind, deleteRoom_handle]
          refine congrArg (Prog.bind _) (funext fun _ => ?_)
          rw [handle_make]
          refine congrArg (Prog.bind _) (funext fun updated => ?_)
          cases updated <;> rfl

theorem getMySessions_handle (req : GetMySessionsRequest) :
    (getMySessions req).handle (ServerCall.code s.store) = s.getMySessions req := by
  unfold getMySessions Server.getMySessions
  split
  · rfl
  · rw [handle_make]
    refine congrArg (Prog.bind _) (funext fun listed => ?_)
    cases listed <;> rfl

end Handle

end OverStore

end DirectLink
