import DirectLink.Lib.Machine

/-!
# The main window

The properties of `Main.qml`, its page stack, and the calls of `SessionClient` that are not yet
answered.  A reply that is read carries the fields of every kind of reply, of which the handler of
the call reads its own.
-/

namespace DirectLink

namespace MainWindow

inductive UserRole : Type
  | director
  | camera
  deriving DecidableEq

/-- The values of `current_operation`. -/
inductive Operation : Type
  | none
  | getSessions
  | joinSession
  | createSession
  deriving DecidableEq

/-! ### The session client -/

/-- The calls of `SessionClient`. -/
inductive Call : Type
  | createSession (userId : String) (maxCameras : Int)
  | joinSession (roomCode userId : String) (role : UserRole)
  | closeSession (roomCode userId : String)
  | getMySessions (userId : String)
  deriving DecidableEq

structure Reply : Type where
  roomCode : String
  token : String
  livekitUrl : String
  whipUrl : String
  streamKey : String
  success : Bool
  deriving DecidableEq

/-- How a call finishes. -/
inductive Result : Type
  | failed (message : String)
  | unreadable
  | ok (reply : Reply)
  deriving DecidableEq

inductive Signal : Type
  | sessionCreated (roomCode : String)
  | directorJoined (token livekitUrl : String)
  | cameraJoined (whipUrl streamKey : String)
  | sessionClosed (success : Bool)
  | sessionsReceived
  | error (message : String)
  deriving DecidableEq

/-- The signal that the handler of a finished call emits. -/
def Call.finished : Call → Result → Option Signal
  | .createSession _ _, .failed message => some (.error message)
  | .createSession _ _, .unreadable => some (.error "Could not deserialize CreateSessionReply")
  | .createSession _ _, .ok reply => some (.sessionCreated reply.roomCode)
  | .joinSession _ _ _, .failed message => some (.error message)
  | .joinSession _ _ _, .unreadable => some (.error "Could not deserialize JoinSessionReply")
  | .joinSession _ _ _, .ok reply =>
    if reply.token ≠ "" then some (.directorJoined reply.token reply.livekitUrl)
    else if reply.whipUrl ≠ "" then some (.cameraJoined reply.whipUrl reply.streamKey)
    else some (.error "Could not join session")
  | .closeSession _ _, .failed _ => some (.sessionClosed false)
  | .closeSession _ _, .unreadable => none
  | .closeSession _ _, .ok reply => if reply.success then some (.sessionClosed true) else none
  | .getMySessions _, .failed message => some (.error message)
  | .getMySessions _, .unreadable => some (.error "Could not deserialize FetchSessionReply")
  | .getMySessions _, .ok _ => some .sessionsReceived

/-- The operation of a call, as `current_operation` names it. -/
def Call.operation : Call → Operation
  | .createSession _ _ => .createSession
  | .joinSession _ _ _ => .joinSession
  | .closeSession _ _ => .none
  | .getMySessions _ => .getSessions

/-- The text that `onError` shows. -/
def errorText (operation : Operation) (message : String) : String :=
  match operation with
  | .getSessions => "Failed to retrieve sessions. Please try again."
  | .joinSession =>
    if message = "session is closed" then "That session has ended."
    else if message = "session not found" then "Session was not found. Please try again."
    else "Failed to join session. Please try again."
  | .createSession => "Failed to create session. Please try again."
  | .none => "A room error has occurred: " ++ message

/-! ### The window -/

/-- The properties of a session page. -/
structure SessionPage : Type where
  userType : UserRole
  roomCode : String
  maxCameraCount : Int
  livekitToken : String
  livekitUrl : String
  whipUrl : String
  streamKey : String
  deriving DecidableEq

inductive Page : Type
  | login
  | dashboard
  | session (page : SessionPage)
  deriving DecidableEq

/-- The properties of the window.  The page stack has its top first. -/
structure Window : Type where
  userId : String
  userType : UserRole
  lastRoom : String
  pendingCloseRoom : String
  roomMaxCameras : Int
  currentOperation : Operation
  pages : List Page
  /-- `dl_session_close_popup` is open, for the button of the page of this room. -/
  closing : Option String
  infoText : String
  errorText : String
  /-- The calls that are not answered. -/
  calls : List Call
  deriving DecidableEq

inductive Move : Type
  | login (userName : String) (userRole : UserRole)
  | join (roomCode : String) (maxCameras : Int)
  | quickJoin
  | create (maxCameras : Int)
  | refresh
  | leave
  | closeClicked
  | confirm
  | cancel
  | home
  | logout
  /-- The director transport is disconnected. -/
  | disconnected
  /-- A call is answered. -/
  | reply (n : Nat) (result : Result)
  deriving DecidableEq

namespace Window

/-- The window when it is loaded. -/
def loaded : Window :=
  ⟨"", .director, "", "", 0, .none, [.login], none, "", "", []⟩

def call (s : Window) (c : Call) : Window :=
  { s with calls := s.calls ++ [c] }

/-- A director sees the dashboard. -/
def onDashboard (s : Window) : Bool :=
  s.pages.head? = some .dashboard ∧ s.userType = .director

/-- `onActivated` of the page that has come to the top. -/
def activated (s : Window) : Window :=
  if s.onDashboard then
    { s with currentOperation := .getSessions }.call (.getMySessions s.userId)
  else s

/-- `popCurrentItem`. -/
def pop (s : Window) : Window :=
  match s.pages with
  | _ :: page :: pages => { s with pages := page :: pages }.activated
  | _ => s

def onLogin (s : Window) (userName : String) (userRole : UserRole) : Window :=
  { s with
    userId := userName
    userType := userRole
    pages := .dashboard :: s.pages }.activated

def onJoinRequested (s : Window) (roomCode : String) (maxCameras : Int) : Window :=
  let s := { s with currentOperation := .joinSession, lastRoom := roomCode }
  let s := { s with roomMaxCameras := if 0 < maxCameras then maxCameras else 4 }
  s.call (.joinSession roomCode s.userId s.userType)

def onQuickJoinRequested (s : Window) : Window :=
  if s.lastRoom = "" then { s with errorText := "Failed to join session. Please try again." }
  else
    let s := if s.userType = .director then { s with roomMaxCameras := 4 } else s
    { s with currentOperation := .joinSession }.call (.joinSession s.lastRoom s.userId s.userType)

def onCreateRequested (s : Window) (maxCameras : Int) : Window :=
  { s with currentOperation := .createSession, roomMaxCameras := maxCameras }.call
    (.createSession s.userId maxCameras)

def onSessionFetchRequested (s : Window) : Window :=
  { s with currentOperation := .getSessions }.call (.getMySessions s.userId)

def onSessionCloseRequested (s : Window) (roomCode : String) : Window :=
  { s with pendingCloseRoom := roomCode, closing := some roomCode }

/-- `onConfirmed` of the popup, which is then closed. -/
def onConfirmed (s : Window) : Window :=
  { s with closing := none }.call (.closeSession s.pendingCloseRoom s.userId)

def onLogout (s : Window) : Window :=
  { s with
    pages := [.login]
    userId := ""
    userType := .director
    lastRoom := ""
    pendingCloseRoom := ""
    currentOperation := .none }

def onDirectorJoined (s : Window) (token livekitUrl : String) : Window :=
  { s with
    pages :=
      .session ⟨.director, s.lastRoom, s.roomMaxCameras, token, livekitUrl, "", ""⟩ :: s.pages }

def onCameraJoined (s : Window) (whipUrl streamKey : String) : Window :=
  { s with pages := .session ⟨.camera, s.lastRoom, 0, "", "", whipUrl, streamKey⟩ :: s.pages }

def onSessionCreated (s : Window) (roomCode : String) : Window :=
  { s with
    infoText := "Room Successfully Created: " ++ roomCode
    currentOperation := .joinSession
    lastRoom := roomCode }.call (.joinSession roomCode s.userId s.userType)

def onSessionClosed (s : Window) (success : Bool) : Window :=
  if success then
    pop { s with
      lastRoom := if s.lastRoom = s.pendingCloseRoom then "" else s.lastRoom
      pendingCloseRoom := "" }
  else { s with errorText := "Failed to close session. Please try again." }

def onError (s : Window) (message : String) : Window :=
  { s with
    errorText := MainWindow.errorText s.currentOperation message
    lastRoom := if s.currentOperation = .joinSession then "" else s.lastRoom }

def handle (s : Window) : Signal → Window
  | .sessionCreated roomCode => s.onSessionCreated roomCode
  | .directorJoined token livekitUrl => s.onDirectorJoined token livekitUrl
  | .cameraJoined whipUrl streamKey => s.onCameraJoined whipUrl streamKey
  | .sessionClosed success => s.onSessionClosed success
  | .sessionsReceived => s
  | .error message => s.onError message

/-- An action of the user on the page on top. -/
def act (s : Window) (m : Move) : Option Window :=
  match m, s.pages with
  | .login userName userRole, .login :: _ => some (s.onLogin userName userRole)
  | .join roomCode maxCameras, .dashboard :: _ => some (s.onJoinRequested roomCode maxCameras)
  | .quickJoin, .dashboard :: _ =>
    if s.lastRoom.length = 11 then some s.onQuickJoinRequested else none
  | .create maxCameras, .dashboard :: _ =>
    if s.userType = .director then some (s.onCreateRequested maxCameras) else none
  | .refresh, .dashboard :: _ =>
    if s.userType = .director then some s.onSessionFetchRequested else none
  | .leave, .session _ :: _ => some s.pop
  | .closeClicked, .session page :: _ =>
    if page.userType = .director then some (s.onSessionCloseRequested page.roomCode) else none
  | .home, _ :: _ :: _ :: _ =>
    some (activated { s with pages := s.pages.drop (s.pages.length - 2) })
  | .logout, _ => some s.onLogout
  | _, _ => none

/-- A call is answered, the connection of the page on top ends, or the user does something, who can
use nothing but the popup while it is open. -/
def next (s : Window) : Move → Option Window
  | .reply n result =>
    match s.calls[n]? with
    | none => none
    | some call =>
      let s := { s with calls := s.calls.eraseIdx n }
      match call.finished result with
      | none => some s
      | some signal => some (s.handle signal)
  | .disconnected =>
    match s.pages with
    | .session page :: _ => if page.userType = .director then some s.pop else none
    | _ => none
  | .confirm => if s.closing.isSome then some s.onConfirmed else none
  | .cancel => if s.closing.isSome then some { s with closing := none } else none
  | m => if s.closing.isSome then none else s.act m

end Window

@[reducible] def machine : Machine := ⟨Window, Move, Window.next⟩

/-! ### Replies and their requests -/

/-- The page that has been pushed over `pages` is one of this room. -/
def Pushed (roomCode : String) (pages : List Page) (s : Window) : Prop :=
  ∃ page, s.pages = .session page :: pages ∧ page.roomCode = roomCode

/-- What has become of a signal for a call: the credentials of a room lead to a page of that room,
and an error is reported and the last room cleared for the operation that failed. -/
def Answered (s : Window) (call : Call) (s' : Window) : Signal → Prop
  | .directorJoined _ _ | .cameraJoined _ _ =>
    ∀ roomCode userId role, call = .joinSession roomCode userId role →
      Pushed roomCode s.pages s'
  | .error message =>
    s'.errorText = errorText call.operation message ∧
      s'.lastRoom = if call.operation = .joinSession then "" else s.lastRoom
  | _ => True

/-- A reply is matched to its call, and what the user confirms to close is the room whose button was
clicked. -/
def Matched (s : Window) (m : Move) (s' : Window) : Prop :=
  match m with
  | .reply n result =>
    ∀ call signal, s.calls[n]? = some call → call.finished result = some signal →
      Answered s call s' signal
  | .confirm => ∀ roomCode, s.closing = some roomCode →
    s'.calls = s.calls ++ [.closeSession roomCode s.userId]
  | _ => True

/-- Every step from here is matched. -/
def RepliesMatched (s : Window) : Prop :=
  ∀ m s', s.next m = some s' → Matched s m s'

/-- The handlers of an answer to the call find what they need, if the last operation and the last
room are these. -/
def Call.Awaits (operation : Operation) (lastRoom : String) : Call → Prop
  | .createSession _ _ => operation = .createSession
  | .joinSession roomCode _ _ => operation = .joinSession ∧ lastRoom = roomCode
  | .closeSession _ _ => True
  | .getMySessions _ => operation = .getSessions

/-- All of the calls do. -/
def Await (operation : Operation) (lastRoom : String) (calls : List Call) : Prop :=
  ∀ call ∈ calls, call.Awaits operation lastRoom

/-- A director comes to see the dashboard when the page on top is popped. -/
def Window.popShows (s : Window) : Bool :=
  match s.pages with
  | _ :: .dashboard :: _ => s.userType = .director
  | _ => false

/-- The page on top may be popped, which makes a director fetch the sessions on the dashboard. -/
def MayPop (s : Window) (lastRoom : String) (calls : List Call) : Prop :=
  if s.popShows then Await .getSessions lastRoom calls else Await s.currentOperation lastRoom calls

/-- No step sets the last operation while a call of another operation is not answered, or the last
room while one that joins another room is not; and no close is answered while the popup is open. -/
def Undisturbed (s : Window) : Move → Prop
  | .login _ role => role = .director → Await .getSessions s.lastRoom s.calls
  | .join roomCode _ => Await .joinSession roomCode s.calls
  | .quickJoin => Await .joinSession s.lastRoom s.calls
  | .create _ => Await .createSession s.lastRoom s.calls
  | .refresh => Await .getSessions s.lastRoom s.calls
  | .leave | .disconnected => MayPop s s.lastRoom s.calls
  | .home => s.userType = .director → Await .getSessions s.lastRoom s.calls
  | .logout => Await .none "" s.calls
  | .closeClicked | .confirm | .cancel => True
  | .reply n result =>
    ∀ call signal, s.calls[n]? = some call → call.finished result = some signal →
      match signal with
      | .sessionCreated roomCode => Await .joinSession roomCode (s.calls.eraseIdx n)
      | .sessionClosed true => s.closing = none ∧
        MayPop s (if s.lastRoom = s.pendingCloseRoom then "" else s.lastRoom)
          (s.calls.eraseIdx n)
      | .error _ => call.operation = .joinSession → Await .joinSession "" (s.calls.eraseIdx n)
      | _ => True

/-- The last operation and the last room are those of the calls that are not answered. -/
structure Settled (s : Window) : Prop where
  awaited : Await s.currentOperation s.lastRoom s.calls
  pending : ∀ roomCode, s.closing = some roomCode → s.pendingCloseRoom = roomCode

variable {s s' : Window} {m : Move} {operation : Operation} {lastRoom : String}
  {calls : List Call} {call : Call}

theorem Await.append (awaited : Await operation lastRoom calls)
    (awaits : call.Awaits operation lastRoom) : Await operation lastRoom (calls ++ [call]) := by
  intro other member
  rcases List.mem_append.mp member with earlier | last
  · exact awaited other earlier
  · rw [List.mem_singleton.mp last]
    exact awaits

theorem Await.eraseIdx (awaited : Await operation lastRoom calls) (n : Nat) :
    Await operation lastRoom (calls.eraseIdx n) :=
  fun call member => awaited call (List.mem_of_mem_eraseIdx member)

theorem Call.Awaits.operation_eq (awaits : call.Awaits operation lastRoom)
    (close : ∀ roomCode userId, call ≠ .closeSession roomCode userId) :
    call.operation = operation := by
  cases call with
  | createSession => exact awaits.symm
  | joinSession => exact awaits.1.symm
  | closeSession roomCode userId => exact absurd rfl (close roomCode userId)
  | getMySessions => exact awaits.symm

/-- Closing a session never ends in the handler of errors. -/
theorem finished_error {message : String} {result : Result}
    (finished : call.finished result = some (.error message)) (roomCode userId : String) :
    call ≠ .closeSession roomCode userId := by
  intro close
  rw [close] at finished
  cases result with
  | failed => cases finished
  | unreadable => cases finished
  | ok reply =>
    rw [Call.finished] at finished
    split at finished <;> cases finished

/-- What an activation does to the calls, to the last operation and to the rest. -/
theorem activated_eq : s.activated =
    if s.onDashboard then
      { s with
        currentOperation := .getSessions
        calls := s.calls ++ [.getMySessions s.userId] }
    else s :=
  rfl

theorem Settled.activated (settled : Settled s)
    (fetches : s.onDashboard = true → Await .getSessions s.lastRoom s.calls) :
    Settled s.activated := by
  rw [activated_eq]
  split
  · next dashboard => exact ⟨(fetches dashboard).append rfl, settled.pending⟩
  · exact settled

theorem Settled.pop (awaited : MayPop s s.lastRoom s.calls)
    (pending : ∀ roomCode, s.closing = some roomCode → s.pendingCloseRoom = roomCode) :
    Settled s.pop := by
  unfold MayPop at awaited
  unfold Window.popShows at awaited
  unfold Window.pop
  split
  · next page pages stack =>
    rw [stack] at awaited
    rw [activated_eq]
    cases page with
    | dashboard =>
      by_cases director : s.userType = .director
      · rw [if_pos (by simp [Window.onDashboard, director])]
        rw [if_pos (by simp [director])] at awaited
        exact ⟨awaited.append rfl, pending⟩
      · rw [if_neg (by simp [Window.onDashboard, director])]
        rw [if_neg (by simp [director])] at awaited
        exact ⟨awaited, pending⟩
    | login =>
      rw [if_neg (by simp [Window.onDashboard])]
      exact ⟨awaited, pending⟩
    | session page =>
      rw [if_neg (by simp [Window.onDashboard])]
      exact ⟨awaited, pending⟩
  · next few =>
    split at awaited
    · next stack => exact absurd stack (few _ _ _)
    · exact ⟨awaited, pending⟩

/-- Every reply finds the operation and the room of its call. -/
theorem Settled.matched (settled : Settled s) : RepliesMatched s := by
  intro m s' step
  cases m with
  | reply n result =>
    intro call signal found finished
    simp only [Window.next, found, finished, Option.some.injEq] at step
    subst step
    have awaits := settled.awaited call (List.mem_of_getElem? found)
    cases signal with
    | directorJoined token livekitUrl =>
      intro roomCode userId role agrees
      subst agrees
      exact ⟨_, rfl, awaits.2⟩
    | cameraJoined whipUrl streamKey =>
      intro roomCode userId role agrees
      subst agrees
      exact ⟨_, rfl, awaits.2⟩
    | error message =>
      have same := awaits.operation_eq (finished_error finished)
      exact ⟨by rw [same]; rfl, by rw [same]; rfl⟩
    | sessionCreated => trivial
    | sessionClosed => trivial
    | sessionsReceived => trivial
  | confirm =>
    intro roomCode closing
    simp only [Window.next, closing, Option.isSome_some, if_true, Option.some.injEq] at step
    subst step
    rw [← settled.pending roomCode closing]
    rfl
  | _ => trivial

theorem settled_loaded : Settled Window.loaded := by
  constructor
  · intro call member
    cases member
  · intro roomCode closing
    cases closing

theorem Settled.reply (settled : Settled s) {n : Nat} {result : Result}
    (guard : Undisturbed s (.reply n result)) (step : s.next (.reply n result) = some s') :
    Settled s' := by
  dsimp only [Window.next] at step
  split at step
  · cases step
  next call found =>
  have rest := settled.awaited.eraseIdx n
  split at step
  · cases step
    exact ⟨rest, settled.pending⟩
  next signal finished =>
  cases step
  have guard := guard call signal found finished
  have awaits := settled.awaited call (List.mem_of_getElem? found)
  cases signal with
  | directorJoined token livekitUrl => exact ⟨rest, settled.pending⟩
  | cameraJoined whipUrl streamKey => exact ⟨rest, settled.pending⟩
  | sessionsReceived => exact ⟨rest, settled.pending⟩
  | sessionCreated roomCode =>
    exact ⟨Await.append guard ⟨rfl, rfl⟩, settled.pending⟩
  | sessionClosed success =>
    cases success with
    | false => exact ⟨rest, settled.pending⟩
    | true =>
      refine Settled.pop guard.2 ?_
      intro roomCode closing
      dsimp only at closing
      rw [guard.1] at closing
      cases closing
  | error message =>
    have same := awaits.operation_eq (finished_error finished)
    refine ⟨?_, settled.pending⟩
    dsimp only [Window.handle, Window.onError]
    split
    · next joins =>
      rw [joins]
      exact guard (same.trans joins)
    · exact rest

/-- An action on the page on top, while the popup is not open. -/
theorem Settled.act (settled : Settled s) (closed : s.closing = none) (guard : Undisturbed s m)
    (step : s.act m = some s') : Settled s' := by
  have pending : ∀ roomCode, s.closing = some roomCode → s.pendingCloseRoom = roomCode :=
    settled.pending
  unfold Window.act at step
  split at step
  case h_1 userName userRole pages stack =>
    cases step
    refine Settled.activated ⟨settled.awaited, pending⟩ fun dashboard => guard ?_
    simp only [Window.onDashboard, decide_eq_true_eq] at dashboard
    exact dashboard.2
  case h_2 roomCode maxCameras pages stack =>
    cases step
    exact ⟨Await.append guard ⟨rfl, rfl⟩, pending⟩
  case h_3 pages stack =>
    split at step <;> cases step
    unfold Window.onQuickJoinRequested
    split
    · exact ⟨settled.awaited, pending⟩
    · dsimp only
      split
      · exact ⟨Await.append guard ⟨rfl, rfl⟩, pending⟩
      · exact ⟨Await.append guard ⟨rfl, rfl⟩, pending⟩
  case h_4 maxCameras pages stack =>
    split at step <;> cases step
    exact ⟨Await.append guard rfl, pending⟩
  case h_5 pages stack =>
    split at step <;> cases step
    exact ⟨Await.append guard rfl, pending⟩
  case h_6 page pages stack =>
    cases step
    exact Settled.pop guard pending
  case h_7 page pages stack =>
    split at step <;> cases step
    refine ⟨settled.awaited, fun roomCode closing => ?_⟩
    cases closing
    rfl
  case h_8 =>
    cases step
    refine Settled.activated ⟨settled.awaited, pending⟩ fun dashboard => guard ?_
    simp only [Window.onDashboard, decide_eq_true_eq] at dashboard
    exact dashboard.2
  case h_9 =>
    cases step
    refine ⟨guard, fun roomCode closing => ?_⟩
    cases closed.symm.trans closing
  case h_10 => cases step

theorem Settled.next (settled : Settled s) (guard : Undisturbed s m) (step : s.next m = some s') :
    Settled s' := by
  unfold Window.next at step
  split at step
  case h_1 n result => exact settled.reply guard step
  case h_2 =>
    split at step
    · split at step <;> cases step
      exact Settled.pop guard settled.pending
    · cases step
  case h_3 =>
    split at step <;> cases step
    refine ⟨settled.awaited.append trivial, fun roomCode closing => ?_⟩
    cases closing
  case h_4 =>
    split at step <;> cases step
    refine ⟨settled.awaited, fun roomCode closing => ?_⟩
    cases closing
  case h_5 =>
    split at step
    · cases step
    · next closed =>
      exact settled.act (Option.not_isSome_iff_eq_none.mp closed) guard step

/-- **Replies are matched to their requests**, in every run of the window in which no step sets the
last operation or the last room while they are still waited for. -/
theorem replies_matched (reach : machine.Reach Undisturbed Window.loaded s) : RepliesMatched s := by
  have settled : Settled s :=
    reach.invariant settled_loaded fun _ _ _ settled guard step => settled.next guard step
  exact settled.matched

theorem replies_matched_sample :
    ∃ s : Window, s.calls = [.joinSession "AAAA-AAAAAA" "operator" .camera] ∧ RepliesMatched s := by
  have start : Undisturbed Window.loaded (.login "operator" .camera) := by
    intro role
    cases role
  have alone : Undisturbed (Window.loaded.onLogin "operator" .camera) (.join "AAAA-AAAAAA" 0) := by
    intro call member
    cases member
  have login : machine.Reach Undisturbed Window.loaded _ := Machine.Reach.step .refl start rfl
  exact ⟨_, rfl, replies_matched (login.step alone rfl)⟩

/-- The reply of a join, for a camera. -/
def cameraReply : Reply :=
  ⟨"", "", "", "https://whip", "key", false⟩

/-- Two rooms are joined before the first call is answered. -/
def joinTwo : List Move :=
  [.login "operator" .camera, .join "AAAA-AAAAAA" 0, .join "BBBB-BBBBBB" 0]

/-- The credentials of the first room lead to a page of the second one. -/
theorem joined_other_room :
    ¬ ∀ s : Window, machine.Reach (fun _ _ => True) Window.loaded s → RepliesMatched s := by
  intro all
  have computed : machine.run (fun _ _ => true) joinTwo Window.loaded =
      some ⟨"operator", .camera, "BBBB-BBBBBB", "", 4, .joinSession, [.dashboard, .login], none, "",
        "", [.joinSession "AAAA-AAAAAA" "operator" .camera,
          .joinSession "BBBB-BBBBBB" "operator" .camera]⟩ := by
    decide
  have matched := all _ (Machine.reach_of_moves joinTwo computed) (.reply 0 (.ok cameraReply)) _ rfl
  obtain ⟨page, pages, room⟩ := matched _ _ rfl rfl "AAAA-AAAAAA" "operator" .camera rfl
  cases pages
  revert room
  decide

end MainWindow

end DirectLink
