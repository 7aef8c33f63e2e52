import DirectLink.Client.MainWindow
import DirectLink.Interleaving.Backed
import Mathlib.Logic.Function.Basic

/-!
# Windows on the backend

Any number of main windows and one backend.  A window sends the requests of its `SessionClient`; the
backend answers whatever requests are made of it, by these windows or by anyone, with its sweeps in
between.  A call of a window finishes with an answer to its request, or with an error of the
transport.

* `pages_hold_credentials`: the credentials of every session page are those of the session that was
  created with the room code the page shows.
* `created_as_told`: the room that the window says was created was.
* `answers_are_told`: what the window is told of an answer is what was answered.
-/

namespace DirectLink

open MainWindow (Window SessionPage Signal UserRole Undisturbed)

namespace MainWindow

/-- `UserRole.toString`. -/
def UserRole.toString : UserRole → String
  | .director => "director"
  | .camera => "camera"

/-- The request that a call sends. -/
def Call.request : Call → DirectLink.Call
  | .createSession userId maxCameras => .createSession ⟨userId, .ofInt maxCameras⟩
  | .joinSession roomCode userId role => .joinSession ⟨roomCode, userId, role.toString⟩
  | .closeSession roomCode userId => .closeSession ⟨roomCode, userId⟩
  | .getMySessions userId => .getMySessions ⟨userId⟩

/-- A message without any of its fields. -/
def Reply.empty : Reply :=
  ⟨"", "", "", "", "", false⟩

/-- What a client finds in a message of the server. -/
def received : DirectLink.Result → Option Result
  | .create (.ok reply) => some (.ok { Reply.empty with roomCode := reply.roomCode })
  | .join (.ok reply) => some (.ok { Reply.empty with
      token := reply.token
      livekitUrl := reply.livekitUrl
      whipUrl := reply.whipUrl
      streamKey := reply.streamKey })
  | .close (.ok reply) => some (.ok { Reply.empty with success := reply.success })
  | .mySessions (.ok _) => some (.ok .empty)
  | .create (.error status) | .join (.error status) | .close (.error status)
  | .mySessions (.error status) => some (.failed status.message)
  | _ => none

end MainWindow

/-! ### The system -/

structure Deployment (ι : Type) (b : Backend) (faults : Cmd → Err → Prop) : Type where
  pool : Pool (b.system faults)
  windows : ι → Window

namespace Deployment

variable {ι : Type} [DecidableEq ι] {b : Backend} {faults : Cmd → Err → Prop}

/-- How a call can finish. -/
inductive Delivers (s : Pool (b.system faults)) (call : MainWindow.Call) : MainWindow.Result → Prop
  | broken (message : String) : Delivers s call (.failed message)
  | unreadable : Delivers s call .unreadable
  | answered {t : Thread (b.system faults)} {answer : Result} {result : MainWindow.Result} :
    t ∈ s.threads → t.call = call.request → t.prog = .done answer →
    MainWindow.received answer = some result → Delivers s call result

/-- A call that is answered is answered by the backend. -/
def Genuine (s : Pool (b.system faults)) (w : Window) (m : MainWindow.Move) : Prop :=
  ∀ n result call, m = .reply n result → w.calls[n]? = some call → Delivers s call result

/-- The request of the call was answered with this message. -/
def Answered (s : Pool (b.system faults)) (call : MainWindow.Call) (reply : MainWindow.Reply) :
    Prop :=
  ∃ t ∈ s.threads, t.call = call.request ∧
    ∃ answer, t.prog = .done answer ∧ MainWindow.received answer = some (.ok reply)

section Answers

variable {p p' : Pool (b.system faults)} {call : MainWindow.Call} {reply : MainWindow.Reply}

theorem Answered.step {m : Move (b.system faults)} (answered : Answered p call reply)
    (step : Pool.Step p m p') : Answered p' call reply := by
  obtain ⟨t, member, asked, answer, returned, got⟩ := answered
  exact ⟨t, step.returned member returned, asked, answer, returned, got⟩

theorem Delivers.answered_ok (delivers : Delivers p call (.ok reply)) : Answered p call reply := by
  cases delivers with
  | answered member asked returned got => exact ⟨_, member, asked, _, returned, got⟩

end Answers

/-- The backend moves, or one window does, whose moves satisfy `G`. -/
inductive Step (G : Window → MainWindow.Move → Prop) :
    Deployment ι b faults → Deployment ι b faults → Prop
  | backend {s : Deployment ι b faults} {m : Move (b.system faults)}
      {pool : Pool (b.system faults)} :
    RequestsOnly s.pool m → Pool.Step s.pool m pool → Step G s ⟨pool, s.windows⟩
  | window {s : Deployment ι b faults} {w : Window} (i : ι) (m : MainWindow.Move) :
    G (s.windows i) m → Genuine s.pool (s.windows i) m → (s.windows i).next m = some w →
    Step G s ⟨s.pool, Function.update s.windows i w⟩

def Reach (G : Window → MainWindow.Move → Prop) :
    Deployment ι b faults → Deployment ι b faults → Prop :=
  Relation.ReflTransGen (Step G)

/-- Nothing is stored, nothing has been asked, and every window is as it is loaded. -/
structure Fresh (s : Deployment ι b faults) : Prop where
  empty : s.pool.world.redis = .empty
  idle : s.pool.threads = []
  loaded : ∀ i, s.windows i = Window.loaded

section Runs

variable {G : Window → MainWindow.Move → Prop} {s₀ s s' : Deployment ι b faults}

/-- The backend of a deployment runs as it does without the windows. -/
theorem Reach.pool (reach : Reach G s₀ s) : Pool.Reach RequestsOnly s₀.pool s.pool := by
  induction reach with
  | refl => exact .refl
  | tail _ step ih =>
    cases step with
    | backend requests step => exact ih.step requests step
    | window i m guard genuine next => exact ih

/-- The backend can run while the windows rest. -/
theorem reach_of_pool {p : Pool (b.system faults)} (reach : Pool.Reach RequestsOnly s.pool p) :
    Reach G s ⟨p, s.windows⟩ := by
  induction reach with
  | refl => exact .refl
  | tail _ edge ih =>
    obtain ⟨m, requests, step⟩ := edge
    exact ih.tail (.backend (s := ⟨_, s.windows⟩) requests step)

/-- What holds of every window when it is loaded, whatever the backend does and whatever is answered
there, holds of every window. -/
theorem Reach.window {I : Pool (b.system faults) → Window → Prop} (fresh : Fresh s₀)
    (loaded : ∀ p, I p Window.loaded)
    (serves : ∀ p m p' w, I p w → Pool.Step p m p' → I p' w)
    (moves : ∀ p w m w', I p w → G w m → Genuine p w m → w.next m = some w' → I p w')
    (reach : Reach G s₀ s) (i : ι) : I s.pool (s.windows i) := by
  induction reach generalizing i with
  | refl =>
    rw [fresh.loaded i]
    exact loaded _
  | @tail s s' _ step ih =>
    cases step with
    | backend requests step => exact serves _ _ _ _ (ih i) step
    | @window w j m guard genuine next =>
      dsimp only
      by_cases same : i = j
      · subst same
        rw [Function.update_self]
        exact moves _ _ _ _ (ih i) guard genuine next
      · rw [Function.update_of_ne same]
        exact ih i

end Runs

end Deployment

/-! ### What a window shows -/

namespace MainWindow

section Shows

variable {w w' : Window} {m : Move} {call : Call} {result : Result}

/-- The window shows no more sessions than before, and no other information. -/
structure Calm (w w' : Window) : Prop where
  sessions : ∀ page, .session page ∈ w'.pages → .session page ∈ w.pages
  info : w'.infoText = w.infoText

theorem Calm.of_eq (pages : w'.pages = w.pages) (info : w'.infoText = w.infoText) : Calm w w' :=
  ⟨fun _ member => pages ▸ member, info⟩

theorem Calm.activated (calm : Calm w w') : Calm w w'.activated := by
  rw [activated_eq]
  split
  · exact ⟨calm.sessions, calm.info⟩
  · exact calm

theorem Calm.pop (calm : Calm w w') : Calm w w'.pop := by
  unfold Window.pop
  split
  · next top page pages stack =>
    refine Calm.activated ⟨fun page member => calm.sessions page ?_, calm.info⟩
    rw [stack]
    exact List.mem_cons_of_mem _ member
  · exact calm

theorem Calm.act (step : w.act m = some w') : Calm w w' := by
  have same : ∀ {w' : Window}, w'.pages = w.pages → w'.infoText = w.infoText → Calm w w' :=
    Calm.of_eq
  unfold Window.act at step
  split at step
  case h_1 userName userRole pages stack =>
    cases step
    refine Calm.activated ⟨fun page member => ?_, rfl⟩
    rcases List.mem_cons.mp member with impossible | below
    · cases impossible
    · exact below
  case h_2 roomCode maxCameras pages stack =>
    cases step
    exact same rfl rfl
  case h_3 pages stack =>
    split at step <;> cases step
    unfold Window.onQuickJoinRequested
    split
    · exact same rfl rfl
    · dsimp only
      split <;> exact same rfl rfl
  case h_4 maxCameras pages stack =>
    split at step <;> cases step
    exact same rfl rfl
  case h_5 pages stack =>
    split at step <;> cases step
    exact same rfl rfl
  case h_6 page pages stack =>
    cases step
    exact Calm.pop (same rfl rfl)
  case h_7 page pages stack =>
    split at step <;> cases step
    exact same rfl rfl
  case h_8 =>
    cases step
    exact Calm.activated ⟨fun page member => List.mem_of_mem_drop member, rfl⟩
  case h_9 =>
    cases step
    refine ⟨fun page member => ?_, rfl⟩
    rcases List.mem_cons.mp member with impossible | impossible <;> cases impossible
  case h_10 => cases step

/-- The signals after which a window shows more. -/
def Signal.Shows : Signal → Prop
  | .sessionCreated _ | .directorJoined _ _ | .cameraJoined _ _ => True
  | _ => False

/-- A step that shows more is a reply that raised one of these signals. -/
theorem next_cases (step : w.next m = some w') :
    Calm w w' ∨ ∃ n result call signal, m = .reply n result ∧ w.calls[n]? = some call ∧
      call.finished result = some signal ∧ signal.Shows ∧
      w' = ({ w with calls := w.calls.eraseIdx n }).handle signal := by
  unfold Window.next at step
  split at step
  case h_1 n result =>
    split at step
    · cases step
    next call found =>
    dsimp only at step
    split at step
    · cases step
      exact .inl (Calm.of_eq rfl rfl)
    next signal finished =>
    cases step
    cases signal with
    | sessionCreated | directorJoined | cameraJoined =>
      exact .inr ⟨n, result, call, _, rfl, found, finished, trivial, rfl⟩
    | sessionClosed success =>
      refine .inl ?_
      cases success with
      | false => exact Calm.of_eq rfl rfl
      | true => exact Calm.pop (Calm.of_eq rfl rfl)
    | sessionsReceived => exact .inl (Calm.of_eq rfl rfl)
    | error message => exact .inl (Calm.of_eq rfl rfl)
  case h_2 =>
    split at step
    · split at step <;> cases step
      exact .inl (Calm.pop (Calm.of_eq rfl rfl))
    · cases step
  case h_3 | h_4 =>
    split at step <;> cases step
    exact .inl (Calm.of_eq rfl rfl)
  case h_5 =>
    split at step
    · cases step
    · exact .inl (Calm.act step)

theorem finished_directorJoined {token livekitUrl : String}
    (finished : call.finished result = some (.directorJoined token livekitUrl)) :
    ∃ roomCode userId role reply, call = .joinSession roomCode userId role ∧ result = .ok reply ∧
      reply.token = token ∧ reply.livekitUrl = livekitUrl ∧ token ≠ "" := by
  unfold Call.finished at finished
  split at finished <;> try cases finished
  case h_6 roomCode userId role reply =>
    split at finished
    · next signed =>
      cases finished
      exact ⟨roomCode, userId, role, reply, rfl, rfl, rfl, rfl, signed⟩
    · split at finished <;> cases finished
  case h_9 => split at finished <;> cases finished

theorem finished_cameraJoined {whipUrl streamKey : String}
    (finished : call.finished result = some (.cameraJoined whipUrl streamKey)) :
    ∃ roomCode userId role reply, call = .joinSession roomCode userId role ∧ result = .ok reply ∧
      reply.token = "" ∧ reply.whipUrl = whipUrl ∧ reply.streamKey = streamKey ∧ whipUrl ≠ "" := by
  unfold Call.finished at finished
  split at finished <;> try cases finished
  case h_6 roomCode userId role reply =>
    split at finished
    · cases finished
    next unsigned =>
    split at finished
    · next given =>
      cases finished
      exact ⟨roomCode, userId, role, reply, rfl, rfl, not_not.mp unsigned, rfl, rfl, given⟩
    · cases finished
  case h_9 => split at finished <;> cases finished

theorem finished_sessionCreated {roomCode : String}
    (finished : call.finished result = some (.sessionCreated roomCode)) :
    ∃ userId maxCameras reply, call = .createSession userId maxCameras ∧ result = .ok reply ∧
      reply.roomCode = roomCode := by
  unfold Call.finished at finished
  split at finished <;> try cases finished
  case h_3 userId maxCameras reply => exact ⟨userId, maxCameras, reply, rfl, rfl, rfl⟩
  case h_6 =>
    split at finished
    · cases finished
    · split at finished <;> cases finished
  case h_9 => split at finished <;> cases finished

end Shows

end MainWindow

/-! ### What the backend answers -/

namespace Backend

variable {b : Backend} {faults : Cmd → Err → Prop}

/-- The answer is one to the call, and a close that did not fail has succeeded. -/
def Fits : Call → Result → Prop
  | .joinSession _, .join _ | .createSession _, .create _ | .getMySessions _, .mySessions _ => True
  | .closeSession _, .close (.ok reply) => reply.success = true
  | .closeSession _, .close (.error _) => True
  | .store _, _ | .sweepAt _ _, _ => True
  | _, _ => False

@[reducible] def fitting (b : Backend) (faults : Cmd → Err → Prop) :
    Contract (b.system faults) where
  Expects _ := True
  Allows _ _ _ := True
  Post call answer _ := Fits call answer

/-- A close answers with success or with an error. -/
theorem wp_closeSession_success {req : CloseSessionRequest} {past : List (Event backend)} :
    (b.server.closeSession req).wp (histLogic (fun _ => True) fun _ _ => True)
      (fun answer _ => ∀ reply, answer = .ok reply → reply.success = true) past := by
  have failed : ∀ {status : Status} (reply : CloseSessionReply),
      (Except.error status : Except Status CloseSessionReply) = .ok reply →
        reply.success = true := by
    intro status reply impossible
    cases impossible
  rw [Server.closeSession]
  split; · exact failed
  split; · exact failed
  rw [Prog.wp_bind]
  refine Prog.wp_of_forall (fun _ _ => trivial) ?_
  intro found past
  cases found with
  | error err => exact failed
  | ok sess =>
    dsimp only
    split
    · exact failed
    rw [Prog.wp_bind]
    refine Prog.wp_of_forall (fun _ _ => trivial) fun _ past => ?_
    rw [Prog.wp_bind]
    refine Prog.wp_of_forall (fun _ _ => trivial) ?_
    intro closed past
    cases closed with
    | error err => exact failed
    | ok _ =>
      refine ⟨trivial, fun _ _ _ => ?_⟩
      intro reply same
      cases same
      rfl

theorem covers_fitting (call : Call) : (b.fitting faults).Covers call := by
  have any : ∀ {α : Type} (p : Go α) (f : α → Result), (∀ a, Fits call (f a)) →
      (p >>= fun a => Prog.done (f a)).wp
        (histLogic (fun _ => True) fun (_ : List (Event backend)) _ => True)
        (fun answer _ => Fits call answer) [] := by
    intro α p f fits
    rw [Prog.wp_bind]
    exact Prog.wp_of_forall (fun _ _ => trivial) fun a _ => fits a
  cases call with
  | store call => exact Prog.wp_of_forall (fun _ _ => trivial) fun _ _ => trivial
  | joinSession req => exact any (b.server.joinSession req) .join fun _ => trivial
  | createSession req => exact any (b.server.createSession req) .create fun _ => trivial
  | getMySessions req => exact any (b.server.getMySessions req) .mySessions fun _ => trivial
  | sweepAt instanceID now => exact Prog.wp_of_forall (fun _ _ => trivial) fun _ _ => trivial
  | closeSession req =>
    have code : (b.system faults).code (.closeSession req) =
        (b.server.closeSession req >>= fun a => Prog.done (.close a)) := rfl
    rw [Contract.Covers, code, Prog.wp_bind]
    refine Prog.wp_mono wp_closeSession_success ?_
    intro answer _ success
    cases answer with
    | error status => trivial
    | ok reply => exact success reply rfl

/-- Every call is answered in its kind. -/
theorem reach_fits {G : Pool (b.system faults) → Move (b.system faults) → Prop}
    {s₀ s : Pool (b.system faults)} (none_ : s₀.threads = []) (reach : Pool.Reach G s₀ s)
    {t : Thread (b.system faults)} {answer : Result} (member : t ∈ s.threads)
    (returned : t.prog = .done answer) : Fits t.call answer := by
  obtain ⟨-, follows⟩ := Pool.Reach.contract (C := b.fitting faults) (I := fun _ => True) trivial
    none_ (fun _ call _ => covers_fitting call) (fun _ _ _ _ _ => trivial)
    (fun _ _ _ _ _ _ _ _ _ _ _ _ _ _ _ => ⟨trivial, trivial⟩) (fun _ _ _ _ _ _ _ => trivial)
    reach
  exact (follows t member).1.post returned

end Backend

/-! ### A deployment to run -/

namespace Sample

/-- The message was the answer to the call. -/
def answeredWith (call : MainWindow.Call) (reply : MainWindow.Reply) (s : Pool (system .never)) :
    Bool :=
  s.threads.any fun t => match t.prog with
    | .done answer =>
      decide (t.call = call.request ∧ MainWindow.received answer = some (.ok reply))
    | .call _ _ => false

theorem answered_of_answeredWith {call : MainWindow.Call} {reply : MainWindow.Reply}
    {s : Pool (system .never)} (observed : answeredWith call reply s = true) :
    Deployment.Answered s call reply := by
  obtain ⟨t, member, observed⟩ := List.any_eq_true.mp observed
  dsimp only at observed
  split at observed
  · next answer returned =>
    obtain ⟨asked, got⟩ := of_decide_eq_true observed
    exact ⟨t, member, asked, answer, returned, got⟩
  · cases observed

/-- The ingresses that were created have a URL. -/
def urlsGiven (s : Pool (system .never)) : Bool :=
  s.threads.all fun t => t.past.all fun
    | ⟨.createIngress _, .ok info⟩ => decide (info.url ≠ "")
    | _ => true

/-- One window on a backend that nobody has used. -/
def deployed : Deployment Unit backend Failures.never.faults :=
  ⟨start .never 7, fun _ => Window.loaded⟩

theorem fresh_deployed : deployed.Fresh := ⟨rfl, rfl, fun _ => rfl⟩

def cameraCall : MainWindow.Call :=
  .joinSession "ROOM-000007" "bob" .camera

def cameraAnswer : MainWindow.Reply :=
  ⟨"", "", "", "https://whip", "key", false⟩

def creationCall : MainWindow.Call :=
  .createSession "alice" 2

def creationAnswer : MainWindow.Reply :=
  ⟨"ROOM-000007", "", "", "", "", false⟩

end Sample

namespace Deployment

open MainWindow (received Settled)

variable {ι : Type} [DecidableEq ι] {b : Backend} {faults : Cmd → Err → Prop}
variable {s₀ s : Deployment ι b faults} {p p' : Pool (b.system faults)}
variable {call : MainWindow.Call} {reply : MainWindow.Reply}

/-! ### The pages -/

/-- The page is one of a director with the token, or one of a camera with the ingress, of the
message. -/
def Shows (page : SessionPage) (reply : MainWindow.Reply) : Prop :=
  (page.userType = .director ∧ reply.token ≠ "" ∧ page.livekitToken = reply.token ∧
      page.livekitUrl = reply.livekitUrl ∧ page.whipUrl = "" ∧ page.streamKey = "") ∨
    (page.userType = .camera ∧ reply.whipUrl ≠ "" ∧ page.whipUrl = reply.whipUrl ∧
      page.streamKey = reply.streamKey ∧ page.livekitToken = "" ∧ page.livekitUrl = "")

/-- The page shows what a join of its room was answered with. -/
def Joined (p : Pool (b.system faults)) (page : SessionPage) : Prop :=
  ∃ userId role reply, Answered p (.joinSession page.roomCode userId role) reply ∧ Shows page reply

/-- Credentials for a role are shown on a page of that role, and nothing else is. -/
theorem Shows.of_credited {page : SessionPage} {reply : MainWindow.Reply} {answer : JoinReply}
    {past : List (Event backend)} {roomCode userId : String} {role : UserRole}
    (shows : Shows page reply) (got : received (.join (.ok answer)) = some (.ok reply))
    (credited : Credited p past ⟨roomCode, userId, role.toString⟩ answer) :
    page.userType = role ∧ page.livekitToken = answer.token ∧
      page.livekitUrl = answer.livekitUrl ∧ page.whipUrl = answer.whipUrl ∧
      page.streamKey = answer.streamKey := by
  cases got
  obtain ⟨orig, h, sess, _, _, _, _, _, _, given⟩ := credited
  dsimp only at given
  rcases given with ⟨camera, info, _, _, rfl⟩ | ⟨director, now, token, _, rfl⟩
  · rcases shows with ⟨_, signed, _⟩ | ⟨type, _, whip, key, token, url⟩
    · exact absurd rfl signed
    · cases role with
      | director => exact absurd camera (by decide)
      | camera => exact ⟨type, token, url, whip, key⟩
  · rcases shows with ⟨type, _, token, url, whip, key⟩ | ⟨_, given, _⟩
    · cases role with
      | director => exact ⟨type, token, url, whip, key⟩
      | camera => exact absurd director (by decide)
    · exact absurd rfl given

theorem Joined.step {m : Move (b.system faults)} {page : SessionPage} (joined : Joined p page)
    (step : Pool.Step p m p') : Joined p' page := by
  obtain ⟨userId, role, reply, answered, shown⟩ := joined
  exact ⟨userId, role, reply, answered.step step, shown⟩

/-- Every session page shows what a join of its room was answered with. -/
structure Paged (p : Pool (b.system faults)) (w : Window) : Prop where
  settled : Settled w
  joined : ∀ page, .session page ∈ w.pages → Joined p page

theorem Paged.next {w w' : Window} {m : MainWindow.Move} (paged : Paged p w)
    (guard : Undisturbed w m) (genuine : Genuine p w m) (step : w.next m = some w') :
    Paged p w' := by
  refine ⟨paged.settled.next guard step, ?_⟩
  intro page member
  rcases MainWindow.next_cases step with
    calm | ⟨n, result, call, signal, rfl, found, finished, shows, rfl⟩
  · exact paged.joined page (calm.sessions page member)
  have delivers : Delivers p call result := genuine n result call rfl found
  have awaits := paged.settled.awaited call (List.mem_of_getElem? found)
  cases signal with
  | sessionCreated roomCode => exact paged.joined page member
  | directorJoined token livekitUrl =>
    obtain ⟨roomCode, userId, role, reply, rfl, rfl, rfl, rfl, signed⟩ :=
      MainWindow.finished_directorJoined finished
    rcases List.mem_cons.mp member with pushed | below
    · cases pushed
      rw [← awaits.2] at delivers
      exact ⟨userId, role, reply, delivers.answered_ok,
        .inl ⟨rfl, signed, rfl, rfl, rfl, rfl⟩⟩
    · exact paged.joined page below
  | cameraJoined whipUrl streamKey =>
    obtain ⟨roomCode, userId, role, reply, rfl, rfl, -, rfl, rfl, given⟩ :=
      MainWindow.finished_cameraJoined finished
    rcases List.mem_cons.mp member with pushed | below
    · cases pushed
      rw [← awaits.2] at delivers
      exact ⟨userId, role, reply, delivers.answered_ok,
        .inr ⟨rfl, given, rfl, rfl, rfl, rfl⟩⟩
    · exact paged.joined page below
  | sessionClosed | sessionsReceived | error => exact shows.elim

theorem paged_loaded : Paged p Window.loaded := by
  refine ⟨MainWindow.settled_loaded, ?_⟩
  intro page member
  rcases List.mem_singleton.mp member with ⟨⟩

theorem credited_of_returned {p₀ : Pool (b.system faults)} {t : Thread (b.system faults)}
    {req : JoinRequest} {answer : JoinReply} (empty : p₀.world.redis = .empty)
    (none_ : p₀.threads = []) (reach : Pool.Reach RequestsOnly p₀ p) (member : t ∈ p.threads)
    (asked : t.call = .joinSession req) (returned : t.prog = .done (.join (.ok answer))) :
    Credited p t.past req answer := by
  obtain ⟨sourced, keeps⟩ := reach_sourced empty none_ (fun _ _ guard => guard) reach
  have records := reach_records empty none_ (fun _ _ guard => guard) reach
  exact sourced.credited records (fun t member => (keeps t member).2) (keeps t member).1 member
    asked returned

/-- **Pages hold the credentials of their room**: in every run of windows in which no step sets the
last operation or the last room while they are still waited for, whatever the backend does, a
session page shows what a `JoinSession` of its room code, in the role of the page, was answered
with, and these are credentials for the session created with that code. -/
theorem pages_hold_credentials {i : ι} {page : SessionPage} (fresh : Fresh s₀)
    (reach : Reach Undisturbed s₀ s) (shown : .session page ∈ (s.windows i).pages) :
    ∃ t ∈ s.pool.threads, ∃ userId reply,
      t.call = .joinSession ⟨page.roomCode, userId, page.userType.toString⟩ ∧
      Credited s.pool t.past ⟨page.roomCode, userId, page.userType.toString⟩ reply ∧
      page.livekitToken = reply.token ∧ page.livekitUrl = reply.livekitUrl ∧
      page.whipUrl = reply.whipUrl ∧ page.streamKey = reply.streamKey := by
  have paged : Paged s.pool (s.windows i) :=
    reach.window fresh (fun p => paged_loaded)
      (fun p m p' w paged step =>
        ⟨paged.settled, fun page member => (paged.joined page member).step step⟩)
      (fun p w m w' paged guard genuine step => paged.next guard genuine step) i
  obtain ⟨userId, role, reply, ⟨t, member, asked, answer, returned, got⟩, shows⟩ :=
    paged.joined page shown
  have fits := Backend.reach_fits fresh.idle reach.pool member returned
  rw [asked] at fits
  cases answer with
  | join answer =>
    cases answer with
    | error status => cases got
    | ok answer =>
      have credited := credited_of_returned fresh.empty fresh.idle reach.pool member asked returned
      obtain ⟨rfl, same⟩ := shows.of_credited got credited
      exact ⟨t, member, userId, answer, asked, credited, same⟩
  | _ => exact fits.elim

theorem pages_hold_credentials_run :
    ∃ (s : Deployment Unit Sample.backend Failures.never.faults) (page : SessionPage),
      Reach Undisturbed Sample.deployed s ∧ .session page ∈ (s.windows ()).pages ∧
      page.userType = .camera ∧ ∃ t ∈ s.pool.threads, ∃ userId reply,
        t.call = .joinSession ⟨page.roomCode, userId, page.userType.toString⟩ ∧
        Credited s.pool t.past ⟨page.roomCode, userId, page.userType.toString⟩ reply ∧
        page.livekitToken = reply.token ∧ page.livekitUrl = reply.livekitUrl ∧
        page.whipUrl = reply.whipUrl ∧ page.streamKey = reply.streamKey := by
  have observed : (Sample.cameraJoins.any
      (Sample.answeredWith Sample.cameraCall Sample.cameraAnswer)) = true := by
    decide +kernel
  obtain ⟨p, computed, observed⟩ := (Option.any_eq_true _ _).mp observed
  obtain ⟨t, member, asked, answer, returned, got⟩ := Sample.answered_of_answeredWith observed
  have served : Reach Undisturbed Sample.deployed ⟨p, Sample.deployed.windows⟩ :=
    reach_of_pool ((Sample.reach_of_replay computed).mono
      fun _ _ => Sample.requestsOnly_of_isRequest)
  have login := served.tail (.window () (.login "bob" .camera)
    (fun impossible => by cases impossible) (fun _ _ _ impossible => by cases impossible) rfl)
  have join := login.tail (.window () (.join "ROOM-000007" 0)
    (fun call impossible => by cases impossible) (fun _ _ _ impossible => by cases impossible) rfl)
  have joined := join.tail (.window () (.reply 0 (.ok Sample.cameraAnswer)) (by
      intro call signal found finished
      cases found
      cases finished
      trivial)
    (by
      intro n result call reply found
      cases reply
      cases found
      exact .answered member asked returned got) rfl)
  exact ⟨_, _, joined, List.mem_cons_self, rfl,
    pages_hold_credentials (i := ()) Sample.fresh_deployed joined List.mem_cons_self⟩

/-! ### The rooms created -/

/-- The window says nothing, or that the room was created with which a creation was answered. -/
def Announced (p : Pool (b.system faults)) (w : Window) : Prop :=
  w.infoText = "" ∨ ∃ userId maxCameras reply,
    Answered p (.createSession userId maxCameras) reply ∧
    w.infoText = "Room Successfully Created: " ++ reply.roomCode

theorem Announced.step {m : Move (b.system faults)} {w : Window} (announced : Announced p w)
    (step : Pool.Step p m p') : Announced p' w := by
  rcases announced with silent | ⟨userId, maxCameras, reply, answered, text⟩
  · exact .inl silent
  · exact .inr ⟨userId, maxCameras, reply, answered.step step, text⟩

theorem Announced.next {w w' : Window} {m : MainWindow.Move} (announced : Announced p w)
    (genuine : Genuine p w m) (step : w.next m = some w') : Announced p w' := by
  rcases MainWindow.next_cases step with
    calm | ⟨n, result, call, signal, rfl, found, finished, shows, rfl⟩
  · rw [Announced, calm.info]
    exact announced
  cases signal with
  | sessionCreated roomCode =>
    obtain ⟨userId, maxCameras, reply, rfl, rfl, rfl⟩ :=
      MainWindow.finished_sessionCreated finished
    exact .inr ⟨userId, maxCameras, reply, (genuine n _ _ rfl found).answered_ok, rfl⟩
  | directorJoined | cameraJoined => exact announced
  | sessionClosed | sessionsReceived | error => exact shows.elim

/-- **A room that is announced was created**: in every run of any windows, whatever the backend
does, the code a window shows as created is the one of a session that a `CreateSession` has written,
whose creator has been recorded as a director. -/
theorem created_as_told {G : Window → MainWindow.Move → Prop} {i : ι} (fresh : Fresh s₀)
    (reach : Reach G s₀ s) (told : (s.windows i).infoText ≠ "") :
    ∃ t ∈ s.pool.threads, ∃ orig, Wrote s.pool orig ∧
      (s.windows i).infoText = "Room Successfully Created: " ++ orig.roomCode ∧
      t.call = .createSession ⟨orig.createdBy, orig.maxCameras⟩ ∧
      Acked t.past (Op.writeRole orig.id orig.createdBy "director").cmd := by
  have announced : Announced s.pool (s.windows i) :=
    reach.window fresh (fun p => .inl rfl) (fun p m p' w announced step => announced.step step)
      (fun p w m w' announced guard genuine step => announced.next genuine step) i
  rcases announced with silent | ⟨userId, maxCameras, reply, ⟨t, member, asked, answer, back⟩, text⟩
  · exact absurd silent told
  obtain ⟨returned, got⟩ := back
  have fits := Backend.reach_fits fresh.idle reach.pool member returned
  obtain ⟨-, keeps⟩ := reach_sourced fresh.empty fresh.idle (fun _ _ guard => guard) reach.pool
  have rests := (keeps t member).1.post returned
  rw [asked] at fits rests
  cases answer with
  | create answer =>
    cases answer with
    | error status => cases got
    | ok answer =>
      cases got
      obtain ⟨orig, written, _, recorded, code⟩ := rests
      obtain ⟨req, same, owner, limit, _⟩ := written.1
      cases same
      have asked' : t.call = .createSession ⟨orig.createdBy, orig.maxCameras⟩ := by
        rw [owner, limit]
        exact asked
      refine ⟨t, member, orig, ⟨t, member, ?_⟩, text.trans (by rw [code]), asked', ?_⟩
      · rw [asked]
        exact written
      · rw [owner]
        exact recorded
  | _ => exact fits.elim

theorem created_as_told_run :
    ∃ s : Deployment Unit Sample.backend Failures.never.faults,
      Reach (fun _ _ => True) Sample.deployed s ∧
      (s.windows ()).infoText = "Room Successfully Created: ROOM-000007" ∧
      ∃ t ∈ s.pool.threads, ∃ orig, Wrote s.pool orig ∧
        (s.windows ()).infoText = "Room Successfully Created: " ++ orig.roomCode ∧
        t.call = .createSession ⟨orig.createdBy, orig.maxCameras⟩ ∧
        Acked t.past (Op.writeRole orig.id orig.createdBy "director").cmd := by
  have observed : (Sample.cameraJoins.any
      (Sample.answeredWith Sample.creationCall Sample.creationAnswer)) = true := by
    decide +kernel
  obtain ⟨p, computed, observed⟩ := (Option.any_eq_true _ _).mp observed
  obtain ⟨t, member, asked, answer, returned, got⟩ := Sample.answered_of_answeredWith observed
  have served : Reach (fun _ _ => True) Sample.deployed ⟨p, Sample.deployed.windows⟩ :=
    reach_of_pool ((Sample.reach_of_replay computed).mono
      fun _ _ => Sample.requestsOnly_of_isRequest)
  have login := served.tail (.window () (.login "alice" .director) trivial
    (fun _ _ _ impossible => by cases impossible) rfl)
  have create := login.tail (.window () (.create 2) trivial
    (fun _ _ _ impossible => by cases impossible) rfl)
  have created := create.tail (.window () (.reply 1 (.ok Sample.creationAnswer)) trivial
    (by
      intro n result call reply found
      cases reply
      cases found
      exact .answered member asked returned got) rfl)
  have told : "Room Successfully Created: ROOM-000007" ≠ "" := by decide
  exact ⟨_, created, rfl, created_as_told (i := ()) Sample.fresh_deployed created told⟩

/-! ### The answers -/

/-- The signal tells the caller what was answered. -/
inductive Tells : MainWindow.Call → Result → Signal → Prop
  | created {userId : String} {maxCameras : Int} {reply : CreateSessionReply} :
    Tells (.createSession userId maxCameras) (.create (.ok reply)) (.sessionCreated reply.roomCode)
  | notCreated {userId : String} {maxCameras : Int} {status : Status} :
    Tells (.createSession userId maxCameras) (.create (.error status)) (.error status.message)
  | director {roomCode userId : String} {reply : JoinReply} :
    Tells (.joinSession roomCode userId .director) (.join (.ok reply))
      (.directorJoined reply.token reply.livekitUrl)
  | camera {roomCode userId : String} {reply : JoinReply} :
    Tells (.joinSession roomCode userId .camera) (.join (.ok reply))
      (.cameraJoined reply.whipUrl reply.streamKey)
  | notJoined {roomCode userId : String} {role : UserRole} {status : Status} :
    Tells (.joinSession roomCode userId role) (.join (.error status)) (.error status.message)
  | closed {roomCode userId : String} {reply : CloseSessionReply} :
    Tells (.closeSession roomCode userId) (.close (.ok reply)) (.sessionClosed true)
  | notClosed {roomCode userId : String} {status : Status} :
    Tells (.closeSession roomCode userId) (.close (.error status)) (.sessionClosed false)
  | listed {userId : String} {reply : GetMySessionsReply} :
    Tells (.getMySessions userId) (.mySessions (.ok reply)) .sessionsReceived
  | notListed {userId : String} {status : Status} :
    Tells (.getMySessions userId) (.mySessions (.error status)) (.error status.message)

/-- The client tells a director by the token and a camera by the ingress. -/
theorem finished_credited {past : List (Event backend)} {roomCode userId : String} {role : UserRole}
    {answer : JoinReply}
    (credited : Credited p past ⟨roomCode, userId, role.toString⟩ answer)
    (signs : ∀ now token jwt, b.server.toJWT now token = .ok jwt → jwt ≠ "")
    (urls : ∀ req info, Saw past (.createIngress req) (.ok info) → info.url ≠ "") :
    ∃ result signal, received (.join (.ok answer)) = some result ∧
      (MainWindow.Call.joinSession roomCode userId role).finished result = some signal ∧
      Tells (.joinSession roomCode userId role) (.join (.ok answer)) signal := by
  obtain ⟨orig, h, sess, _, _, _, _, _, _, given⟩ := credited
  dsimp only at given
  rcases given with ⟨camera, info, made, _, rfl⟩ | ⟨director, now, token, signed, rfl⟩
  · cases role with
    | director => exact absurd camera (by decide)
    | camera =>
      refine ⟨_, _, rfl, ?_, .camera⟩
      rw [MainWindow.Call.finished, if_neg (fun signed => signed rfl), if_pos (urls _ _ made)]
  · cases role with
    | director =>
      refine ⟨_, _, rfl, ?_, .director⟩
      rw [MainWindow.Call.finished, if_pos (signs _ _ _ signed)]
    | camera => exact absurd director (by decide)

/-- **Every answer is told**: where tokens and the URLs of ingresses are not empty, a client that
finds an answer to its request raises the signal that tells what was answered: none is dropped, no
success is told as an error and no error as a success. -/
theorem answers_are_told {t : Thread (b.system faults)} {call : MainWindow.Call} {answer : Result}
    {p₀ : Pool (b.system faults)} (empty : p₀.world.redis = .empty) (none_ : p₀.threads = [])
    (reach : Pool.Reach RequestsOnly p₀ p) (member : t ∈ p.threads)
    (asked : t.call = call.request) (returned : t.prog = .done answer)
    (signs : ∀ now token jwt, b.server.toJWT now token = .ok jwt → jwt ≠ "")
    (urls : ∀ req info, p.Saw (.createIngress req) (.ok info) → info.url ≠ "") :
    ∃ result signal, received answer = some result ∧ call.finished result = some signal ∧
      Tells call answer signal := by
  have fits := Backend.reach_fits none_ reach member returned
  rw [asked] at fits
  cases call with
  | createSession userId maxCameras =>
    cases answer with
    | create answer =>
      cases answer with
      | error status => exact ⟨_, _, rfl, rfl, .notCreated⟩
      | ok reply => exact ⟨_, _, rfl, rfl, .created⟩
    | _ => exact fits.elim
  | joinSession roomCode userId role =>
    cases answer with
    | join answer =>
      cases answer with
      | error status => exact ⟨_, _, rfl, rfl, .notJoined⟩
      | ok reply =>
        have credited := credited_of_returned empty none_ reach member asked returned
        exact finished_credited credited signs fun req info made => urls req info ⟨t, member, made⟩
    | _ => exact fits.elim
  | closeSession roomCode userId =>
    cases answer with
    | close answer =>
      cases answer with
      | error status => exact ⟨_, _, rfl, rfl, .notClosed⟩
      | ok reply =>
        have success : reply.success = true := fits
        refine ⟨_, _, rfl, ?_, .closed⟩
        exact if_pos success
    | _ => exact fits.elim
  | getMySessions userId =>
    cases answer with
    | mySessions answer =>
      cases answer with
      | error status => exact ⟨_, _, rfl, rfl, .notListed⟩
      | ok reply => exact ⟨_, _, rfl, rfl, .listed⟩
    | _ => exact fits.elim

theorem answers_are_told_run : ∃ (p : Pool (Sample.system .never)) (answer : Result)
    (result : MainWindow.Result) (signal : Signal),
    Pool.Reach RequestsOnly (Sample.start .never 7) p ∧ received answer = some result ∧
      Sample.cameraCall.finished result = some signal ∧
      Tells Sample.cameraCall answer signal := by
  have observed : (Sample.cameraJoins.any fun s =>
      Sample.answeredWith Sample.cameraCall Sample.cameraAnswer s && Sample.urlsGiven s) =
        true := by
    decide +kernel
  obtain ⟨p, computed, observed⟩ := (Option.any_eq_true _ _).mp observed
  obtain ⟨answered, given⟩ := (Bool.and_eq_true _ _).mp observed
  obtain ⟨t, member, asked, answer, returned, -⟩ := Sample.answered_of_answeredWith answered
  have reach := (Sample.reach_of_replay computed).mono fun _ _ => Sample.requestsOnly_of_isRequest
  obtain ⟨result, signal, told⟩ := answers_are_told rfl rfl reach member asked returned
    (by
      intro now token jwt signed
      cases signed
      decide)
    (by
      intro req info holds
      rcases holds with ⟨t, member, made⟩
      exact of_decide_eq_true (List.all_eq_true.mp (List.all_eq_true.mp given t member) _ made))
  exact ⟨p, answer, result, signal, reach, told⟩

end Deployment

end DirectLink
