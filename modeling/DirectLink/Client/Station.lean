import DirectLink.Client.CameraController
import DirectLink.Client.DirectorTransport
import DirectLink.Client.MainWindow

/-!
# A window with its camera and its room

The main window, the camera session controller and the director transport.  A session page asks for
its camera or its room when it is completed, and lets go of it when it is destroyed.  A page that is
taken from the stack is destroyed later, by the event loop, and the signal `disconnected` of the
transport closes the page on top.

* `Station.on_air_with_page`: the camera runs for a session page and streams to its ingress.
* `Station.on_air_without_page`: unless a page is destroyed while its camera starts.
* `Station.room_with_page`: a director is in a room only for a session page.
-/

namespace DirectLink

/-! ### What the controller runs -/

namespace CameraController

/-- Whatever the controller runs, it runs for credentials that satisfy `P`. -/
structure Serves (P : String → String → Prop) (s : State) : Prop where
  watching : Watching s
  starts : ∀ start ∈ s.starts, start.phase.running = true → P start.whipUrl start.streamKey
  streams : s.session.isRunning = true → P s.session.whipUrl s.session.streamKey

section Serves

variable {s s' : State} {n : Nat} {P P' : String → String → Prop}

theorem serves_fresh : Serves P State.fresh := ⟨watching_fresh, nofun, nofun⟩

theorem Serves.mono (serves : Serves P s) (weaken : ∀ url key, P url key → P' url key) :
    Serves P' s :=
  ⟨serves.watching,
    fun start member running => weaken _ _ (serves.starts start member running),
    fun running => weaken _ _ (serves.streams running)⟩

theorem Serves.idle (serves : Serves P s) (still : s.startRunning = false) : s.Idle :=
  serves.watching.idle_iff.mpr still

theorem Serves.start (serves : Serves P s) {whipUrl streamKey : String}
    (asked : P whipUrl streamKey) : Serves P (s.start whipUrl streamKey) := by
  refine ⟨serves.watching.start whipUrl streamKey, ?_, ?_⟩
  · unfold State.start
    split
    · exact serves.starts
    · intro start member running
      rcases List.mem_append.mp member with earlier | last
      · exact serves.starts start earlier running
      · rw [List.mem_singleton.mp last]
        exact asked
  · unfold State.start
    split <;> exact serves.streams

/-- A stop without a running start leaves nothing that runs. -/
theorem Serves.stop (serves : Serves P s) (still : s.startRunning = false) :
    Serves P' s.stop := by
  refine ⟨serves.watching.stop, ?_, ?_⟩
  · intro start member running
    have stopped := serves.idle still start member
    rw [running] at stopped
    cases stopped
  · intro running
    have stopped := CameraSession.isRunning_stop s.session
    rw [show s.session.stop.isRunning = true from running] at stopped
    cases stopped

theorem Serves.background {success : Bool} (serves : Serves P s)
    (step : s.background n success = some s') : Serves P s' := by
  have watching' := serves.watching.background step
  obtain ⟨start, phase', _, watched, stepped, after, _⟩ := serves.watching.of_background step
  have running := running_of_stepStart stepped
  have asked := serves.starts start (State.mem_of_watched watched) running
  obtain ⟨same, _, runs⟩ := stepStart_told (serves.watching.fits_watched watched) stepped
  refine ⟨watching', ?_, ?_⟩
  · intro start' member running'
    rw [after] at member
    rcases List.mem_or_eq_of_mem_set member with other | own
    · exact serves.starts start' other running'
    · rw [own]
      exact asked
  · intro running'
    rcases runs running' with settling | ⟨before, url, key⟩
    · have told : start.phase.told = true := by
        rw [settling]
        rfl
      obtain ⟨url, key⟩ := same told
      obtain ⟨url', key'⟩ := serves.watching.given start watched told
      rw [url, key, url', key']
      exact asked
    · rw [url, key]
      exact serves.streams before

theorem Serves.startFinished (serves : Serves P s) (step : s.startFinished n = some s') :
    Serves P s' := by
  have watching' := serves.watching.startFinished step
  obtain ⟨start, _, _, _, _, _, _, _, after⟩ := State.of_startFinished step
  subst after
  refine ⟨watching', ?_, serves.streams⟩
  intro start' member running
  rcases List.mem_or_eq_of_mem_set member with other | own
  · exact serves.starts start' other running
  · rw [own] at running
    cases running

/-- Whatever captures or publishes does so for such credentials. -/
theorem Serves.of_live (serves : Serves P s)
    (live : s.session.capturing = true ∨ s.session.publishing = true) :
    P s.session.whipUrl s.session.streamKey := by
  have steady : s.session.capturing = s.session.isRunning ∧
      s.session.publishing = s.session.isRunning → P s.session.whipUrl s.session.streamKey := by
    intro ⟨capturing, publishing⟩
    rw [capturing, publishing, or_self] at live
    exact serves.streams live
  have fits := serves.watching.fits
  cases watching : s.watched with
  | none =>
    rw [watching] at fits
    exact steady fits
  | some start =>
    rw [watching] at fits
    have started : start.phase.told = true → start.phase.running = true →
        P s.session.whipUrl s.session.streamKey := by
      intro told running
      obtain ⟨url, key⟩ := serves.watching.given start watching told
      rw [url, key]
      exact serves.starts start (State.mem_of_watched watching) running
    cases phase : start.phase with
    | launched | finished _ | handled =>
      rw [Option.map_some, phase] at fits
      exact steady fits
    | initializingPipeline | initializingPublisher | startingPublisher =>
      rw [Option.map_some, phase] at fits
      obtain ⟨-, capturing, publishing⟩ := fits
      rw [capturing, publishing] at live
      simp at live
    | startingPipeline | settling =>
      rw [phase] at started
      exact started rfl rfl

end Serves

end CameraController

/-! ### The transport -/

namespace DirectorTransport

/-- Without a connection there is neither a room nor a session, and after `disconnectFromRoom` there
is no connection. -/
structure Settled (t : State) : Prop where
  alone : t.connectionState = .disconnected → t.session = none ∧ t.room = false
  left : t.left = true → t.connectionState = .disconnected

/-- The transport was asked for a room, and has not let go of it. -/
def State.Used (t : State) : Prop :=
  t.connectWatcher ≠ none ∨ t.room = true ∨ t.session ≠ none

variable {t t' : State} {m : Move}

theorem settled_fresh : Settled State.fresh := ⟨fun _ => ⟨rfl, rfl⟩, nofun⟩

theorem Settled.connectToRoom (settled : Settled t) (token url : String) :
    Settled { t.connectToRoom token url with left := false } := by
  refine ⟨?_, nofun⟩
  unfold State.connectToRoom
  split
  · exact settled.alone
  split
  · exact settled.alone
  · nofun

theorem Settled.disconnectFromRoom (settled : Settled t) (since : List Signal) :
    Settled { t.disconnectFromRoom with left := true, since } := by
  unfold State.disconnectFromRoom
  split
  · next disconnected => exact ⟨settled.alone, fun _ => disconnected⟩
  · exact ⟨fun _ => ⟨rfl, rfl⟩, fun _ => rfl⟩

/-- A step that no page brings about, with the reports in step. -/
theorem Settled.next (settled : Settled t) (connects : ∀ token url, m ≠ .connectToRoom token url)
    (leaves : m ≠ .disconnectFromRoom)
    (inStep : ∀ state, m = .connectionStateChanged state →
      if state = .disconnected then t.session = none ∧ t.room = false else t.left = false)
    (step : t.next m = some t') : Settled t' ∧ t'.left = t.left ∧ (t'.Used → t.Used) := by
  cases m with
  | connectToRoom token url => exact absurd rfl (connects token url)
  | disconnectFromRoom => exact absurd rfl leaves
  | shutdown =>
    cases step
    refine ⟨⟨fun _ => ⟨rfl, rfl⟩, settled.left⟩, rfl, ?_⟩
    intro either
    rcases either with watched | room | session
    · exact .inl watched
    · cases room
    · exact absurd rfl session
  | finish n success =>
    dsimp only [State.next] at step
    split at step <;> cases step
    exact ⟨⟨settled.alone, settled.left⟩, rfl, id⟩
  | connectFinished n =>
    obtain ⟨k, success, watcher, _, _, after⟩ := State.of_connectFinished step
    subst after
    refine ⟨⟨fun disconnected => ?_, settled.left⟩, rfl, fun _ => .inl (by rw [watcher]; simp)⟩
    dsimp only at disconnected ⊢
    rw [if_neg fun going => going.1 disconnected]
    exact settled.alone disconnected
  | connectionStateChanged state =>
    cases step
    have reported := inStep state rfl
    rw [State.connectionStateChanged_eq]
    refine ⟨⟨fun disconnected => ?_, fun away => ?_⟩, rfl, id⟩
    · cases state with
      | disconnected => exact reported
      | connected | reconnecting | other => cases disconnected
    · cases state with
      | disconnected => rfl
      | connected | reconnecting | other => exact absurd (reported.symm.trans away) (by simp)
  | disconnected =>
    cases step
    exact ⟨settled, rfl, id⟩
  | report event =>
    cases step
    exact ⟨⟨settled.alone, settled.left⟩, rfl, id⟩
  | runLambda k =>
    dsimp only [State.next] at step
    split at step
    · cases step
    · split at step <;> cases step
      unfold State.runLambda
      split
      · exact ⟨⟨settled.alone, settled.left⟩, rfl, id⟩
      · next tracks session =>
        have session : t.session = some tracks := session
        refine ⟨⟨fun disconnected => ?_, settled.left⟩, rfl,
          fun _ => .inr (.inr (by rw [session]; simp))⟩
        rw [(settled.alone disconnected).1] at session
        cases session

end DirectorTransport

/-! ### The window's stack -/

open MainWindow (Window Page SessionPage)

namespace MainWindow

variable {w w' : Window} {m : Move}

/-- The login page is at the bottom of the stack. -/
def Rooted (w : Window) : Prop := [Page.login] <:+ w.pages

@[simp] theorem activated_pages : w.activated.pages = w.pages := by
  rw [activated_eq]
  split <;> rfl

/-- What is left of a stack that has its root keeps it. -/
theorem Rooted.of_suffix (rooted : Rooted w) (rest : w'.pages <:+ w.pages)
    (stands : w'.pages ≠ []) : Rooted w' :=
  List.suffix_of_suffix_length_le rooted rest (List.length_pos_iff.mpr stands)

theorem Rooted.cons (rooted : Rooted w) {page : Page} (pushed : w'.pages = page :: w.pages) :
    Rooted w' := by
  rw [Rooted, pushed]
  exact rooted.trans (List.suffix_cons page w.pages)

/-- A step pushes one page that is not the login page, or pages are taken from the top. -/
structure Stacked (w w' : Window) : Prop where
  rooted : Rooted w'
  cases : (∃ page, w'.pages = page :: w.pages) ∨ w'.pages <:+ w.pages

theorem Stacked.same (rooted : Rooted w) (pages : w'.pages = w.pages) : Stacked w w' := by
  refine ⟨?_, .inr (by rw [pages])⟩
  rw [Rooted, pages]
  exact rooted

theorem Stacked.push (rooted : Rooted w) {page : Page} (pages : w'.pages = page :: w.pages) :
    Stacked w w' :=
  ⟨rooted.cons pages, .inl ⟨page, pages⟩⟩

theorem Stacked.rest (rooted : Rooted w) (rest : w'.pages <:+ w.pages) (stands : w'.pages ≠ []) :
    Stacked w w' :=
  ⟨rooted.of_suffix rest stands, .inr rest⟩

/-- `popCurrentItem` after a change of other properties. -/
theorem Stacked.pop {s : Window} (rooted : Rooted w) (pages : s.pages = w.pages) :
    Stacked w s.pop := by
  unfold Window.pop
  split
  · next top page rest stack =>
    refine .rest rooted ?_ ?_
    · rw [activated_pages, ← pages, stack]
      exact List.suffix_cons top _
    · rw [activated_pages]
      exact List.cons_ne_nil page rest
  · exact .same rooted pages

theorem Stacked.act (rooted : Rooted w) (step : w.act m = some w') : Stacked w w' := by
  unfold Window.act at step
  split at step
  case h_1 userName userRole pages stack =>
    cases step
    exact .push rooted (by rw [Window.onLogin, activated_pages])
  case h_2 roomCode maxCameras pages stack =>
    cases step
    exact .same rooted rfl
  case h_3 pages stack =>
    split at step <;> cases step
    unfold Window.onQuickJoinRequested
    split
    · exact .same rooted rfl
    · dsimp only
      split <;> exact .same rooted rfl
  case h_4 maxCameras pages stack =>
    split at step <;> cases step
    exact .same rooted rfl
  case h_5 pages stack =>
    split at step <;> cases step
    exact .same rooted rfl
  case h_6 page pages stack =>
    cases step
    exact .pop rooted rfl
  case h_7 page pages stack =>
    split at step <;> cases step
    exact .same rooted rfl
  case h_8 top second third pages stack =>
    cases step
    refine .rest rooted ?_ ?_
    · rw [activated_pages]
      exact List.drop_suffix _ _
    · rw [activated_pages, stack]
      refine List.ne_nil_of_length_pos ?_
      simp only [List.length_drop, List.length_cons]
      omega
  case h_9 =>
    cases step
    exact .rest rooted rooted (List.cons_ne_nil _ _)
  case h_10 => cases step

theorem Stacked.next (rooted : Rooted w) (step : w.next m = some w') : Stacked w w' := by
  unfold Window.next at step
  split at step
  case h_1 n result =>
    split at step
    · cases step
    next call found =>
    dsimp only at step
    split at step
    · cases step
      exact .same rooted rfl
    next signal finished =>
    cases step
    cases signal with
    | directorJoined | cameraJoined => exact .push rooted rfl
    | sessionClosed success =>
      cases success with
      | false => exact .same rooted rfl
      | true => exact .pop rooted rfl
    | sessionCreated | sessionsReceived | error => exact .same rooted rfl
  case h_2 =>
    split at step
    · split at step <;> cases step
      exact .pop rooted rfl
    · cases step
  case h_3 | h_4 =>
    split at step <;> cases step
    exact .same rooted rfl
  case h_5 =>
    split at step
    · cases step
    · exact .act rooted step

end MainWindow

/-! ### The station -/

/-- `leaving` are the session pages that were taken from the stack and are not destroyed. -/
structure Station : Type where
  window : Window
  controller : CameraController.State
  transport : DirectorTransport.State
  leaving : List SessionPage

namespace Station

/-- When everything is loaded. -/
def loaded : Station := ⟨.loaded, .fresh, .fresh, []⟩

def session? : Page → Option SessionPage
  | .session page => some page
  | .login | .dashboard => none

/-- The session pages above the last items of a stack. -/
def above (pages : List Page) (items : Nat) : List SessionPage :=
  (pages.take (pages.length - items)).filterMap session?

variable (s : Station)

/-- `Component.onCompleted` of a session page. -/
def completed (page : SessionPage) : Station :=
  match page.userType with
  | .director =>
    let transport := s.transport.connectToRoom page.livekitToken page.livekitUrl
    { s with transport := { transport with left := false } }
  | .camera => { s with controller := s.controller.start page.whipUrl page.streamKey }

/-- The window after a step, with the pages completed that it has pushed. -/
def shows (window : Window) : Station :=
  let pushed := above window.pages s.window.pages.length
  let taken := above s.window.pages window.pages.length
  pushed.foldl completed { s with window, leaving := s.leaving ++ taken }

/-- The signal `disconnected` of the transport. -/
def disconnected : Station :=
  match s.window.next .disconnected with
  | some window => s.shows window
  | none => s

/-- `Component.onDestruction` of a session page. -/
def destroyed (page : SessionPage) : Station :=
  match page.userType with
  | .director =>
    let transport := { s.transport.disconnectFromRoom with
      left := true, since := s.transport.since ++ [.disconnectFromRoom] }
    let s' := { s with transport }
    if s.transport.connectionState = .disconnected then s' else s'.disconnected
  | .camera => { s with controller := s.controller.stop }

inductive Move : Type
  /-- A step of the window other than one that the transport brings about. -/
  | window (m : MainWindow.Move)
  /-- The event loop deletes a page that is leaving. -/
  | destroy (k : Nat)
  | background (n : Nat) (success : Bool)
  | startFinished (n : Nat)
  /-- A step of the transport other than one that a page brings about. -/
  | transport (m : DirectorTransport.Move)

def next : Station → Move → Option Station
  | s, .window m => if m = .disconnected then none else (s.window.next m).map s.shows
  | s, .destroy k => s.leaving[k]?.map fun page =>
    destroyed { s with leaving := s.leaving.eraseIdx k } page
  | s, .background n success =>
    (s.controller.background n success).map fun controller => { s with controller }
  | s, .startFinished n =>
    (s.controller.startFinished n).map fun controller => { s with controller }
  | s, .transport m =>
    match m with
    | .connectToRoom _ _ | .disconnectFromRoom | .shutdown => none
    | .disconnected => some s.disconnected
    | m => (s.transport.next m).map fun transport => { s with transport }

@[reducible] def machine : Machine := ⟨Station, Move, next⟩

/-- A session page that exists: on the stack or not yet destroyed. -/
def Has (page : SessionPage) : Prop := .session page ∈ s.window.pages ∨ page ∈ s.leaving

/-- There is a page of a camera with these credentials. -/
def Backs (whipUrl streamKey : String) : Prop :=
  ∃ page, s.Has page ∧ page.userType = .camera ∧
    page.whipUrl = whipUrl ∧ page.streamKey = streamKey

/-- There is a page of a director. -/
def Directed : Prop := ∃ page, s.Has page ∧ page.userType = .director

/-! ### One step -/

variable {s} {s' : Station} {m : Move} {window : Window} {page : SessionPage}

theorem above_of_le {pages : List Page} {items : Nat} (le : pages.length ≤ items) :
    above pages items = [] := by
  rw [above, Nat.sub_eq_zero_of_le le]
  rfl

theorem above_append (gone rest : List Page) :
    above (gone ++ rest) rest.length = gone.filterMap session? := by
  rw [above, List.length_append, Nat.add_sub_cancel, List.take_left]

/-- What a step of the window leads to: a session page is pushed and completed, or every page is
still there. -/
inductive Becomes (s : Station) (window : Window) : Station → Prop
  | pushed (page : SessionPage) : window.pages = .session page :: s.window.pages →
    Becomes s window (completed { s with window } page)
  | kept {leaving : List SessionPage} :
    (∀ page, s.Has page → .session page ∈ window.pages ∨ page ∈ leaving) →
    Becomes s window { s with window, leaving }

theorem shows_becomes (stacked : MainWindow.Stacked s.window window) :
    Becomes s window (s.shows window) := by
  rcases stacked.cases with ⟨top, pages⟩ | ⟨gone, pages⟩
  · have taken : above s.window.pages window.pages.length = [] := by
      refine above_of_le ?_
      rw [pages, List.length_cons]
      omega
    have pushed : above window.pages s.window.pages.length = (session? top).toList := by
      have split := above_append [top] s.window.pages
      rw [List.singleton_append, ← pages] at split
      rw [split]
      cases top <;> rfl
    unfold shows
    rw [taken, pushed]
    dsimp only
    rw [List.append_nil]
    cases top with
    | session page => exact .pushed page pages
    | login | dashboard =>
      refine .kept fun page has => ?_
      rcases has with on | leaving
      · exact .inl (by rw [pages]; exact List.mem_cons_of_mem _ on)
      · exact .inr leaving
  · have pushed : above window.pages s.window.pages.length = [] := by
      refine above_of_le ?_
      rw [← pages, List.length_append]
      omega
    have taken : above s.window.pages window.pages.length = gone.filterMap session? := by
      rw [← pages]
      exact above_append gone window.pages
    unfold shows
    rw [taken, pushed]
    refine .kept fun page has => ?_
    rcases has with on | leaving
    · rw [← pages] at on
      rcases List.mem_append.mp on with away | stays
      · refine .inr (List.mem_append_right _ ?_)
        exact List.mem_filterMap.mpr ⟨_, away, rfl⟩
      · exact .inl stays
    · exact .inr (List.mem_append_left _ leaving)

@[simp] theorem completed_window : (s.completed page).window = s.window := by
  unfold completed
  split <;> rfl

@[simp] theorem completed_leaving : (s.completed page).leaving = s.leaving := by
  unfold completed
  split <;> rfl

theorem Becomes.has (becomes : Becomes s window s') (has : s.Has page) : s'.Has page := by
  cases becomes with
  | pushed top pages =>
    rw [Has, completed_window, completed_leaving]
    exact has.imp_left fun on => pages ▸ List.mem_cons_of_mem _ on
  | kept keeps => exact keeps page has

theorem Becomes.rooted (becomes : Becomes s window s') (rooted : MainWindow.Rooted window) :
    MainWindow.Rooted s'.window := by
  cases becomes with
  | pushed top pages =>
    rw [completed_window]
    exact rooted
  | kept keeps => exact rooted

/-- A page that is pushed exists. -/
theorem has_completed (pushed : window.pages = .session page :: s.window.pages) :
    (completed { s with window } page).Has page := by
  refine .inl ?_
  rw [completed_window, pushed]
  exact List.mem_cons_self

/-- Destroying one page leaves the pages of the other role. -/
theorem Has.erase (has : s.Has page) {k : Nat} {gone : SessionPage}
    (at_ : s.leaving[k]? = some gone) (other : page.userType ≠ gone.userType) :
    ({ s with leaving := s.leaving.eraseIdx k } : Station).Has page := by
  refine has.imp_right fun member => ?_
  obtain ⟨i, found⟩ := List.mem_iff_getElem?.mp member
  refine List.mem_eraseIdx_iff_getElem?.mpr ⟨i, ?_, found⟩
  intro same
  rw [same, at_] at found
  cases found
  exact other rfl

/-! ### The camera -/

/-- What the controller runs, it runs for a page that exists. -/
structure OnAir (s : Station) : Prop where
  rooted : MainWindow.Rooted s.window
  serves : CameraController.Serves s.Backs s.controller

theorem OnAir.keeps (onAir : OnAir s) (rooted : MainWindow.Rooted s'.window)
    (controller : s'.controller = s.controller)
    (has : ∀ page, s.Has page → page.userType = .camera → s'.Has page) : OnAir s' := by
  refine ⟨rooted, ?_⟩
  rw [controller]
  refine onAir.serves.mono ?_
  intro url key ⟨page, exists_, camera, given⟩
  exact ⟨page, has page exists_ camera, camera, given⟩

theorem OnAir.becomes (onAir : OnAir s) (rooted : MainWindow.Rooted window)
    (becomes : Becomes s window s') : OnAir s' := by
  have rooted' := becomes.rooted rooted
  have has : ∀ page, s.Has page → s'.Has page := fun _ => becomes.has
  cases becomes with
  | kept keeps => exact onAir.keeps rooted' rfl fun page exists_ _ => has page exists_
  | pushed page pages =>
    cases role : page.userType with
    | director =>
      refine onAir.keeps rooted' ?_ fun page exists_ _ => has page exists_
      unfold completed
      rw [role]
    | camera =>
      refine ⟨rooted', ?_⟩
      have serves : CameraController.Serves (completed { s with window } page).Backs
          s.controller := by
        refine onAir.serves.mono ?_
        intro url key ⟨page, exists_, backs⟩
        exact ⟨page, has page exists_, backs⟩
      have started := serves.start ⟨page, has_completed pages, role, rfl, rfl⟩
      unfold completed at started ⊢
      rw [role] at started ⊢
      exact started

theorem OnAir.moved (onAir : OnAir s) {m : MainWindow.Move} (step : s.window.next m = some window) :
    OnAir (s.shows window) :=
  have stacked := MainWindow.Stacked.next onAir.rooted step
  onAir.becomes stacked.rooted (shows_becomes stacked)

theorem OnAir.disconnected (onAir : OnAir s) : OnAir s.disconnected := by
  unfold Station.disconnected
  split
  · next window step => exact onAir.moved step
  · exact onAir

/-- No page of a camera is destroyed while a start is running. -/
def Timely (s : Station) : Move → Prop
  | .destroy k => ∀ page, s.leaving[k]? = some page → page.userType = .camera →
    s.controller.startRunning = false
  | _ => True

theorem OnAir.next (onAir : OnAir s) (timely : Timely s m) (step : s.next m = some s') :
    OnAir s' := by
  cases m with
  | window m =>
    dsimp only [Station.next] at step
    split at step
    · cases step
    obtain ⟨window, moved, rfl⟩ := Option.map_eq_some_iff.mp step
    exact onAir.moved moved
  | destroy k =>
    obtain ⟨page, at_, rfl⟩ := Option.map_eq_some_iff.mp step
    unfold destroyed
    cases role : page.userType with
    | director =>
      have erased : OnAir { s with
          leaving := s.leaving.eraseIdx k
          transport := { s.transport.disconnectFromRoom with
            left := true, since := s.transport.since ++ [.disconnectFromRoom] } } := by
        refine onAir.keeps onAir.rooted rfl fun other exists_ camera => ?_
        exact exists_.erase at_ (by rw [camera, role]; decide)
      dsimp only
      split
      · exact erased
      · exact erased.disconnected
    | camera => exact ⟨onAir.rooted, onAir.serves.stop (timely page at_ role)⟩
  | background n success =>
    obtain ⟨controller, moved, rfl⟩ := Option.map_eq_some_iff.mp step
    exact ⟨onAir.rooted, onAir.serves.background moved⟩
  | startFinished n =>
    obtain ⟨controller, moved, rfl⟩ := Option.map_eq_some_iff.mp step
    exact ⟨onAir.rooted, onAir.serves.startFinished moved⟩
  | transport m =>
    dsimp only [Station.next] at step
    split at step
    · cases step
    · cases step
    · cases step
    · cases step
      exact onAir.disconnected
    · obtain ⟨transport, moved, rfl⟩ := Option.map_eq_some_iff.mp step
      exact onAir.keeps onAir.rooted rfl fun _ exists_ _ => exists_

theorem rooted_loaded : MainWindow.Rooted Window.loaded := List.suffix_rfl

/-- **On air for a page**: in every run in which no page of a camera is destroyed while a start is
running, whatever the controller starts, captures or publishes, and wherever it streams to, is for
the ingress of a session page that exists. -/
theorem on_air_with_page (reach : machine.Reach Timely loaded s) :
    (∀ start ∈ s.controller.starts, start.phase.running = true →
      s.Backs start.whipUrl start.streamKey) ∧
    (s.controller.session.capturing = true ∨ s.controller.session.publishing = true →
      s.Backs s.controller.session.whipUrl s.controller.session.streamKey) ∧
    ∀ url, s.controller.session.streaming = some url → ∃ streamKey, s.Backs url streamKey := by
  have onAir : OnAir s := by
    refine Machine.Reach.invariant ⟨rooted_loaded, CameraController.serves_fresh⟩ ?_ reach
    intro s m s' onAir timely step
    exact onAir.next timely step
  have live := onAir.serves.of_live
  refine ⟨onAir.serves.starts, live, fun url streams => ?_⟩
  have whipUrl := CameraController.CameraSession.url_of_streaming streams
  unfold CameraController.CameraSession.streaming at streams
  split at streams
  · next both =>
    rw [whipUrl]
    exact ⟨_, live (.inl both.1)⟩
  · cases streams

/-- A camera joins a room, and the start of its page is run through. -/
def joins (n : Nat) : List Move :=
  [.window (.join "ROOM-000007" 0), .window (.reply 0 (.ok MainWindow.cameraReply))] ++
    List.replicate 6 (.background n true) ++ [.startFinished n]

/-- A camera joins, leaves when it streams, and joins again. -/
def rejoins : List Move :=
  .window (.login "bob" .camera) :: joins 0 ++ [.window .leave, .destroy 0] ++ joins 1

/-- No page is destroyed while a start is running. -/
def isTimely (s : Station) : Move → Bool
  | .destroy _ => !s.controller.startRunning
  | _ => true

theorem timely_of_isTimely (check : isTimely s m = true) : Timely s m := by
  cases m with
  | destroy k =>
    intro page at_ camera
    simpa [isTimely] using check
  | window | background | startFinished | transport => trivial

theorem on_air_with_page_run : ∃ s : Station, machine.Reach Timely loaded s ∧
    s.controller.session.streaming = some MainWindow.cameraReply.whipUrl ∧
    ∃ streamKey, s.Backs MainWindow.cameraReply.whipUrl streamKey := by
  have computed : (machine.run isTimely rejoins loaded).map
      (fun s => s.controller.session.streaming) =
        some (some MainWindow.cameraReply.whipUrl) := by
    decide +kernel
  obtain ⟨s, run, streams⟩ := Option.map_eq_some_iff.mp computed
  have reach : machine.Reach Timely loaded s :=
    (Machine.reach_of_run run).mono fun _ _ => timely_of_isTimely
  exact ⟨s, reach, streams, (on_air_with_page reach).2.2 _ streams⟩

/-- A camera joins and leaves while it is being started. -/
def leavesEarly : List Move :=
  [.window (.login "bob" .camera), .window (.join "ROOM-000007" 0),
    .window (.reply 0 (.ok MainWindow.cameraReply)), .background 0 true, .window .leave,
    .destroy 0] ++ List.replicate 5 (.background 0 true) ++ [.startFinished 0]

/-- A page that is destroyed too early leaves the camera on air without a page. -/
theorem on_air_without_page : ∃ s : Station, machine.Reach (fun _ _ => True) loaded s ∧
    s.controller.session.streaming = some MainWindow.cameraReply.whipUrl ∧
    ∀ page, ¬ s.Has page := by
  have computed : (machine.run (fun _ _ => true) leavesEarly loaded).map
      (fun s => (s.controller.session.streaming, s.window.pages, s.leaving)) =
        some (some MainWindow.cameraReply.whipUrl, [.dashboard, .login], []) := by
    decide +kernel
  obtain ⟨s, run, fields⟩ := Option.map_eq_some_iff.mp computed
  have pages : s.window.pages = [.dashboard, .login] := congrArg (fun f => f.2.1) fields
  have leaving : s.leaving = [] := congrArg (fun f => f.2.2) fields
  refine ⟨s, Machine.reach_of_moves leavesEarly run, congrArg Prod.fst fields, fun page has => ?_⟩
  rw [Has, pages, leaving] at has
  simp at has

/-! ### The room -/

/-- A director is in a room for a page that exists. -/
structure InRoom (s : Station) : Prop where
  rooted : MainWindow.Rooted s.window
  settled : DirectorTransport.Settled s.transport
  directed : s.transport.left = false → s.transport.Used → s.Directed

theorem InRoom.keeps (inRoom : InRoom s) (rooted : MainWindow.Rooted s'.window)
    (transport : s'.transport = s.transport)
    (has : ∀ page, s.Has page → page.userType = .director → s'.Has page) : InRoom s' := by
  refine ⟨rooted, transport ▸ inRoom.settled, ?_⟩
  rw [transport]
  intro stays used
  obtain ⟨page, exists_, director⟩ := inRoom.directed stays used
  exact ⟨page, has page exists_ director, director⟩

theorem InRoom.becomes (inRoom : InRoom s) (rooted : MainWindow.Rooted window)
    (becomes : Becomes s window s') : InRoom s' := by
  have rooted' := becomes.rooted rooted
  have has : ∀ page, s.Has page → s'.Has page := fun _ => becomes.has
  cases becomes with
  | kept keeps => exact inRoom.keeps rooted' rfl fun page exists_ _ => has page exists_
  | pushed page pages =>
    cases role : page.userType with
    | camera =>
      refine inRoom.keeps rooted' ?_ fun page exists_ _ => has page exists_
      unfold completed
      rw [role]
    | director =>
      refine ⟨rooted', ?_, fun _ _ => ⟨page, has_completed pages, role⟩⟩
      unfold completed
      rw [role]
      exact inRoom.settled.connectToRoom page.livekitToken page.livekitUrl

theorem InRoom.moved (inRoom : InRoom s) {m : MainWindow.Move}
    (step : s.window.next m = some window) : InRoom (s.shows window) :=
  have stacked := MainWindow.Stacked.next inRoom.rooted step
  inRoom.becomes stacked.rooted (shows_becomes stacked)

theorem InRoom.disconnected (inRoom : InRoom s) : InRoom s.disconnected := by
  unfold Station.disconnected
  split
  · next window step => exact inRoom.moved step
  · exact inRoom

/-- What LiveKit reports is in step with the transport: that it is disconnected only when there is
neither a room nor a session, and anything else only if `disconnectFromRoom` was not called last. -/
def InStep (s : Station) : Move → Prop
  | .transport (.connectionStateChanged .disconnected) =>
    s.transport.session = none ∧ s.transport.room = false
  | .transport (.connectionStateChanged _) => s.transport.left = false
  | _ => True

theorem InRoom.next (inRoom : InRoom s) (inStep : InStep s m) (step : s.next m = some s') :
    InRoom s' := by
  cases m with
  | window m =>
    dsimp only [Station.next] at step
    split at step
    · cases step
    obtain ⟨window, moved, rfl⟩ := Option.map_eq_some_iff.mp step
    exact inRoom.moved moved
  | destroy k =>
    obtain ⟨page, at_, rfl⟩ := Option.map_eq_some_iff.mp step
    unfold destroyed
    cases role : page.userType with
    | director =>
      have erased : InRoom { s with
          leaving := s.leaving.eraseIdx k
          transport := { s.transport.disconnectFromRoom with
            left := true, since := s.transport.since ++ [.disconnectFromRoom] } } :=
        ⟨inRoom.rooted, inRoom.settled.disconnectFromRoom _, nofun⟩
      dsimp only
      split
      · exact erased
      · exact erased.disconnected
    | camera =>
      refine inRoom.keeps inRoom.rooted rfl fun other exists_ director => ?_
      exact exists_.erase at_ (by rw [director, role]; decide)
  | background n success =>
    obtain ⟨controller, moved, rfl⟩ := Option.map_eq_some_iff.mp step
    exact inRoom.keeps inRoom.rooted rfl fun _ exists_ _ => exists_
  | startFinished n =>
    obtain ⟨controller, moved, rfl⟩ := Option.map_eq_some_iff.mp step
    exact inRoom.keeps inRoom.rooted rfl fun _ exists_ _ => exists_
  | transport m =>
    have reports : ∀ state, m = .connectionStateChanged state →
        if state = .disconnected then s.transport.session = none ∧ s.transport.room = false
        else s.transport.left = false := by
      intro state report
      subst report
      cases state <;> exact inStep
    dsimp only [Station.next] at step
    split at step
    · cases step
    · cases step
    · cases step
    · cases step
      exact inRoom.disconnected
    · next connects leaves _ _ =>
      obtain ⟨transport, moved, rfl⟩ := Option.map_eq_some_iff.mp step
      obtain ⟨settled, left, used⟩ := inRoom.settled.next connects leaves reports moved
      refine ⟨inRoom.rooted, settled, fun stays there => ?_⟩
      exact inRoom.directed (left.symm.trans stays) (used there)

/-- **In a room for a page**: in every run in which the reports of LiveKit are in step, whenever the
transport has a room or a session there is a page of a director. -/
theorem room_with_page (reach : machine.Reach InStep loaded s)
    (there : s.transport.room = true ∨ s.transport.session ≠ none) : s.Directed := by
  have inRoom : InRoom s := by
    refine Machine.Reach.invariant
      ⟨rooted_loaded, DirectorTransport.settled_fresh, nofun⟩ ?_ reach
    intro s m s' inRoom inStep step
    exact inRoom.next inStep step
  refine inRoom.directed ?_ (.inr there)
  by_contra left
  have alone := inRoom.settled.alone (inRoom.settled.left (by simpa using left))
  rcases there with room | session
  · exact absurd (alone.2.symm.trans room) (by simp)
  · exact session alone.1

def directorReply : MainWindow.Reply := ⟨"", "token", "wss://livekit", "", "", false⟩

/-- A director joins a room, and LiveKit connects; the handler of the attempt runs first. -/
def connects : List Move :=
  [.window (.login "alice" .director), .window (.join "ROOM-000007" 2),
    .window (.reply 1 (.ok directorReply)), .transport (.finish 0 true),
    .transport (.connectFinished 0), .transport (.connectionStateChanged .connected)]

instance (s : Station) : DecidablePred (InStep s)
  | .transport (.connectionStateChanged .disconnected) =>
    inferInstanceAs (Decidable (s.transport.session = none ∧ s.transport.room = false))
  | .transport (.connectionStateChanged .connected)
  | .transport (.connectionStateChanged .reconnecting)
  | .transport (.connectionStateChanged .other) =>
    inferInstanceAs (Decidable (s.transport.left = false))
  | .window _ | .destroy _ | .background _ _ | .startFinished _ | .transport (.connectToRoom _ _)
  | .transport .disconnectFromRoom | .transport .shutdown | .transport (.finish _ _)
  | .transport (.connectFinished _) | .transport .disconnected | .transport (.report _)
  | .transport (.runLambda _) => inferInstanceAs (Decidable True)

theorem room_with_page_run : ∃ s : Station, machine.Reach InStep loaded s ∧
    s.transport.session ≠ none ∧ s.Directed := by
  have computed : (machine.run (fun s m => InStep s m) connects loaded).map
      (fun s => s.transport.session.isSome) = some true := by
    decide +kernel
  obtain ⟨s, run, there⟩ := Option.map_eq_some_iff.mp computed
  have reach : machine.Reach InStep loaded s :=
    (Machine.reach_of_run run).mono fun _ _ passed => of_decide_eq_true passed
  have session : s.transport.session ≠ none := Option.isSome_iff_ne_none.mp there
  exact ⟨s, reach, session, room_with_page reach (.inr session)⟩

end Station

end DirectLink
