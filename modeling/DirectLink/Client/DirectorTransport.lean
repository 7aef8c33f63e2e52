import DirectLink.Lib.Machine
import Mathlib.Data.Finset.Basic

/-!
# The director transport

`DirectorTransport` and the tracks of its `DirectorSession`.  The UI thread runs the calls of the
application, the handlers of finished connect attempts, and the lambdas that the callbacks of
LiveKit have queued.  A handler that would follow a null `m_connectWatcher` has no next state; the
log lines and the signals, which change nothing here, are left out.
-/

namespace DirectLink

namespace DirectorTransport

/-- `livekit::ConnectionState`. -/
inductive RoomState : Type
  | connected
  | reconnecting
  | disconnected
  | other
  deriving DecidableEq

/-- The texts of `m_connection_state`. -/
inductive ConnectionState : Type
  | disconnected
  | connecting
  | connected
  | unnamed
  deriving DecidableEq

/-- The text of a state that LiveKit reports. -/
def stateOf : RoomState → ConnectionState
  | .connected => .connected
  | .reconnecting => .connecting
  | .disconnected => .disconnected
  | .other => .unnamed

/-- A connect attempt: `Room::Connect` runs, has returned, or its handler has run. -/
inductive Attempt : Type
  | running
  | finished (success : Bool)
  | handled
  deriving DecidableEq

/-- What the callbacks of LiveKit report of a track. -/
inductive TrackEvent : Type
  | subscribed (sid : String) (video : Bool)
  | unsubscribed (sid : String)
  | subscriptionFailed (sid : String)
  deriving DecidableEq

/-- The lambdas queued for tracks. -/
inductive TrackLambda : Type
  | attachTrack (sid : String)
  | detachTrack (sid : String)
  deriving DecidableEq

def TrackLambda.sid : TrackLambda → String
  | attachTrack sid | detachTrack sid => sid

/-- What a callback queues. -/
def queued : TrackEvent → Option TrackLambda
  | .subscribed sid video => if video then some (.attachTrack sid) else none
  | .unsubscribed sid | .subscriptionFailed sid => some (.detachTrack sid)

/-- `attachTrack` and `detachTrack` on the sids of a session; attaching itself succeeds. -/
def track (tracks : Finset String) : TrackLambda → Finset String
  | .attachTrack sid => insert sid tracks
  | .detachTrack sid => tracks.erase sid

/-- What the application asks of a connection, and what LiveKit reports of it. -/
inductive Signal : Type
  /-- A `connectToRoom` that starts an attempt. -/
  | connectToRoom
  | disconnectFromRoom
  | shutdown
  | connectionStateChanged (state : RoomState)
  deriving DecidableEq

/-- The transport, the track lambdas still queued, and what a run is judged by: whether
`disconnectFromRoom` was called last, the state LiveKit reported last, the signals since an attempt
was started last, the track events reported so far, and the track lambdas run without and with a
session. -/
structure State : Type where
  /-- `m_room` is set. -/
  room : Bool
  connectionState : ConnectionState
  /-- The tracks of `m_session`. -/
  session : Option (Finset String)
  /-- The connect attempts started so far. -/
  attempts : List Attempt
  /-- The attempt of `m_connectWatcher`. -/
  connectWatcher : Option Nat
  lambdas : List TrackLambda
  left : Bool
  reported : Option RoomState
  since : List Signal
  heard : List TrackEvent
  missed : List TrackLambda
  applied : List TrackLambda
  deriving DecidableEq

inductive Move : Type
  | connectToRoom (token url : String)
  | disconnectFromRoom
  | shutdown
  /-- The `Room::Connect` of an attempt returns. -/
  | finish (n : Nat) (success : Bool)
  /-- The handler of a finished attempt runs. -/
  | connectFinished (n : Nat)
  /-- The lambda of `onConnectionStateChanged` runs. -/
  | connectionStateChanged (state : RoomState)
  /-- The lambda of `onDisconnected` runs. -/
  | disconnected
  /-- A callback reports a track event. -/
  | report (event : TrackEvent)
  /-- A queued track lambda runs; those of one track run in order. -/
  | runLambda (k : Nat)
  deriving DecidableEq

namespace State

/-- A transport that was just constructed. -/
def fresh : State := ⟨false, .disconnected, none, [], none, [], false, none, [], [], [], []⟩

/-- `m_connectWatcher->isRunning()`. -/
def connectRunning (s : State) : Bool :=
  match s.connectWatcher with
  | none => false
  | some n => decide (s.attempts[n]? = some .running)

def connectToRoom (s : State) (token url : String) : State :=
  if s.connectRunning then s
  else if token = "" ∨ url = "" then s
  else
    { s with
      connectionState := .connecting
      room := true
      attempts := s.attempts ++ [.running]
      connectWatcher := some s.attempts.length
      since := [.connectToRoom] }

def shutdown (s : State) : State := { s with session := none, room := false }

def disconnectFromRoom (s : State) : State :=
  if s.connectionState = .disconnected then s
  else { s.shutdown with connectionState := .disconnected }

/-- The handler of attempt `n`: it takes the result of the attempt that `m_connectWatcher` is
about. -/
def connectFinished (s : State) (n : Nat) : Option State :=
  match s.attempts[n]?, s.connectWatcher with
  | some (.finished _), some m =>
    match s.attempts[m]? with
    | some (.finished success) =>
      let s' := { s with attempts := s.attempts.set n .handled, connectWatcher := none }
      if s.connectionState = .disconnected then some s'
      else if success then some { s' with session := some ∅ }
      else some s'
    | _ => none
  | _, _ => none

/-- The lambda of `onConnectionStateChanged`. -/
def connectionStateChanged (s : State) (state : RoomState) : State :=
  if s.connectionState = stateOf state then s
  else { s with connectionState := stateOf state }

/-- A track lambda: it needs a session. -/
def runLambda (s : State) (lambda : TrackLambda) : State :=
  match s.session with
  | none => { s with missed := s.missed ++ [lambda] }
  | some tracks =>
    { s with session := some (track tracks lambda), applied := s.applied ++ [lambda] }

def next (s : State) : Move → Option State
  | .connectToRoom token url => some { s.connectToRoom token url with left := false }
  | .disconnectFromRoom =>
    some { s.disconnectFromRoom with left := true, since := s.since ++ [.disconnectFromRoom] }
  | .shutdown => some { s.shutdown with since := s.since ++ [.shutdown] }
  | .finish n success =>
    if s.attempts[n]? = some .running then
      some { s with attempts := s.attempts.set n (.finished success) }
    else none
  | .connectFinished n => s.connectFinished n
  | .connectionStateChanged state =>
    some { s.connectionStateChanged state with
      reported := some state
      since := s.since ++ [.connectionStateChanged state] }
  | .disconnected => some s
  | .report event =>
    some { s with
      lambdas := s.lambdas ++ (queued event).toList
      heard := s.heard ++ [event] }
  | .runLambda k =>
    match s.lambdas[k]? with
    | none => none
    | some lambda =>
      if (s.lambdas.take k).all fun earlier => earlier.sid ≠ lambda.sid then
        some ({ s with lambdas := s.lambdas.eraseIdx k }.runLambda lambda)
      else none

end State

/-- The transport. -/
@[reducible] def machine : Machine := ⟨State, Move, State.next⟩

variable {s s' : State} {m : Move}

/-- The lambda of a report sets the state string. -/
theorem State.connectionStateChanged_eq (s : State) (state : RoomState) :
    s.connectionStateChanged state = { s with connectionState := stateOf state } := by
  unfold State.connectionStateChanged
  split
  · next same => rw [← same]
  · rfl

/-- What the handler of an attempt does. -/
theorem State.of_connectFinished {n : Nat} (step : s.connectFinished n = some s') :
    ∃ m success, s.connectWatcher = some m ∧ s.attempts[m]? = some (.finished success) ∧
      (∃ result, s.attempts[n]? = some (.finished result)) ∧
      s' = { s with
        attempts := s.attempts.set n .handled
        connectWatcher := none
        session :=
          if s.connectionState ≠ .disconnected ∧ success = true then some ∅ else s.session } := by
  unfold State.connectFinished at step
  split at step
  · next result m own watcher =>
    split at step
    · next success finished =>
      refine ⟨m, success, watcher, finished, ⟨result, own⟩, ?_⟩
      dsimp only at step
      split at step
      · next disconnected =>
        cases step
        simp [disconnected]
      · next going =>
        split at step <;> cases step <;> simp_all
    · cases step
  · cases step

/-! ## The tracks of the session -/

/-- The video tracks that are subscribed, and not since unsubscribed or failed. -/
def subscribed (tracks : Finset String) : TrackEvent → Finset String
  | .subscribed sid video => if video then insert sid tracks else tracks
  | .unsubscribed sid | .subscriptionFailed sid => tracks.erase sid

theorem foldl_subscribed (events : List TrackEvent) (tracks : Finset String) :
    events.foldl subscribed tracks = (events.filterMap queued).foldl track tracks := by
  induction events generalizing tracks with
  | nil => rfl
  | cons event events ih =>
    cases event with
    | subscribed sid video =>
      cases video with
      | true => exact ih _
      | false => exact ih _
    | unsubscribed sid => exact ih _
    | subscriptionFailed sid => exact ih _

/-- The lambdas of one track. -/
def about (sid : String) (lambdas : List TrackLambda) : List TrackLambda :=
  lambdas.filter (·.sid = sid)

theorem about_nil (sid : String) : about sid [] = [] := rfl

theorem about_append (sid : String) (earlier later : List TrackLambda) :
    about sid (earlier ++ later) = about sid earlier ++ about sid later :=
  List.filter_append ..

theorem mem_track_of_other {sid : String} {tracks : Finset String} {lambda : TrackLambda}
    (other : lambda.sid ≠ sid) : sid ∈ track tracks lambda ↔ sid ∈ tracks := by
  cases lambda with
  | attachTrack sid' =>
    have other : sid ≠ sid' := Ne.symm other
    simp [track, other]
  | detachTrack sid' =>
    have other : sid ≠ sid' := Ne.symm other
    simp [track, other]

/-- Whether a track is there depends only on its own lambdas. -/
theorem mem_foldl_track {sid : String} (lambdas : List TrackLambda) {tracks tracks' : Finset String}
    (same : sid ∈ tracks ↔ sid ∈ tracks') :
    sid ∈ lambdas.foldl track tracks ↔ sid ∈ (about sid lambdas).foldl track tracks' := by
  induction lambdas generalizing tracks tracks' with
  | nil => exact same
  | cons lambda lambdas ih =>
    by_cases own : lambda.sid = sid
    · have kept : about sid (lambda :: lambdas) = lambda :: about sid lambdas := by
        simp [about, own]
      rw [kept]
      refine ih ?_
      cases lambda <;> simp_all [track, TrackLambda.sid]
    · have dropped : about sid (lambda :: lambdas) = about sid lambdas := by
        simp [about, own]
      rw [dropped]
      exact ih ((mem_track_of_other own).trans same)

/-- The last lambda of a track decides whether it is there. -/
theorem mem_foldl_track_iff {sid : String} {lambdas : List TrackLambda}
    (some_own : about sid lambdas ≠ []) (tracks tracks' : Finset String) :
    sid ∈ lambdas.foldl track tracks ↔ sid ∈ lambdas.foldl track tracks' := by
  induction lambdas using List.reverseRecOn with
  | nil => exact absurd rfl some_own
  | append_singleton lambdas lambda ih =>
    rw [List.foldl_concat, List.foldl_concat]
    by_cases own : lambda.sid = sid
    · subst own
      cases lambda <;> simp [track, TrackLambda.sid]
    · rw [mem_track_of_other own, mem_track_of_other own]
      refine ih ?_
      simpa [about, own] using some_own

theorem foldl_track_of_none {sid : String} {lambdas : List TrackLambda}
    (none_own : about sid lambdas = []) (tracks : Finset String) :
    sid ∈ lambdas.foldl track tracks ↔ sid ∈ tracks := by
  have only := mem_foldl_track lambdas (Iff.refl (sid ∈ tracks))
  rw [none_own] at only
  exact only

/-- One connection that succeeds, and no disconnect. -/
def OneConnection (_ : State) : Move → Prop
  | .connectToRoom .. | .disconnectFromRoom | .shutdown | .disconnected => False
  | .connectionStateChanged state => state ≠ .disconnected
  | .finish _ success => success = true
  | .connectFinished _ | .report _ | .runLambda _ => True

instance (s : State) : DecidablePred (OneConnection s)
  | .connectToRoom .. | .disconnectFromRoom | .shutdown | .disconnected =>
    inferInstanceAs (Decidable False)
  | .connectionStateChanged state => inferInstanceAs (Decidable (state ≠ .disconnected))
  | .finish _ success => inferInstanceAs (Decidable (success = true))
  | .connectFinished _ | .report _ | .runLambda _ => inferInstanceAs (Decidable True)

/-- The states of such a run: the handler is still to run, with no session and no lambda applied, or
the session holds what the applied lambdas make of it; and the lambdas of a track keep the order in
which they were reported. -/
structure Followed (s : State) : Prop where
  connected : s.connectionState ≠ .disconnected
  attempt :
    ((s.attempts = [.running] ∨ s.attempts = [.finished true]) ∧ s.connectWatcher = some 0 ∧
        s.session = none ∧ s.applied = []) ∨
      (s.attempts = [.handled] ∧ s.session = some (s.applied.foldl track ∅))
  ordered : ∀ sid, about sid (s.heard.filterMap queued) =
    about sid (s.missed ++ s.applied ++ s.lambdas)

theorem followed_connectToRoom {token url : String} (token_given : token ≠ "")
    (url_given : url ≠ "") : Followed (State.fresh.connectToRoom token url) := by
  have connecting : State.fresh.connectToRoom token url =
      { State.fresh with
        connectionState := .connecting, room := true, attempts := [.running],
        connectWatcher := some 0, since := [.connectToRoom] } := by
    simp [State.connectToRoom, State.connectRunning, State.fresh, token_given, url_given]
  rw [connecting]
  exact ⟨nofun, .inl ⟨.inl rfl, rfl, rfl, rfl⟩, fun _ => rfl⟩

/-- A lambda that runs before the later ones of its track. -/
theorem about_eraseIdx {lambdas : List TrackLambda} {k : Nat} {lambda : TrackLambda}
    (queued : lambdas[k]? = some lambda)
    (first : (lambdas.take k).all fun earlier => earlier.sid ≠ lambda.sid) (sid : String) :
    about sid lambdas = about sid [lambda] ++ about sid (lambdas.eraseIdx k) := by
  have inside : k < lambdas.length := (List.getElem?_eq_some_iff.mp queued).1
  have here : lambdas[k] = lambda := (List.getElem?_eq_some_iff.mp queued).2
  have split : lambdas = lambdas.take k ++ lambda :: lambdas.drop (k + 1) := by
    rw [← here, List.cons_getElem_drop_succ, List.take_append_drop]
  rw [List.eraseIdx_eq_take_drop_succ]
  conv => lhs; rw [split]
  rw [about_append, about_append]
  have cons : about sid (lambda :: lambdas.drop (k + 1)) =
      about sid [lambda] ++ about sid (lambdas.drop (k + 1)) :=
    about_append sid [lambda] _
  rw [cons]
  by_cases own : lambda.sid = sid
  · have none_earlier : about sid (lambdas.take k) = [] := by
      rw [about, List.filter_eq_nil_iff]
      intro earlier mem
      have other := List.all_eq_true.mp first earlier mem
      simpa [own] using other
    rw [none_earlier, List.nil_append, List.nil_append]
  · have nothing : about sid [lambda] = [] := by simp [about, own]
    rw [nothing, List.nil_append, List.nil_append]

theorem Followed.runLambda {k : Nat} {lambda : TrackLambda} (followed : Followed s)
    (queued : s.lambdas[k]? = some lambda)
    (first : (s.lambdas.take k).all fun earlier => earlier.sid ≠ lambda.sid) :
    Followed ({ s with lambdas := s.lambdas.eraseIdx k }.runLambda lambda) := by
  have ordered : ∀ sid, about sid (s.heard.filterMap DirectorTransport.queued) =
      about sid s.missed ++ about sid s.applied ++
        (about sid [lambda] ++ about sid (s.lambdas.eraseIdx k)) := by
    intro sid
    rw [followed.ordered sid, about_append, about_append, about_eraseIdx queued first]
  unfold State.runLambda
  obtain ⟨running, watcher, session, applied⟩ | ⟨handled, session⟩ := followed.attempt
  · split
    · refine ⟨followed.connected, .inl ⟨running, watcher, session, applied⟩, ?_⟩
      intro sid
      rw [ordered sid, applied]
      simp only [about_append, List.append_assoc, about_nil, List.nil_append]
    · next opened =>
      rw [session] at opened
      cases opened
  · split
    · next none_session =>
      rw [session] at none_session
      cases none_session
    · next tracks opened =>
      have same : s.applied.foldl track ∅ = tracks := Option.some.inj (session.symm.trans opened)
      refine ⟨followed.connected, .inr ⟨handled, ?_⟩, ?_⟩
      · rw [List.foldl_concat, same]
      · intro sid
        rw [ordered sid]
        simp only [about_append, List.append_assoc]

theorem eq_zero_of_singleton {a b : Attempt} {n : Nat} (found : [a][n]? = some b) : n = 0 := by
  cases n with
  | zero => rfl
  | succ n => cases found

theorem Followed.connectFinished {n : Nat} (followed : Followed s)
    (step : s.connectFinished n = some s') : Followed s' := by
  obtain ⟨m, success, watcher, finished, ⟨result, own⟩, after⟩ := State.of_connectFinished step
  obtain ⟨running, watcher', session, applied⟩ | ⟨handled, _⟩ := followed.attempt
  · have first : m = 0 := Option.some.inj (watcher.symm.trans watcher')
    subst first
    have attempts : s.attempts = [.finished true] := by
      obtain running | succeeded := running
      · simp [running] at finished
      · exact succeeded
    have success : success = true := by simpa [attempts, eq_comm] using finished
    rw [if_pos ⟨followed.connected, success⟩] at after
    subst after
    refine ⟨followed.connected, .inr ⟨?_, ?_⟩, followed.ordered⟩
    · rw [attempts] at own ⊢
      have only : n = 0 := eq_zero_of_singleton own
      rw [only]
      rfl
    · dsimp only
      rw [applied]
      rfl
  · rw [handled] at finished
    have impossible := List.mem_of_getElem? finished
    simp at impossible

/-- A run of one connection is followed. -/
theorem Followed.next (followed : Followed s) (one : OneConnection s m)
    (step : s.next m = some s') : Followed s' := by
  cases m with
  | connectToRoom | disconnectFromRoom | shutdown | disconnected => exact one.elim
  | finish n success =>
    have success : success = true := one
    dsimp only [State.next] at step
    split at step
    · next running =>
      cases step
      obtain ⟨running', watcher, session, applied⟩ | ⟨handled, _⟩ := followed.attempt
      · have first : n = 0 := by
          obtain running' | finished := running'
          · rw [running'] at running
            exact eq_zero_of_singleton running
          · rw [finished] at running
            exact eq_zero_of_singleton running
        subst first
        refine ⟨followed.connected, .inl ⟨.inr ?_, watcher, session, applied⟩, followed.ordered⟩
        obtain running' | finished := running'
        · simp [running', success]
        · simp [finished] at running
      · rw [handled] at running
        have impossible := List.mem_of_getElem? running
        simp at impossible
    · cases step
  | connectFinished n => exact followed.connectFinished step
  | connectionStateChanged state =>
    cases step
    have connected : (s.connectionStateChanged state).connectionState ≠ .disconnected := by
      have named : stateOf state ≠ .disconnected := by
        cases state with
        | disconnected => exact absurd rfl one
        | connected | reconnecting | other => simp [stateOf]
      unfold State.connectionStateChanged
      split
      · exact followed.connected
      · exact named
    refine ⟨connected, ?_, ?_⟩
    · dsimp only
      unfold State.connectionStateChanged
      split <;> exact followed.attempt
    · dsimp only
      unfold State.connectionStateChanged
      split <;> exact followed.ordered
  | report event =>
    cases step
    refine ⟨followed.connected, followed.attempt, ?_⟩
    intro sid
    dsimp only
    have reported : [event].filterMap queued = (queued event).toList := by
      cases lambda : queued event <;> simp [lambda]
    rw [List.filterMap_append, about_append, followed.ordered sid, reported]
    simp only [about_append, List.append_assoc]
  | runLambda k =>
    dsimp only [State.next] at step
    split at step
    · cases step
    · next lambda queued =>
      split at step
      · next first =>
        cases step
        exact followed.runLambda queued first
      · cases step

/-- The director client shows exactly the live video tracks. -/
def ShowsLive (s : State) : Prop := s.session = some (s.heard.foldl subscribed ∅)

/-- Each track that the lambdas run before the handler leave attached has another lambda run after
it. -/
def Overtaken (s : State) : Prop :=
  ∀ sid ∈ s.missed.foldl track ∅, ∃ lambda ∈ s.applied, lambda.sid = sid

theorem Followed.showsLive_iff (followed : Followed s) (handled : ∀ a ∈ s.attempts, a = .handled)
    (delivered : s.lambdas = []) : ShowsLive s ↔ Overtaken s := by
  have session : s.session = some (s.applied.foldl track ∅) := by
    obtain ⟨running | finished, _⟩ | ⟨_, session⟩ := followed.attempt
    · have impossible := handled .running (by rw [running]; simp)
      cases impossible
    · have impossible := handled (.finished true) (by rw [finished]; simp)
      cases impossible
    · exact session
  -- which tracks are live, and which are shown
  have live : ∀ sid, sid ∈ s.heard.foldl subscribed ∅ ↔
      sid ∈ s.applied.foldl track (s.missed.foldl track ∅) := by
    intro sid
    rw [foldl_subscribed, ← List.foldl_append, mem_foldl_track _ Iff.rfl, followed.ordered sid,
      delivered, List.append_nil, ← mem_foldl_track _ Iff.rfl]
  unfold ShowsLive Overtaken
  rw [session, Option.some_inj, Finset.ext_iff]
  have agree : ∀ sid, (sid ∈ s.applied.foldl track ∅ ↔ sid ∈ s.heard.foldl subscribed ∅) ↔
      (sid ∈ s.missed.foldl track ∅ → ∃ lambda ∈ s.applied, lambda.sid = sid) := by
    intro sid
    rw [live sid]
    by_cases own : about sid s.applied = []
    · have unapplied : ¬ ∃ lambda ∈ s.applied, lambda.sid = sid := by
        intro ⟨lambda, applied, same⟩
        have mem : lambda ∈ about sid s.applied := by simp [about, applied, same]
        rw [own] at mem
        cases mem
      rw [foldl_track_of_none own, foldl_track_of_none own]
      simp [unapplied]
    · have own' : ∃ lambda ∈ s.applied, lambda.sid = sid := by
        obtain ⟨lambda, mem⟩ := List.exists_mem_of_ne_nil _ own
        exact ⟨lambda, by simpa [about] using mem⟩
      exact iff_of_true (mem_foldl_track_iff own _ _) fun _ => own'
  exact forall_congr' agree

/-- A run of one connection, with the handler run and every lambda delivered, ends with the live
video tracks shown exactly when `C` holds. -/
def ShowsLiveWhen (C : State → Prop) : Prop :=
  ∀ token url, token ≠ "" → url ≠ "" → ∀ s,
    machine.Reach OneConnection (State.fresh.connectToRoom token url) s →
      (∀ a ∈ s.attempts, a = Attempt.handled) → s.lambdas = [] → (ShowsLive s ↔ C s)

/-- **No camera track is lost**, exactly if the handler overtakes no lambda whose track is to
stay. -/
theorem tracks_exact {token url : String} (token_given : token ≠ "") (url_given : url ≠ "")
    (reach : machine.Reach OneConnection (State.fresh.connectToRoom token url) s)
    (handled : ∀ a ∈ s.attempts, a = Attempt.handled) (delivered : s.lambdas = []) :
    ShowsLive s ↔ Overtaken s := by
  have followed : Followed s := by
    refine Machine.Reach.invariant (followed_connectToRoom token_given url_given) ?_ reach
    intro s m s' followed one step
    exact followed.next one step
  exact followed.showsLive_iff handled delivered

/-- The handler runs before the lambda of a subscription. -/
def subscribedLate : List Move :=
  [.finish 0 true, .connectFinished 0, .report (.subscribed "TR_1" true), .runLambda 0]

theorem tracks_exact_sample : ∃ s, s.heard = [.subscribed "TR_1" true] ∧
    (ShowsLive s ↔ Overtaken s) := by
  have computed : (machine.run (fun s m => OneConnection s m) subscribedLate
        (State.fresh.connectToRoom "token" "url")).map
      (fun s => (s.attempts, s.lambdas, s.heard)) =
        some ([.handled], [], [.subscribed "TR_1" true]) := by
    decide
  obtain ⟨s, run, fields⟩ := Option.map_eq_some_iff.mp computed
  have reach : machine.Reach OneConnection (State.fresh.connectToRoom "token" "url") s :=
    (Machine.reach_of_run run).mono fun _ _ passed => of_decide_eq_true passed
  have attempts : s.attempts = [.handled] := congrArg Prod.fst fields
  have lambdas : s.lambdas = [] := congrArg (fun f => f.2.1) fields
  have handled : ∀ a ∈ s.attempts, a = Attempt.handled := by
    rw [attempts]
    simp
  refine ⟨s, congrArg (fun f => f.2.2) fields, ?_⟩
  exact tracks_exact (by decide) (by decide) reach handled lambdas

/-- The lambda of a subscription runs before the handler. -/
def subscribedEarly : List Move :=
  [.report (.subscribed "TR_1" true), .finish 0 true, .runLambda 0, .connectFinished 0]

/-- A track that is subscribed before the handler has made the session is not shown. -/
theorem track_lost : ¬ ShowsLiveWhen fun _ => True := by
  intro shows
  have computed : (machine.run (fun s m => OneConnection s m) subscribedEarly
        (State.fresh.connectToRoom "token" "url")).map
      (fun s => (s.session, s.attempts, s.lambdas, s.heard)) =
        some (some ∅, [.handled], [], [.subscribed "TR_1" true]) := by
    decide
  obtain ⟨s, run, fields⟩ := Option.map_eq_some_iff.mp computed
  have reach : machine.Reach OneConnection (State.fresh.connectToRoom "token" "url") s :=
    (Machine.reach_of_run run).mono fun _ _ passed => of_decide_eq_true passed
  have session : s.session = some ∅ := congrArg Prod.fst fields
  have attempts : s.attempts = [.handled] := congrArg (fun f => f.2.1) fields
  have lambdas : s.lambdas = [] := congrArg (fun f => f.2.2.1) fields
  have heard : s.heard = [.subscribed "TR_1" true] := congrArg (fun f => f.2.2.2) fields
  have handled : ∀ a ∈ s.attempts, a = Attempt.handled := by
    rw [attempts]
    simp
  have shown : ShowsLive s :=
    (shows "token" "url" (by decide) (by decide) s reach handled lambdas).mpr trivial
  unfold ShowsLive at shown
  rw [session, heard] at shown
  exact absurd shown (by decide)

end DirectorTransport

end DirectLink
