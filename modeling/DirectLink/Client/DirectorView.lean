import DirectLink.Lib.SortedMap
import Mathlib.Data.String.Basic

/-!
# The director's view

`DirectorSession`, which keeps the attached tracks in the order of their sids, and
`SessionDirectorView.qml` with its `CameraList`, which follow it by indices.  Sids are only
compared.
-/

namespace DirectLink

namespace DirectorView

/-! ### The session -/

/-- A `VideoTrack` object, named by how many were made before it. -/
abbrev VideoTrack : Type := Nat

/-- The signals of `DirectorSession` that the view handles. -/
inductive Signal : Type
  | trackAdded (index : Nat)
  | trackRemoved (index : Nat)
  deriving DecidableEq

structure DirectorSession (Sid : Type) [LinearOrder Sid] : Type where
  trackMap : SortedMap Sid VideoTrack
  /-- How many `VideoTrack`s were made. -/
  made : Nat

variable {Sid : Type} [LinearOrder Sid]

namespace DirectorSession

variable (s : DirectorSession Sid)

def tracks : List VideoTrack := s.trackMap.values

/-- `attachTrack`, where `VideoTrack::setTrack` succeeds or not. -/
def attachTrack (trackSid : Sid) (setTrack : Bool) : DirectorSession Sid × Option Signal :=
  if trackSid ∈ s.trackMap.keys then (s, none)
  else
    let track := s.made
    let s := { s with made := s.made + 1 }
    if setTrack then
      let trackMap := s.trackMap.insert trackSid track
      ({ s with trackMap }, some (.trackAdded (trackMap.position trackSid)))
    else (s, none)

def detachTrack (trackSid : Sid) : DirectorSession Sid × Option Signal :=
  if trackSid ∈ s.trackMap.keys then
    let index := s.trackMap.position trackSid
    ({ s with trackMap := s.trackMap.erase trackSid }, some (.trackRemoved index))
  else (s, none)

end DirectorSession

/-! ### The view -/

structure View : Type where
  activeCamera : Int
  /-- `all_tracks` of the camera list. -/
  allTracks : List VideoTrack
  /-- `assigned_track` of the large feed. -/
  assignedTrack : Option VideoTrack

namespace View

variable (v : View)

/-- An assignment to `activeCamera`, with `onActiveCameraChanged` when it changes. -/
def setActiveCamera (tracks : List VideoTrack) (index : Int) : View :=
  if index = v.activeCamera then v
  else
    let assignedTrack := if 0 ≤ index ∧ index < tracks.length then tracks[index.toNat]? else none
    { v with activeCamera := index, assignedTrack }

def onTrackAdded (tracks : List VideoTrack) (index : Nat) : View :=
  let v := { v with allTracks := tracks }
  if (index : Int) ≤ v.activeCamera then v.setActiveCamera tracks (v.activeCamera + 1) else v

def onTrackRemoved (tracks : List VideoTrack) (index : Nat) : View :=
  let v := { v with allTracks := tracks }
  if (index : Int) = v.activeCamera then v.setActiveCamera tracks (-1)
  else if (index : Int) < v.activeCamera then v.setActiveCamera tracks (v.activeCamera - 1)
  else v

def handle (tracks : List VideoTrack) : Signal → View
  | .trackAdded index => v.onTrackAdded tracks index
  | .trackRemoved index => v.onTrackRemoved tracks index

/-- The model of the camera list. -/
def slots (maxCameraCount : Nat) : List (Option VideoTrack) :=
  (List.range maxCameraCount).map fun i => v.allTracks[i]?

end View

/-! ### Runs -/

structure State (Sid : Type) [LinearOrder Sid] : Type where
  session : DirectorSession Sid
  view : View
  /-- The track that was last selected. -/
  selected : Option VideoTrack
  /-- The signals so far, with the tracks that a handler sees. -/
  emitted : List (Signal × List VideoTrack)

inductive Move (Sid : Type) : Type
  | attachTrack (trackSid : Sid) (setTrack : Bool)
  | detachTrack (trackSid : Sid)
  /-- A click on a slot of the camera list. -/
  | click (index : Nat)

namespace State

variable (s : State Sid)

/-- The session after a call, and the signal if it emitted one. -/
def receive (called : DirectorSession Sid × Option Signal) : State Sid :=
  match called.2 with
  | none => { s with session := called.1 }
  | some signal =>
    let tracks := called.1.tracks
    { s with
      session := called.1
      view := s.view.handle tracks signal
      emitted := s.emitted ++ [(signal, tracks)] }

/-- A slot without a track is not enabled. -/
def click (maxCameraCount index : Nat) : State Sid :=
  match (s.view.slots maxCameraCount)[index]?.join with
  | none => s
  | some track =>
    { s with view := s.view.setActiveCamera s.session.tracks index, selected := some track }

def step (maxCameraCount : Nat) : Move Sid → State Sid
  | .attachTrack trackSid setTrack => s.receive (s.session.attachTrack trackSid setTrack)
  | .detachTrack trackSid => s.receive (s.session.detachTrack trackSid)
  | .click index => s.click maxCameraCount index

end State

/-- A session without tracks and a view that shows none. -/
def start : State Sid where
  session := ⟨.empty, 0⟩
  view := ⟨-1, [], none⟩
  selected := none
  emitted := []

def run (maxCameraCount : Nat) (moves : List (Move Sid)) : State Sid :=
  moves.foldl (fun s move => s.step maxCameraCount move) start

/-- An index that was emitted, as an insertion into a list or a removal from it. -/
def replay (list : List VideoTrack) : Signal × List VideoTrack → List VideoTrack
  | (.trackAdded index, tracks) =>
    match tracks[index]? with
    | some track => list.insertIdx index track
    | none => list
  | (.trackRemoved index, _) => list.eraseIdx index

/-! ### The selected track -/

/-- The view shows the selected track, or none when that is not attached. -/
def Shows (tracks : List VideoTrack) (selected : Option VideoTrack) (v : View) : Prop :=
  (∃ (i : Nat) (track : VideoTrack), v.activeCamera = i ∧ tracks[i]? = some track ∧
    selected = some track ∧ v.assignedTrack = some track) ∨
  (v.activeCamera = -1 ∧ v.assignedTrack = none ∧ ∀ track ∈ selected, track ∉ tracks)

/-- What holds in every state. -/
structure Follows (s : State Sid) : Prop where
  replayed : s.emitted.foldl replay [] = s.session.tracks
  listed : s.view.allTracks = s.session.tracks
  nodup : s.session.tracks.Nodup
  attached : ∀ track ∈ s.session.tracks, track < s.session.made
  selected : ∀ track ∈ s.selected, track < s.session.made
  shows : Shows s.session.tracks s.selected s.view

section Follows

variable {tracks : List VideoTrack} {selected : Option VideoTrack} {v : View} {index : Nat}
  {s : State Sid} {maxCameraCount : Nat}

@[simp] theorem allTracks_setActiveCamera {to_ : Int} :
    (v.setActiveCamera tracks to_).allTracks = v.allTracks := by
  rw [View.setActiveCamera]
  split <;> rfl

theorem activeCamera_setActiveCamera {to_ : Int} :
    (v.setActiveCamera tracks to_).activeCamera = to_ := by
  rw [View.setActiveCamera]
  split
  · next same => exact same.symm
  · rfl

/-- Another index shows the track at that index. -/
theorem assignedTrack_setActiveCamera {i : Nat} (other : (i : Int) ≠ v.activeCamera) :
    (v.setActiveCamera tracks i).assignedTrack = tracks[i]? := by
  rw [View.setActiveCamera, if_neg other]
  dsimp only
  rw [Int.toNat_natCast]
  split
  · rfl
  · next outside => exact (List.getElem?_eq_none (by omega)).symm

theorem shows_setActiveCamera {i : Nat} {track : VideoTrack}
    (other : (i : Int) ≠ v.activeCamera) (found : tracks[i]? = some track) :
    Shows tracks (some track) (v.setActiveCamera tracks i) :=
  .inl ⟨i, track, activeCamera_setActiveCamera, found, rfl,
    (assignedTrack_setActiveCamera other).trans found⟩

theorem shows_added {track : VideoTrack} (shows : Shows tracks selected v)
    (unselected : track ∉ selected) :
    Shows (tracks.insertIdx index track) selected
      (v.onTrackAdded (tracks.insertIdx index track) index) := by
  rw [View.onTrackAdded]
  rcases shows with ⟨i, shown, active, found, rfl, assigned⟩ | ⟨active, assigned, absent⟩
  · dsimp only
    rw [active]
    split
    · next before =>
      have moved : (tracks.insertIdx index track)[i + 1]? = some shown := by
        rw [List.getElem?_insertIdx_of_gt (by omega)]
        exact found
      rw [show (i : Int) + 1 = ((i + 1 : Nat) : Int) by omega]
      exact shows_setActiveCamera (by dsimp only; omega) moved
    · next after =>
      refine .inl ⟨i, shown, rfl, ?_, rfl, assigned⟩
      rw [List.getElem?_insertIdx_of_lt (by omega)]
      exact found
  · dsimp only
    rw [if_neg (by omega)]
    refine .inr ⟨active, assigned, fun other chosen member => ?_⟩
    rcases List.eq_or_mem_of_mem_insertIdx member with same | member
    · exact unselected (same ▸ chosen)
    · exact absent other chosen member

theorem shows_removed (shows : Shows tracks selected v) (nodup : tracks.Nodup) :
    Shows (tracks.eraseIdx index) selected (v.onTrackRemoved (tracks.eraseIdx index) index) := by
  rw [View.onTrackRemoved]
  rcases shows with ⟨i, shown, active, found, rfl, assigned⟩ | ⟨active, assigned, absent⟩
  · dsimp only
    rw [active]
    split
    · next same =>
      obtain rfl : index = i := by omega
      have gone : shown ∉ tracks.eraseIdx index := by
        intro member
        obtain ⟨j, other, found'⟩ := List.mem_eraseIdx_iff_getElem?.mp member
        have inside := (List.getElem?_eq_some_iff.mp found).1
        exact other ((List.getElem?_inj inside nodup).mp (found.trans found'.symm)).symm
      refine .inr ⟨activeCamera_setActiveCamera, ?_, fun other chosen => ?_⟩
      · rw [View.setActiveCamera, if_neg (by dsimp only; omega)]
        dsimp only
        rw [if_neg (by omega)]
      · cases chosen
        exact gone
    · split
      · next different before =>
        have moved : (tracks.eraseIdx index)[i - 1]? = some shown := by
          rw [List.getElem?_eraseIdx_of_ge (by omega), Nat.sub_add_cancel (by omega)]
          exact found
        rw [show (i : Int) - 1 = ((i - 1 : Nat) : Int) by omega]
        exact shows_setActiveCamera (by dsimp only; omega) moved
      · next different after =>
        refine .inl ⟨i, shown, rfl, ?_, rfl, assigned⟩
        rw [List.getElem?_eraseIdx_of_lt (by omega)]
        exact found
  · dsimp only
    rw [if_neg (by omega), if_neg (by omega)]
    exact .inr ⟨active, assigned, fun other chosen member =>
      absent other chosen (List.mem_of_mem_eraseIdx member)⟩

theorem allTracks_onTrackAdded : (v.onTrackAdded tracks index).allTracks = tracks := by
  rw [View.onTrackAdded]
  dsimp only
  split
  · exact allTracks_setActiveCamera
  · rfl

theorem allTracks_onTrackRemoved : (v.onTrackRemoved tracks index).allTracks = tracks := by
  rw [View.onTrackRemoved]
  dsimp only
  split
  · exact allTracks_setActiveCamera
  · split
    · exact allTracks_setActiveCamera
    · rfl

/-! ### Every call keeps it -/

theorem follows_start : Follows (start : State Sid) where
  replayed := rfl
  listed := rfl
  nodup := .nil
  attached _ impossible := absurd impossible List.not_mem_nil
  selected _ impossible := by cases impossible
  shows := .inr ⟨rfl, rfl, fun _ impossible => by cases impossible⟩

/-- A track that is attached. -/
theorem receive_attached {trackSid : Sid} (absent : trackSid ∉ s.session.trackMap.keys) :
    s.receive (s.session.attachTrack trackSid true) =
      let trackMap := s.session.trackMap.insert trackSid s.session.made
      let index := trackMap.position trackSid
      { s with
        session := ⟨trackMap, s.session.made + 1⟩
        view := s.view.onTrackAdded trackMap.values index
        emitted := s.emitted ++ [(.trackAdded index, trackMap.values)] } := by
  rw [DirectorSession.attachTrack, if_neg absent]
  rfl

/-- A track that is detached. -/
theorem receive_detached {trackSid : Sid} (present : trackSid ∈ s.session.trackMap.keys) :
    s.receive (s.session.detachTrack trackSid) =
      let trackMap := s.session.trackMap.erase trackSid
      let index := s.session.trackMap.position trackSid
      { s with
        session := ⟨trackMap, s.session.made⟩
        view := s.view.onTrackRemoved trackMap.values index
        emitted := s.emitted ++ [(.trackRemoved index, trackMap.values)] } := by
  rw [DirectorSession.detachTrack, if_pos present]
  rfl

theorem Follows.attachTrack {trackSid : Sid} {setTrack : Bool} (follows : Follows s) :
    Follows (s.receive (s.session.attachTrack trackSid setTrack)) := by
  have below := follows.attached
  have chosen := follows.selected
  by_cases present : trackSid ∈ s.session.trackMap.keys
  case pos =>
    rw [DirectorSession.attachTrack, if_pos present]
    exact follows
  case neg =>
    cases setTrack with
    | false =>
      rw [DirectorSession.attachTrack, if_neg present]
      exact { follows with
        attached := fun track member => Nat.lt_succ_of_lt (below track member)
        selected := fun track member => Nat.lt_succ_of_lt (chosen track member) }
    | true =>
      have short := SortedMap.position_insert_le (v := s.session.made) present
      have inserted := SortedMap.values_insert (v := s.session.made) present
      rw [receive_attached present]
      dsimp only
      generalize (s.session.trackMap.insert trackSid s.session.made).position trackSid = index
        at short inserted
      generalize s.session.trackMap.insert trackSid s.session.made = trackMap at inserted
      have fresh : s.session.made ∉ s.session.tracks := fun member =>
        Nat.lt_irrefl _ (below _ member)
      have unselected : s.session.made ∉ s.selected := fun member =>
        Nat.lt_irrefl _ (chosen _ member)
      refine ⟨?_, allTracks_onTrackAdded, ?_, ?_, ?_, ?_⟩ <;>
        simp only [DirectorSession.tracks, inserted]
      · rw [List.foldl_append, follows.replayed, List.foldl_cons, List.foldl_nil, replay,
          List.getElem?_insertIdx_self, if_pos short]
        rfl
      · exact (List.perm_insertIdx _ _ short).nodup_iff.mpr
          (List.nodup_cons.mpr ⟨fresh, follows.nodup⟩)
      · intro track member
        rcases List.eq_or_mem_of_mem_insertIdx member with rfl | member
        · exact Nat.lt_succ_self _
        · exact Nat.lt_succ_of_lt (below track member)
      · exact fun track member => Nat.lt_succ_of_lt (chosen track member)
      · exact shows_added follows.shows unselected

theorem Follows.detachTrack {trackSid : Sid} (follows : Follows s) :
    Follows (s.receive (s.session.detachTrack trackSid)) := by
  by_cases present : trackSid ∈ s.session.trackMap.keys
  case pos =>
    have erased := SortedMap.values_erase (m := s.session.trackMap) (k := trackSid)
    rw [receive_detached present]
    refine ⟨?_, allTracks_onTrackRemoved, ?_, ?_, follows.selected, ?_⟩ <;>
      simp only [DirectorSession.tracks, erased]
    · rw [List.foldl_append, follows.replayed]
      rfl
    · exact follows.nodup.eraseIdx _
    · exact fun track member => follows.attached track (List.mem_of_mem_eraseIdx member)
    · exact shows_removed follows.shows follows.nodup
  case neg =>
    rw [DirectorSession.detachTrack, if_neg present]
    exact follows

theorem Follows.click (follows : Follows s) : Follows (s.click maxCameraCount index) := by
  rw [State.click]
  cases slot : (s.view.slots maxCameraCount)[index]?.join with
  | none => exact follows
  | some track =>
    have found : s.session.tracks[index]? = some track := by
      rw [← follows.listed]
      have entry := Option.join_eq_some_iff.mp slot
      rw [View.slots, List.getElem?_map, Option.map_eq_some_iff] at entry
      obtain ⟨i, inside, same⟩ := entry
      obtain ⟨bound, rfl⟩ := List.getElem?_eq_some_iff.mp inside
      rw [List.getElem_range] at same
      exact same
    have member : track ∈ s.session.tracks := List.mem_of_getElem? found
    refine ⟨follows.replayed, ?_, follows.nodup, follows.attached, ?_, ?_⟩
    · exact allTracks_setActiveCamera.trans follows.listed
    · intro other chosen
      cases chosen
      exact follows.attached track member
    · by_cases same : (index : Int) = s.view.activeCamera
      · have stays : s.view.setActiveCamera s.session.tracks index = s.view := if_pos same
        rcases follows.shows with ⟨i, shown, active, found', _, assigned⟩ | ⟨active, _⟩
        · obtain rfl : index = i := by omega
          obtain rfl : track = shown := Option.some.inj (found.symm.trans found')
          refine .inl ⟨index, track, ?_, found, rfl, ?_⟩
          · exact activeCamera_setActiveCamera
          · dsimp only
            rw [stays]
            exact assigned
        · omega
      · exact shows_setActiveCamera same found

theorem Follows.step {move : Move Sid} (follows : Follows s) :
    Follows (s.step maxCameraCount move) := by
  cases move with
  | attachTrack trackSid setTrack => exact follows.attachTrack
  | detachTrack trackSid => exact follows.detachTrack
  | click index => exact follows.click

theorem follows_run (moves : List (Move Sid)) : Follows (run maxCameraCount moves) := by
  have all (s : State Sid) (follows : Follows s) :
      Follows (moves.foldl (fun s move => s.step maxCameraCount move) s) := by
    induction moves generalizing s with
    | nil => exact follows
    | cons move moves ih => exact ih _ follows.step
  exact all start follows_start

end Follows

/-! ### The selection -/

/-- **The selected camera stays the same camera**: the emitted indices reproduce the tracks, the
view lists them, and the active camera is the index of the track last selected while that is
attached, and -1 from its removal on and before the first selection. -/
theorem selection_follows (maxCameraCount : Nat) (moves : List (Move Sid)) :
    let s := run maxCameraCount moves
    s.emitted.foldl replay [] = s.session.tracks ∧ s.view.allTracks = s.session.tracks ∧
      s.session.tracks.Nodup ∧
      (∀ track ∈ s.selected, track ∈ s.session.tracks →
        ∃ i : Nat, s.view.activeCamera = i ∧ s.session.tracks[i]? = some track) ∧
      (∀ track ∈ s.selected, track ∉ s.session.tracks → s.view.activeCamera = -1) ∧
      (s.selected = none → s.view.activeCamera = -1) := by
  have follows : Follows (run maxCameraCount moves) := follows_run moves
  generalize run maxCameraCount moves = s at follows
  refine ⟨follows.replayed, follows.listed, follows.nodup, ?_⟩
  rcases follows.shows with ⟨i, shown, active, found, chosen, -⟩ | ⟨active, -, absent⟩
  · rw [chosen]
    refine ⟨?_, ?_, fun impossible => by cases impossible⟩
    · intro track same _
      cases same
      exact ⟨i, active, found⟩
    · intro track same gone
      cases same
      exact absurd (List.mem_of_getElem? found) gone
  · exact ⟨fun track chosen member => absurd member (absent track chosen), fun _ _ _ => active,
      fun _ => active⟩

/-- The large feed shows the selected track while it is attached. -/
theorem feed_follows (maxCameraCount : Nat) (moves : List (Move Sid)) :
    let s := run maxCameraCount moves
    s.view.assignedTrack = s.selected.filter (· ∈ s.session.tracks) := by
  have follows : Follows (run maxCameraCount moves) := follows_run moves
  generalize run maxCameraCount moves = s at follows
  dsimp only
  rcases follows.shows with ⟨i, shown, _, found, chosen, assigned⟩ | ⟨_, assigned, absent⟩
  · rw [assigned, chosen, Option.filter_some, if_pos]
    exact decide_eq_true (List.mem_of_getElem? found)
  · rw [assigned, eq_comm, Option.filter_eq_none_iff]
    intro track chosen
    simpa using absent track chosen

/-- Three cameras, whose sids are not in the order in which they come: the second one is selected,
and is the last of the list when the third has come. -/
example : (run 4 [.attachTrack "c" true, .attachTrack "b" true, .click 1, .attachTrack "a" true] :
    State String).view.activeCamera = 2 := by decide +kernel

end DirectorView

end DirectLink
