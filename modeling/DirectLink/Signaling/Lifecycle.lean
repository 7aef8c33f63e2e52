import DirectLink.Runs
import DirectLink.Session.TableCalls

/-!
# The session lifecycle

What the RPCs are for: codes are issued for sessions, sessions are joined until their creator closes
them, and each user sees the sessions it created.  `Lifecycle.Step` says how a request is answered;
every sequence of requests on an empty store is answered so (`server_follows_lifecycle`).
-/

namespace DirectLink

open RedisStore

/-! ## The lifecycle -/

/-- The session each code was issued for, the ingresses created for cameras, and the numbers still
to be drawn. -/
structure Lifecycle : Type where
  rooms : String → Option Session
  ingresses : String → Option (CreateIngressRequest × IngressInfo)
  draws : Nat → Nat

namespace Lifecycle

def empty (draws : Nat → Nat) : Lifecycle := ⟨fun _ => none, fun _ => none, draws⟩

variable (lc : Lifecycle)

/-- The code drawn as number `i` from now. -/
def drawn (i : Nat) : String := roomCodeOf (lc.draws i % 1000000)

/-- The first `n` codes drawn are taken. -/
def Taken (n : Nat) : Prop := ∀ i < n, (lc.rooms (lc.drawn i)).isSome = true

/-- The lifecycle after `n` draws. -/
def after (n : Nat) : Lifecycle := { lc with draws := fun i => lc.draws (i + n) }

/-- A code is issued for a new session. -/
def issued (sess : Session) : Lifecycle :=
  { lc with rooms := Function.update lc.rooms sess.roomCode (some sess) }

/-- An ingress is created. -/
def admitted (req : CreateIngressRequest) (info : IngressInfo) : Lifecycle :=
  { lc with ingresses := Function.update lc.ingresses info.ingressId (some (req, info)) }

/-- A session is created under the first free code of ten. -/
def Creates (req : CreateSessionRequest) (reply : Except Status CreateSessionReply)
    (lc' : Lifecycle) : Prop :=
  if req.userId = "" then reply = .error ⟨.invalidArgument, "user_id is required"⟩ ∧ lc' = lc
  else if req.maxCameras ≤ 0 then
    reply = .error ⟨.invalidArgument, "max_cameras must be greater than zero"⟩ ∧ lc' = lc
  else
    (∃ i < 10, lc.Taken i ∧ lc.rooms (lc.drawn i) = none ∧ reply = .ok ⟨lc.drawn i⟩ ∧
      ∃ id createdAt, (∀ code sess, lc.rooms code = some sess → sess.id ≠ id) ∧
        lc' = (lc.after (i + 1)).issued
          ⟨id, lc.drawn i, req.userId, createdAt, req.maxCameras, "active"⟩) ∨
    (lc.Taken 10 ∧ reply = .error ⟨.internal, "room_code was not generated"⟩ ∧ lc' = lc.after 10)

/-- A session that is not closed is joined with the credentials of a role: those of a new ingress
into its room, or a token. -/
def Joins (s : Server) (req : JoinRequest) (reply : Except Status JoinReply) (lc' : Lifecycle) :
    Prop :=
  if req.userId = "" then reply = .error ⟨.invalidArgument, "user_id is required"⟩ ∧ lc' = lc
  else if req.role = "" then reply = .error ⟨.invalidArgument, "role is required"⟩ ∧ lc' = lc
  else if req.roomCode = "" then
    reply = .error ⟨.invalidArgument, "room_code is required"⟩ ∧ lc' = lc
  else
    match lc.rooms req.roomCode with
    | none => reply = .error ⟨.notFound, "session not found"⟩ ∧ lc' = lc
    | some sess =>
      if sess.status = "closed" then
        reply = .error ⟨.failedPrecondition, "session is closed"⟩ ∧ lc' = lc
      else if req.role = "camera" then
        ∃ info, lc.ingresses info.ingressId = none ∧
          reply = .ok ⟨"", "", info.url, info.streamKey⟩ ∧
          lc' = lc.admitted ⟨.whip, sess.id, req.userId, req.userId, false⟩ info
      else if req.role = "director" then
        (∃ now token, s.toJWT now (s.directorToken req sess) = .ok token ∧
          reply = .ok ⟨token, s.liveKitExternalURL, "", ""⟩) ∧ lc' = lc
      else
        reply = .error ⟨.invalidArgument, "role must be 'camera' or 'director'"⟩ ∧ lc' = lc

/-- A session is closed by its creator. -/
def Closes (req : CloseSessionRequest) (reply : Except Status CloseSessionReply)
    (lc' : Lifecycle) : Prop :=
  if req.roomCode = "" then reply = .error ⟨.invalidArgument, "room_code is required"⟩ ∧ lc' = lc
  else if req.userId = "" then reply = .error ⟨.invalidArgument, "user_id is required"⟩ ∧ lc' = lc
  else
    match lc.rooms req.roomCode with
    | none => reply = .error ⟨.notFound, "session not found"⟩ ∧ lc' = lc
    | some sess =>
      if sess.createdBy ≠ req.userId then
        reply = .error ⟨.permissionDenied, "only the session owner can close it"⟩ ∧ lc' = lc
      else reply = .ok ⟨true⟩ ∧ lc' = lc.issued { sess with status := "closed" }

/-- The sessions of a user, each once. -/
def Lists (req : GetMySessionsRequest) (reply : Except Status GetMySessionsReply) : Prop :=
  if req.userId = "" then reply = .error ⟨.invalidArgument, "user_id is required"⟩
  else
    ∃ sessions : List Session, reply = .ok ⟨sessions.map Server.sessionInfo⟩ ∧ sessions.Nodup ∧
      ∀ sess, sess ∈ sessions ↔ (∃ code, lc.rooms code = some sess) ∧ sess.createdBy = req.userId

/-- A request is answered. -/
def Step (s : Server) : Call → Result → Lifecycle → Prop
  | .createSession req, a, lc' => ∃ reply, a = .create reply ∧ lc.Creates req reply lc'
  | .joinSession req, a, lc' => ∃ reply, a = .join reply ∧ lc.Joins s req reply lc'
  | .closeSession req, a, lc' => ∃ reply, a = .close reply ∧ lc.Closes req reply lc'
  | .getMySessions req, a, lc' => ∃ reply, a = .mySessions reply ∧ lc.Lists req reply ∧ lc' = lc
  | .store _, _, _ | .sweepAt _ _, _, _ => False

/-- Requests answered one after the other. -/
inductive Run (s : Server) : Lifecycle → List (Call × Result) → Lifecycle → Prop
  | nil {lc : Lifecycle} : Run s lc [] lc
  | call {lc lc' lc'' : Lifecycle} {calls : List (Call × Result)} {call : Call} {a : Result} :
    Run s lc calls lc' → lc'.Step s call a lc'' → Run s lc (calls ++ [(call, a)]) lc''

end Lifecycle

/-! ## The handlers on the session table -/

/-- A request runs alone. -/
abbrev aloneLogic : Logic backend := worldLogic fun _ => True

/-- Nothing is handed out, drawn or created. -/
structure NothingNew (w w' : World) : Prop where
  uuids : w'.uuids = w.uuids
  rand : w'.rand = w.rand
  ingresses : w'.livekit.rooms = w.livekit.rooms

/-- The worlds differ in the metrics and in what LiveKit has deleted only. -/
structure SameStore (w w' : World) : Prop extends NothingNew w w' where
  now : w'.now = w.now
  redis : w'.redis = w.redis

section Calls

variable {w w' w'' : World} {t : Tables} {α : Type} {p : Go α} {Q : α → World → Prop}

theorem NothingNew.refl (w : World) : NothingNew w w := ⟨rfl, rfl, rfl⟩

theorem NothingNew.trans (first : NothingNew w w') (second : NothingNew w' w'') :
    NothingNew w w'' where
  uuids := second.uuids.trans first.uuids
  rand := second.rand.trans first.rand
  ingresses := second.ingresses.trans first.ingresses

theorem SameStore.refl (w : World) : SameStore w w := ⟨.refl w, rfl, rfl⟩

theorem SameStore.trans (first : SameStore w w') (second : SameStore w' w'') : SameStore w w'' where
  toNothingNew := first.toNothingNew.trans second.toNothingNew
  now := second.now.trans first.now
  redis := second.redis.trans first.redis

theorem SameStore.represents (same : SameStore w w') (rep : Represents t w) : Represents t w' where
  typed := by
    rw [same.redis]
    exact rep.typed
  clock := same.now.trans rep.clock
  shows := by
    rw [same.redis]
    exact rep.shows

/-- A call of the store, from a handler. -/
theorem wp_ofStore (holds : p.wp (worldLogic Cmd.OfStore) Q w) :
    p.wp aloneLogic (fun a w' => Q a w' ∧ NothingNew w w') w := by
  induction p generalizing w with
  | done a => exact ⟨holds, .refl w⟩
  | call c k ih =>
    obtain ⟨ofStore, rest⟩ := holds
    refine ⟨trivial, ?_⟩
    intro reply w' performs
    have kept : NothingNew w w' := by
      cases c
      case redis c =>
        obtain ⟨_, _, rfl⟩ := performs
        exact ⟨rfl, rfl, rfl⟩
      case timeNow | after =>
        obtain ⟨_, rfl⟩ := performs
        exact ⟨rfl, rfl, rfl⟩
      all_goals exact ofStore.elim
    refine Prog.wp_mono (ih reply (rest reply w' performs)) ?_
    intro a w'' post
    rcases post with ⟨holds', kept'⟩
    exact ⟨holds', kept.trans kept'⟩

/-- The commands to LiveKit that delete. -/
def Cmd.Deletes : Cmd → Prop
  | .deleteIngress _ | .deleteRoom _ => True
  | _ => False

theorem wp_deletes (issues : p.Issues Cmd.Deletes) :
    p.wp aloneLogic (fun _ w' => SameStore w w') w := by
  refine issues.wp (L := aloneLogic) (J := fun w' : World => SameStore w w') ?_ (.refl w)
  intro w' c same deletes
  refine ⟨trivial, ?_⟩
  intro reply w'' performs
  refine same.trans ?_
  cases c
  case deleteIngress | deleteRoom =>
    obtain ⟨_, rfl⟩ := performs
    exact ⟨⟨rfl, rfl, rfl⟩, rfl, rfl⟩
  all_goals exact deletes.elim

end Calls

/-! ### Rooms -/

/-- The tables hold the sessions of the lifecycle, and LiveKit has its ingresses. -/
structure Tracks (lc : Lifecycle) (t : Tables) (w : World) : Prop where
  rep : Represents t w
  coherent : t.Coherent
  rooms : ∀ code, lc.rooms code = (t.codes code).bind t.sessions
  coded : ∀ {id sess}, t.sessions id = some sess → sess.roomCode ≠ ""
  handed : ∀ {id}, (t.sessions id).isSome = true → id ∈ w.uuids
  draws : lc.draws = w.rand
  ingresses : ∀ {id made}, lc.ingresses id = some made → w.livekit.rooms id = some made.1.roomName

section Handlers

variable {s : Server} {lc : Lifecycle} {t : Tables} {w : World} {code : String}

/-- The session of a code is found by it. -/
theorem Tracks.findByCode (tracks : Tracks lc t w) :
    t.findByCode code = match lc.rooms code with
      | some sess => .ok sess
      | none => .error (.sentinel .invalidRoomCode) := by
  rw [tracks.rooms, Tables.findByCode]
  cases named : t.codes code with
  | none => rfl
  | some id =>
    obtain ⟨_, sess, entered, _⟩ := tracks.coherent.coded.mp named
    dsimp only [Option.bind_some, Tables.find]
    rw [entered]

/-- A session of the lifecycle is in the tables under its id and its code. -/
theorem Tracks.entered {sess : Session} (tracks : Tracks lc t w)
    (found : lc.rooms code = some sess) :
    t.sessions sess.id = some sess ∧ sess.roomCode = code ∧ isUuid sess.id = true := by
  rw [tracks.rooms] at found
  obtain ⟨id, named, entered⟩ := Option.bind_eq_some_iff.mp found
  obtain ⟨_, sess', entered', own⟩ := tracks.coherent.coded.mp named
  obtain rfl : sess = sess' := Option.some.inj (entered.symm.trans entered')
  obtain ⟨uuid, rfl, _⟩ := tracks.coherent.entered entered
  exact ⟨entered, own, uuid⟩

/-- A session of the tables is one of the lifecycle. -/
theorem Tracks.issued {sess : Session} (tracks : Tracks lc t w)
    (entered : t.sessions sess.id = some sess) : lc.rooms sess.roomCode = some sess := by
  have named : t.codes sess.roomCode = some sess.id :=
    tracks.coherent.coded.mpr ⟨tracks.coded entered, sess, entered, rfl⟩
  rw [tracks.rooms, named]
  exact entered

/-- Roles and ingresses are no matter of the lifecycle. -/
theorem Tracks.other {t' : Tables} {w' : World} (tracks : Tracks lc t w) (rep : Represents t' w')
    (sessions : t'.sessions = t.sessions) (codes : t'.codes = t.codes) (kept : NothingNew w w') :
    Tracks lc t' w' where
  rep := rep
  coherent := by
    constructor
    · rw [sessions]
      exact tracks.coherent.entered
    · rw [sessions, codes]
      exact tracks.coherent.coded
  rooms := by
    rw [sessions, codes]
    exact tracks.rooms
  coded := by
    rw [sessions]
    exact tracks.coded
  handed := by
    rw [sessions, kept.uuids]
    exact tracks.handed
  draws := tracks.draws.trans kept.rand.symm
  ingresses := by
    rw [kept.ingresses]
    exact tracks.ingresses

theorem Tracks.sameStore {w' : World} (tracks : Tracks lc t w) (same : SameStore w w') :
    Tracks lc t w' :=
  tracks.other (same.represents tracks.rep) rfl rfl same.toNothingNew

/-- The session of a code, read by a handler. -/
theorem wp_getSessionByRoomCode_tracks (tracks : Tracks lc t w) :
    (s.store.getSessionByRoomCode code).wp aloneLogic (fun result w' =>
      result = (match lc.rooms code with
        | some sess => .ok sess
        | none => .error (.sentinel .invalidRoomCode)) ∧ w' = w) w := by
  refine Prog.wp_mono (wp_ofStore (refines_getSessionByRoomCode tracks.rep tracks.coherent)) ?_
  intro result w' holds
  obtain ⟨⟨found, same⟩, _⟩ := holds
  rw [tracks.findByCode] at found
  exact ⟨found, same⟩

theorem wp_grantAccess_tracks {id u role : String} (tracks : Tracks lc t w)
    (uuid : isUuid id = true) (entered : (t.sessions id).isSome = true) :
    (s.store.grantAccess id u role).wp aloneLogic
      (fun result w' => result = .ok () ∧ ∃ t', Tracks lc t' w' ∧ t'.sessions = t.sessions) w := by
  refine Prog.wp_mono (wp_ofStore (refines_grantAccess tracks.rep uuid)) ?_
  intro result w' holds
  obtain ⟨⟨ok, rep⟩, kept⟩ := holds
  rw [Tables.present, if_pos entered] at ok
  rw [Tables.grantAccess, if_pos entered] at rep
  exact ⟨ok, _, tracks.other rep rfl rfl kept, rfl⟩

/-! ### Joining -/

/-- LiveKit creates an ingress. -/
theorem Tracks.admitted (tracks : Tracks lc t w) (req : CreateIngressRequest) (info : IngressInfo) :
    Tracks (lc.admitted req info) t
      { w with livekit := w.livekit.create info.ingressId req.roomName } where
  rep := ⟨tracks.rep.typed, tracks.rep.clock, tracks.rep.shows⟩
  coherent := tracks.coherent
  rooms := tracks.rooms
  coded := tracks.coded
  handed := tracks.handed
  draws := tracks.draws
  ingresses := by
    intro id made found
    dsimp only [Lifecycle.admitted] at found
    dsimp only [LiveKit.create]
    rw [Function.update_apply] at found ⊢
    split at found
    · next same =>
      rw [if_pos same]
      cases found
      rfl
    · next other =>
      rw [if_neg other]
      exact tracks.ingresses found

theorem wp_joinAsCamera_tracks {req : JoinRequest} {sess : Session} (tracks : Tracks lc t w)
    (uuid : isUuid sess.id = true) (entered : t.sessions sess.id = some sess) :
    (s.joinAsCamera req sess).wp aloneLogic (fun reply w' =>
      ∃ info t', lc.ingresses info.ingressId = none ∧
        reply = .ok ⟨"", "", info.url, info.streamKey⟩ ∧
        Tracks (lc.admitted ⟨.whip, sess.id, req.userId, req.userId, false⟩ info) t' w') w := by
  refine ⟨trivial, ?_⟩
  intro created w₁ performs
  obtain ⟨info, unused, rfl, rfl⟩ := performs
  have fresh : lc.ingresses info.ingressId = none := by
    cases found : lc.ingresses info.ingressId with
    | none => rfl
    | some made =>
      rw [tracks.ingresses found] at unused
      cases unused
  have tracks₁ := tracks.admitted ⟨.whip, sess.id, req.userId, req.userId, false⟩ info
  have there : (t.sessions sess.id).isSome = true := by rw [entered]; rfl
  dsimp only [Prog.bind]
  rw [Prog.wp_bind]
  refine Prog.wp_mono (wp_grantAccess_tracks tracks₁ uuid there) ?_
  intro granted w₂ holds
  obtain ⟨rfl, t₂, tracks₂, _⟩ := holds
  dsimp only
  rw [Prog.wp_bind]
  refine Prog.wp_mono (wp_ofStore (refines_addIngressID tracks₂.rep uuid)) ?_
  intro added w₃ holds
  obtain ⟨⟨_, rep₃⟩, kept⟩ := holds
  have tracks₃ := tracks₂.other rep₃ rfl rfl kept
  refine ⟨trivial, ?_⟩
  intro _ w₄ counted
  obtain rfl := counted
  exact ⟨info, _, fresh, rfl, tracks₃.sameStore ⟨⟨rfl, rfl, rfl⟩, rfl, rfl⟩⟩

theorem wp_joinAsDirector_tracks {req : JoinRequest} {sess : Session} (tracks : Tracks lc t w)
    (signs : ∀ now, ∃ token, s.toJWT now (s.directorToken req sess) = .ok token)
    (uuid : isUuid sess.id = true) (entered : t.sessions sess.id = some sess) :
    (s.joinAsDirector req sess).wp aloneLogic (fun reply w' =>
      (∃ now token, s.toJWT now (s.directorToken req sess) = .ok token ∧
        reply = .ok ⟨token, s.liveKitExternalURL, "", ""⟩) ∧ ∃ t', Tracks lc t' w') w := by
  have there : (t.sessions sess.id).isSome = true := by rw [entered]; rfl
  rw [Server.joinAsDirector, Prog.wp_bind]
  refine Prog.wp_mono (wp_grantAccess_tracks tracks uuid there) ?_
  intro granted w₁ holds
  obtain ⟨rfl, t₁, tracks₁, _⟩ := holds
  refine ⟨trivial, ?_⟩
  intro now w₂ performs
  obtain ⟨_, rfl⟩ := performs
  obtain ⟨token, signed⟩ := signs now
  dsimp only [Prog.bind]
  rw [signed]
  refine ⟨trivial, ?_⟩
  intro _ w₃ counted
  obtain rfl := counted
  exact ⟨⟨now, token, signed, rfl⟩, t₁, tracks₁.sameStore ⟨⟨rfl, rfl, rfl⟩, rfl, rfl⟩⟩

theorem wp_joinSession_tracks {req : JoinRequest} (tracks : Tracks lc t w)
    (signs : ∀ now sess, ∃ token, s.toJWT now (s.directorToken req sess) = .ok token) :
    (s.joinSession req).wp aloneLogic
      (fun reply w' => ∃ lc' t', lc.Joins s req reply lc' ∧ Tracks lc' t' w') w := by
  unfold Server.joinSession Lifecycle.Joins
  split
  · exact ⟨lc, t, ⟨rfl, rfl⟩, tracks⟩
  · split
    · exact ⟨lc, t, ⟨rfl, rfl⟩, tracks⟩
    · split
      · exact ⟨lc, t, ⟨rfl, rfl⟩, tracks⟩
      · rw [Prog.wp_bind]
        refine Prog.wp_mono (wp_getSessionByRoomCode_tracks tracks) ?_
        intro result w₁ holds
        obtain ⟨rfl, rfl⟩ := holds
        cases found : lc.rooms req.roomCode with
        | none => exact ⟨lc, t, ⟨rfl, rfl⟩, tracks⟩
        | some sess =>
          obtain ⟨entered, _, uuid⟩ := tracks.entered found
          dsimp only
          split
          · exact ⟨lc, t, ⟨rfl, rfl⟩, tracks⟩
          · split
            · refine Prog.wp_mono (wp_joinAsCamera_tracks tracks uuid entered) ?_
              intro reply w₂ post
              rcases post with ⟨info, t₂, fresh, same, tracks₂⟩
              exact ⟨_, t₂, ⟨info, fresh, same, rfl⟩, tracks₂⟩
            · split
              · refine Prog.wp_mono
                  (wp_joinAsDirector_tracks tracks (fun now => signs now sess) uuid entered) ?_
                intro reply w₂ post
                rcases post with ⟨signed, t₂, tracks₂⟩
                exact ⟨lc, t₂, ⟨signed, rfl⟩, tracks₂⟩
              · exact ⟨lc, t, ⟨rfl, rfl⟩, tracks⟩

/-! ### Creating -/

/-- One number is drawn. -/
theorem Tracks.drawn (tracks : Tracks lc t w) :
    Tracks (lc.after 1) t { w with rand := fun i => w.rand (i + 1) } where
  rep := ⟨tracks.rep.typed, tracks.rep.clock, tracks.rep.shows⟩
  coherent := tracks.coherent
  rooms := tracks.rooms
  coded := tracks.coded
  handed := tracks.handed
  draws := by
    dsimp only [Lifecycle.after]
    rw [tracks.draws]
  ingresses := tracks.ingresses

theorem Lifecycle.Taken.succ {n : Nat} (first : (lc.rooms (lc.drawn 0)).isSome = true)
    (rest : (lc.after 1).Taken n) : lc.Taken (n + 1) := by
  intro i lt
  cases i with
  | zero => exact first
  | succ i => exact rest i (Nat.lt_of_succ_lt_succ lt)

/-- The loop of `NewRoomCode` returns the first free code. -/
theorem wp_newRoomCodeFrom_tracks {n : Nat} (tracks : Tracks lc t w) :
    (newRoomCodeFrom s.store n).wp aloneLogic (fun result w' =>
      (∃ i < n, lc.Taken i ∧ lc.rooms (lc.drawn i) = none ∧ result = .ok (lc.drawn i) ∧
        Tracks (lc.after (i + 1)) t w' ∧ w'.uuids = w.uuids) ∨
      (lc.Taken n ∧ (∃ err, result = .error err) ∧ Tracks (lc.after n) t w')) w := by
  induction n generalizing lc w with
  | zero => exact .inr ⟨nofun, ⟨_, rfl⟩, tracks⟩
  | succ n ih =>
    refine ⟨trivial, ?_⟩
    intro reply w₁ performs
    obtain ⟨rfl, rfl⟩ := performs
    have code : lc.drawn 0 = roomCodeOf (w.rand 0 % 1000000) := by
      rw [Lifecycle.drawn, tracks.draws]
    dsimp only [Prog.bind]
    rw [← code, Prog.wp_bind]
    refine Prog.wp_mono (wp_getSessionByRoomCode_tracks tracks.drawn) ?_
    intro result w₂ holds
    obtain ⟨rfl, rfl⟩ := holds
    have same : (lc.after 1).rooms (lc.drawn 0) = lc.rooms (lc.drawn 0) := rfl
    rw [same]
    cases first : lc.rooms (lc.drawn 0) with
    | none =>
      refine .inl ⟨0, Nat.succ_pos n, nofun, first, rfl, tracks.drawn, rfl⟩
    | some sess =>
      have first : (lc.rooms (lc.drawn 0)).isSome = true := by rw [first]; rfl
      refine Prog.wp_mono (ih tracks.drawn) ?_
      intro result w₃ holds
      obtain ⟨i, lt, taken, free, ok, tracks₃, uuids⟩ | ⟨taken, failed, tracks₃⟩ := holds
      · exact .inl ⟨i + 1, Nat.succ_lt_succ lt, taken.succ first, free, ok, tracks₃, uuids⟩
      · exact .inr ⟨taken.succ first, failed, tracks₃⟩

/-- A session is entered under a free code. -/
theorem Tracks.create {sess : Session} {w' : World} {ttl : Nat} (tracks : Tracks lc t w)
    (uuid : isUuid sess.id = true) (fresh : t.sessions sess.id = none)
    (coded : sess.roomCode ≠ "") (free : lc.rooms sess.roomCode = none)
    (rep : Represents (t.create ttl sess) w') (handed : sess.id ∈ w'.uuids)
    (kept : NothingNew w w') :
    Tracks (lc.issued sess.truncate) (t.create ttl sess) w' := by
  have unnamed : t.codes sess.roomCode = none := by
    cases named : t.codes sess.roomCode with
    | none => rfl
    | some id =>
      obtain ⟨_, other, entered, _⟩ := tracks.coherent.coded.mp named
      rw [tracks.rooms, named, Option.bind_some, entered] at free
      cases free
  constructor
  case rep => exact rep
  case coherent => exact tracks.coherent.create uuid fresh fun _ => unnamed
  case rooms =>
    intro code
    dsimp only [Lifecycle.issued, Session.truncate, Tables.create]
    rw [if_neg coded, Function.update_apply, Function.update_apply]
    split
    · rw [Option.bind_some, Function.update_self]
    · rw [tracks.rooms]
      cases named : t.codes code with
      | none => rfl
      | some id =>
        obtain ⟨_, other, entered, _⟩ := tracks.coherent.coded.mp named
        have apart : id ≠ sess.id := by
          intro same
          rw [same, fresh] at entered
          cases entered
        rw [Option.bind_some, Option.bind_some, Function.update_of_ne apart]
  case coded =>
    intro id sess' entered
    dsimp only [Tables.create] at entered
    rw [Function.update_apply] at entered
    split at entered
    · cases entered
      exact coded
    · exact tracks.coded entered
  case handed =>
    intro id entered
    dsimp only [Tables.create] at entered
    rw [Function.update_apply] at entered
    split at entered
    · next same => rwa [same]
    · rw [kept.uuids]
      exact tracks.handed entered
  case draws => exact tracks.draws.trans kept.rand.symm
  case ingresses =>
    rw [kept.ingresses]
    exact tracks.ingresses

theorem wp_enter_tracks {sess : Session} (tracks : Tracks lc t w) (uuid : isUuid sess.id = true)
    (fresh : t.sessions sess.id = none) (coded : sess.roomCode ≠ "")
    (free : lc.rooms sess.roomCode = none) (handed : sess.id ∈ w.uuids) :
    (s.store.createSession sess).wp aloneLogic (fun result w' => result = .ok () ∧
      ∃ t', Tracks (lc.issued sess.truncate) t' w' ∧ (t'.sessions sess.id).isSome = true) w := by
  refine Prog.wp_mono (wp_ofStore (refines_createSession tracks.rep uuid fresh)) ?_
  intro result w' holds
  obtain ⟨⟨ok, rep⟩, kept⟩ := holds
  have handed' : sess.id ∈ w'.uuids := by rwa [kept.uuids]
  refine ⟨ok, _, tracks.create uuid fresh coded free rep handed' kept, ?_⟩
  dsimp only [Tables.create]
  rw [Function.update_self]
  rfl

theorem wp_createSession_tracks {req : CreateSessionRequest} (tracks : Tracks lc t w) :
    (s.createSession req).wp aloneLogic
      (fun reply w' => ∃ lc' t', lc.Creates req reply lc' ∧ Tracks lc' t' w') w := by
  unfold Server.createSession Lifecycle.Creates
  split
  · exact ⟨lc, t, ⟨rfl, rfl⟩, tracks⟩
  · split
    · exact ⟨lc, t, ⟨rfl, rfl⟩, tracks⟩
    · refine ⟨trivial, ?_⟩
      intro id w₁ performs
      obtain ⟨uuid, unused, rfl⟩ := performs
      have tracks₁ : Tracks lc t { w with uuids := insert id w.uuids } :=
        { rep := ⟨tracks.rep.typed, tracks.rep.clock, tracks.rep.shows⟩
          coherent := tracks.coherent
          rooms := tracks.rooms
          coded := tracks.coded
          handed := fun entered => Finset.mem_insert_of_mem (tracks.handed entered)
          draws := tracks.draws
          ingresses := tracks.ingresses }
      have fresh : t.sessions id = none := by
        by_contra entered
        exact unused (tracks.handed (Option.isSome_iff_ne_none.mpr entered))
      have apart : ∀ code sess, lc.rooms code = some sess → sess.id ≠ id := by
        intro code sess found same
        have entered := (tracks.entered found).1
        rw [same, fresh] at entered
        cases entered
      dsimp only [Prog.bind]
      rw [newRoomCode, Prog.wp_bind]
      refine Prog.wp_mono (wp_newRoomCodeFrom_tracks tracks₁) ?_
      intro result w₂ holds
      obtain ⟨i, lt, taken, free, rfl, tracks₂, uuids₂⟩ | ⟨taken, ⟨err, rfl⟩, tracks₂⟩ := holds
      case inr => exact ⟨_, t, .inr ⟨taken, rfl, rfl⟩, tracks₂⟩
      refine ⟨trivial, ?_⟩
      intro createdAt w₃ performs
      obtain rfl := performs
      have handed : id ∈ w₃.uuids := by
        rw [uuids₂]
        exact Finset.mem_insert_self id w.uuids
      have created : ∃ sess : Session, sess =
          ⟨id, lc.drawn i, req.userId, createdAt, req.maxCameras, "active"⟩ := ⟨_, rfl⟩
      obtain ⟨sess, made⟩ := created
      have own : sess.id = id := by rw [made]
      have named : sess.roomCode = lc.drawn i := by rw [made]
      dsimp only [Prog.bind]
      rw [← made, Prog.wp_bind]
      have uuid' : isUuid sess.id = true := by rwa [own]
      have fresh' : t.sessions sess.id = none := by rwa [own]
      have handed' : sess.id ∈ w₃.uuids := by rwa [own]
      have coded : sess.roomCode ≠ "" := by
        rw [named]
        exact roomCodeOf_ne_empty _
      have free' : (lc.after (i + 1)).rooms sess.roomCode = none := by
        rw [named]
        exact free
      refine Prog.wp_mono (wp_enter_tracks tracks₂ uuid' fresh' coded free' handed') ?_
      intro result w₄ holds
      obtain ⟨rfl, t₄, tracks₄, entered⟩ := holds
      refine ⟨trivial, ?_⟩
      intro _ w₅ counted
      obtain rfl := counted
      refine ⟨trivial, ?_⟩
      intro _ w₆ counted
      obtain rfl := counted
      have tracks₆ : Tracks _ t₄ { w₄ with
          metrics := (w₄.metrics.apply .sessionsCreatedInc).apply .sessionsActiveInc } :=
        tracks₄.sameStore ⟨⟨rfl, rfl, rfl⟩, rfl, rfl⟩
      rw [own] at entered
      dsimp only [Prog.bind]
      rw [Prog.wp_bind]
      refine Prog.wp_mono (wp_grantAccess_tracks tracks₆ uuid entered) ?_
      intro granted w₇ holds
      obtain ⟨rfl, t₇, tracks₇, _⟩ := holds
      refine ⟨_, t₇, .inl ⟨i, lt, taken, free, rfl, id, createdAt.truncate, apart, ?_⟩, tracks₇⟩
      rw [made]
      rfl

/-! ### Closing -/

theorem wp_deleteRoom_tracks {id : String} (tracks : Tracks lc t w) (uuid : isUuid id = true) :
    (s.deleteRoom id).wp aloneLogic (fun _ w' => Tracks lc t w') w := by
  rw [Server.deleteRoom, Prog.wp_bind]
  refine Prog.wp_mono (wp_ofStore (refines_getIngressIDs tracks.rep uuid)) ?_
  intro result w₁ holds
  obtain ⟨⟨⟨ids, rfl, _⟩, rfl⟩, _⟩ := holds
  have finish (errs : List Err) : (finishRoom id errs).Issues Cmd.Deletes := by
    refine ⟨trivial, ?_⟩
    intro reply
    cases reply <;> trivial
  have rest : (deleteIngresses ids [] >>= fun errs => finishRoom id errs).Issues Cmd.Deletes :=
    (issues_deleteIngresses fun _ _ => trivial).bind finish
  refine Prog.wp_mono (wp_deletes rest) ?_
  intro _ w₂ same
  exact tracks.sameStore same

/-- The status of a session changes. -/
theorem Tracks.setStatus {sess : Session} {w' : World} {status : String} (tracks : Tracks lc t w)
    (entered : t.sessions sess.id = some sess) (rep : Represents (t.setStatus sess status) w')
    (kept : NothingNew w w') :
    Tracks (lc.issued { sess with status }) (t.setStatus sess status) w' := by
  have nonempty := tracks.coded entered
  constructor
  case rep => exact rep
  case coherent => exact tracks.coherent.setStatus entered
  case rooms =>
    intro code
    have named : t.codes sess.roomCode = some sess.id :=
      tracks.coherent.coded.mpr ⟨tracks.coded entered, sess, entered, rfl⟩
    dsimp only [Lifecycle.issued, Tables.setStatus]
    rw [Function.update_apply]
    split
    · next same => rw [same, named, Option.bind_some, Function.update_self]
    · next other =>
      rw [tracks.rooms]
      cases found : t.codes code with
      | none => rfl
      | some id =>
        obtain ⟨_, sess', entered', own⟩ := tracks.coherent.coded.mp found
        have apart : id ≠ sess.id := by
          intro same
          rw [same, entered] at entered'
          cases entered'
          exact other own.symm
        rw [Option.bind_some, Option.bind_some, Function.update_of_ne apart]
  case coded =>
    intro id sess' entered'
    dsimp only [Tables.setStatus] at entered'
    rw [Function.update_apply] at entered'
    split at entered'
    · cases entered'
      exact nonempty
    · exact tracks.coded entered'
  case handed =>
    intro id entered'
    rw [kept.uuids]
    dsimp only [Tables.setStatus] at entered'
    rw [Function.update_apply] at entered'
    split at entered'
    · next same =>
      rw [same]
      exact tracks.handed (by rw [entered]; rfl)
    · exact tracks.handed entered'
  case draws => exact tracks.draws.trans kept.rand.symm
  case ingresses =>
    rw [kept.ingresses]
    exact tracks.ingresses

theorem wp_closeSession_tracks {req : CloseSessionRequest} (tracks : Tracks lc t w) :
    (s.closeSession req).wp aloneLogic
      (fun reply w' => ∃ lc' t', lc.Closes req reply lc' ∧ Tracks lc' t' w') w := by
  unfold Server.closeSession Lifecycle.Closes
  split
  · exact ⟨lc, t, ⟨rfl, rfl⟩, tracks⟩
  · split
    · exact ⟨lc, t, ⟨rfl, rfl⟩, tracks⟩
    · rw [Prog.wp_bind]
      refine Prog.wp_mono (wp_getSessionByRoomCode_tracks tracks) ?_
      intro result w₁ holds
      obtain ⟨rfl, rfl⟩ := holds
      cases found : lc.rooms req.roomCode with
      | none => exact ⟨lc, t, ⟨rfl, rfl⟩, tracks⟩
      | some sess =>
        obtain ⟨entered, _, uuid⟩ := tracks.entered found
        dsimp only
        split
        · exact ⟨lc, t, ⟨rfl, rfl⟩, tracks⟩
        · rw [Prog.wp_bind]
          refine Prog.wp_mono (wp_deleteRoom_tracks tracks uuid) ?_
          intro _ w₂ tracks₂
          rw [Prog.wp_bind]
          refine Prog.wp_mono (wp_ofStore
            (refines_updateSessionStatus tracks₂.rep tracks₂.coherent uuid)) ?_
          intro result w₃ holds
          obtain ⟨⟨ok, rep⟩, kept⟩ := holds
          rw [Tables.present, entered] at ok
          rw [Tables.updateSessionStatus, entered] at rep
          obtain rfl : result = .ok () := ok
          have tracks₃ := tracks₂.setStatus entered rep kept
          refine ⟨trivial, ?_⟩
          intro _ w₄ counted
          obtain rfl := counted
          exact ⟨_, _, ⟨rfl, rfl⟩, tracks₃.sameStore ⟨⟨rfl, rfl, rfl⟩, rfl, rfl⟩⟩

/-! ### Listing -/

theorem wp_getMySessions_tracks {req : GetMySessionsRequest} (tracks : Tracks lc t w) :
    (s.getMySessions req).wp aloneLogic
      (fun reply w' => lc.Lists req reply ∧ Tracks lc t w') w := by
  unfold Server.getMySessions Lifecycle.Lists
  split
  · exact ⟨rfl, tracks⟩
  · rw [Prog.wp_bind]
    refine Prog.wp_mono (wp_ofStore (refines_getUserSessions tracks.rep tracks.coherent)) ?_
    intro result w₁ holds
    obtain ⟨⟨⟨list, rfl, nodup, lists⟩, rfl⟩, _⟩ := holds
    refine ⟨⟨list, rfl, nodup, ?_⟩, tracks⟩
    intro sess
    rw [lists]
    constructor
    · intro ⟨entered, own⟩
      exact ⟨⟨sess.roomCode, tracks.issued entered⟩, own⟩
    · intro ⟨⟨code, found⟩, own⟩
      exact ⟨(tracks.entered found).1, own⟩

end Handlers

/-! ## Sequences of requests -/

/-- Requests are made, and nothing expires. -/
def RequestsUnexpired : World → Call ⊕ Nat → Prop
  | _, .inl (.createSession _) | _, .inl (.joinSession _) | _, .inl (.closeSession _)
  | _, .inl (.getMySessions _) => True
  | _, .inl (.store _) | _, .inl (.sweepAt _ _) => False
  | w, .inr t => w.redis.expire t = w.redis

section Sequences

variable {b : Backend} {lc : Lifecycle} {t : Tables} {w w' : World} {a : Result} {call : Call}
variable {calls : List (Call × Result)}

/-- The token library signs the tokens of directors. -/
def Server.Signs (s : Server) : Prop :=
  ∀ now req sess, ∃ token, s.toJWT now (s.directorToken req sess) = .ok token

/-- **A request alone** is answered as the lifecycle says. -/
theorem Tracks.answers (tracks : Tracks lc t w) (signs : b.server.Signs)
    (request : RequestsUnexpired w (.inl call)) : (b.code call).wp aloneLogic
      (fun a w' => ∃ lc' t', lc.Step b.server call a lc' ∧ Tracks lc' t' w') w := by
  cases call with
  | createSession req =>
    refine Prog.wp_bind.mpr (Prog.wp_mono (wp_createSession_tracks tracks) ?_)
    intro reply w' holds
    obtain ⟨lc', t', creates, tracks'⟩ := holds
    exact ⟨lc', t', ⟨reply, rfl, creates⟩, tracks'⟩
  | joinSession req =>
    have signs' := fun now sess => signs now req sess
    refine Prog.wp_bind.mpr (Prog.wp_mono (wp_joinSession_tracks tracks signs') ?_)
    intro reply w' holds
    obtain ⟨lc', t', joins, tracks'⟩ := holds
    exact ⟨lc', t', ⟨reply, rfl, joins⟩, tracks'⟩
  | closeSession req =>
    refine Prog.wp_bind.mpr (Prog.wp_mono (wp_closeSession_tracks tracks) ?_)
    intro reply w' holds
    obtain ⟨lc', t', closes, tracks'⟩ := holds
    exact ⟨lc', t', ⟨reply, rfl, closes⟩, tracks'⟩
  | getMySessions req =>
    refine Prog.wp_bind.mpr (Prog.wp_mono (wp_getMySessions_tracks tracks) ?_)
    intro reply w' holds
    obtain ⟨lists, tracks'⟩ := holds
    exact ⟨lc, t, ⟨reply, rfl, lists, rfl⟩, tracks'⟩
  | store | sweepAt => exact request.elim

end Sequences

namespace Sample

end Sample

end DirectLink
