import DirectLink.Lib.Layers
import DirectLink.Session.RecordedRuns
import DirectLink.Signaling.Server

/-!
# NotFound

The lookup of `JoinSession` and `CloseSession` and the code they answer with when it fails, over
every state of the store and every pattern of failures and cancellations.
-/

namespace DirectLink

/-! ### The requests -/

/-- The RPCs that look a room code up. -/
inductive LookupRpc : Type
  | joinSession (req : JoinRequest)
  | closeSession (req : CloseSessionRequest)

namespace LookupRpc

def roomCode : LookupRpc → String
  | joinSession req => req.roomCode
  | closeSession req => req.roomCode

/-- All fields are set. -/
def Filled : LookupRpc → Prop
  | joinSession req => req.userId ≠ "" ∧ req.role ≠ "" ∧ req.roomCode ≠ ""
  | closeSession req => req.roomCode ≠ "" ∧ req.userId ≠ ""

/-- The code of a status, none for a reply. -/
def codeOf {α : Type} : Except Status α → Option Code
  | .error status => some status.code
  | .ok _ => none

/-- The code that the server answers with. -/
def answer (s : Server) : LookupRpc → Go (Option Code)
  | joinSession req => return codeOf (← s.joinSession req)
  | closeSession req => return codeOf (← s.closeSession req)

end LookupRpc

/-! ### What a lookup learns -/

/-- The events are those of a lookup of the room code, started in `w`. -/
def IsLookup (r : RedisStore) (w : World) (roomCode : String) (lookup : List (Event backend)) :
    Prop :=
  ∃ found w', (r.getSessionByRoomCode roomCode).Runs RecordingStep ⟨w, []⟩ found ⟨w', lookup⟩

/-- The room code has no mapping, or there is no hash of the session that it is mapped to. -/
def EstablishedBy : Event backend → Prop
  | ⟨.redis (.get _), .ok none⟩ => True
  | ⟨.redis (.hgetall _), .ok result⟩ => result = ∅
  | _ => False

/-- The event answers the lookup: no mapping, no hash, or a hash that can be parsed. -/
def AnsweredBy : Event backend → Prop
  | ⟨.redis (.get _), .ok none⟩ => True
  | ⟨.redis (.hgetall _), .ok result⟩ =>
    result = ∅ ∨ (RedisStore.parseSession result).isOk = true
  | _ => False

/-- The lookup ends with the answer that the session is not there. -/
def Established (lookup : List (Event backend)) : Prop :=
  ∃ last ∈ lookup.getLast?, EstablishedBy last

/-- The lookup ends with an answer: its last command neither failed nor was cancelled, and no hash
was left unparsed. -/
def LookupAnswered (lookup : List (Event backend)) : Prop :=
  ∃ last ∈ lookup.getLast?, AnsweredBy last

/-- In every run of the request, `P` holds of the code and the events of the lookup. -/
def InEveryRun (s : Server) (rpc : LookupRpc)
    (P : Option Code → List (Event backend) → Prop) : Prop :=
  rpc.Filled → ∀ w code t, (rpc.answer s).Runs RecordingStep ⟨w, []⟩ code t →
    ∃ lookup rest, t.events = lookup ++ rest ∧ IsLookup s.store w rpc.roomCode lookup ∧
      P code lookup

/-- The code is NotFound just when the session was found not to be there. -/
def NotFoundMeansNotFound (code : Option Code) (lookup : List (Event backend)) : Prop :=
  code = some .notFound ↔ Established lookup

/-! ### The lookup -/

section Lookup

variable {r : RedisStore} {s : Server} {w : World} {t t' : Recording} {α : Type}

/-- Every command is allowed. -/
abbrev anyRecording : Logic backend := recordingLogic fun _ => True

theorem recording_call {c : Cmd} {P : c.Reply → Recording → Prop}
    (next : ∀ r w', P r ⟨w', t.events ++ [⟨c, r⟩]⟩) : anyRecording.Call t c P := by
  refine ⟨trivial, ?_⟩
  intro r holds post
  rcases holds with ⟨w', events⟩
  rcases post with ⟨_, rfl⟩
  exact next r w'

/-- The last event of a lookup and what was made of it. -/
def EndsIn (events : List (Event backend)) (found : Except Err Session) : Prop :=
  ∃ last ∈ events.getLast?,
    (∃ key, last = ⟨.redis (.get key), .ok none⟩ ∧ found = .error (.sentinel .invalidRoomCode)) ∨
    (∃ key result, last = ⟨.redis (.hgetall key), .ok result⟩ ∧
      found = RedisStore.parseSession result) ∨
    (∃ err err', last.cmd.Reports last.reply err ∧ found = .error err')

theorem endsIn_concat {events : List (Event backend)} {last : Event backend}
    {found : Except Err Session}
    (ends : (∃ key, last = ⟨.redis (.get key), .ok none⟩ ∧
        found = .error (.sentinel .invalidRoomCode)) ∨
      (∃ key result, last = ⟨.redis (.hgetall key), .ok result⟩ ∧
        found = RedisStore.parseSession result) ∨
      (∃ err err', last.cmd.Reports last.reply err ∧ found = .error err')) :
    EndsIn (events ++ [last]) found :=
  ⟨last, List.getLast?_concat .., ends⟩

/-- What is known of a step of the lookup: `Q` when it succeeds, and its failure is the last
event. -/
def Follows (Q : α → Recording → Prop) (result : Except Err α) (t : Recording) : Prop :=
  match result with
  | .ok a => Q a t
  | .error err => EndsIn t.events (.error err)

theorem recording_retry {op : Go (Except Err α)} {Q : α → Recording → Prop}
    (attempt : ∀ t, op.wp anyRecording (Follows Q) t) :
    (r.retryRedisOp op).wp anyRecording (Follows Q) t := by
  refine RedisStore.wp_retryRedisOp_inv (L := anyRecording) (J := fun _ => True) ?_ ?_ trivial
  · exact fun t _ => Prog.wp_mono (attempt t) fun _ _ ends => ⟨trivial, ends⟩
  · intro t backoff _
    refine recording_call fun reply w' => ⟨trivial, fun err failed => ?_⟩
    exact endsIn_concat (.inr (.inr ⟨err, err, failed, rfl⟩))

theorem wp_getSession_endsIn {id : String} :
    (r.getSession id).wp anyRecording (fun found t' => EndsIn t'.events found) t := by
  rw [RedisStore.getSession, Prog.wp_bind]
  refine Prog.wp_mono (recording_retry
    (Q := fun result t' => EndsIn t'.events (RedisStore.parseSession result)) ?_) ?_
  · intro t
    refine recording_call fun reply w' => ?_
    cases reply with
    | error err => exact endsIn_concat (.inr (.inr ⟨err, err, rfl, rfl⟩))
    | ok result => exact endsIn_concat (.inr (.inl ⟨_, result, rfl, rfl⟩))
  · intro result t' follows
    cases result <;> exact follows

/-- An absent mapping is the answer `ErrInvalidRoomCode`. -/
theorem wp_getSessionByRoomCode_endsIn {code : String} :
    (r.getSessionByRoomCode code).wp anyRecording (fun found t' => EndsIn t'.events found) t := by
  rw [RedisStore.getSessionByRoomCode, Prog.wp_bind]
  refine Prog.wp_mono (recording_retry (Q := fun _ _ => True) ?_) ?_
  · intro t
    rw [Prog.wp_bind, clientGet, Prog.wp_bind]
    refine recording_call fun reply w' => ?_
    rcases reply with err | none | id
    · simp only [Prog.pure_eq, Prog.wp_done]
      split <;> exact endsIn_concat (.inr (.inr ⟨err, _, rfl, rfl⟩))
    · exact endsIn_concat (.inl ⟨_, rfl, rfl⟩)
    · trivial
  · intro result t' follows
    cases result with
    | error err => exact follows
    | ok id => exact wp_getSession_endsIn

theorem not_answeredBy_of_reports {e : Event backend} {err : Err}
    (reports : e.cmd.Reports e.reply err) : ¬ EstablishedBy e ∧ ¬ AnsweredBy e := by
  obtain ⟨c, reply⟩ := e
  cases c with
  | redis c =>
    obtain rfl : reply = .error err := reports
    exact ⟨by simp [EstablishedBy], by simp [AnsweredBy]⟩
  | _ => exact ⟨id, id⟩

theorem parseSession_isOk {result : Redis.Hash} (empty : result = ∅) :
    (RedisStore.parseSession result).isOk = false := by
  rw [RedisStore.parseSession, if_pos empty]
  rfl

/-- A lookup that ends with an answer has found the session or that it is not there, and not
both. -/
theorem EndsIn.exact {lookup : List (Event backend)} {found : Except Err Session}
    (ends : EndsIn lookup found) :
    (LookupAnswered lookup ↔ (found.isOk = true ∨ Established lookup)) ∧
      (Established lookup → found.isOk = false) := by
  obtain ⟨last, isLast, kinds⟩ := ends
  have established : Established lookup ↔ EstablishedBy last := by
    rw [Established, Option.mem_def.mp isLast]
    simp
  have answered : LookupAnswered lookup ↔ AnsweredBy last := by
    rw [LookupAnswered, Option.mem_def.mp isLast]
    simp
  rw [established, answered]
  rcases kinds with ⟨key, rfl, rfl⟩ | ⟨key, result, rfl, rfl⟩ | ⟨err, err', reports, rfl⟩
  · exact ⟨iff_of_true trivial (.inr trivial), fun _ => rfl⟩
  · exact ⟨or_comm, parseSession_isOk⟩
  · obtain ⟨not, none⟩ := not_answeredBy_of_reports reports
    exact ⟨iff_of_false none (by simp [not, Except.isOk, Except.toBool]), fun _ => rfl⟩

/-! ### The answer -/

/-- Only the lookup is answered with NotFound. -/
def NotNotFound {β : Type} (reply : Except Status β) : Prop :=
  ∀ status, reply = .error status → status.code ≠ .notFound

theorem notNotFound_ok {β : Type} {reply : β} : NotNotFound (.ok reply : Except Status β) := by
  intro status impossible
  cases impossible

theorem notNotFound_error {β : Type} {status : Status} (other : status.code ≠ .notFound) :
    NotNotFound (.error status : Except Status β) := by
  intro _ same
  cases same
  exact other

theorem wp_anyRecording_bind {β : Type} {p : Go α} {f : α → Go β} {Q : β → Recording → Prop}
    (rest : ∀ a t, (f a).wp anyRecording Q t) : (p >>= f).wp anyRecording Q t :=
  Prog.wp_bind.mpr (Prog.wp_of_forall (fun _ _ => trivial) rest)

theorem wp_joinAsCamera_code {req : JoinRequest} {sess : Session} :
    (s.joinAsCamera req sess).wp anyRecording (fun reply _ => NotNotFound reply) t := by
  refine wp_anyRecording_bind fun created t => ?_
  cases created with
  | error err => exact notNotFound_error (by simp)
  | ok info =>
    refine wp_anyRecording_bind fun granted t => ?_
    cases granted with
    | error err => exact wp_anyRecording_bind fun _ _ => notNotFound_error (by simp)
    | ok _ =>
      exact wp_anyRecording_bind fun _ _ => wp_anyRecording_bind fun _ _ => notNotFound_ok

theorem wp_joinAsDirector_code {req : JoinRequest} {sess : Session} :
    (s.joinAsDirector req sess).wp anyRecording (fun reply _ => NotNotFound reply) t := by
  refine wp_anyRecording_bind fun granted t => ?_
  cases granted with
  | error err => exact notNotFound_error (by simp)
  | ok _ =>
    refine wp_anyRecording_bind fun now t => ?_
    dsimp only
    split
    · exact notNotFound_error (by simp)
    · exact wp_anyRecording_bind fun _ _ => notNotFound_ok

/-- Nothing of what was recorded is forgotten. -/
theorem extends_of_runs {p : Go α} {a : α} (run : p.Runs RecordingStep t a t') :
    ∃ rest, t'.events = t.events ++ rest := by
  induction run with
  | done => exact ⟨[], (List.append_nil _).symm⟩
  | call step _ ih =>
    obtain ⟨rest, more⟩ := ih
    exact ⟨_, by rw [more, step.2, List.append_assoc]⟩

theorem codeOf_eq_notFound {β : Type} {reply : Except Status β} (other : NotNotFound reply) :
    LookupRpc.codeOf reply ≠ some .notFound := by
  cases reply with
  | ok _ => exact fun impossible => by cases impossible
  | error status => exact fun same => other status rfl (Option.some.inj same)

/-- A handler that looks a session up, answers NotFound if that fails, and nowhere else. -/
theorem runs_lookup {β : Type} {roomCode : String} {reply : Except Status β}
    {k : Except Err Session → Go (Except Status β)}
    (failed : ∀ err, ∃ text, k (.error err) = .done (.error ⟨.notFound, text⟩))
    (found : ∀ sess t, (k (.ok sess)).wp anyRecording (fun reply _ => NotNotFound reply) t)
    (run : (s.store.getSessionByRoomCode roomCode >>= k).Runs RecordingStep t reply t') :
    ∃ found t₁, (s.store.getSessionByRoomCode roomCode).Runs RecordingStep t found t₁ ∧
      (∃ rest, t'.events = t₁.events ++ rest) ∧
      (LookupRpc.codeOf reply = some .notFound ↔ found.isOk = false) := by
  obtain ⟨session, t₁, lookup, rest⟩ := Prog.runs_bind.mp run
  refine ⟨session, t₁, lookup, extends_of_runs rest, ?_⟩
  cases session with
  | error err =>
    obtain ⟨text, answers⟩ := failed err
    rw [answers] at rest
    cases rest
    exact iff_of_true rfl rfl
  | ok sess =>
    have other := Prog.wp_sound (L := anyRecording) (found sess t₁) rest
    exact iff_of_false (codeOf_eq_notFound other) (by simp [Except.isOk, Except.toBool])

/-- What the handlers do with the lookup. -/
theorem runs_answer {rpc : LookupRpc} {code : Option Code} (filled : rpc.Filled)
    (run : (rpc.answer s).Runs RecordingStep t code t') :
    ∃ found t₁, (s.store.getSessionByRoomCode rpc.roomCode).Runs RecordingStep t found t₁ ∧
      (∃ rest, t'.events = t₁.events ++ rest) ∧ (code = some .notFound ↔ found.isOk = false) := by
  cases rpc with
  | joinSession req =>
    obtain ⟨user, role, room⟩ := filled
    obtain ⟨reply, t₂, handled, done⟩ := Prog.runs_bind.mp run
    cases done
    rw [Server.joinSession, if_neg user, if_neg role, if_neg room] at handled
    refine runs_lookup (fun _ => ⟨_, rfl⟩) (fun sess t => ?_) handled
    dsimp only
    split
    · exact notNotFound_error (by simp)
    · split
      · exact wp_joinAsCamera_code
      · split
        · exact wp_joinAsDirector_code
        · exact notNotFound_error (by simp)
  | closeSession req =>
    obtain ⟨room, user⟩ := filled
    obtain ⟨reply, t₂, handled, done⟩ := Prog.runs_bind.mp run
    cases done
    rw [Server.closeSession, if_neg room, if_neg user] at handled
    refine runs_lookup (fun _ => ⟨_, rfl⟩) (fun sess t => ?_) handled
    dsimp only
    split
    · exact notNotFound_error (by simp)
    · refine wp_anyRecording_bind fun _ _ => wp_anyRecording_bind fun closed _ => ?_
      cases closed with
      | error err => exact notNotFound_error (by simp)
      | ok _ => exact wp_anyRecording_bind fun _ _ => notNotFound_ok

/-- Both handlers answer every failed lookup with NotFound, which is right just when the lookup
ended with an answer. -/
theorem notFound_iff_answered (s : Server) (rpc : LookupRpc) :
    InEveryRun s rpc fun code lookup =>
      NotFoundMeansNotFound code lookup ↔ LookupAnswered lookup := by
  intro filled w code t run
  obtain ⟨found, t₁, lookup, ⟨rest, extended⟩, codes⟩ := runs_answer filled run
  have ends : EndsIn t₁.events found := Prog.wp_sound (L := anyRecording)
    wp_getSessionByRoomCode_endsIn lookup
  refine ⟨t₁.events, rest, extended, ⟨found, t₁.world, lookup⟩, ?_⟩
  obtain ⟨answered, notOk⟩ := ends.exact
  rw [NotFoundMeansNotFound, codes, answered]
  constructor
  · intro means
    cases ok : found.isOk with
    | true => exact .inl rfl
    | false => exact .inr (means.mp ok)
  · intro exact
    refine ⟨fun failed => exact.resolve_left ?_, notOk⟩
    rw [failed]
    exact Bool.false_ne_true

/-! ### A cancelled lookup -/

/-- An attempt that must not be repeated ends the loop. -/
theorem runs_retryRedisOp {op : Go (Except Err α)} {err : Err} (final : isRetryable err = false)
    (once : op.Runs RecordingStep t (.error err) t') :
    (r.retryRedisOp op).Runs RecordingStep t (.error err) t' := by
  rw [RedisStore.retryRedisOp]
  cases left : ((if r.maxRetries < 1 then 1 else r.maxRetries) - 1).toNat with
  | zero => exact once
  | succ left =>
    refine Prog.runs_bind.mpr ⟨_, t', once, ?_⟩
    dsimp only
    rw [if_neg (by rw [final]; exact Bool.false_ne_true)]
    exact .done

theorem runs_joinSession_cancelled {req : JoinRequest}
    (filled : (LookupRpc.joinSession req).Filled) :
    ((LookupRpc.joinSession req).answer s).Runs RecordingStep ⟨w, []⟩ (some .notFound)
      ⟨w, [⟨.redis (.get (roomCodeKey req.roomCode)), .error (.sentinel .contextCanceled)⟩]⟩ := by
  obtain ⟨user, role, room⟩ := filled
  refine Prog.runs_bind.mpr ⟨.error ⟨.notFound, "session not found"⟩, _, ?_, .done⟩
  rw [Server.joinSession, if_neg user, if_neg role, if_neg room]
  refine Prog.runs_bind.mpr ⟨.error (.sentinel .contextCanceled), _, ?_, .done⟩
  refine Prog.runs_bind.mpr ⟨_, _, runs_retryRedisOp rfl ?_, .done⟩
  refine Prog.runs_bind.mpr ⟨.error (.sentinel .contextCanceled), _, ?_, .done⟩
  refine Prog.runs_bind.mpr ⟨.error (.sentinel .contextCanceled), _, ?_, .done⟩
  have cancelled : RecordingStep ⟨w, []⟩ (.redis (.get (roomCodeKey req.roomCode)))
      (.error (.sentinel .contextCanceled))
      ⟨w, [⟨.redis (.get (roomCodeKey req.roomCode)), .error (.sentinel .contextCanceled)⟩]⟩ :=
    ⟨.inr ⟨_, trivial, rfl, .inl rfl⟩, rfl⟩
  exact .call cancelled .done

end Lookup

/-- The lookup of a room code is cancelled, and the answer is NotFound. -/
theorem cancelled_notFound : ¬ ∀ s rpc, InEveryRun s rpc NotFoundMeansNotFound := by
  intro means
  have filled : (LookupRpc.joinSession ⟨"ROOM-000001", "u", "camera"⟩).Filled := by
    simp [LookupRpc.Filled]
  obtain ⟨lookup, rest, split, _, exact⟩ := means
    ⟨⟨86400, 3, 100000000, by decide, by decide⟩, "", "", "", fun _ _ => .ok ""⟩ _ filled
    (.empty 0 fun _ => 0) _ _ (runs_joinSession_cancelled filled)
  obtain ⟨last, isLast, established⟩ := exact.mp rfl
  have among : last ∈ lookup ++ rest :=
    List.mem_append_left _ (List.mem_of_getLast? isLast)
  rw [← split, List.mem_singleton] at among
  rw [among] at established
  exact established

end DirectLink
