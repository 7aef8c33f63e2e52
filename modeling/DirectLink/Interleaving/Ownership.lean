import DirectLink.Interleaving.Duties
import DirectLink.Runs

/-!
# Who ends a session

However requests and sweeps interleave and whatever fails, a session is ended only by a
`CloseSession` of its creator or by a sweep that found it expired; a single ingress is also deleted
by the `JoinSession` that created it.  The ownership check and the destructive commands go to
different keys, so the proof carries through every interleaving who created what: the creator that
is stored with a session or was read from it, and the room of every recorded ingress.
-/

namespace DirectLink

open RedisStore

section Ownership

variable {b : Backend} {faults : Cmd → Err → Prop}

/-- The session was created for the user. -/
def CreatedBy (s : Pool (b.system faults)) (id userID : String) : Prop :=
  ∃ t ∈ s.threads, ∃ req, t.call = .createSession req ∧ req.userId = userID ∧
    Saw t.past .newUuid id

variable {s : Pool (b.system faults)} {id userID : String}

theorem CreatedBy.start {call : Call} (created : CreatedBy s id userID) :
    CreatedBy ⟨s.world, s.threads ++ [⟨call, [], b.code call⟩]⟩ id userID := by
  obtain ⟨t, member, rest⟩ := created
  exact ⟨t, List.mem_append_left _ member, rest⟩

theorem CreatedBy.advance {i : Nat} {t : Thread (b.system faults)} {e : Event backend}
    {world : World} {prog : Go Result} (at_ : s.threads[i]? = some t)
    (created : CreatedBy s id userID) : CreatedBy (s.advance i t e world prog) id userID := by
  refine Pool.exists_advance at_ created ?_
  intro holds
  rcases holds with ⟨req, eq, same, fresh⟩
  exact ⟨req, eq, same, List.mem_append_left _ fresh⟩

/-- What is stored and what was read tell the creator of a session and the room of an ingress. -/
structure Records (s : Pool (b.system faults)) : Prop where
  stored : ∀ id sess, isUuid id = true →
    parseSession (hashOf (s.world.redis (sessionKey id))) = .ok sess → CreatedBy s id sess.createdBy
  read : ∀ id h sess, isUuid id = true → s.Got (.readSession id) h → parseSession h = .ok sess →
    CreatedBy s id sess.createdBy
  created : ∀ req info, s.Saw (.createIngress req) (.ok info) →
    s.world.livekit.rooms info.ingressId = some req.roomName
  recorded : ∀ id, isUuid id = true → ∀ ingressID ∈ setOf (s.world.redis (ingressKey id)),
    s.world.livekit.rooms ingressID = some id
  listed : ∀ id ids, isUuid id = true → s.Got (.readIngress id) ids →
    ∀ ingressID ∈ ids, s.world.livekit.rooms ingressID = some id

variable {G : Pool (b.system faults) → Move (b.system faults) → Prop}
variable {s₀ : Pool (b.system faults)}

theorem records_start (empty : s₀.world.redis = .empty) (none_ : s₀.threads = []) : Records s₀ := by
  have unseen : ∀ {e : Event backend}, ¬ s₀.Seen e := by
    intro e holds
    rcases holds with ⟨t, member, _⟩
    rw [none_] at member
    cases member
  constructor
  · intro id sess _ parsed
    rw [empty, Redis.Db.empty_apply, hashOf_none, parseSession_empty] at parsed
    cases parsed
  · exact fun id h sess _ seen => absurd seen unseen
  · exact fun req info seen => absurd seen unseen
  · intro id _ ingressID member
    rw [empty, Redis.Db.empty_apply, setOf_none] at member
    exact absurd member (Finset.notMem_empty _)
  · exact fun id ids _ seen => absurd seen unseen

theorem Records.start {call : Call} (records : Records s) :
    Records ⟨s.world, s.threads ++ [⟨call, [], b.code call⟩]⟩ where
  stored id sess uuid parsed := (records.stored id sess uuid parsed).start
  read id h sess uuid seen parsed :=
    (records.read id h sess uuid (Pool.seen_start.mp seen) parsed).start
  created req info seen := records.created req info (Pool.seen_start.mp seen)
  recorded := records.recorded
  listed id ids uuid seen := records.listed id ids uuid (Pool.seen_start.mp seen)

theorem Records.tick {t : Nat} (records : Records s) : Records ⟨s.world.at_ t, s.threads⟩ where
  stored id sess uuid parsed := by
    rcases Redis.Db.expire_cases s.world.redis (sessionKey id) t with same | gone
    · simp only [World.at_redis, same] at parsed
      exact records.stored id sess uuid parsed
    · simp only [World.at_redis, gone, hashOf_none, parseSession_empty] at parsed
      cases parsed
  read := records.read
  created := records.created
  recorded id uuid ingressID member := by
    rcases Redis.Db.expire_cases s.world.redis (ingressKey id) t with same | gone
    · simp only [World.at_redis, same] at member
      exact records.recorded id uuid ingressID member
    · simp only [World.at_redis, gone, setOf_none] at member
      exact absurd member (Finset.notMem_empty _)
  listed := records.listed

/-- One command of a request keeps the records. -/
theorem Records.exec {i : Nat} {t : Thread (b.system faults)} {c : Cmd} {r : c.Reply}
    {world : World} {prog : Go Result} (records : Records s) (typed : Typed s.world.redis)
    (at_ : s.threads[i]? = some t) (request : t.call.isStore = false)
    (issued : Issued t.call t.past c) (exec : Exec faults s.world c r world) :
    Records (s.advance i t ⟨c, r⟩ world prog) := by
  have self := List.mem_of_getElem? at_
  have cases_ := exec_redis_cases typed issued exec
  constructor
  · intro id sess uuid parsed
    rcases cases_ with same | ⟨op, wf, _, does, changed⟩
    · rw [Pool.advance_world, same] at parsed
      exact (records.stored id sess uuid parsed).advance at_
    · rw [Pool.advance_world, changed] at parsed
      rcases live_apply typed wf uuid parsed with
        ⟨old, status, live, rfl, _⟩ | ⟨new, rfl, rfl, rfl⟩
      · exact (records.stored id old uuid live).advance at_
      · obtain ⟨req, call, fresh, owner, _⟩ := does request
        change CreatedBy _ new.id new.createdBy
        rw [owner]
        exact CreatedBy.advance at_ ⟨t, self, req, call, rfl, fresh⟩
  · intro id h sess uuid seen parsed
    rcases (Pool.seen_advance at_).mp seen with old | new
    · exact (records.read id h sess uuid old parsed).advance at_
    · cases new
      obtain ⟨o, rfl⟩ := reply_of_exec (.readSession id) typed uuid exec
      exact (records.stored id sess uuid parsed).advance at_
  · intro req info seen
    rcases (Pool.seen_advance at_).mp seen with old | new
    · exact exec.rooms (records.created req info old)
    · cases new
      exact exec.createIngress
  · intro id uuid ingressID member
    rcases cases_ with same | ⟨op, wf, _, does, changed⟩
    · rw [Pool.advance_world, same] at member
      exact exec.rooms (records.recorded id uuid ingressID member)
    · rw [Pool.advance_world, changed] at member
      rcases mem_ingress_apply wf uuid member with old | rfl
      · exact exec.rooms (records.recorded id uuid ingressID old)
      · obtain ⟨req, info, created, rfl, rfl⟩ := does request
        exact exec.rooms (records.created req info ⟨t, self, created⟩)
  · intro id ids uuid seen ingressID member
    rcases (Pool.seen_advance at_).mp seen with old | new
    · exact exec.rooms (records.listed id ids uuid old ingressID member)
    · cases new
      obtain ⟨o, rfl⟩ := reply_of_exec (.readIngress id) typed uuid exec
      exact exec.rooms (records.recorded id uuid ingressID (Redis.Order.mem_list.mp member))

/-- The records are right in every reachable state. -/
theorem reach_records (empty : s₀.world.redis = .empty) (none_ : s₀.threads = [])
    (requests : ∀ s call, G s (.start call) → call.isStore = false)
    (reach : Pool.Reach G s₀ s) : Records s := by
  have typed : Typed s₀.world.redis := by
    rw [empty]
    exact typed_empty
  refine Pool.Reach.invariant (I := Records) (records_start empty none_) ?_ reach
  intro s m s' reached records guard step
  cases step with
  | start call => exact records.start
  | @exec i t c k r world at_ next exec =>
    obtain ⟨typed', issued⟩ := reach_issued typed none_ reached at_ next
    have request := reached.calls none_ requests t (List.mem_of_getElem? at_)
    exact records.exec typed' at_ request issued exec
  | tick env =>
    obtain ⟨_, rfl⟩ := env
    exact records.tick

/-! ## Who ended it -/

/-- A session has one creator. -/
theorem CreatedBy.unique {u u' : String} (sole : s.Sole (· = ⟨Cmd.newUuid, id⟩))
    (created : CreatedBy s id u) (created' : CreatedBy s id u') : u = u' := by
  obtain ⟨t, member, req, call, rfl, fresh⟩ := created
  obtain ⟨t', member', req', call', rfl, fresh'⟩ := created'
  obtain ⟨i, at_⟩ := List.mem_iff_getElem?.mp member
  obtain ⟨j, at'⟩ := List.mem_iff_getElem?.mp member'
  have same := sole i j t t' _ _ at_ at' fresh fresh' rfl rfl
  subst same
  cases Option.some.inj (at_.symm.trans at')
  rw [call] at call'
  cases call'
  rfl

/-- The commands that end a session or a part of it: a write of its status, the deletion of its
room or of an ingress of its room. -/
inductive EndStep (lk : LiveKit) (id : String) : Cmd → Prop
  | status (fields : List (String × String)) (closed : ("status", statusClosed) ∈ fields) :
    EndStep lk id (.redis (.hset (sessionKey id) fields))
  | room : EndStep lk id (.deleteRoom id)
  | ingress (ingressID : String) (own : lk.rooms ingressID = some id) :
    EndStep lk id (.deleteIngress ingressID)

/-- An entitled call is one of the creator or a sweep that listed the session. -/
theorem Ends.by_owner {call : Call} {pre : List (Event backend)} (records : Records s)
    (sole : s.Sole (· = ⟨Cmd.newUuid, id⟩)) (created : CreatedBy s id userID)
    (seen : ∀ e ∈ pre, s.Seen e) (ends : Ends call pre id) :
    (∃ req, call = .closeSession req ∧ req.userId = userID) ∨
      ∃ instanceID now ids, call = .sweepAt instanceID now ∧
        Got pre (.readActive (unix now)) ids ∧ id ∈ ids := by
  rcases ends.2 with ⟨req, h, sess, eq, read, parsed, owner⟩ | sweep
  · have owned := records.read id h sess ends.1 (seen _ read) parsed
    exact .inl ⟨req, eq, owner ▸ CreatedBy.unique sole owned created⟩
  · exact .inr sweep

/-- The status of a session is closed by status writes only. -/
theorem status_write {call : Call} {pre : List (Event backend)} {fields : List (String × String)}
    (uuid : isUuid id = true) (request : call.isStore = false)
    (issued : Issued call pre (.redis (.hset (sessionKey id) fields)))
    (closed : ("status", statusClosed) ∈ fields) : Ends call pre id := by
  obtain ⟨op, wf, eq, does⟩ := issued
  have key : ∀ k : Key, k.Wf → k.text = (Key.session id).text → k = .session id :=
    fun k wf' same => Key.text_injective wf' uuid same
  cases op <;> simp only [Op.cmd, Redis.Cmd.hset.injEq, reduceCtorEq] at eq <;>
    obtain ⟨at_, rfl⟩ := eq
  case writeSession new =>
    obtain ⟨req, _, _, _, active⟩ := does request
    simp [sessionData, active, statusClosed] at closed
  case writeStatus other status =>
    cases key (.session other) wf at_
    exact (does request).2
  case writeRole other _ _ => cases key (.access other) wf at_

/-- **Only the owner or an expiry ends a session.**  In every state that requests and sweeps can
reach, whatever fails: where a call wrote the status closed to a session created by `userID`,
deleted its room or an ingress of it, the call is a `CloseSession` by `userID`, or a sweep that had
listed the session with a score of at most its own time, or the `JoinSession` that had created the
one ingress it deletes. -/
theorem ended_by_owner_or_expiry {t : Thread (b.system faults)} {pre post : List (Event backend)}
    {e : Event backend} (empty : s₀.world.redis = .empty) (none_ : s₀.threads = [])
    (reach : Pool.Reach RequestsOnly s₀ s) (created : CreatedBy s id userID)
    (member : t ∈ s.threads) (split : t.past = pre ++ e :: post)
    (ends : EndStep s.world.livekit id e.cmd) :
    (∃ req, t.call = .closeSession req ∧ req.userId = userID) ∨
    (∃ instanceID now ids, t.call = .sweepAt instanceID now ∧
      Got pre (.readActive (unix now)) ids ∧ id ∈ ids) ∨
    ∃ req made info, t.call = .joinSession req ∧ Saw pre (.createIngress made) (.ok info) ∧
      e.cmd = .deleteIngress info.ingressId := by
  have typed : Typed s₀.world.redis := by
    rw [empty]
    exact typed_empty
  have requests : ∀ (s : Pool (b.system faults)) call, RequestsOnly s (.start call) →
      call.isStore = false := fun _ _ guard => guard
  have records := reach_records empty none_ requests reach
  have sole := reach_sole_uuid id none_ reach
  have request := reach.calls none_ requests t member
  have kept := ((reach_duties typed none_ reach).2 t member).2
  have issued : Issued t.call pre e.cmd := (kept pre e post split).1
  have seen : ∀ e' ∈ pre, s.Seen e' := fun e' before =>
    ⟨t, member, by rw [split]; exact List.mem_append_left _ before⟩
  have uuid : isUuid id = true := by
    obtain ⟨t', member', _, _, _, fresh⟩ := created
    exact ((reach_duties typed none_ reach).2 t' member').2.expects fresh
  have by_owner : Ends t.call pre id → _ := fun ends => ends.by_owner records sole created seen
  obtain ⟨c, r⟩ := e
  cases ends with
  | status fields closed =>
    rcases by_owner (status_write uuid request issued closed) with owner | sweep
    · exact .inl owner
    · exact .inr (.inl sweep)
  | room =>
    rcases by_owner issued with owner | sweep
    · exact .inl owner
    · exact .inr (.inl sweep)
  | ingress ingressID own =>
    rcases issued with ⟨id', ids, ends, read, listed⟩ | ⟨req, made, info, call, saw, rfl⟩
    · have inRoom := records.listed id' ids ends.1 (seen _ read) ingressID listed
      have same : id' = id := Option.some.inj (inRoom.symm.trans own)
      subst same
      rcases by_owner ends with owner | sweep
      · exact .inl owner
      · exact .inr (.inl sweep)
    · exact .inr (.inr ⟨req, made, info, call, saw, rfl⟩)

end Ownership

namespace Sample

/-- The creator closes her session, up to the deletion of the room. -/
noncomputable def closing : Option (Pool (system .never)) :=
  replay isRequest
    (.start (.createSession ⟨"alice", 2⟩) :: go 0 (create id₁) ++
      .start (.closeSession ⟨"ROOM-000007", "alice"⟩) :: go 1 (List.replicate 4 .plain))
    (start .never 7)

/-- The first call created the session and the second has just deleted its room. -/
def deletesRoom (s : Pool (system .never)) : Bool :=
  match s.threads with
  | [t₀, t₁] => decide (t₀.call = .createSession ⟨"alice", 2⟩ ∧ id₁ ∈ uuidsOf t₀.past ∧
      t₁.past.getLast?.map Event.cmd = some (.deleteRoom id₁))
  | _ => false

end Sample

theorem ended_by_owner_or_expiry_run : ∃ (s : Pool (Sample.system .never))
    (t : Thread (Sample.system .never)) (pre post : List (Event backend)) (e : Event backend),
    Pool.Reach RequestsOnly (Sample.start .never 7) s ∧ t ∈ s.threads ∧ t.past = pre ++ e :: post ∧
      e.cmd = .deleteRoom Sample.id₁ ∧
      ((∃ req, t.call = .closeSession req ∧ req.userId = "alice") ∨
        (∃ instanceID now ids, t.call = .sweepAt instanceID now ∧
          Got pre (.readActive (unix now)) ids ∧ Sample.id₁ ∈ ids) ∨
        ∃ req made info, t.call = .joinSession req ∧ Saw pre (.createIngress made) (.ok info) ∧
          e.cmd = .deleteIngress info.ingressId) := by
  have observed : Sample.closing.any Sample.deletesRoom = true := by decide +kernel
  obtain ⟨s, computed, observed⟩ := (Option.any_eq_true _ _).mp observed
  have reach := (Sample.reach_of_replay computed).mono fun _ _ => Sample.requestsOnly_of_isRequest
  rw [Sample.deletesRoom] at observed
  split at observed
  · next t₀ t₁ threads =>
    obtain ⟨call, fresh, last⟩ := of_decide_eq_true observed
    obtain ⟨e, final, room⟩ := Option.map_eq_some_iff.mp last
    obtain ⟨pre, split⟩ := List.getLast?_eq_some_iff.mp final
    have member : t₁ ∈ s.threads := by simp [threads]
    have created : CreatedBy s Sample.id₁ "alice" :=
      ⟨t₀, by simp [threads], ⟨"alice", 2⟩, call, rfl, mem_of_mem_uuidsOf fresh⟩
    have ends : EndStep s.world.livekit Sample.id₁ e.cmd := room ▸ .room
    exact ⟨s, t₁, pre, [], e, reach, member, split, room,
      ended_by_owner_or_expiry rfl rfl reach created member split ends⟩
  · cases observed

end DirectLink
