import DirectLink.Interleaving.Traces
import DirectLink.Session.Sequential
import DirectLink.Runs

/-!
# Room codes

A creation looks its room code up and maps it some commands later.  Where no second creation finds
the code free in between, a room code names one session, for as long as the session can be read.
-/

namespace DirectLink

open RedisStore

namespace Stage

/-- The room code a creation has found free and not mapped yet. -/
def claims? : Stage → Option String
  | free _ code => some code
  | building session | written session | dated session => some session.roomCode
  | _ => none

variable {call : Call} {stage : Stage} {e : Event backend} {code : String}

/-- A creation claims the code it has just found free. -/
theorem claims_of_next (after : (stage.next call e).claims? = some code) :
    stage.claims? = some code ∨
      ∃ id key, stage = .drawn id code ∧ e = ⟨.redis (.get key), .ok none⟩ := by
  unfold next opened created at after
  repeat' split at after
  all_goals simp only [claims?, Option.some.injEq, reduceCtorEq] at after
  all_goals subst after
  all_goals first
    | exact .inl rfl
    | exact .inr ⟨_, _, rfl, rfl⟩

/-- The creation has stored its session and not mapped its room code yet. -/
def Stores (id : String) : Stage → Prop
  | written session | dated session => session.id = id
  | _ => False

theorem Stores.stored {id : String} (stores : stage.Stores id) :
    ∃ session, stage.stored? = some session ∧ session.id = id ∧
      stage.claims? = some session.roomCode := by
  cases stage <;> simp_all [Stores, stored?, claims?]

/-- A creation goes on to map the code of the session it has stored. -/
theorem stores_next {id : String} (call : Call) (e : Event backend) (stores : stage.Stores id) :
    (stage.next call e).Stores id ∨ ∃ session key value ttl r, stage = .dated session ∧
      session.id = id ∧ e = ⟨.redis (.set key value ttl), r⟩ := by
  cases stage
  case written session =>
    dsimp only [next]
    split <;> exact .inl stores
  case dated session =>
    dsimp only [next]
    split
    · exact .inr ⟨session, _, _, _, _, rfl, stores, rfl⟩
    · exact .inl stores
  all_goals exact stores.elim

end Stage

section RoomCodes

variable {b : Backend} {s : Pool (b.system noFaults)} {ttl : Nat}

/-- A creation finds a code free only while no other has found it free and is still to map it. -/
def FreeForOne (s : Pool (b.system noFaults)) : Move (b.system noFaults) → Prop
  | .exec i e => ∀ t id code key, s.threads[i]? = some t → t.stage = .drawn id code →
      e = ⟨.redis (.get key), .ok none⟩ → ∀ t' ∈ s.threads, t'.stage.claims? ≠ some code
  | _ => True

/-- Requests and sweeps, and no two creations that claim one code. -/
def OneClaim (s : Pool (b.system noFaults)) (m : Move (b.system noFaults)) : Prop :=
  RequestsOnly s m ∧ FreeForOne s m

/-- The room code is mapped to the session for at least as long as the session is stored. -/
def Mapped (db : Redis.Db) (code id : String) : Prop :=
  strOf (db (roomCodeKey code)) = some id ∧
    ∃ d d', expiryOf (db (sessionKey id)) = some d ∧ expiryOf (db (roomCodeKey code)) = some d' ∧
      d ≤ d'

/-- A code is claimed by one creation, and not mapped then; the code of a session that can be read
is mapped to it, or about to be. -/
structure Coded (s : Pool (b.system noFaults)) : Prop where
  sole : ∀ (i j : Nat) (t t' : Thread (b.system noFaults)) code, s.threads[i]? = some t →
    s.threads[j]? = some t' → t.stage.claims? = some code → t'.stage.claims? = some code → i = j
  vacant : ∀ t ∈ s.threads, ∀ code, t.stage.claims? = some code →
    strOf (s.world.redis (roomCodeKey code)) = none
  mapped : ∀ id session, isUuid id = true → Live s.world.redis id session →
    Mapped s.world.redis session.roomCode id ∨ ∃ t ∈ s.threads, t.stage.Stores id

variable {t : Thread (b.system noFaults)}

theorem Coded.start {call : Call} (coded : Coded s) :
    Coded (⟨s.world, s.threads ++ [⟨call, [], b.code call⟩]⟩ : Pool (b.system noFaults)) where
  sole i j t t' code at_ at' claims claims' := by
    rcases Pool.getElem?_start at_ with old | rfl
    · rcases Pool.getElem?_start at' with old' | rfl
      · exact coded.sole i j t t' code old old' claims claims'
      · cases claims'
    · cases claims
  vacant t member code claims := by
    rcases mem_start member with old | new
    · exact coded.vacant t old code claims
    · rw [new] at claims
      cases claims
  mapped id session uuid live := by
    rcases coded.mapped id session uuid live with mapped | ⟨t, member, stores⟩
    · exact .inl mapped
    · exact .inr ⟨t, List.mem_append_left _ member, stores⟩

/-- A code stays mapped while the session can be read. -/
theorem Mapped.tick {w : World} {now : Nat} {code id : String} {session : Session}
    (mapped : Mapped w.redis code id) (live : Live (w.at_ now).redis id session) :
    Mapped (w.at_ now).redis code id := by
  obtain ⟨names, d, d', expiry, expiry', le⟩ := mapped
  obtain ⟨same, _⟩ := live.of_tick
  have later : now < d := by
    have found := live.isSome
    rw [World.at_redis] at found
    exact Redis.Db.lt_of_expire found expiry
  have same' : (w.at_ now).redis (roomCodeKey code) = w.redis (roomCodeKey code) :=
    Redis.Db.expire_of_lt expiry' (Nat.lt_of_lt_of_le later le)
  refine ⟨?_, d, d', ?_, ?_, le⟩
  · rw [same', names]
  · rw [same, expiry]
  · rw [same', expiry']

theorem Coded.tick {now : Nat} (coded : Coded s) :
    Coded (⟨s.world.at_ now, s.threads⟩ : Pool (b.system noFaults)) where
  sole := coded.sole
  vacant t member code claims := by
    have vacant := coded.vacant t member code claims
    rcases Redis.Db.expire_cases s.world.redis (roomCodeKey code) now with same | gone
    · rw [World.at_redis, same]
      exact vacant
    · rw [World.at_redis, gone]
      rfl
  mapped id session uuid live := by
    rcases coded.mapped id session uuid live.of_tick.2 with mapped | stores
    · exact .inl (mapped.tick live)
    · exact .inr stores

section Exec

variable {i : Nat} {e : Event backend} {world : World} {prog : Go Result}

theorem Coded.exec_sole (coded : Coded s) (at_ : s.threads[i]? = some t)
    (guard : FreeForOne s (.exec i e)) (j j' : Nat) (t₁ t₂ : Thread (b.system noFaults))
    (code : String) (at₁ : (s.advance i t e world prog).threads[j]? = some t₁)
    (at₂ : (s.advance i t e world prog).threads[j']? = some t₂)
    (claims₁ : t₁.stage.claims? = some code) (claims₂ : t₂.stage.claims? = some code) : j = j' := by
  -- a claim of the moved thread meets no other one
  have clash : ∀ {j t'}, s.threads[j]? = some t' → t'.stage.claims? = some code →
      (t.stage.next t.call e).claims? = some code → i = j := by
    intro j t' at' claims' claims
    rcases Stage.claims_of_next claims with before | ⟨id, key, drawn, event⟩
    · exact coded.sole i j t t' code at_ at' before claims'
    · exact absurd claims' (guard t id code key at_ drawn event t' (List.mem_of_getElem? at'))
  rcases Pool.getElem?_advance at₁ with ⟨rfl, rfl⟩ | ⟨_, old₁⟩ <;>
    rcases Pool.getElem?_advance at₂ with ⟨rfl, rfl⟩ | ⟨_, old₂⟩
  · rfl
  · rw [stage_moved] at claims₁
    exact clash old₂ claims₂ claims₁
  · rw [stage_moved] at claims₂
    exact (clash old₁ claims₁ claims₂).symm
  · exact coded.sole j j' t₁ t₂ code old₁ old₂ claims₁ claims₂

theorem Coded.exec_vacant (coded : Coded s) (at_ : s.threads[i]? = some t)
    (acts : t.stage.Acts ttl s.world e world) (t' : Thread (b.system noFaults))
    (member : t' ∈ (s.advance i t e world prog).threads) (code : String)
    (claims : t'.stage.claims? = some code) :
    strOf ((s.advance i t e world prog).world.redis (roomCodeKey code)) = none := by
  have self := List.mem_of_getElem? at_
  obtain ⟨j, at'⟩ := List.mem_iff_getElem?.mp member
  rw [Pool.advance_world]
  cases acts with
  | other away _ performs =>
    rw [(frame_of_other away performs).1]
    rcases Pool.getElem?_advance at' with ⟨rfl, rfl⟩ | ⟨_, old⟩
    · rw [stage_moved] at claims
      rcases Stage.claims_of_next claims with before | ⟨_, key, _, rfl⟩
      · exact coded.vacant t self code before
      · exact absurd rfl (away _)
    · exact coded.vacant t' (List.mem_of_getElem? old) code claims
  | op op o wf permitted answered after =>
    rw [after, World.after_redis]
    have mapping : ∀ {id ttl'}, op = .setCode code id ttl' → False := by
      intro id ttl' same
      subst same
      obtain ⟨_, session, dated, _, own⟩ := permitted
      rcases Pool.getElem?_advance at' with ⟨rfl, rfl⟩ | ⟨ne, old⟩
      · rw [stage_moved, dated, answered] at claims
        cases claims
      · have claims₀ : t.stage.claims? = some code := by
          rw [dated, ← own]
          rfl
        exact ne (coded.sole i j t t' code at_ old claims₀ claims).symm
    rcases code_apply s.world.now s.world.redis code wf with same | ⟨id, ttl', maps⟩ | rfl
    · rw [same]
      rcases Pool.getElem?_advance at' with ⟨rfl, rfl⟩ | ⟨_, old⟩
      · rw [stage_moved] at claims
        rcases Stage.claims_of_next claims with before | ⟨id, key, drawn, rfl⟩
        · exact coded.vacant t self code before
        · obtain ⟨code', rfl, unmapped⟩ := getCode_of_answered answered
          rcases permitted with started | ⟨id', drawn'⟩
          · rw [started] at drawn
            cases drawn
          · cases drawn.symm.trans drawn'
            exact unmapped.symm
      · exact coded.vacant t' (List.mem_of_getElem? old) code claims
    · exact (mapping maps).elim
    · exact permitted.elim

/-- A mapping is kept by whatever the moved thread does. -/
theorem Mapped.exec {op : Op} {id : String} {session : Session} (coded : Coded s)
    (traced : Traced ttl s) (self : t ∈ s.threads) (wf : op.Wf)
    (permitted : t.stage.Permits ttl op) (uuid : isUuid id = true)
    (live : Live s.world.redis id session) (mapped : Mapped s.world.redis session.roomCode id) :
    Mapped (op.apply s.world.now s.world.redis) session.roomCode id := by
  obtain ⟨names, d, d', expiry, expiry', le⟩ := mapped
  have unclaimed : t.stage.claims? ≠ some session.roomCode := by
    intro claims
    have vacant := coded.vacant t self _ claims
    rw [names] at vacant
    cases vacant
  have code : op.apply s.world.now s.world.redis (roomCodeKey session.roomCode) =
      s.world.redis (roomCodeKey session.roomCode) := by
    rcases code_apply s.world.now s.world.redis session.roomCode wf with
      same | ⟨id', ttl', rfl⟩ | rfl
    · exact same
    · obtain ⟨_, new, dated, _, own⟩ := permitted
      rw [dated, ← own] at unclaimed
      exact absurd rfl unclaimed
    · exact permitted.elim
  have hash : expiryOf (op.apply s.world.now s.world.redis (sessionKey id)) =
      expiryOf (s.world.redis (sessionKey id)) := by
    rcases expiry_session_apply s.world.now s.world.redis wf uuid with
      same | ⟨ttl', rfl, _⟩ | rfl
    · exact same
    · obtain ⟨_, new, written, rfl⟩ := permitted
      have stored : t.stage.stored? = some new := by rw [written]; rfl
      have same := traced.roomCode t self new session stored uuid live
      rw [written, same] at unclaimed
      exact absurd rfl unclaimed
    · exact permitted.elim
  refine ⟨?_, d, d', ?_, ?_, le⟩
  · rw [code, names]
  · rw [hash, expiry]
  · rw [code, expiry']

/-- The creation maps its code. -/
theorem mapped_of_set {new session : Session} {op : Op} {key value : String} {ttl' : Option Nat}
    {o : Redis.Order} {r : Except Err Unit}
    (traced : Traced ttl s) (once : CreatedOnce s) (self : t ∈ s.threads) (wf : op.Wf)
    (permitted : t.stage.Permits ttl op) (dated : t.stage = .dated new)
    (answered : (⟨.redis (.set key value ttl'), r⟩ : Event backend) =
      ⟨.redis op.cmd, .ok (op.reply o (op.entry s.world.redis))⟩)
    (uuid : isUuid new.id = true) (live : Live s.world.redis new.id session) :
    Mapped (op.apply s.world.now s.world.redis) session.roomCode new.id := by
  have set : ∃ code id t', op = .setCode code id t' := by
    cases op
    case setCode code id t' => exact ⟨code, id, t', rfl⟩
    all_goals cases congrArg Event.cmd answered
  obtain ⟨code, id, t', rfl⟩ := set
  obtain ⟨rfl, new', dated', rfl, rfl⟩ := permitted
  cases dated.symm.trans dated'
  have stored : t.stage.stored? = some new := by rw [dated]; rfl
  rw [traced.roomCode t self new session stored uuid live]
  have code : (Op.setCode new.roomCode new.id t').apply s.world.now s.world.redis
      (roomCodeKey new.roomCode) = some ⟨.str new.id, some (s.world.now + t')⟩ :=
    Redis.Db.assign_self
  have hash : expiryOf ((Op.setCode new.roomCode new.id t').apply s.world.now s.world.redis
      (sessionKey new.id)) = expiryOf (s.world.redis (sessionKey new.id)) := by
    rcases expiry_session_apply s.world.now s.world.redis wf uuid with
      same | ⟨_, impossible, _⟩ | impossible
    · exact same
    · cases impossible
    · cases impossible
  cases expiry : expiryOf (s.world.redis (sessionKey new.id)) with
  | none =>
    obtain ⟨t₁, member₁, other, written, own⟩ := traced.undated new.id session uuid live expiry
    have same := once t₁ member₁ t self new.id (by rw [written, ← own]; rfl) (by rw [dated]; rfl)
    rw [same, dated] at written
    cases written
  | some d =>
    refine ⟨?_, d, s.world.now + t', ?_, ?_, traced.deadline new.id d uuid expiry⟩
    · rw [code]
      rfl
    · rw [hash, expiry]
    · rw [code]
      rfl

theorem Coded.exec_mapped (coded : Coded s) (traced : Traced ttl s) (once : CreatedOnce s)
    (typed : Typed s.world.redis) (at_ : s.threads[i]? = some t)
    (acts : t.stage.Acts ttl s.world e world) (id : String) (session : Session)
    (uuid : isUuid id = true) (live : Live (s.advance i t e world prog).world.redis id session) :
    Mapped (s.advance i t e world prog).world.redis session.roomCode id ∨
      ∃ t' ∈ (s.advance i t e world prog).threads, t'.stage.Stores id := by
  have self := List.mem_of_getElem? at_
  rw [Pool.advance_world] at live ⊢
  cases acts with
  | other away _ performs =>
    rw [(frame_of_other away performs).1] at live ⊢
    rcases coded.mapped id session uuid live with mapped | stores
    · exact .inl mapped
    · refine .inr (Pool.exists_advance at_ stores ?_)
      intro stores
      rw [stage_moved]
      rcases Stage.stores_next t.call e stores with still | ⟨_, _, _, _, _, _, _, rfl⟩
      · exact still
      · exact absurd rfl (away _)
  | op op o wf permitted answered after =>
    rw [after, World.after_redis] at live ⊢
    rcases live_apply typed wf uuid live with ⟨old, status, live', rfl, _⟩ | ⟨new, rfl, own, rfl⟩
    · rcases coded.mapped id old uuid live' with mapped | ⟨t', member, stores⟩
      · have kept := mapped.exec coded traced self wf permitted uuid live'
        exact .inl kept
      · rcases Pool.mem_of_mem_advance e world prog at_ member with rfl | stays
        · rcases Stage.stores_next t'.call e stores with
            still | ⟨new, key, value, ttl', r, dated, rfl, rfl⟩
          · refine .inr ⟨_, Pool.moved_mem_advance at_, ?_⟩
            rw [stage_moved]
            exact still
          · have set := mapped_of_set traced once self wf permitted dated answered uuid live'
            exact .inl set
        · rw [after] at stays
          exact .inr ⟨t', stays, stores⟩
    · refine .inr ⟨_, Pool.moved_mem_advance at_, ?_⟩
      have building : t.stage = .building new := permitted
      rw [stage_moved, building, answered]
      exact own

theorem Coded.exec (coded : Coded s) (traced : Traced ttl s) (once : CreatedOnce s)
    (typed : Typed s.world.redis) (at_ : s.threads[i]? = some t)
    (acts : t.stage.Acts ttl s.world e world) (guard : FreeForOne s (.exec i e)) :
    Coded (s.advance i t e world prog) where
  sole := coded.exec_sole at_ guard
  vacant := coded.exec_vacant at_ acts
  mapped := coded.exec_mapped traced once typed at_ acts

end Exec

variable {now : Nat} {rand : Nat → Nat}

theorem reach_coded (reach : Pool.Reach OneClaim (b.idle noFaults now rand) s) : Coded s := by
  have typed : Typed (b.idle noFaults now rand).world.redis := typed_empty
  have requests : ∀ s m, OneClaim (b := b) s m → RequestsOnly s m := fun _ _ guard => guard.1
  refine Pool.Reach.invariant (I := Coded) ?_ ?_ reach
  · refine ⟨fun i j t t' code at_ => ?_, fun t member => ?_, fun id session _ live => ?_⟩
    · cases at_
    · cases member
    · exact absurd live (Live.of_empty rfl)
  · intro s m s' reached coded guard step
    obtain ⟨typed', once, traced⟩ := reach_traced requests reached
    cases step with
    | start call => exact coded.start
    | exec at_ next exec =>
      obtain ⟨_, acts⟩ := reach_acts typed rfl requests reached at_ next exec
      exact coded.exec traced once typed' at_ acts guard.2
    | tick env =>
      obtain ⟨_, rfl⟩ := env
      exact coded.tick

/-- Two sessions with one room code are one session. -/
theorem Coded.unique {id id' : String} {session session' : Session} (coded : Coded s)
    (traced : Traced ttl s) (uuid : isUuid id = true) (uuid' : isUuid id' = true)
    (live : Live s.world.redis id session) (live' : Live s.world.redis id' session')
    (same : session.roomCode = session'.roomCode) : id = id' := by
  -- a creation that stores a session claims the code of the session
  have claims : ∀ {id session t}, isUuid id = true → Live s.world.redis id session →
      t ∈ s.threads → t.stage.Stores id → t.stage.claims? = some session.roomCode := by
    intro id session t uuid live member stores
    obtain ⟨new, stored, rfl, claims⟩ := stores.stored
    rw [traced.roomCode t member new session stored uuid live]
    exact claims
  have apart : ∀ {id id' session t}, isUuid id = true → Live s.world.redis id session →
      t ∈ s.threads → t.stage.Stores id → ¬ Mapped s.world.redis session.roomCode id' := by
    intro id id' session t uuid live member stores mapped
    have vacant := coded.vacant t member _ (claims uuid live member stores)
    rw [mapped.1] at vacant
    cases vacant
  rcases coded.mapped id session uuid live with mapped | ⟨t, member, stores⟩ <;>
    rcases coded.mapped id' session' uuid' live' with mapped' | ⟨t', member', stores'⟩
  · have names := mapped.1
    rw [same, mapped'.1] at names
    exact (Option.some.inj names).symm
  · rw [same] at mapped
    exact absurd mapped (apart uuid' live' member' stores')
  · rw [← same] at mapped'
    exact absurd mapped' (apart uuid live member stores)
  · obtain ⟨i, at_⟩ := List.mem_iff_getElem?.mp member
    obtain ⟨j, at'⟩ := List.mem_iff_getElem?.mp member'
    have claims' := claims uuid' live' member' stores'
    rw [← same] at claims'
    have one := coded.sole i j t t' _ at_ at' (claims uuid live member stores) claims'
    subst one
    cases at_.symm.trans at'
    obtain ⟨new, stored, rfl, _⟩ := stores.stored
    obtain ⟨new', stored', rfl, _⟩ := stores'.stored
    cases stored.symm.trans stored'
    rfl

/-- The lookup of a mapped code returns the session. -/
theorem returns_of_mapped {id code : String} {session : Session} {w : World} {r : RedisStore}
    (typed : Typed w.redis) (uuid : isUuid id = true)
    (names : strOf (w.redis (roomCodeKey code)) = some id) (live : Live w.redis id session) :
    (r.getSessionByRoomCode code).Returns Performs w (.ok session) := by
  refine Prog.returns_of_wp (L := worldLogic Cmd.OfStore) (fun w c ofStore => ofStore.enabled w) ?_
  refine wp_getSessionByRoomCode ?_
  refine answers_read (.getCode code) typed trivial trivial trivial ?_
  intro o
  have reply : (Op.getCode code).reply o ((Op.getCode code).entry w.redis) = some id := names
  rw [reply]
  refine answers_read (.readSession id) typed uuid trivial trivial ?_
  intro o'
  exact live

/-- In every state that moves under `G` reach: sessions that can be read have different room codes,
and the room code that a creation has returned is mapped to its session, and found, for as long as
the session can be read. -/
def CodesNameOne (b : Backend) (G : Pool (b.system noFaults) → Move (b.system noFaults) → Prop)
    (s₀ : Pool (b.system noFaults)) : Prop :=
  ∀ s, Pool.Reach G s₀ s →
    (∀ id id' session session', isUuid id = true → isUuid id' = true →
      Live s.world.redis id session → Live s.world.redis id' session' →
      session.roomCode = session'.roomCode → id = id') ∧
    ∀ t ∈ s.threads, ∀ code id session, t.prog = .done (.create (.ok ⟨code⟩)) →
      Saw t.past .newUuid id → isUuid id = true → Live s.world.redis id session →
      strOf (s.world.redis (roomCodeKey code)) = some id ∧
        (b.server.store.getSessionByRoomCode code).Returns Performs s.world (.ok session)

/-- **A room code names one session**, as long as no two creations find one code free at the same
time. -/
theorem room_codes_name_one (b : Backend) (now : Nat) (rand : Nat → Nat) :
    CodesNameOne b OneClaim (b.idle noFaults now rand) := by
  intro s reach
  have coded := reach_coded reach
  obtain ⟨typed, once, traced⟩ := reach_traced (fun _ _ guard => guard.1) reach
  constructor
  · intro id id' session session' uuid uuid' live live' same
    exact coded.unique traced uuid uuid' live live' same
  · intro t member code id session returned saw uuid live
    obtain ⟨follows, kept⟩ := reach_stages typed_empty rfl (fun _ _ guard => guard.1) reach t member
    obtain ⟨_, created⟩ := follows.post returned
    obtain ⟨new, finished, rfl⟩ := created code rfl
    have has : t.stage.uuid? = some id :=
      uuid_of_saw (fun pre e post split => (kept pre e post split).1) saw
    have stage : t.stage = .finished new := finished
    rw [stage] at has
    cases has
    have stored : t.stage.stored? = some new := by rw [stage]; rfl
    have own := traced.roomCode t member new session stored uuid live
    rcases coded.mapped new.id session uuid live with mapped | ⟨t', member', stores⟩
    · obtain ⟨names, _⟩ := mapped
      rw [own] at names
      exact ⟨names, returns_of_mapped typed uuid names live⟩
    · obtain ⟨other, stored', same, _⟩ := stores.stored
      have one := once t' member' t member new.id (by rw [uuid_of_stored stored', same])
        (uuid_of_stored stored)
      rw [one, stage] at stores
      exact stores.elim

end RoomCodes

namespace Sample

/-- Two creations draw one code and look it up before either maps it. -/
noncomputable def twins : Option (Pool (system .never)) :=
  replay isRequest
    (.start (.createSession ⟨"alice", 2⟩) :: go 0 [.uuid id₁, .plain, .plain] ++
      .start (.createSession ⟨"bob", 2⟩) :: go 1 [.uuid id₂, .plain, .plain] ++
      go 0 (.utc createdAt :: List.replicate 12 .plain) ++
      go 1 (.utc createdAt :: List.replicate 12 .plain))
    (start .never 7)

/-- The session a creation that draws `7` stores. -/
def drawnSeven (id userID : String) : Session :=
  ⟨id, "ROOM-000007", userID, createdAt, 2, "active"⟩

end Sample

/-- Two creations that draw one code at the same time both store a session under it. -/
theorem room_codes_name_two :
    ¬ CodesNameOne Sample.backend RequestsOnly (Sample.start .never 7) := by
  intro one
  have observed : (Sample.twins.any fun s =>
      decide (hashOf (s.world.redis (sessionKey Sample.id₁)) =
        encode (Sample.drawnSeven Sample.id₁ "alice")) &&
      decide (hashOf (s.world.redis (sessionKey Sample.id₂)) =
        encode (Sample.drawnSeven Sample.id₂ "bob"))) = true := by
    decide +kernel
  obtain ⟨s, computed, observed⟩ := (Option.any_eq_true _ _).mp observed
  obtain ⟨first, second⟩ := Bool.and_eq_true_iff.mp observed
  have reach := (Sample.reach_of_replay computed).mono fun _ _ => Sample.requestsOnly_of_isRequest
  have live := Live.of_hash (of_decide_eq_true first)
  have live' := Live.of_hash (of_decide_eq_true second)
  have same := (one s reach).1 Sample.id₁ Sample.id₂ _ _ (by decide) (by decide) live live' rfl
  exact absurd same (by decide)

end DirectLink
