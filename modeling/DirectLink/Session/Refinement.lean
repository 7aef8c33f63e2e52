import DirectLink.Session.Apart
import DirectLink.Session.Tables

/-!
# The Redis store refines the session table

`Tables.Shows` says what each kind of key holds of the tables; `Represents` that every key holds it.
Each method of the store, run alone, returns what the tables answer and keeps the relation.
-/

namespace DirectLink

/-- The sessions are entered under their own ids, to the second, and the room codes are those of the
sessions. -/
structure Tables.Coherent (t : Tables) : Prop where
  entered : ∀ {id s}, t.sessions id = some s → isUuid id = true ∧ s.id = id ∧ s.truncate = s
  coded : ∀ {code id}, t.codes code = some id ↔
    code ≠ "" ∧ ∃ s, t.sessions id = some s ∧ s.roomCode = code

/-- What a key holds of the tables: the set of a user lists the sessions that the user created. -/
def Tables.Shows (t : Tables) : Key → Option Redis.Entry → Prop
  | .session id, e => valueOf e = (t.sessions id).map fun s => .hash (encode s)
  | .access id, e => ∀ u, (hashOf e).lookup u = t.roles id u
  | .ingress id, e => setOf e = t.ingresses id
  | .roomCode code, e => strOf e = t.codes code
  | .userSessions u, e => ∀ id, id ∈ setOf e ↔ ∃ s, t.sessions id = some s ∧ s.createdBy = u
  | .active, e => ∀ id, (zsetOf e).lookup id = t.active id
  | .lock, _ => True

/-- Redis holds what the tables say. -/
structure Represents (t : Tables) (w : World) : Prop where
  typed : Typed w.redis
  clock : w.now = t.clock
  shows : ∀ k : Key, k.Wf → t.Shows k (w.redis k.text)

section Reading

variable {t : Tables} {w : World} {id code u : String}

theorem encode_truncate (s : Session) : encode s.truncate = encode s := rfl

theorem Represents.session (rep : Represents t w) (uuid : isUuid id = true) :
    valueOf (w.redis (sessionKey id)) = (t.sessions id).map fun s => .hash (encode s) :=
  rep.shows (.session id) uuid

theorem Represents.isSome (rep : Represents t w) (uuid : isUuid id = true) :
    (w.redis (sessionKey id)).isSome = (t.sessions id).isSome := by
  have same := congrArg Option.isSome (rep.session uuid)
  rwa [valueOf, Option.isSome_map, Option.isSome_map] at same

/-- What is read back of a session key. -/
theorem Represents.find (rep : Represents t w) (coherent : t.Coherent) (uuid : isUuid id = true) :
    RedisStore.parseSession (hashOf (w.redis (sessionKey id))) = t.find id := by
  have stored := rep.session uuid
  rw [Tables.find]
  cases entered : t.sessions id with
  | none =>
    rw [entered] at stored
    have absent : hashOf (w.redis (sessionKey id)) = hashOf none := hashOf_congr stored
    rw [absent]
    exact parseSession_empty
  | some s =>
    rw [entered] at stored
    have hash : hashOf (w.redis (sessionKey id)) = hashOf (some ⟨.hash (encode s), none⟩) :=
      hashOf_congr stored
    rw [hash]
    refine (parseSession_encode s).trans ?_
    rw [(coherent.entered entered).2.2]

theorem Represents.findByCode (rep : Represents t w) (coherent : t.Coherent) :
    RedisStore.byRoomCode w.redis code = t.findByCode code := by
  have mapped : strOf (w.redis (roomCodeKey code)) = t.codes code :=
    rep.shows (.roomCode code) trivial
  rw [RedisStore.byRoomCode, Tables.findByCode, mapped]
  cases named : t.codes code with
  | none => rfl
  | some id =>
    obtain ⟨_, s, entered, _⟩ := coherent.coded.mp named
    exact rep.find coherent (coherent.entered entered).1

theorem Represents.role (rep : Represents t w) (uuid : isUuid id = true) :
    (hashOf (w.redis (accessKey id))).lookup u = t.roles id u :=
  rep.shows (.access id) uuid u

/-- The hash of an entered session. -/
theorem Represents.hash {s : Session} (rep : Represents t w) (uuid : isUuid id = true)
    (entered : t.sessions id = some s) : hashOf (w.redis (sessionKey id)) = encode s := by
  have stored := rep.session uuid
  rw [entered] at stored
  have same : valueOf (w.redis (sessionKey id)) = valueOf (some ⟨.hash (encode s), none⟩) := stored
  exact hashOf_congr same

end Reading

/-! ## What the operations of a call do to the tables -/

section Writing

variable {r : RedisStore} {t t' : Tables} {w : World} {s : Session} {ops : List Op} {k : Key}
variable {id u role status ingressID : String}

/-- Operations at one instant, key by key. -/
theorem Represents.afterAll (rep : Represents t w) (wf : ∀ op ∈ ops, op.Wf)
    (clock : t'.clock = t.clock)
    (shows : ∀ k : Key, k.Wf → t.Shows k (w.redis k.text) →
      t'.Shows k (k.entryAfter w.now ops (w.redis k.text))) :
    Represents t' (w.afterAll ops) where
  typed := World.typed_afterAll rep.typed wf
  clock := by
    rw [World.afterAll_frame, clock]
    exact rep.clock
  shows := by
    intro k wfKey
    rw [World.afterAll_at wf wfKey]
    exact shows k wfKey (rep.shows k wfKey)

/-- Operations on other keys. -/
theorem Tables.Shows.kept {now : Nat} {e : Option Redis.Entry}
    (others : ∀ op ∈ ops, op.key ≠ some k) (shows : t.Shows k e) :
    t.Shows k (k.entryAfter now ops e) := by
  rwa [Key.entryAfter_of_ne others]

theorem Represents.create (rep : Represents t w) (uuid : isUuid s.id = true)
    (fresh : t.sessions s.id = none) :
    Represents (t.create r.ttl s) (w.afterAll (r.createOps s w.now)) := by
  refine rep.afterAll (fun _ mem => RedisStore.wf_of_mem_createOps uuid mem) rfl ?_
  intro k wfKey shows
  cases k with
  | session id =>
    dsimp only [Tables.Shows, Tables.create] at shows ⊢
    by_cases same : id = s.id
    · unfold RedisStore.createOps RedisStore.indexOps
      split <;> simp [Op.key, Op.effect, same, encode_truncate]
    · rw [Function.update_of_ne same]
      unfold RedisStore.createOps RedisStore.indexOps
      split <;> simpa [Op.key, Ne.symm same] using shows
  | roomCode code =>
    dsimp only [Tables.Shows, Tables.create] at shows ⊢
    unfold RedisStore.createOps RedisStore.indexOps
    by_cases coded : s.roomCode = ""
    · rw [if_pos coded]
      simpa [Op.key, coded] using shows
    · rw [if_neg coded, Function.update_apply]
      by_cases same : code = s.roomCode
      · simp [Op.key, Op.effect, coded, same, strOf]
      · simpa [Op.key, coded, same, Ne.symm same] using shows
  | userSessions u =>
    dsimp only [Tables.Shows, Tables.create] at shows ⊢
    intro id
    have listed := shows id
    rw [Function.update_apply]
    unfold RedisStore.createOps RedisStore.indexOps
    by_cases own : s.createdBy = u <;> by_cases same : id = s.id
    · split <;> simp [Op.key, Op.effect, own, same, Session.truncate]
    · split <;> simpa [Op.key, Op.effect, own, same] using listed
    · rw [same, fresh] at listed
      split <;> simpa [Op.key, own, same, Session.truncate] using listed
    · split <;> simpa [Op.key, own, same] using listed
  | active =>
    dsimp only [Tables.Shows, Tables.create] at shows ⊢
    intro id
    rw [Function.update_apply, ← shows, ← rep.clock]
    unfold RedisStore.createOps RedisStore.indexOps
    split <;> simp [Op.key, Op.effect, Redis.lookup_insert]
  | access | ingress | lock =>
    refine .kept ?_ shows
    intro op mem
    obtain rfl | rfl | ⟨rfl, _⟩ | rfl | rfl | rfl := RedisStore.mem_createOps mem <;> simp [Op.key]

theorem RedisStore.wf_of_mem_statusOps {op : Op} (uuid : isUuid id = true)
    (mem : op ∈ RedisStore.statusOps id status) : op.Wf := by
  rw [RedisStore.statusOps] at mem
  split at mem <;> simp only [List.mem_cons, List.not_mem_nil, or_false] at mem
  · obtain rfl | rfl := mem <;> exact uuid
  · subst mem
    exact uuid

theorem Represents.setStatus (rep : Represents t w) (uuid : isUuid s.id = true)
    (entered : t.sessions s.id = some s) :
    Represents (t.setStatus s status) (w.afterAll (RedisStore.statusOps s.id status)) := by
  refine rep.afterAll (fun _ mem => RedisStore.wf_of_mem_statusOps uuid mem) rfl ?_
  intro k wfKey shows
  unfold RedisStore.statusOps
  cases k with
  | session id =>
    dsimp only [Tables.Shows, Tables.setStatus] at shows ⊢
    rw [Function.update_apply]
    by_cases same : id = s.id
    · subst same
      have written := insert_status_encode s status
      rw [← rep.hash uuid entered] at written
      split <;> simp [Op.key, Op.effect, Key.text, written]
    · split <;> simpa [Op.key, same, Ne.symm same] using shows
  | userSessions u =>
    dsimp only [Tables.Shows, Tables.setStatus] at shows ⊢
    intro id
    have listed := shows id
    rw [Function.update_apply]
    by_cases same : id = s.id
    · rw [same, entered] at listed
      split <;> simpa [Op.key, same] using listed
    · split <;> simpa [Op.key, same] using listed
  | active =>
    dsimp only [Tables.Shows, Tables.setStatus] at shows ⊢
    intro id
    have stored := shows id
    split
    · rw [Function.update_apply, ← stored]
      simp [Op.key, zset_dropActive, Redis.lookup_erase]
    · simpa [Op.key] using stored
  | access | ingress | roomCode | lock =>
    refine .kept ?_ shows
    split <;> simp [Op.key]

theorem Represents.delete (rep : Represents t w) (uuid : isUuid s.id = true)
    (entered : t.sessions s.id = some s) :
    Represents (t.delete s) (w.afterAll (RedisStore.deleteOps s.id s)) := by
  refine rep.afterAll (fun _ mem => RedisStore.wf_of_mem_deleteOps uuid mem) rfl ?_
  intro k wfKey shows
  unfold RedisStore.deleteOps
  cases k with
  | session id | access id =>
    dsimp only [Tables.Shows, Tables.delete] at shows ⊢
    rw [Function.update_apply]
    by_cases same : id = s.id
    · split <;> simp [Op.key, Op.effect, same]
    · split <;> simpa [Op.key, same, Ne.symm same] using shows
  | roomCode code =>
    dsimp only [Tables.Shows, Tables.delete] at shows ⊢
    by_cases coded : s.roomCode = ""
    · rw [if_pos coded]
      simpa [Op.key, coded] using shows
    · rw [if_neg coded, Function.update_apply]
      by_cases same : code = s.roomCode
      · simp [Op.key, Op.effect, coded, same]
      · simpa [Op.key, coded, same, Ne.symm same] using shows
  | userSessions u =>
    dsimp only [Tables.Shows, Tables.delete] at shows ⊢
    intro id
    have listed := shows id
    rw [Function.update_apply]
    by_cases own : s.createdBy = u <;> by_cases same : id = s.id
    · split <;> simp [Op.key, set_dropUserSession, own, same]
    · split <;> simpa [Op.key, set_dropUserSession, own, same] using listed
    · rw [same, entered] at listed
      split <;> simpa [Op.key, own, same] using listed
    · split <;> simpa [Op.key, own, same] using listed
  | active =>
    dsimp only [Tables.Shows, Tables.delete] at shows ⊢
    intro id
    rw [Function.update_apply, ← shows]
    split <;> simp [Op.key, zset_dropActive, Redis.lookup_erase]
  | ingress | lock =>
    refine .kept ?_ shows
    split <;> simp [Op.key]

theorem Represents.grant (rep : Represents t w) (uuid : isUuid id = true) :
    Represents (t.setRole id u (some role)) (w.afterAll (r.grantOps id u role)) := by
  refine rep.afterAll (fun _ mem => RedisStore.wf_of_mem_grantOps uuid mem) rfl ?_
  intro k wfKey shows
  cases k with
  | access id' =>
    dsimp only [Tables.Shows, Tables.setRole] at shows ⊢
    intro u'
    rw [Function.update_apply]
    by_cases same : id' = id
    · subst same
      rw [if_pos rfl, Function.update_apply, ← shows]
      simp [RedisStore.grantOps, Op.key, Op.effect, Redis.lookup_insert]
    · simpa [RedisStore.grantOps, Op.key, same, Ne.symm same] using shows u'
  | session | ingress | roomCode | userSessions | active | lock =>
    refine .kept ?_ shows
    simp [RedisStore.grantOps, Op.key]

/-- A single operation, key by key. -/
theorem Represents.after (op : Op) (rep : Represents t w) (wf : op.Wf) (clock : t'.clock = t.clock)
    (shows : ∀ k : Key, k.Wf → t.Shows k (w.redis k.text) →
      t'.Shows k (k.entryAfter w.now [op] (w.redis k.text))) :
    Represents t' (w.after op) := by
  have only : ∀ op' ∈ [op], op'.Wf := by
    intro op' mem
    rw [List.mem_singleton.mp mem]
    exact wf
  exact rep.afterAll only clock shows

theorem Represents.revoke (rep : Represents t w) (uuid : isUuid id = true) :
    Represents (t.setRole id u none) (w.after (.dropRole id u)) := by
  refine rep.after (.dropRole id u) uuid rfl ?_
  intro k wfKey shows
  cases k with
  | access id' =>
    dsimp only [Tables.Shows, Tables.setRole] at shows ⊢
    intro u'
    have hash (e : Option Redis.Entry) :
        hashOf ((Op.dropRole id u).effect w.now e) = (hashOf e).erase u := by
      rw [Op.effect]
      split
      · next empty => rw [hashOf_none, empty]
      · rfl
    rw [Function.update_apply]
    by_cases same : id' = id
    · subst same
      rw [if_pos rfl, Function.update_apply, ← shows]
      simp [Op.key, hash, Redis.lookup_erase]
    · simpa [Op.key, same, Ne.symm same] using shows u'
  | session | ingress | roomCode | userSessions | active | lock =>
    refine .kept ?_ shows
    simp [Op.key]

theorem Represents.addIngress (rep : Represents t w) (uuid : isUuid id = true) :
    Represents (t.addIngress id ingressID) (w.afterAll (r.ingressOps id ingressID)) := by
  refine rep.afterAll (fun _ mem => RedisStore.wf_of_mem_ingressOps uuid mem) rfl ?_
  intro k wfKey shows
  cases k with
  | ingress id' =>
    dsimp only [Tables.Shows, Tables.addIngress] at shows ⊢
    rw [Function.update_apply]
    by_cases same : id' = id
    · subst same
      simp [RedisStore.ingressOps, Op.key, Op.effect, shows]
    · simpa [RedisStore.ingressOps, Op.key, same, Ne.symm same] using shows
  | session | access | roomCode | userSessions | active | lock =>
    refine .kept ?_ shows
    simp [RedisStore.ingressOps, Op.key]

theorem Represents.dropActive (rep : Represents t w) (uuid : isUuid id = true) :
    Represents (t.dropActive id) (w.after (.dropActive id)) := by
  refine rep.after (.dropActive id) uuid rfl ?_
  intro k wfKey shows
  cases k with
  | active =>
    dsimp only [Tables.Shows, Tables.dropActive] at shows ⊢
    intro id'
    rw [Function.update_apply, ← shows]
    simp [Op.key, zset_dropActive, Redis.lookup_erase]
  | session | access | ingress | roomCode | userSessions | lock =>
    refine .kept ?_ shows
    simp [Op.key]

end Writing

/-! ## Coherent tables -/

section Coherence

variable {t : Tables} {s : Session} {id status : String} {ttl : Nat}

/-- A new session's id is not in the tables, nor is its room code. -/
def Tables.Fresh (t : Tables) : StoreCall → Prop
  | .createSession new =>
    t.sessions new.1.id = none ∧ (new.1.roomCode ≠ "" → t.codes new.1.roomCode = none)
  | _ => True

theorem Tables.coherent_empty {clock : Nat} : (Tables.empty clock).Coherent where
  entered := nofun
  coded := by
    intro code id
    constructor
    · nofun
    · intro ⟨_, s, impossible, _⟩
      cases impossible

theorem Tables.Coherent.create (coherent : t.Coherent) (uuid : isUuid s.id = true)
    (fresh : t.sessions s.id = none) (free : s.roomCode ≠ "" → t.codes s.roomCode = none) :
    (t.create ttl s).Coherent := by
  constructor
  case entered =>
    intro id s' entered
    dsimp only [Tables.create] at entered
    rw [Function.update_apply] at entered
    split at entered
    · next same =>
      cases entered
      rw [same]
      exact ⟨uuid, rfl, rfl⟩
    · exact coherent.entered entered
  case coded =>
    intro code id
    have before : t.codes code = some id ↔ _ := coherent.coded
    dsimp only [Tables.create]
    rw [Function.update_apply]
    by_cases uncoded : s.roomCode = ""
    · rw [if_pos uncoded, before]
      by_cases same : id = s.id
      · subst same
        simp [fresh, Session.truncate, uncoded, eq_comm]
      · simp [same]
    · rw [if_neg uncoded, Function.update_apply]
      have free := free uncoded
      by_cases own : code = s.roomCode <;> by_cases same : id = s.id
      · simp [own, same, Session.truncate, uncoded]
      · subst own
        rw [free] at before
        simpa [same, Ne.symm same, uncoded] using before
      · subst same
        rw [fresh] at before
        simpa [own, Session.truncate, Ne.symm own] using before
      · simpa [own, same] using before

theorem Tables.Coherent.setStatus (coherent : t.Coherent) (entered : t.sessions s.id = some s) :
    (t.setStatus s status).Coherent := by
  obtain ⟨uuid, _, truncated⟩ := coherent.entered entered
  constructor
  case entered =>
    intro id s' entered'
    dsimp only [Tables.setStatus] at entered'
    rw [Function.update_apply] at entered'
    split at entered'
    · next same =>
      cases entered'
      rw [same]
      refine ⟨uuid, rfl, ?_⟩
      exact congrArg (fun s : Session => { s with status }) truncated
    · exact coherent.entered entered'
  case coded =>
    intro code id
    have before : t.codes code = some id ↔ _ := coherent.coded
    dsimp only [Tables.setStatus]
    rw [before, Function.update_apply]
    by_cases same : id = s.id
    · simp [same, entered]
    · simp [same]

theorem Tables.Coherent.delete (coherent : t.Coherent) (entered : t.sessions s.id = some s) :
    (t.delete s).Coherent := by
  constructor
  case entered =>
    intro id s' entered'
    dsimp only [Tables.delete] at entered'
    rw [Function.update_apply] at entered'
    split at entered'
    · cases entered'
    · exact coherent.entered entered'
  case coded =>
    intro code id
    have before : t.codes code = some id ↔ _ := coherent.coded
    have mine : t.codes s.roomCode = some s.id ↔ _ := coherent.coded
    dsimp only [Tables.delete]
    rw [Function.update_apply]
    by_cases uncoded : s.roomCode = ""
    · rw [if_pos uncoded, before]
      by_cases same : id = s.id
      · simp [same, entered, uncoded, eq_comm]
      · simp [same]
    · rw [if_neg uncoded, Function.update_apply]
      have mine := mine.mpr ⟨uncoded, s, entered, rfl⟩
      by_cases own : code = s.roomCode <;> by_cases same : id = s.id
      · simp [own, same]
      · subst own
        rw [mine] at before
        simpa [same, Ne.symm same, uncoded] using before
      · subst same
        rw [entered] at before
        simpa [own, Ne.symm own] using before
      · simpa [own, same] using before

theorem Tables.Coherent.next {call : StoreCall} (coherent : t.Coherent) (fresh : t.Fresh call) :
    (t.next ttl call).Coherent := by
  have same : ∀ {t' : Tables}, t'.sessions = t.sessions → t'.codes = t.codes → t'.Coherent := by
    intro t' sessions codes
    constructor
    · rw [sessions]
      exact coherent.entered
    · rw [sessions, codes]
      exact coherent.coded
  cases call with
  | createSession new => exact coherent.create new.2 fresh.1 fresh.2
  | updateSessionStatus id status =>
    dsimp only [Tables.next, Tables.updateSessionStatus]
    split
    · next s entered =>
      rw [← (coherent.entered entered).2.1] at entered
      exact coherent.setStatus entered
    · exact coherent
  | deleteSession id =>
    dsimp only [Tables.next, Tables.deleteSession]
    split
    · next s entered =>
      rw [← (coherent.entered entered).2.1] at entered
      exact coherent.delete entered
    · exact coherent
  | grantAccess id u role =>
    dsimp only [Tables.next, Tables.grantAccess]
    split
    · exact same rfl rfl
    · exact coherent
  | _ => exact same rfl rfl

end Coherence

end DirectLink
