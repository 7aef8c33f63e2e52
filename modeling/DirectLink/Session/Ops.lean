import DirectLink.Session.RedisStore

/-!
# Typed operations on the keys of the store

Every Redis command the backend issues is an operation on one key of a known kind.  `Op` lists
these operations with the session ids, room codes and user ids they are about; `Op.cmd` is the flat
command, `Op.effect` what it does to the entry of its key, `Op.reply` what it answers.

`Db.Typed` says that every key holds a value of its own kind.  `exec_op` is the only place where
the flat commands of a typed database are executed: the reply and the new database are those of
`Op.reply` and `Op.apply`, so no operation ever meets a key of the wrong kind.
-/

namespace DirectLink

open Redis (Db Entry Value Hash ZSet Order)

/-! ## The fields of a session hash -/

/-- The complete hash of a session. -/
def encode (session : Session) : Hash := Redis.Hash.insertAll ∅ (RedisStore.sessionData session)

/-- A session as it is read back: `created_at` is stored in whole seconds. -/
def Session.truncate (session : Session) : Session :=
  { session with createdAt := session.createdAt.truncate }

/-- What a session key can hold: a complete session, or the status alone. -/
inductive SessionHash (sessionID : String) : Hash → Prop
  | full (session : Session) (own : session.id = sessionID) : SessionHash sessionID (encode session)
  | statusOnly (status : String) : SessionHash sessionID (Finmap.insert "status" status ∅)

theorem encode_eq (s : Session) :
    encode s = Finmap.insert "status" s.status (Finmap.insert "max_cameras"
      (formatInt32 s.maxCameras) (Finmap.insert "created_at" s.createdAt.formatRFC3339
        (Finmap.insert "created_by" s.createdBy (Finmap.insert "room_code" s.roomCode
          (Finmap.insert "id" s.id ∅))))) := rfl

/-- Writing the six fields replaces whatever a session key held. -/
theorem insertAll_sessionData {h : Hash} {s : Session}
    (fields : ∀ f ∈ h, f ∈ (RedisStore.sessionData s).map Prod.fst) :
    Redis.Hash.insertAll h (RedisStore.sessionData s) = encode s := by
  refine Finmap.ext_lookup fun f => ?_
  simp only [Redis.Hash.insertAll, RedisStore.sessionData, encode, List.foldl_cons, List.foldl_nil,
    Redis.lookup_insert]
  have absent : h.lookup f ≠ none → f ∈ (RedisStore.sessionData s).map Prod.fst := fun found =>
    fields f (Finmap.lookup_isSome.mp (Option.isSome_iff_ne_none.mpr found))
  repeat' split
  all_goals try rfl
  rw [Finmap.lookup_empty]
  by_contra found
  have := absent found
  simp_all [RedisStore.sessionData]

theorem insert_status_encode (s : Session) (status : String) :
    Finmap.insert "status" status (encode s) = encode { s with status } := by
  rw [encode_eq, encode_eq, Finmap.insert_insert]

@[simp] theorem lookup_status_encode (s : Session) :
    (encode s).lookup "status" = some s.status := by
  rw [encode_eq, Finmap.lookup_insert]

theorem encode_ne_empty (s : Session) : encode s ≠ ∅ := by
  intro empty
  have found := lookup_status_encode s
  rw [empty, Finmap.lookup_empty] at found
  cases found

theorem parseSession_empty :
    RedisStore.parseSession ∅ = .error (.sentinel .sessionNotFound) := if_pos rfl

/-- A complete hash reads back as its session, to the second. -/
theorem parseSession_encode (s : Session) :
    RedisStore.parseSession (encode s) = .ok s.truncate := by
  have field_eq : ∀ {name value}, (encode s).lookup name = some value →
      RedisStore.field (encode s) name = value := fun found => by
    rw [RedisStore.field, found, Option.getD_some]
  have status : RedisStore.field (encode s) "status" = s.status :=
    field_eq (lookup_status_encode s)
  have maxCameras : RedisStore.field (encode s) "max_cameras" = formatInt32 s.maxCameras :=
    field_eq (by rw [encode_eq]; simp)
  have createdAt : RedisStore.field (encode s) "created_at" = s.createdAt.formatRFC3339 :=
    field_eq (by rw [encode_eq]; simp)
  have createdBy : RedisStore.field (encode s) "created_by" = s.createdBy :=
    field_eq (by rw [encode_eq]; simp)
  have roomCode : RedisStore.field (encode s) "room_code" = s.roomCode :=
    field_eq (by rw [encode_eq]; simp)
  have id_ : RedisStore.field (encode s) "id" = s.id :=
    field_eq (by rw [encode_eq]; simp)
  rw [RedisStore.parseSession, if_neg (encode_ne_empty s), createdAt, maxCameras, createdBy,
    roomCode, id_, status, UtcTime.parseRFC3339_formatRFC3339, parseInt32_formatInt32]
  rfl

/-- The status alone does not read back. -/
theorem parseSession_statusOnly (status : String) :
    ∃ err, RedisStore.parseSession (Finmap.insert "status" status ∅) = .error err ∧
      err.is .sessionNotFound = false := by
  have ne : (Finmap.insert "status" status ∅ : Hash) ≠ ∅ := by
    intro empty
    have found := Finmap.lookup_insert (b := status) (a := "status") (∅ : Hash)
    rw [empty, Finmap.lookup_empty] at found
    cases found
  have createdAt : RedisStore.field (Finmap.insert "status" status ∅) "created_at" = "" := by
    rw [RedisStore.field, Finmap.lookup_insert_of_ne _ (by decide), Finmap.lookup_empty]
    rfl
  refine ⟨.wrapped "failed to parse created_at " (.other "parsing time"), ?_, rfl⟩
  rw [RedisStore.parseSession, if_neg ne, createdAt]
  rfl

namespace SessionHash

variable {sessionID : String} {h : Hash}

theorem insertAll_eq (s : Session) (holds : SessionHash sessionID h) :
    Redis.Hash.insertAll h (RedisStore.sessionData s) = encode s := by
  refine insertAll_sessionData fun f member => ?_
  cases holds with
  | full s' =>
    rw [encode_eq] at member
    simp only [Finmap.mem_insert] at member
    simp only [RedisStore.sessionData, List.map_cons, List.map_nil, List.mem_cons]
    rcases member with eq | eq | eq | eq | eq | eq | none_
    all_goals first
      | simp [eq]
      | exact absurd none_ Finmap.notMem_empty
  | statusOnly status =>
    rcases Finmap.mem_insert.mp member with eq | none_
    · simp [eq, RedisStore.sessionData]
    · exact absurd none_ Finmap.notMem_empty

theorem insert_status (status : String) (holds : SessionHash sessionID h) :
    SessionHash sessionID (Finmap.insert "status" status h) := by
  cases holds with
  | full s own =>
    rw [insert_status_encode]
    exact .full _ own
  | statusOnly old =>
    rw [Finmap.insert_insert]
    exact .statusOnly status

/-- What `GetSession` returns of a session key. -/
theorem parsed {s : Session} (holds : SessionHash sessionID h)
    (ok : RedisStore.parseSession h = .ok s) :
    ∃ stored : Session, h = encode stored ∧ stored.id = sessionID ∧ s = stored.truncate := by
  cases holds with
  | full stored own =>
    rw [parseSession_encode] at ok
    exact ⟨stored, rfl, own, (Except.ok.inj ok).symm⟩
  | statusOnly status =>
    obtain ⟨err, failed, _⟩ := parseSession_statusOnly status
    rw [failed] at ok
    cases ok

/-- A status write changes nothing else of what is read back. -/
theorem parsed_insert_status {status : String} {s : Session}
    (holds : h = ∅ ∨ SessionHash sessionID h)
    (ok : RedisStore.parseSession (Finmap.insert "status" status h) = .ok s) :
    ∃ s₀, RedisStore.parseSession h = .ok s₀ ∧ s = { s₀ with status } := by
  have alone : RedisStore.parseSession (Finmap.insert "status" status ∅) ≠ .ok s := by
    obtain ⟨err, failed, _⟩ := parseSession_statusOnly status
    rw [failed]
    exact fun impossible => by cases impossible
  rcases holds with rfl | holds
  · exact absurd ok alone
  · cases holds with
    | full stored own =>
      rw [insert_status_encode, parseSession_encode] at ok
      exact ⟨stored.truncate, parseSession_encode stored, (Except.ok.inj ok).symm⟩
    | statusOnly old =>
      rw [Finmap.insert_insert] at ok
      exact absurd ok alone

end SessionHash

/-! ## Typed databases -/

/-- The kind of value a key holds. -/
def Key.Holds : Key → Value → Prop
  | .session sessionID, .hash h => SessionHash sessionID h
  | .access _, .hash _ => True
  | .ingress _, .set _ => True
  | .roomCode _, .str sessionID => isUuid sessionID = true
  | .userSessions _, .set m => ∀ sessionID ∈ m, isUuid sessionID = true
  | .active, .zset z => ∀ sessionID ∈ z, isUuid sessionID = true
  | .lock, .str _ => True
  | _, _ => False

/-- The entry, if there is one, holds a value of the kind of `k`. -/
def Key.Fits (k : Key) (e : Option Entry) : Prop := ∀ entry ∈ e, k.Holds entry.value

/-- Every key holds a value of its own kind. -/
def Typed (db : Db) : Prop := ∀ k : Key, k.Wf → k.Fits (db k.text)

theorem typed_empty : Typed Db.empty := fun _ _ _ impossible => by cases impossible

theorem Typed.expire {db : Db} (typed : Typed db) (now : Nat) : Typed (db.expire now) := by
  intro k wf entry found
  exact typed k wf entry (Option.filter_eq_some_iff.mp found).1

/-! ## Entries by their kind -/

def strOf : Option Entry → Option String
  | some ⟨.str s, _⟩ => some s
  | _ => none

def hashOf : Option Entry → Hash
  | some ⟨.hash h, _⟩ => h
  | _ => ∅

def setOf : Option Entry → Finset String
  | some ⟨.set m, _⟩ => m
  | _ => ∅

def zsetOf : Option Entry → ZSet
  | some ⟨.zset z, _⟩ => z
  | _ => ∅

/-- The instant at which an entry expires. -/
def expiryOf (e : Option Entry) : Option Nat := e.bind Entry.expireAt

/-- The entry with a new value and the deadline it had. -/
def keep (e : Option Entry) (v : Value) : Option Entry := some ⟨v, e.bind Entry.expireAt⟩

/-- The entry with a new deadline. -/
def redate (e : Option Entry) (t : Nat) : Option Entry := e.map fun entry => ⟨entry.value, some t⟩

section Entries

variable {e : Option Entry} {v : Value} {t : Nat}

@[simp] theorem strOf_none : strOf none = none := rfl

@[simp] theorem hashOf_none : hashOf none = ∅ := rfl

@[simp] theorem setOf_none : setOf none = ∅ := rfl

@[simp] theorem zsetOf_none : zsetOf none = ∅ := rfl

@[simp] theorem hashOf_keep {h : Hash} : hashOf (keep e (.hash h)) = h := rfl

@[simp] theorem setOf_keep {m : Finset String} : setOf (keep e (.set m)) = m := rfl

@[simp] theorem zsetOf_keep {z : ZSet} : zsetOf (keep e (.zset z)) = z := rfl

@[simp] theorem expiryOf_none : expiryOf none = none := rfl

@[simp] theorem expiryOf_keep : expiryOf (keep e v) = expiryOf e := rfl

@[simp] theorem expiryOf_redate : expiryOf (redate e t) = e.map fun _ => t := by
  cases e <;> rfl

@[simp] theorem strOf_redate : strOf (redate e t) = strOf e := by
  cases e with
  | none => rfl
  | some entry => obtain ⟨value, expireAt⟩ := entry; cases value <;> rfl

@[simp] theorem hashOf_redate : hashOf (redate e t) = hashOf e := by
  cases e with
  | none => rfl
  | some entry => obtain ⟨value, expireAt⟩ := entry; cases value <;> rfl

@[simp] theorem setOf_redate : setOf (redate e t) = setOf e := by
  cases e with
  | none => rfl
  | some entry => obtain ⟨value, expireAt⟩ := entry; cases value <;> rfl

@[simp] theorem zsetOf_redate : zsetOf (redate e t) = zsetOf e := by
  cases e with
  | none => rfl
  | some entry => obtain ⟨value, expireAt⟩ := entry; cases value <;> rfl

end Entries

/-! ## Operations -/

/-- The operations the backend makes on Redis. -/
inductive Op : Type
  | getCode (code : String)
  | setCode (code sessionID : String) (ttl : Nat)
  | delCode (code : String)
  | existsSession (sessionID : String)
  | readSession (sessionID : String)
  | writeSession (session : Session)
  | writeStatus (sessionID status : String)
  | expireSession (sessionID : String) (ttl : Nat)
  | delSession (sessionID : String)
  | readRole (sessionID userID : String)
  | hasRole (sessionID userID : String)
  | writeRole (sessionID userID role : String)
  | expireAccess (sessionID : String) (ttl : Nat)
  | dropRole (sessionID userID : String)
  | delAccess (sessionID : String)
  | addIngress (sessionID ingressID : String)
  | expireIngress (sessionID : String) (ttl : Nat)
  | readIngress (sessionID : String)
  | addUserSession (userID sessionID : String)
  | expireUser (userID : String) (ttl : Nat)
  | dropUserSession (userID sessionID : String)
  | readUser (userID : String)
  | addActive (score : Int) (sessionID : String)
  | dropActive (sessionID : String)
  | readActive (stop : Int)
  | takeLock (value : String) (ttl : Nat)
  | dropLock (value : String)
  | ping

namespace Op

/-- The key of an operation. -/
def key : Op → Option Key
  | getCode code | setCode code _ _ | delCode code => some (.roomCode code)
  | existsSession id | readSession id | writeStatus id _ | expireSession id _ | delSession id =>
    some (.session id)
  | writeSession s => some (.session s.id)
  | readRole id _ | hasRole id _ | writeRole id _ _ | expireAccess id _ | dropRole id _
  | delAccess id => some (.access id)
  | addIngress id _ | expireIngress id _ | readIngress id => some (.ingress id)
  | addUserSession u _ | expireUser u _ | dropUserSession u _ | readUser u => some (.userSessions u)
  | addActive _ _ | dropActive _ | readActive _ => some .active
  | takeLock _ _ | dropLock _ => some .lock
  | ping => none

/-- The flat command. -/
@[reducible] def cmd : Op → Redis.Cmd
  | getCode code => .get (roomCodeKey code)
  | setCode code id ttl => .set (roomCodeKey code) id (some ttl)
  | delCode code => .del (roomCodeKey code)
  | existsSession id => .existsKey (sessionKey id)
  | readSession id => .hgetall (sessionKey id)
  | writeSession s => .hset (sessionKey s.id) (RedisStore.sessionData s)
  | writeStatus id status => .hset (sessionKey id) [("status", status)]
  | expireSession id ttl => .expire (sessionKey id) ttl
  | delSession id => .del (sessionKey id)
  | readRole id u => .hget (accessKey id) u
  | hasRole id u => .hexists (accessKey id) u
  | writeRole id u role => .hset (accessKey id) [(u, role)]
  | expireAccess id ttl => .expire (accessKey id) ttl
  | dropRole id u => .hdel (accessKey id) u
  | delAccess id => .del (accessKey id)
  | addIngress id ingressID => .sadd (ingressKey id) ingressID
  | expireIngress id ttl => .expire (ingressKey id) ttl
  | readIngress id => .smembers (ingressKey id)
  | addUserSession u id => .sadd (userSessionsKey u) id
  | expireUser u ttl => .expire (userSessionsKey u) ttl
  | dropUserSession u id => .srem (userSessionsKey u) id
  | readUser u => .smembers (userSessionsKey u)
  | addActive score id => .zadd activeSessionsKey score id
  | dropActive id => .zrem activeSessionsKey id
  | readActive stop => .zrangeByScore activeSessionsKey stop
  | takeLock value ttl => .setNX janitorLockKey value (some ttl)
  | dropLock value => .delIfEq janitorLockKey value
  | ping => .ping

/-- The session ids it names are UUIDs and the times to live positive. -/
def Wf : Op → Prop
  | setCode _ id _ | existsSession id | readSession id | writeStatus id _ | delSession id
  | readRole id _ | hasRole id _ | writeRole id _ _ | dropRole id _ | delAccess id
  | addIngress id _ | readIngress id | addUserSession _ id | dropUserSession _ id
  | addActive _ id | dropActive id => isUuid id = true
  | writeSession s => isUuid s.id = true
  | expireSession id ttl | expireAccess id ttl | expireIngress id ttl =>
    isUuid id = true ∧ 0 < ttl
  | expireUser _ ttl => 0 < ttl
  | getCode _ | delCode _ | readUser _ | readActive _ | takeLock _ _ | dropLock _ | ping => True

/-- What it does to the entry of its key at the instant `now`. -/
def effect (now : Nat) : Op → Option Entry → Option Entry
  | setCode _ id ttl, _ => some ⟨.str id, some (now + ttl)⟩
  | delCode _, _ | delSession _, _ | delAccess _, _ => none
  | expireSession _ ttl, e | expireAccess _ ttl, e | expireIngress _ ttl, e
  | expireUser _ ttl, e => redate e (now + ttl)
  | writeSession s, e => keep e (.hash (encode s))
  | writeStatus _ status, e => keep e (.hash ((hashOf e).insert "status" status))
  | writeRole _ u role, e => keep e (.hash ((hashOf e).insert u role))
  | dropRole _ u, e =>
    if (hashOf e).erase u = ∅ then none else keep e (.hash ((hashOf e).erase u))
  | addIngress _ ingressID, e => keep e (.set (insert ingressID (setOf e)))
  | addUserSession _ id, e => keep e (.set (insert id (setOf e)))
  | dropUserSession _ id, e =>
    if (setOf e).erase id = ∅ then none else keep e (.set ((setOf e).erase id))
  | addActive score id, e => keep e (.zset ((zsetOf e).insert id score))
  | dropActive id, e =>
    if (zsetOf e).erase id = ∅ then none else keep e (.zset ((zsetOf e).erase id))
  | takeLock value ttl, e => if e.isSome then e else some ⟨.str value, some (now + ttl)⟩
  | dropLock value, e => if strOf e = some value then none else e
  | getCode _, e | existsSession _, e | readSession _, e | readRole _ _, e | hasRole _ _, e
  | readIngress _, e | readUser _, e | readActive _, e | ping, e => e

/-- What it answers, from the entry of its key. -/
def reply (o : Order) : (op : Op) → Option Entry → op.cmd.Reply
  | getCode _, e => strOf e
  | existsSession _, e => e.isSome
  | readSession _, e => hashOf e
  | readRole _ u, e => (hashOf e).lookup u
  | hasRole _ u, e => ((hashOf e).lookup u).isSome
  | readIngress _, e | readUser _, e => o.list (setOf e)
  | readActive stop, e => o.list ((zsetOf e).upTo stop)
  | expireSession _ _, e | expireAccess _ _, e | expireIngress _ _, e | expireUser _ _, e =>
    e.isSome
  | takeLock _ _, e => !e.isSome
  | dropLock value, e => decide (strOf e = some value)
  | setCode _ _ _, _ | delCode _, _ | delSession _, _ | delAccess _, _ | writeSession _, _
  | writeStatus _ _, _ | writeRole _ _ _, _ | dropRole _ _, _ | addIngress _ _, _
  | addUserSession _ _, _ | dropUserSession _ _, _ | addActive _ _, _ | dropActive _, _
  | ping, _ => ()

/-- The entry of its key. -/
def entry (op : Op) (db : Db) : Option Entry := op.key.bind fun k => db k.text

/-- What it does to the database. -/
def apply (now : Nat) (op : Op) (db : Db) : Db :=
  match op.key with
  | none => db
  | some k => db.assign k.text (op.effect now (db k.text))

/-- The key of a well-formed operation is well formed. -/
theorem Wf.key {op : Op} {k : Key} (wf : op.Wf) (at_ : op.key = some k) : k.Wf := by
  cases op <;> cases at_ <;> first | exact wf | exact wf.1 | trivial

/-- The entry of a key after an operation. -/
theorem apply_at {op : Op} {k : Key} {db : Db} {now : Nat} (wf : op.Wf) (wfKey : k.Wf) :
    op.apply now db k.text =
      if op.key = some k then op.effect now (db k.text) else db k.text := by
  rw [apply]
  cases at_ : op.key with
  | none => rw [if_neg (by simp)]
  | some k' =>
    by_cases same : k' = k
    · subst same
      simp only [Db.assign_self, if_true]
    · have away : k.text ≠ k'.text := fun eq => same (Key.text_injective (wf.key at_) wfKey eq.symm)
      rw [if_neg (fun eq => same (Option.some.inj eq))]
      exact Db.assign_of_ne away

end Op

namespace Key.Fits

variable {db : Db} {k : Key}

theorem strAt (fits : k.Fits (db k.text)) (kind : ∀ v, k.Holds v → ∃ s, v = .str s) :
    db.strAt k.text = some (strOf (db k.text)) := by
  rw [Db.strAt]
  cases found : db k.text with
  | none => rfl
  | some entry =>
    obtain ⟨value, expireAt⟩ := entry
    obtain ⟨s, rfl⟩ := kind value (fits _ found)
    rfl

theorem hashAt (fits : k.Fits (db k.text)) (kind : ∀ v, k.Holds v → ∃ h, v = .hash h) :
    db.hashAt k.text = some (hashOf (db k.text)) := by
  rw [Db.hashAt]
  cases found : db k.text with
  | none => rfl
  | some entry =>
    obtain ⟨value, expireAt⟩ := entry
    obtain ⟨h, rfl⟩ := kind value (fits _ found)
    rfl

theorem setAt (fits : k.Fits (db k.text)) (kind : ∀ v, k.Holds v → ∃ m, v = .set m) :
    db.setAt k.text = some (setOf (db k.text)) := by
  rw [Db.setAt]
  cases found : db k.text with
  | none => rfl
  | some entry =>
    obtain ⟨value, expireAt⟩ := entry
    obtain ⟨m, rfl⟩ := kind value (fits _ found)
    rfl

theorem zsetAt (fits : k.Fits (db k.text)) (kind : ∀ v, k.Holds v → ∃ z, v = .zset z) :
    db.zsetAt k.text = some (zsetOf (db k.text)) := by
  rw [Db.zsetAt]
  cases found : db k.text with
  | none => rfl
  | some entry =>
    obtain ⟨value, expireAt⟩ := entry
    obtain ⟨z, rfl⟩ := kind value (fits _ found)
    rfl

end Key.Fits

namespace Typed

variable {db : Db}

theorem code (typed : Typed db) (code : String) :
    db.strAt (roomCodeKey code) = some (strOf (db (roomCodeKey code))) :=
  (typed (.roomCode code) trivial).strAt fun v holds => by
    cases v <;> first | exact ⟨_, rfl⟩ | exact holds.elim

theorem lock (typed : Typed db) :
    db.strAt janitorLockKey = some (strOf (db janitorLockKey)) :=
  (typed .lock trivial).strAt fun v holds => by
    cases v <;> first | exact ⟨_, rfl⟩ | exact holds.elim

theorem session (typed : Typed db) {id : String} (uuid : isUuid id = true) :
    db.hashAt (sessionKey id) = some (hashOf (db (sessionKey id))) :=
  (typed (.session id) uuid).hashAt fun v holds => by
    cases v <;> first | exact ⟨_, rfl⟩ | exact holds.elim

theorem access (typed : Typed db) {id : String} (uuid : isUuid id = true) :
    db.hashAt (accessKey id) = some (hashOf (db (accessKey id))) :=
  (typed (.access id) uuid).hashAt fun v holds => by
    cases v <;> first | exact ⟨_, rfl⟩ | exact holds.elim

theorem ingress (typed : Typed db) {id : String} (uuid : isUuid id = true) :
    db.setAt (ingressKey id) = some (setOf (db (ingressKey id))) :=
  (typed (.ingress id) uuid).setAt fun v holds => by
    cases v <;> first | exact ⟨_, rfl⟩ | exact holds.elim

theorem userSessions (typed : Typed db) (u : String) :
    db.setAt (userSessionsKey u) = some (setOf (db (userSessionsKey u))) :=
  (typed (.userSessions u) trivial).setAt fun v holds => by
    cases v <;> first | exact ⟨_, rfl⟩ | exact holds.elim

theorem active (typed : Typed db) :
    db.zsetAt activeSessionsKey = some (zsetOf (db activeSessionsKey)) :=
  (typed .active trivial).zsetAt fun v holds => by
    cases v <;> first | exact ⟨_, rfl⟩ | exact holds.elim

end Typed

/-! ## What operations keep -/

section Keeps

variable {k : Key} {e : Option Entry} {v : Value}

theorem Key.Fits.keep (holds : k.Holds v) : k.Fits (keep e v) := by
  intro entry found
  cases found
  exact holds

theorem Key.Fits.none : k.Fits none := fun _ impossible => by cases impossible

/-- A new deadline keeps the value. -/
theorem Key.Fits.redate {t : Nat} (fits : k.Fits e) : k.Fits (redate e t) := by
  intro entry found
  obtain ⟨old, member, rfl⟩ := Option.mem_map.mp found
  exact fits old member

theorem Key.Fits.sessionHash {id : String} (fits : (Key.session id).Fits e) :
    hashOf e = ∅ ∨ SessionHash id (hashOf e) := by
  cases e with
  | none => exact .inl rfl
  | some entry =>
    have holds := fits entry rfl
    obtain ⟨value, expireAt⟩ := entry
    cases value with
    | hash h => exact .inr holds
    | _ => exact holds.elim

theorem Key.Fits.uuid_of_mem_set {u : String} (fits : (Key.userSessions u).Fits e) :
    ∀ id ∈ setOf e, isUuid id = true := by
  cases e with
  | none => exact fun id impossible => absurd impossible (Finset.notMem_empty id)
  | some entry =>
    have holds := fits entry rfl
    obtain ⟨value, expireAt⟩ := entry
    cases value with
    | set m => exact holds
    | _ => exact holds.elim

theorem Key.Fits.uuid_of_mem_zset (fits : Key.active.Fits e) :
    ∀ id ∈ zsetOf e, isUuid id = true := by
  cases e with
  | none => exact fun id impossible => absurd impossible Finmap.notMem_empty
  | some entry =>
    have holds := fits entry rfl
    obtain ⟨value, expireAt⟩ := entry
    cases value with
    | zset z => exact holds
    | _ => exact holds.elim

/-- Every member of the active set is a UUID. -/
theorem Typed.uuid_of_active {db : Db} {id : String} {score : Int} (typed : Typed db)
    (there : (zsetOf (db activeSessionsKey)).lookup id = some score) : isUuid id = true :=
  (typed .active trivial).uuid_of_mem_zset id (Finmap.mem_of_lookup_eq_some there)

theorem Typed.uuid_of_listed {db : Db} {o : Order} {stop : Int} {id : String} (typed : Typed db)
    (listed : id ∈ o.list ((zsetOf (db activeSessionsKey)).upTo stop)) : isUuid id = true := by
  obtain ⟨score, found, _⟩ := ZSet.mem_upTo.mp (Order.mem_list.mp listed)
  exact typed.uuid_of_active found

theorem Key.Fits.uuid_of_strOf {code id : String} (fits : (Key.roomCode code).Fits e)
    (found : strOf e = some id) : isUuid id = true := by
  cases e with
  | none => cases found
  | some entry =>
    have holds := fits entry rfl
    obtain ⟨value, expireAt⟩ := entry
    cases value with
    | str s =>
      cases found
      exact holds
    | _ => exact holds.elim

/-- An operation keeps the kind of its key. -/
theorem Op.fits_effect {op : Op} {now : Nat} (wf : op.Wf) (at_ : op.key = some k)
    (fits : k.Fits e) : k.Fits (op.effect now e) := by
  cases op <;> cases at_ <;> simp only [Op.effect]
  case writeSession s => exact .keep (.full s rfl)
  case writeStatus id status =>
    refine .keep ?_
    rcases fits.sessionHash with empty | holds
    · rw [empty]
      exact .statusOnly status
    · exact holds.insert_status status
  case setCode code id ttl =>
    intro entry found
    cases found
    exact wf
  case writeRole | addIngress => exact .keep trivial
  case dropRole =>
    split
    · exact .none
    · exact .keep trivial
  case addUserSession u id =>
    refine .keep fun member inserted => ?_
    rcases Finset.mem_insert.mp inserted with rfl | old
    · exact wf
    · exact fits.uuid_of_mem_set member old
  case dropUserSession u id =>
    split
    · exact .none
    · exact .keep fun member rest => fits.uuid_of_mem_set member (Finset.mem_of_mem_erase rest)
  case addActive score id =>
    refine .keep fun member inserted => ?_
    rcases Finmap.mem_insert.mp inserted with rfl | old
    · exact wf
    · exact fits.uuid_of_mem_zset member old
  case dropActive id =>
    split
    · exact .none
    · exact .keep fun member rest => fits.uuid_of_mem_zset member (Finmap.mem_erase.mp rest).2
  case takeLock value ttl =>
    split
    · exact fits
    · intro entry found
      cases found
      trivial
  case dropLock value =>
    split
    · exact .none
    · exact fits
  case expireSession | expireAccess | expireIngress | expireUser => exact fits.redate
  case delCode | delSession | delAccess => exact .none
  all_goals exact fits

theorem Typed.apply {op : Op} {db : Db} {now : Nat} (typed : Typed db) (wf : op.Wf) :
    Typed (op.apply now db) := by
  intro k wfKey
  rw [Op.apply_at wf wfKey]
  split
  · next at_ => exact op.fits_effect wf at_ (typed k wfKey)
  · exact typed k wfKey

/-- A session key holds no hash, the complete hash of a session, or a status alone. -/
theorem Typed.sessionHash {db : Db} {id : String} (typed : Typed db) (uuid : isUuid id = true) :
    hashOf (db (sessionKey id)) = ∅ ∨ SessionHash id (hashOf (db (sessionKey id))) :=
  (typed (.session id) uuid).sessionHash

end Keeps

/-- Dropping a key or giving it a new value. -/
theorem erase_or_put {db : Db} {k : String} {p : Prop} [Decidable p] {v : Value} :
    (if p then db.erase k else db.put k v) = db.assign k (if p then none else keep (db k) v) := by
  split <;> rfl

/-- **Operations on a typed database**: the flat command answers and changes what `Op` says. -/
theorem exec_op {o : Order} {now : Nat} {db : Db} {op : Op} (typed : Typed db) (wf : op.Wf) :
    Redis.exec o now db op.cmd = (some (op.reply o (op.entry db)), op.apply now db) := by
  cases op <;> simp only [Op.Wf] at wf <;>
    simp only [Op.cmd, Redis.exec, Op.apply, Op.key, Op.effect, Op.reply, Op.entry, Key.text,
      Option.bind_some, typed.code, typed.lock, typed.userSessions, typed.active, typed.session,
      typed.access, typed.ingress, wf, Option.map_some, Db.assign_same, erase_or_put]
  case writeSession s =>
    have written : (hashOf (db (sessionKey s.id))).insertAll (RedisStore.sessionData s) =
        encode s := by
      rcases typed.sessionHash wf with empty | holds
      · rw [empty, encode]
      · exact holds.insertAll_eq s
    rw [written]
    rfl
  case expireSession id ttl | expireAccess id ttl | expireIngress id ttl =>
    rw [if_neg (Nat.pos_iff_ne_zero.mp wf.2)]
    rfl
  case expireUser u ttl =>
    rw [if_neg (Nat.pos_iff_ne_zero.mp wf)]
    rfl
  case takeLock value ttl =>
    by_cases held : (db janitorLockKey).isSome = true
    · simp [held]
    · simp [held, Db.store]
  case dropLock value =>
    by_cases own : strOf (db janitorLockKey) = some value
    · simp [own, Db.erase]
    · simp [own]
  all_goals rfl

/-! ## The entries after an operation, kind by kind -/

namespace Op

variable {op : Op} {db : Db} {now : Nat} {id : String}

theorem apply_session (wf : op.Wf) (uuid : isUuid id = true) :
    op.apply now db (sessionKey id) =
      if op.key = some (.session id) then op.effect now (db (sessionKey id))
      else db (sessionKey id) :=
  apply_at (k := .session id) wf uuid

theorem apply_access (wf : op.Wf) (uuid : isUuid id = true) :
    op.apply now db (accessKey id) =
      if op.key = some (.access id) then op.effect now (db (accessKey id))
      else db (accessKey id) :=
  apply_at (k := .access id) wf uuid

theorem apply_ingress (wf : op.Wf) (uuid : isUuid id = true) :
    op.apply now db (ingressKey id) =
      if op.key = some (.ingress id) then op.effect now (db (ingressKey id))
      else db (ingressKey id) :=
  apply_at (k := .ingress id) wf uuid

theorem apply_roomCode {code : String} (wf : op.Wf) :
    op.apply now db (roomCodeKey code) =
      if op.key = some (.roomCode code) then op.effect now (db (roomCodeKey code))
      else db (roomCodeKey code) :=
  apply_at (k := .roomCode code) wf trivial

theorem apply_active (wf : op.Wf) :
    op.apply now db activeSessionsKey =
      if op.key = some .active then op.effect now (db activeSessionsKey)
      else db activeSessionsKey :=
  apply_at (k := .active) wf trivial

end Op

/-- The stored status of a session. -/
def statusOf (db : Db) (id : String) : Option String :=
  (hashOf (db (sessionKey id))).lookup "status"

/-- What an operation can do to the stored status of a session. -/
theorem statusOf_apply {op : Op} {id : String} (now : Nat) (db : Db) (wf : op.Wf)
    (uuid : isUuid id = true) :
    statusOf (op.apply now db) id = statusOf db id ∨
      (∃ session, op = .writeSession session ∧ session.id = id ∧
        statusOf (op.apply now db) id = some session.status) ∨
      (∃ status, op = .writeStatus id status ∧ statusOf (op.apply now db) id = some status) ∨
      op = .delSession id := by
  rw [statusOf, statusOf, Op.apply_session wf uuid]
  split
  · next own =>
    cases op <;> cases own
    case writeSession session =>
      exact .inr (.inl ⟨session, rfl, rfl, lookup_status_encode session⟩)
    case writeStatus status =>
      exact .inr (.inr (.inl ⟨status, rfl, Finmap.lookup_insert _⟩))
    case delSession => exact .inr (.inr (.inr rfl))
    case expireSession => exact .inl (congrArg (Finmap.lookup "status") hashOf_redate)
    all_goals exact .inl rfl
  · exact .inl rfl

theorem statusOf_writeSession {now : Nat} {db : Db} {id : String} {new : Session}
    (wf : (Op.writeSession new).Wf) (uuid : isUuid id = true) :
    statusOf ((Op.writeSession new).apply now db) id =
      if id = new.id then some new.status else statusOf db id := by
  rw [statusOf, Op.apply_session wf uuid]
  by_cases same : id = new.id
  · rw [if_pos same, if_pos (by rw [same]; rfl), Op.effect, hashOf_keep, lookup_status_encode]
  · rw [if_neg same, if_neg]
    · rfl
    · intro own
      exact same (Key.session.inj (Option.some.inj own)).symm

theorem statusOf_writeStatus {now : Nat} {db : Db} {id id' status : String}
    (wf : (Op.writeStatus id' status).Wf) (uuid : isUuid id = true) :
    statusOf ((Op.writeStatus id' status).apply now db) id =
      if id = id' then some status else statusOf db id := by
  rw [statusOf, Op.apply_session wf uuid]
  by_cases same : id = id'
  · rw [if_pos same, if_pos (by rw [same]; rfl), Op.effect, hashOf_keep, Finmap.lookup_insert]
  · rw [if_neg same, if_neg]
    · rfl
    · intro own
      exact same (Key.session.inj (Option.some.inj own)).symm

/-- The operations that change no stored status. -/
theorem statusOf_same {op : Op} {now : Nat} {db : Db} {id : String} (wf : op.Wf)
    (uuid : isUuid id = true) (noSession : ∀ new, op ≠ .writeSession new)
    (noStatus : ∀ id status, op ≠ .writeStatus id status) (noDel : ∀ id, op ≠ .delSession id) :
    statusOf (op.apply now db) id = statusOf db id := by
  rcases statusOf_apply now db wf uuid with
    same | ⟨new, impossible, _⟩ | ⟨status, impossible, _⟩ | impossible
  · exact same
  · exact absurd impossible (noSession new)
  · exact absurd impossible (noStatus id status)
  · exact absurd impossible (noDel id)

/-- The session can be read back. -/
def Live (db : Db) (id : String) (session : Session) : Prop :=
  RedisStore.parseSession (hashOf (db (sessionKey id))) = .ok session

theorem Live.isSome {db : Db} {id : String} {session : Session} (live : Live db id session) :
    (db (sessionKey id)).isSome = true := by
  rw [Live] at live
  cases found : db (sessionKey id) with
  | none =>
    rw [found, hashOf_none, parseSession_empty] at live
    cases live
  | some _ => rfl

theorem Live.of_hash {db : Db} {id : String} {session : Session}
    (stored : hashOf (db (sessionKey id)) = encode session) : Live db id session.truncate := by
  rw [Live, stored, parseSession_encode]

/-- What is read back of a session key is a session stored there. -/
theorem Live.stored {db : Db} {id : String} {session : Session} (typed : Typed db)
    (uuid : isUuid id = true) (live : Live db id session) :
    ∃ stored : Session, hashOf (db (sessionKey id)) = encode stored ∧ stored.id = id ∧
      session = stored.truncate := by
  rw [Live] at live
  rcases typed.sessionHash uuid with none_ | hash
  · rw [none_, parseSession_empty] at live
    cases live
  · exact hash.parsed live

theorem Live.id {db : Db} {id : String} {session : Session} (typed : Typed db)
    (uuid : isUuid id = true) (live : Live db id session) : session.id = id := by
  obtain ⟨stored, _, own, rfl⟩ := live.stored typed uuid
  exact own

/-- The status of a session as it is read back. -/
theorem Live.status {db : Db} {id : String} {session : Session} (typed : Typed db)
    (uuid : isUuid id = true) (live : Live db id session) :
    statusOf db id = some session.status := by
  obtain ⟨stored, same, _, rfl⟩ := live.stored typed uuid
  rw [statusOf, same, lookup_status_encode]
  rfl

/-- What an operation leaves or writes of a session: at most its status changes, or it is
created. -/
theorem live_apply {op : Op} {db : Db} {now : Nat} {id : String} {session : Session}
    (typed : Typed db) (wf : op.Wf) (uuid : isUuid id = true)
    (live : Live (op.apply now db) id session) :
    (∃ old status, Live db id old ∧ session = { old with status } ∧
      ∀ new, op = .writeSession new → new.id ≠ id) ∨
      ∃ new, op = .writeSession new ∧ new.id = id ∧ session = new.truncate := by
  rw [Live, Op.apply_session wf uuid] at live
  split at live
  · next own =>
    cases op <;> cases own <;> simp only [Op.effect, hashOf_redate, hashOf_keep] at live
    case existsSession | readSession | expireSession =>
      exact .inl ⟨session, _, live, rfl, fun _ impossible => by cases impossible⟩
    case writeSession new =>
      rw [parseSession_encode] at live
      cases live
      exact .inr ⟨new, rfl, rfl, rfl⟩
    case writeStatus status =>
      obtain ⟨old, parsed, rfl⟩ := SessionHash.parsed_insert_status (typed.sessionHash uuid) live
      exact .inl ⟨old, status, parsed, rfl, fun _ impossible => by cases impossible⟩
    case delSession =>
      rw [hashOf_none, parseSession_empty] at live
      cases live
  · next other =>
    refine .inl ⟨session, _, live, rfl, ?_⟩
    intro new same agrees
    subst same
    subst agrees
    exact other rfl

/-- What an operation makes of the expiry of a session: it stays, unless it is set or the session
deleted. -/
theorem expiry_session_apply {op : Op} {id : String} (now : Nat) (db : Db) (wf : op.Wf)
    (uuid : isUuid id = true) :
    expiryOf (op.apply now db (sessionKey id)) = expiryOf (db (sessionKey id)) ∨
      (∃ ttl, op = .expireSession id ttl ∧ expiryOf (op.apply now db (sessionKey id)) =
        (db (sessionKey id)).map fun _ => now + ttl) ∨ op = .delSession id := by
  rw [Op.apply_session wf uuid]
  split
  · next own =>
    cases op <;> cases own
    case expireSession ttl => exact .inr (.inl ⟨ttl, rfl, expiryOf_redate⟩)
    case delSession => exact .inr (.inr rfl)
    all_goals exact .inl rfl
  · exact .inl rfl

/-- Only `SADD` changes the ingresses of a session. -/
theorem mem_ingress_apply_iff {op : Op} {db : Db} {now : Nat} {id ingressID : String}
    (wf : op.Wf) (uuid : isUuid id = true) :
    ingressID ∈ setOf (op.apply now db (ingressKey id)) ↔
      ingressID ∈ setOf (db (ingressKey id)) ∨ op = .addIngress id ingressID := by
  rw [Op.apply_ingress wf uuid]
  split
  · next own =>
    cases op <;> cases own <;> simp only [Op.effect, setOf_redate, setOf_keep]
    case addIngress other =>
      rw [Finset.mem_insert, Op.addIngress.injEq, or_comm]
      exact or_congr_right ⟨fun same => ⟨rfl, same.symm⟩, fun same => same.2.symm⟩
    all_goals exact (or_iff_left nofun).symm
  · next other =>
    refine (or_iff_left ?_).symm
    intro agrees
    subst agrees
    exact other rfl

/-- What an operation adds to the ingresses of a session. -/
theorem mem_ingress_apply {op : Op} {db : Db} {now : Nat} {id ingressID : String}
    (wf : op.Wf) (uuid : isUuid id = true)
    (member : ingressID ∈ setOf (op.apply now db (ingressKey id))) :
    ingressID ∈ setOf (db (ingressKey id)) ∨ op = .addIngress id ingressID :=
  (mem_ingress_apply_iff wf uuid).mp member

/-- What an operation makes of the expiry of the ingresses of a session. -/
theorem expiry_ingress_apply {op : Op} {id : String} (now : Nat) (db : Db) (wf : op.Wf)
    (uuid : isUuid id = true) :
    expiryOf (op.apply now db (ingressKey id)) = expiryOf (db (ingressKey id)) ∨
      ∃ ttl, op = .expireIngress id ttl ∧ expiryOf (op.apply now db (ingressKey id)) =
        (db (ingressKey id)).map fun _ => now + ttl := by
  rw [Op.apply_ingress wf uuid]
  split
  · next own =>
    cases op <;> cases own
    case expireIngress ttl => exact .inr ⟨ttl, rfl, expiryOf_redate⟩
    all_goals exact .inl rfl
  · exact .inl rfl

/-- What an operation makes of a room code: it stays, unless it is mapped or deleted. -/
theorem code_apply {op : Op} (now : Nat) (db : Db) (code : String) (wf : op.Wf) :
    op.apply now db (roomCodeKey code) = db (roomCodeKey code) ∨
      (∃ id ttl, op = .setCode code id ttl) ∨ op = .delCode code := by
  rw [Op.apply_roomCode wf]
  split
  · next own =>
    cases op <;> cases own
    case getCode => exact .inl rfl
    case setCode id ttl => exact .inr (.inl ⟨id, ttl, rfl⟩)
    case delCode => exact .inr (.inr rfl)
  · exact .inl rfl

/-- What an operation can add to the active sessions. -/
theorem mem_active_apply {op : Op} {db : Db} {now : Nat} {id : String} (wf : op.Wf)
    (member : id ∈ zsetOf (op.apply now db activeSessionsKey)) :
    id ∈ zsetOf (db activeSessionsKey) ∨ ∃ score, op = .addActive score id := by
  rw [Op.apply_active wf] at member
  split at member
  · next own =>
    cases op <;> cases own <;> simp only [Op.effect] at member
    case addActive score other =>
      rcases Finmap.mem_insert.mp member with rfl | old
      · exact .inr ⟨score, rfl⟩
      · exact .inl old
    case dropActive other =>
      split at member
      · exact absurd member Finmap.notMem_empty
      · exact .inl (Finmap.mem_erase.mp member).2
    case readActive => exact .inl member
  · exact .inl member

/-! ## Replies of a typed database -/

/-- What can be relied on in a reply of a typed database. -/
def Redis.Cmd.Sound : (c : Redis.Cmd) → c.Reply → Prop
  | .get key, v => ∀ code, key = roomCodeKey code → ∀ id ∈ v, isUuid id = true
  | .hgetall key, h => ∀ id, key = sessionKey id → isUuid id = true → h = ∅ ∨ SessionHash id h
  | .smembers key, ids =>
    ids.Nodup ∧ ∀ u, key = userSessionsKey u → ∀ id ∈ ids, isUuid id = true
  | .zrangeByScore _ _, ids => ids.Nodup ∧ ∀ id ∈ ids, isUuid id = true
  | _, _ => True

/-- A typed database replies soundly. -/
theorem Typed.sound {o : Order} {op : Op} {db : Db} (typed : Typed db) (wf : op.Wf) :
    op.cmd.Sound (op.reply o (op.entry db)) := by
  cases op with
  | getCode code =>
    intro code' eq id found
    exact (typed (.roomCode code) trivial).uuid_of_strOf found
  | readSession id =>
    intro id' eq uuid
    have same : id = id' := by
      have same : (Key.session id).text = (Key.session id').text := eq
      exact Key.session.inj (Key.text_injective wf uuid same)
    subst same
    exact typed.sessionHash uuid
  | readIngress id =>
    refine ⟨o.nodup _, fun u eq => ?_⟩
    have uuid : (Key.ingress id).Wf := wf
    have other : (Key.userSessions u).Wf := trivial
    cases Key.text_injective uuid other eq
  | readUser u =>
    refine ⟨o.nodup _, fun u' eq id member => ?_⟩
    exact (typed (.userSessions u) trivial).uuid_of_mem_set id (Order.mem_list.mp member)
  | readActive stop =>
    exact ⟨o.nodup _, fun id member => typed.uuid_of_listed member⟩
  | _ => trivial

/-! ## Operations in the world -/

/-- The world after an operation. -/
def World.after (w : World) (op : Op) : World := { w with redis := op.apply w.now w.redis }

@[simp] theorem World.after_redis (w : World) (op : Op) :
    (w.after op).redis = op.apply w.now w.redis := rfl

@[simp] theorem World.after_now (w : World) (op : Op) : (w.after op).now = w.now := rfl

@[simp] theorem World.after_livekit (w : World) (op : Op) : (w.after op).livekit = w.livekit := rfl

@[simp] theorem World.after_metrics (w : World) (op : Op) : (w.after op).metrics = w.metrics := rfl

/-- An operation carried out on a typed database. -/
theorem performs_op {w w' : World} {op : Op} {r : Except Err op.cmd.Reply}
    (typed : Typed w.redis) (wf : op.Wf) (performs : Performs w (.redis op.cmd) r w') :
    ∃ o, r = .ok (op.reply o (op.entry w.redis)) ∧ w' = w.after op := by
  obtain ⟨o, rfl, rfl⟩ := performs
  rw [exec_op typed wf]
  exact ⟨o, rfl, rfl⟩

/-- An operation that can fail: it is answered, or an error is reported and it was carried out or
not. -/
theorem exec_op_cases {faults : Cmd → Err → Prop} {w w' : World} {op : Op}
    {r : Except Err op.cmd.Reply} (typed : Typed w.redis) (wf : op.Wf)
    (exec : Exec faults w (.redis op.cmd) r w') :
    (∃ o, r = .ok (op.reply o (op.entry w.redis)) ∧ w' = w.after op) ∨
      ∃ err, faults (.redis op.cmd) err ∧ r = .error err ∧ (w' = w ∨ w' = w.after op) := by
  rcases exec with performs | ⟨err, fault, reports, rfl | ⟨r', performs⟩⟩
  · exact .inl (performs_op typed wf performs)
  · exact .inr ⟨err, fault, reports, .inl rfl⟩
  · obtain ⟨o, _, rfl⟩ := performs_op typed wf performs
    exact .inr ⟨err, fault, reports, .inr rfl⟩

/-- A command that is not one of Redis leaves the database and the clock alone. -/
theorem exec_frame {faults : Cmd → Err → Prop} {w w' : World} {c : Cmd} {r : c.Reply}
    (other : ∀ c', c ≠ .redis c') (exec : Exec faults w c r w') :
    w'.redis = w.redis ∧ w'.now = w.now := by
  have frame : ∀ {r : c.Reply}, Performs w c r w' → w'.redis = w.redis ∧ w'.now = w.now := by
    intro r performs
    cases c with
    | redis c' => exact absurd rfl (other c')
    | createIngress req =>
      obtain ⟨info, _, _, rfl⟩ := performs
      exact ⟨rfl, rfl⟩
    | newUuid =>
      obtain ⟨_, _, rfl⟩ := performs
      exact ⟨rfl, rfl⟩
    | deleteIngress | deleteRoom | timeNow | randInt | after =>
      obtain ⟨_, rfl⟩ := performs
      exact ⟨rfl, rfl⟩
    | utcNow | metric =>
      cases performs
      exact ⟨rfl, rfl⟩
  rcases exec with performs | ⟨err, _, _, rfl | ⟨r', performs⟩⟩
  · exact frame performs
  · exact ⟨rfl, rfl⟩
  · exact frame performs

/-! ## The pipelines as operations -/

namespace RedisStore

variable (r : RedisStore)

/-- The operations of `createPipeline` on the indexes. -/
def indexOps (session : Session) (now : Nat) : List Op :=
  (if session.roomCode ≠ "" then [.setCode session.roomCode session.id r.ttl] else []) ++
    [.addUserSession session.createdBy session.id, .expireUser session.createdBy r.ttl,
      .addActive (unix (now + r.ttl)) session.id]

/-- The operations of `createPipeline`. -/
def createOps (session : Session) (now : Nat) : List Op :=
  .writeSession session :: .expireSession session.id r.ttl :: r.indexOps session now

theorem createPipeline_eq (session : Session) (now : Nat) :
    r.createPipeline session now = (r.createOps session now).map Op.cmd := by
  rw [createPipeline, createOps, indexOps]
  split <;> rfl

/-- The operations of `deletePipeline`. -/
def deleteOps (sessionID : String) (session : Session) : List Op :=
  [.delSession sessionID, .delAccess sessionID, .dropUserSession session.createdBy sessionID,
    .dropActive sessionID] ++
    (if session.roomCode ≠ "" then [.delCode session.roomCode] else [])

theorem deletePipeline_eq (sessionID : String) (session : Session) :
    deletePipeline sessionID session = (deleteOps sessionID session).map Op.cmd := by
  rw [deletePipeline, deleteOps]
  split <;> rfl

variable {r} {session : Session} {now : Nat} {op : Op}

theorem mem_indexOps (member : op ∈ r.indexOps session now) :
    (op = .setCode session.roomCode session.id r.ttl ∧ session.roomCode ≠ "") ∨
      op = .addUserSession session.createdBy session.id ∨ op = .expireUser session.createdBy r.ttl ∨
      op = .addActive (unix (now + r.ttl)) session.id := by
  rw [indexOps] at member
  split at member
  · next nonempty =>
    simp only [List.cons_append, List.nil_append, List.mem_cons, List.not_mem_nil, or_false]
      at member
    rcases member with rfl | other
    · exact .inl ⟨rfl, nonempty⟩
    · exact .inr other
  · simp only [List.nil_append, List.mem_cons, List.not_mem_nil, or_false] at member
    exact .inr member

theorem mem_createOps (member : op ∈ r.createOps session now) :
    op = .writeSession session ∨ op = .expireSession session.id r.ttl ∨
      (op = .setCode session.roomCode session.id r.ttl ∧ session.roomCode ≠ "") ∨
      op = .addUserSession session.createdBy session.id ∨ op = .expireUser session.createdBy r.ttl ∨
      op = .addActive (unix (now + r.ttl)) session.id := by
  rcases List.mem_cons.mp member with first | rest
  · exact .inl first
  · rcases List.mem_cons.mp rest with second | index
    · exact .inr (.inl second)
    · exact .inr (.inr (mem_indexOps index))

theorem wf_of_mem_createOps (uuid : isUuid session.id = true)
    (member : op ∈ r.createOps session now) : op.Wf := by
  rcases mem_createOps member with rfl | rfl | ⟨rfl, _⟩ | rfl | rfl | rfl
  · exact uuid
  · exact ⟨uuid, r.ttl_pos⟩
  · exact uuid
  · exact uuid
  · exact r.ttl_pos
  · exact uuid

theorem wf_of_mem_deleteOps {id : String} (uuid : isUuid id = true)
    (member : op ∈ deleteOps id session) : op.Wf := by
  rw [deleteOps] at member
  split at member <;> simp only [List.cons_append, List.nil_append, List.append_nil, List.mem_cons,
    List.not_mem_nil, or_false] at member
  · rcases member with rfl | rfl | rfl | rfl | rfl <;> first | exact uuid | trivial
  · rcases member with rfl | rfl | rfl | rfl <;> exact uuid

end RedisStore

end DirectLink
