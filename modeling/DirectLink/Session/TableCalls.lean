import DirectLink.Runs
import DirectLink.Session.Refinement

/-!
# The methods of the store on the session table

Each method, run alone, returns what the tables answer and leaves what they say
(`Represents.call`); so does every sequence of calls (`store_refines_tables`).
-/

namespace DirectLink

open RedisStore

section Methods

variable {r : RedisStore} {t : Tables} {w : World} {s : Session} {id u role status code : String}
variable {ingressID : String}

theorem refines_createSession (rep : Represents t w) (uuid : isUuid s.id = true)
    (fresh : t.sessions s.id = none) :
    (r.createSession s).wp (worldLogic Cmd.OfStore)
      (fun result w' => result = .ok () ∧ Represents (t.create r.ttl s) w') w := by
  refine Prog.wp_mono (alone_createSession rep.typed uuid) ?_
  intro result w' holds
  obtain ⟨ok, rfl⟩ := holds
  exact ⟨ok, rep.create uuid fresh⟩

theorem refines_getSession (rep : Represents t w) (coherent : t.Coherent)
    (uuid : isUuid id = true) :
    (r.getSession id).wp (worldLogic Cmd.OfStore)
      (fun result w' => result = t.find id ∧ w' = w) w := by
  refine Prog.wp_mono (alone_getSession rep.typed uuid) ?_
  intro result w' holds
  rw [rep.find coherent uuid] at holds
  exact holds

theorem refines_getSessionByRoomCode (rep : Represents t w) (coherent : t.Coherent) :
    (r.getSessionByRoomCode code).wp (worldLogic Cmd.OfStore)
      (fun result w' => result = t.findByCode code ∧ w' = w) w := by
  refine Prog.wp_mono (alone_getSessionByRoomCode rep.typed) ?_
  intro result w' holds
  rw [rep.findByCode coherent] at holds
  exact holds

theorem refines_updateSessionStatus (rep : Represents t w) (coherent : t.Coherent)
    (uuid : isUuid id = true) :
    (r.updateSessionStatus id status).wp (worldLogic Cmd.OfStore)
      (fun result w' => result = t.present id ∧
        Represents (t.updateSessionStatus id status) w') w := by
  refine Prog.wp_mono (alone_updateSessionStatus rep.typed uuid) ?_
  intro result w' holds
  rw [rep.isSome uuid] at holds
  rw [Tables.present, Tables.updateSessionStatus]
  cases entered : t.sessions id with
  | none =>
    rw [entered] at holds
    obtain ⟨failed, rfl⟩ := holds
    exact ⟨failed, rep⟩
  | some s =>
    rw [entered] at holds
    obtain ⟨ok, rfl⟩ := holds
    obtain ⟨_, rfl, _⟩ := coherent.entered entered
    exact ⟨ok, rep.setStatus uuid entered⟩

theorem refines_deleteSession (rep : Represents t w) (coherent : t.Coherent)
    (uuid : isUuid id = true) :
    (r.deleteSession id).wp (worldLogic Cmd.OfStore)
      (fun result w' => result = t.present id ∧ Represents (t.deleteSession id) w') w := by
  refine Prog.wp_mono (alone_deleteSession rep.typed uuid) ?_
  intro result w' holds
  rw [rep.find coherent uuid, Tables.find] at holds
  rw [Tables.present, Tables.deleteSession]
  cases entered : t.sessions id with
  | none =>
    rw [entered] at holds
    obtain ⟨failed, rfl⟩ := holds
    exact ⟨failed, rep⟩
  | some s =>
    rw [entered] at holds
    obtain ⟨ok, rfl⟩ := holds
    obtain ⟨_, rfl, _⟩ := coherent.entered entered
    exact ⟨ok, rep.delete uuid entered⟩

theorem refines_grantAccess (rep : Represents t w) (uuid : isUuid id = true) :
    (r.grantAccess id u role).wp (worldLogic Cmd.OfStore)
      (fun result w' => result = t.present id ∧ Represents (t.grantAccess id u role) w') w := by
  refine Prog.wp_mono (alone_grantAccess rep.typed uuid) ?_
  intro result w' holds
  rw [rep.isSome uuid] at holds
  rw [Tables.present, Tables.grantAccess]
  split at holds
  · next entered =>
    obtain ⟨ok, rfl⟩ := holds
    rw [if_pos entered, if_pos entered]
    exact ⟨ok, rep.grant uuid⟩
  · next absent =>
    obtain ⟨failed, rfl⟩ := holds
    rw [if_neg absent, if_neg absent]
    exact ⟨failed, rep⟩

theorem refines_revokeAccess (rep : Represents t w) (uuid : isUuid id = true) :
    (r.revokeAccess id u).wp (worldLogic Cmd.OfStore)
      (fun result w' => result = .ok () ∧ Represents (t.setRole id u none) w') w := by
  refine Prog.wp_mono (alone_revokeAccess rep.typed uuid) ?_
  intro result w' holds
  obtain ⟨ok, rfl⟩ := holds
  exact ⟨ok, rep.revoke uuid⟩

theorem refines_addIngressID (rep : Represents t w) (uuid : isUuid id = true) :
    (r.addIngressID id ingressID).wp (worldLogic Cmd.OfStore)
      (fun result w' => result = .ok () ∧ Represents (t.addIngress id ingressID) w') w := by
  refine Prog.wp_mono (alone_addIngressID rep.typed uuid) ?_
  intro result w' holds
  obtain ⟨ok, rfl⟩ := holds
  exact ⟨ok, rep.addIngress uuid⟩

theorem refines_getIngressIDs (rep : Represents t w) (uuid : isUuid id = true) :
    (r.getIngressIDs id).wp (worldLogic Cmd.OfStore)
      (fun result w' => (∃ list : List String, result = .ok list ∧ list.Nodup ∧
        list.toFinset = t.ingresses id) ∧ w' = w) w := by
  refine Prog.wp_mono (alone_getIngressIDs rep.typed uuid) ?_
  intro result w' holds
  obtain ⟨o, listed, same⟩ := holds
  have stored : setOf (w.redis (ingressKey id)) = t.ingresses id := rep.shows (.ingress id) uuid
  refine ⟨⟨_, listed, o.nodup _, ?_⟩, same⟩
  rw [stored]
  ext ingressID
  rw [List.mem_toFinset, Redis.Order.mem_list]

/-- Sessions listed by their ids. -/
theorem lists_filterMap {ids : List String} {P : Session → Prop} {pick : String → Option Session}
    (coherent : t.Coherent) (nodup : ids.Nodup)
    (picks : ∀ id s, pick id = some s → t.sessions id = some s)
    (all : ∀ s, (∃ id ∈ ids, pick id = some s) ↔ t.sessions s.id = some s ∧ P s) :
    t.Lists P (ids.filterMap pick) := by
  constructor
  · refine nodup.filterMap ?_
    intro id id' s picked picked'
    have own := (coherent.entered (picks id s picked)).2.1
    have own' := (coherent.entered (picks id' s picked')).2.1
    exact own.symm.trans own'
  · intro s
    rw [List.mem_filterMap]
    exact all s

/-- Every session in a user's set is there, so the loop prunes none. -/
theorem refines_collectUserSessions {ids : List String} {sessions : List Session}
    (rep : Represents t w) (coherent : t.Coherent) (there : ∀ id ∈ ids, (t.sessions id).isSome) :
    (r.collectUserSessions (userSessionsKey u) ids sessions).wp (worldLogic Cmd.OfStore)
      (fun result w' => result = .ok (sessions ++ ids.filterMap t.sessions) ∧ w' = w) w := by
  induction ids generalizing sessions with
  | nil =>
    refine ⟨?_, rfl⟩
    rw [List.filterMap_nil, List.append_nil]
  | cons id ids ih =>
    obtain ⟨s, entered⟩ := Option.isSome_iff_exists.mp (there id List.mem_cons_self)
    have uuid := (coherent.entered entered).1
    refine wp_collectUserSessions_cons ?_
    refine answers_read (.readSession id) rep.typed uuid trivial trivial ?_
    intro _
    have entry : (Op.readSession id).entry w.redis = w.redis (sessionKey id) := rfl
    have found : t.find id = .ok s := by rw [Tables.find, entered]
    rw [Op.reply, entry, rep.find coherent uuid, found]
    have shift : sessions ++ s :: ids.filterMap t.sessions =
      sessions ++ [s] ++ ids.filterMap t.sessions := List.append_cons ..
    rw [List.filterMap_cons_some entered, shift]
    exact ih fun id mem => there id (List.mem_cons_of_mem _ mem)

theorem refines_getUserSessions (rep : Represents t w) (coherent : t.Coherent) :
    (r.getUserSessions u).wp (worldLogic Cmd.OfStore) (fun result w' => (∃ list,
      result = .ok list ∧ t.Lists (fun s => s.createdBy = u) list) ∧ w' = w) w := by
  have listed := rep.shows (.userSessions u) trivial
  refine wp_getUserSessions ?_
  refine answers_read (.readUser u) rep.typed trivial trivial trivial ?_
  intro o
  have entry : (Op.readUser u).entry w.redis = w.redis (userSessionsKey u) := rfl
  rw [Op.reply, entry]
  have mem {id : String} : id ∈ o.list (setOf (w.redis (userSessionsKey u))) ↔
      ∃ s, t.sessions id = some s ∧ s.createdBy = u := Redis.Order.mem_list.trans (listed id)
  refine Prog.wp_mono (refines_collectUserSessions rep coherent ?_) ?_
  · intro id inSet
    obtain ⟨s, entered, _⟩ := mem.mp inSet
    rw [entered]
    rfl
  · intro result w' holds
    obtain ⟨ok, same⟩ := holds
    refine ⟨⟨_, ok, ?_⟩, same⟩
    refine lists_filterMap coherent (o.nodup _) (fun _ _ picked => picked) ?_
    intro s
    constructor
    · intro post
      rcases post with ⟨id, inSet, entered⟩
      obtain ⟨s', entered', own⟩ := mem.mp inSet
      obtain rfl : s = s' := Option.some.inj (entered.symm.trans entered')
      obtain ⟨_, rfl, _⟩ := coherent.entered entered
      exact ⟨entered, own⟩
    · intro post
      rcases post with ⟨entered, own⟩
      exact ⟨s.id, mem.mpr ⟨s, entered, own⟩, entered⟩

/-! ### Expired sessions -/

/-- An entered session that is not closed. -/
def Tables.openSession (t : Tables) (id : String) : Option Session :=
  (t.sessions id).filter fun s => s.status ≠ statusClosed

/-- A closed session is no longer to be kept. -/
def Tables.dropClosed (t : Tables) (id : String) : Tables :=
  if t.closed id then t.dropActive id else t

theorem Tables.sessions_dropClosed : (t.dropClosed id).sessions = t.sessions := by
  rw [Tables.dropClosed]
  split <;> rfl

/-- Several closed sessions. -/
theorem Tables.foldl_dropClosed {ids : List String} :
    ids.foldl Tables.dropClosed t = { t with
      active := fun id => if id ∈ ids ∧ t.closed id then none else t.active id } := by
  induction ids generalizing t with
  | nil => simp
  | cons id ids ih =>
    rw [List.foldl_cons, ih]
    have closed : ∀ id', (t.dropClosed id).closed id' = t.closed id' := by
      intro id'
      rw [Tables.closed, Tables.sessions_dropClosed, Tables.closed]
    simp only [closed]
    rw [Tables.dropClosed]
    split
    · next isClosed =>
      refine congrArg (fun active => { t with active }) (funext fun id' => ?_)
      dsimp only [Tables.dropActive]
      rw [Function.update_apply]
      by_cases same : id' = id
      · simp [same, isClosed]
      · simp [same]
    · next other =>
      refine congrArg (fun active => { t with active }) (funext fun id' => ?_)
      by_cases same : id' = id
      · simp [same, other]
      · simp [same]

/-- Every closed session that is due. -/
theorem Tables.foldl_dropClosed_due {ids : List String} {now : Nat}
    (due : ∀ id, id ∈ ids ↔ t.Due now id) : ids.foldl Tables.dropClosed t = t.dropDue now := by
  rw [Tables.foldl_dropClosed, Tables.dropDue]
  refine congrArg (fun active => { t with active }) (funext fun id => ?_)
  have due := due id
  rw [Tables.Due] at due
  cases kept : t.active id with
  | none => simp
  | some score =>
    rw [kept] at due
    by_cases drop : score ≤ unix now ∧ t.closed id = true
    · have inList := due.mpr ⟨score, rfl, drop.1⟩
      rw [if_pos ⟨inList, drop.2⟩, Option.filter_some, if_neg]
      simpa using drop
    · have stays : ¬ (id ∈ ids ∧ t.closed id = true) := by
        intro both
        obtain ⟨score', same, le⟩ := due.mp both.1
        cases same
        exact drop ⟨le, both.2⟩
      rw [if_neg stays, Option.filter_some, if_pos]
      exact decide_eq_true drop

theorem refines_collectExpired {ids : List String} {sessions : List Session}
    (rep : Represents t w) (coherent : t.Coherent) (uuids : ∀ id ∈ ids, isUuid id = true) :
    (r.collectExpired ids sessions).wp (worldLogic Cmd.OfStore)
      (fun result w' => result = .ok (sessions ++ ids.filterMap t.openSession) ∧
        Represents (ids.foldl Tables.dropClosed t) w') w := by
  induction ids generalizing t w sessions with
  | nil =>
    refine ⟨?_, rep⟩
    rw [List.filterMap_nil, List.append_nil]
  | cons id ids ih =>
    have uuid := uuids id List.mem_cons_self
    have uuids' : ∀ id ∈ ids, isUuid id = true :=
      fun id mem => uuids id (List.mem_cons_of_mem _ mem)
    refine wp_collectExpired_cons ?_
    refine answers_read (.readSession id) rep.typed uuid trivial trivial ?_
    intro _
    have entry : (Op.readSession id).entry w.redis = w.redis (sessionKey id) := rfl
    rw [Op.reply, entry, rep.find coherent uuid, Tables.find, List.foldl_cons]
    cases entered : t.sessions id with
    | none =>
      have skipped : t.openSession id = none := by
        rw [Tables.openSession, entered, Option.filter_none]
      have other : t.dropClosed id = t := by simp [Tables.dropClosed, Tables.closed, entered]
      rw [List.filterMap_cons_none skipped, other]
      exact ih rep coherent uuids'
    | some s =>
      dsimp only
      split
      · next isClosed =>
        have skipped : t.openSession id = none := by
          rw [Tables.openSession, entered]
          simp [isClosed]
        have dropped : t.dropClosed id = t.dropActive id := by
          simp [Tables.dropClosed, Tables.closed, entered, isClosed]
        rw [List.filterMap_cons_none skipped, dropped]
        refine answers_world (.dropActive id) rep.typed uuid trivial ?_
        intro _
        have coherent' : (t.dropActive id).Coherent := ⟨coherent.entered, coherent.coded⟩
        exact ih (rep.dropActive uuid) coherent' uuids'
      · next other =>
        have kept : t.openSession id = some s := by
          rw [Tables.openSession, entered]
          simp [other]
        have same : t.dropClosed id = t := by
          simp [Tables.dropClosed, Tables.closed, entered, other]
        have shift : sessions ++ s :: ids.filterMap t.openSession =
          sessions ++ [s] ++ ids.filterMap t.openSession := List.append_cons ..
        rw [List.filterMap_cons_some kept, same, shift]
        exact ih rep coherent uuids'

theorem refines_getExpiredSessions {now : Nat} (rep : Represents t w) (coherent : t.Coherent) :
    (r.getExpiredSessions now).wp (worldLogic Cmd.OfStore) (fun result w' => (∃ list,
      result = .ok list ∧
        t.Lists (fun s => s.status ≠ statusClosed ∧ t.Due now s.id) list) ∧
      Represents (t.dropDue now) w') w := by
  have stored := rep.shows .active trivial
  refine wp_getExpiredSessions ?_
  refine answers_read (.readActive (unix now)) rep.typed trivial trivial trivial ?_
  intro o
  have entry : (Op.readActive (unix now)).entry w.redis = w.redis activeSessionsKey := rfl
  rw [Op.reply, entry]
  have mem (id : String) :
      id ∈ o.list ((zsetOf (w.redis activeSessionsKey)).upTo (unix now)) ↔ t.Due now id := by
    rw [Redis.Order.mem_list, Redis.ZSet.mem_upTo, Tables.Due]
    have stored := stored id
    rw [Key.text] at stored
    rw [stored]
  have uuids : ∀ id ∈ o.list ((zsetOf (w.redis activeSessionsKey)).upTo (unix now)),
      isUuid id = true :=
    fun id inList => rep.typed.uuid_of_listed inList
  refine Prog.wp_mono (refines_collectExpired rep coherent uuids) ?_
  intro result w' holds
  obtain ⟨ok, rep'⟩ := holds
  constructor
  · refine ⟨_, ok, lists_filterMap coherent (o.nodup _) ?_ ?_⟩
    · intro id s picked
      exact (Option.filter_eq_some_iff.mp picked).1
    · intro s
      constructor
      · intro post
        rcases post with ⟨id, inList, picked⟩
        obtain ⟨entered, isOpen⟩ := Option.filter_eq_some_iff.mp picked
        obtain ⟨_, rfl, _⟩ := coherent.entered entered
        exact ⟨entered, of_decide_eq_true isOpen, (mem s.id).mp inList⟩
      · intro post
        rcases post with ⟨entered, isOpen, due⟩
        refine ⟨s.id, (mem s.id).mpr due, Option.filter_eq_some_iff.mpr ⟨entered, ?_⟩⟩
        exact decide_eq_true isOpen
  · rw [← Tables.foldl_dropClosed_due mem]
    exact rep'

/-! ### Every call -/

/-- **A call alone** returns what the tables answer and leaves what they say. -/
theorem Represents.call {call : StoreCall} (rep : Represents t w) (coherent : t.Coherent)
    (fresh : t.Fresh call) : (call.code r).wp (worldLogic Cmd.OfStore)
      (fun a w' => t.Answers call a ∧ Represents (t.next r.ttl call) w') w := by
  have result {α : Type} {p : Go α} {f : α → Result} {Q : α → World → Prop}
      (refines : p.wp (worldLogic Cmd.OfStore) Q w)
      (answers : ∀ a w', Q a w' → t.Answers call (f a) ∧ Represents (t.next r.ttl call) w') :
      (p >>= fun a => Prog.done (f a)).wp (worldLogic Cmd.OfStore)
        (fun a w' => t.Answers call a ∧ Represents (t.next r.ttl call) w') w := by
    rw [Prog.wp_bind]
    exact Prog.wp_mono refines answers
  cases call with
  | createSession new =>
    refine result (refines_createSession rep new.2 fresh.1) ?_
    intro a w' holds
    exact ⟨congrArg Result.unit holds.1, holds.2⟩
  | getSession id =>
    refine result (refines_getSession rep coherent id.2) ?_
    intro a w' holds
    obtain ⟨found, rfl⟩ := holds
    exact ⟨congrArg Result.session found, rep⟩
  | getSessionByRoomCode code =>
    refine result (refines_getSessionByRoomCode rep coherent) ?_
    intro a w' holds
    obtain ⟨found, rfl⟩ := holds
    exact ⟨congrArg Result.session found, rep⟩
  | updateSessionStatus id status =>
    refine result (refines_updateSessionStatus rep coherent id.2) ?_
    intro a w' holds
    exact ⟨congrArg Result.unit holds.1, holds.2⟩
  | deleteSession id =>
    refine result (refines_deleteSession rep coherent id.2) ?_
    intro a w' holds
    exact ⟨congrArg Result.unit holds.1, holds.2⟩
  | getExpiredSessions now =>
    refine result (refines_getExpiredSessions rep coherent) ?_
    intro a w' holds
    obtain ⟨⟨list, rfl, lists⟩, rep'⟩ := holds
    exact ⟨⟨list, rfl, lists⟩, rep'⟩
  | getRole id u =>
    refine result (alone_getRole rep.typed id.2) ?_
    intro a w' holds
    obtain ⟨found, rfl⟩ := holds
    rw [rep.role id.2] at found
    exact ⟨congrArg Result.text found, rep⟩
  | grantAccess id u role =>
    refine result (refines_grantAccess rep id.2) ?_
    intro a w' holds
    exact ⟨congrArg Result.unit holds.1, holds.2⟩
  | revokeAccess id u =>
    refine result (refines_revokeAccess rep id.2) ?_
    intro a w' holds
    exact ⟨congrArg Result.unit holds.1, holds.2⟩
  | hasAccess id u =>
    refine result (alone_hasAccess rep.typed id.2) ?_
    intro a w' holds
    obtain ⟨found, rfl⟩ := holds
    rw [rep.role id.2] at found
    exact ⟨congrArg Result.bool found, rep⟩
  | getUserSessions u =>
    refine result (refines_getUserSessions rep coherent) ?_
    intro a w' holds
    obtain ⟨⟨list, rfl, lists⟩, rfl⟩ := holds
    exact ⟨⟨list, rfl, lists⟩, rep⟩
  | addIngressID id ingressID =>
    refine result (refines_addIngressID rep id.2) ?_
    intro a w' holds
    exact ⟨congrArg Result.unit holds.1, holds.2⟩
  | getIngressIDs id =>
    refine result (refines_getIngressIDs rep id.2) ?_
    intro a w' holds
    obtain ⟨⟨list, rfl, lists⟩, rfl⟩ := holds
    exact ⟨⟨list, rfl, lists⟩, rep⟩
  | ping =>
    refine result (alone_ping rep.typed) ?_
    intro a w' holds
    obtain ⟨ok, rfl⟩ := holds
    exact ⟨congrArg Result.unit ok, rep⟩

end Methods

/-! ## Sequences of calls -/

/-- The id and the room code, if it has one, of a session that a call creates. -/
def Call.newId : Call → Option String
  | .store (.createSession new) => some new.1.id
  | _ => none

def Call.newCode : Call → Option String
  | .store (.createSession new) => if new.1.roomCode = "" then none else some new.1.roomCode
  | _ => none

/-- No id and no room code is used twice. -/
structure NamedOnce (calls : List (Call × Result)) : Prop where
  ids : (calls.filterMap fun p => p.1.newId).Nodup
  codes : (calls.filterMap fun p => p.1.newCode).Nodup

/-- Only store methods are called, and nothing expires. -/
def Unexpired : World → Call ⊕ Nat → Prop
  | _, .inl call => call.isStore = true
  | w, .inr t => w.redis.expire t = w.redis

section Sequences

variable {b : Backend} {t : Tables} {w w' : World} {calls : List (Call × Result)} {a : Result}
variable {call : Call}

theorem performs_of_noFaults {c : Cmd} {reply : c.Reply} (exec : Exec noFaults w c reply w') :
    Performs w c reply w' := by
  obtain performs | ⟨_, impossible, _⟩ := exec
  · exact performs
  · exact impossible.elim

theorem NamedOnce.init (once : NamedOnce (calls ++ [(call, a)])) : NamedOnce calls where
  ids := once.ids.sublist ((List.sublist_append_left calls _).filterMap _)
  codes := once.codes.sublist ((List.sublist_append_left calls _).filterMap _)

/-- The tables hold sessions that were created. -/
structure Tables.From (t : Tables) (calls : List (Call × Result)) : Prop where
  ids : ∀ id, (t.sessions id).isSome → id ∈ calls.filterMap fun p => p.1.newId
  codes : ∀ code, (t.codes code).isSome → code ∈ calls.filterMap fun p => p.1.newCode

/-- What is created next is not in the tables. -/
theorem Tables.From.fresh {sc : StoreCall} (from_ : t.From calls)
    (once : NamedOnce (calls ++ [(.store sc, a)])) : t.Fresh sc := by
  cases sc with
  | createSession new =>
    constructor
    · by_contra taken
      have mem := from_.ids new.1.id (Option.isSome_iff_ne_none.mpr taken)
      have nodup := once.ids
      rw [List.filterMap_append] at nodup
      exact List.disjoint_of_nodup_append nodup mem List.mem_cons_self
    · intro coded
      by_contra taken
      have mem := from_.codes new.1.roomCode (Option.isSome_iff_ne_none.mpr taken)
      have nodup := once.codes
      have newCode : (Call.store (.createSession new)).newCode = some new.1.roomCode :=
        if_neg coded
      rw [List.filterMap_append, List.filterMap_cons_some (by exact newCode)] at nodup
      exact List.disjoint_of_nodup_append nodup mem List.mem_cons_self
  | _ => trivial

theorem Tables.From.next {ttl : Nat} {sc : StoreCall} (from_ : t.From calls)
    (coherent : t.Coherent) : (t.next ttl sc).From (calls ++ [(.store sc, a)]) := by
  have earlier (name : Call → Option String) {x : String}
      (mem : x ∈ calls.filterMap fun p => name p.1) :
      x ∈ (calls ++ [(Call.store sc, a)]).filterMap fun p => name p.1 := by
    rw [List.filterMap_append]
    exact List.mem_append_left _ mem
  have fewer {t' : Tables} (sessions : ∀ id, (t'.sessions id).isSome → (t.sessions id).isSome)
      (codes : ∀ code, (t'.codes code).isSome → (t.codes code).isSome) :
      t'.From (calls ++ [(.store sc, a)]) := by
    constructor
    · intro id entered
      exact earlier Call.newId (from_.ids id (sessions id entered))
    · intro code mapped
      exact earlier Call.newCode (from_.codes code (codes code mapped))
  cases sc with
  | createSession new =>
    constructor
    · intro id entered
      dsimp only [Tables.next, Tables.create] at entered
      rw [Function.update_apply] at entered
      split at entered
      · next same =>
        rw [List.filterMap_append]
        exact List.mem_append_right _ (by rw [same]; exact List.mem_cons_self)
      · exact earlier Call.newId (from_.ids id entered)
    · intro code mapped
      dsimp only [Tables.next, Tables.create] at mapped
      split at mapped
      · exact earlier Call.newCode (from_.codes code mapped)
      · next coded =>
        rw [Function.update_apply] at mapped
        split at mapped
        · next same =>
          have newCode : (Call.store (.createSession new)).newCode = some new.1.roomCode :=
            if_neg coded
          rw [List.filterMap_append, List.filterMap_cons_some (by exact newCode), same]
          exact List.mem_append_right _ List.mem_cons_self
        · exact earlier Call.newCode (from_.codes code mapped)
  | updateSessionStatus id status =>
    dsimp only [Tables.next, Tables.updateSessionStatus]
    split
    · next s entered =>
      refine fewer ?_ fun _ mapped => mapped
      intro id' entered'
      dsimp only [Tables.setStatus] at entered'
      rw [Function.update_apply] at entered'
      split at entered'
      · next same =>
        rw [same, (coherent.entered entered).2.1, entered]
        rfl
      · exact entered'
    · exact fewer (fun _ entered => entered) fun _ mapped => mapped
  | deleteSession id =>
    dsimp only [Tables.next, Tables.deleteSession]
    split
    · next s entered =>
      refine fewer ?_ ?_
      · intro id' entered'
        dsimp only [Tables.delete] at entered'
        rw [Function.update_apply] at entered'
        split at entered'
        · cases entered'
        · exact entered'
      · intro code mapped
        dsimp only [Tables.delete] at mapped
        split at mapped
        · exact mapped
        · rw [Function.update_apply] at mapped
          split at mapped
          · cases mapped
          · exact mapped
    · exact fewer (fun _ entered => entered) fun _ mapped => mapped
  | grantAccess id u role =>
    dsimp only [Tables.next, Tables.grantAccess]
    split <;> exact fewer (fun _ entered => entered) fun _ mapped => mapped
  | _ => exact fewer (fun _ entered => entered) fun _ mapped => mapped

theorem represents_empty (empty : w.redis = .empty) : Represents (.empty w.now) w where
  typed := by
    rw [empty]
    exact typed_empty
  clock := rfl
  shows := by
    rw [empty]
    intro k _
    cases k <;> simp [Tables.Shows, Tables.empty, Redis.Db.empty]

/-- **Refinement**: a sequence of fault-free calls on an empty store, one at a time, is one of the
session table. -/
theorem store_refines_tables (empty : w.redis = .empty)
    (hist : Hist (Y := b.system noFaults) Unexpired w calls w') (once : NamedOnce calls) :
    ∃ t, Tables.Run b.server.store.ttl (.empty w.now) calls t ∧ Represents t w' := by
  suffices ∃ t, Tables.Run b.server.store.ttl (.empty w.now) calls t ∧ Represents t w' ∧
      t.Coherent ∧ t.From calls by
    obtain ⟨t, run, rep, _⟩ := this
    exact ⟨t, run, rep⟩
  refine hist.invariant (I := fun calls w' => NamedOnce calls →
    ∃ t, Tables.Run b.server.store.ttl (.empty w.now) calls t ∧ Represents t w' ∧
      t.Coherent ∧ t.From calls) ?_ ?_ ?_ once
  · intro _
    refine ⟨_, .nil, represents_empty empty, Tables.coherent_empty, ?_⟩
    exact ⟨nofun, nofun⟩
  · intro calls w₁ call a w₂ _ ih isStore run once
    obtain ⟨t, answered, rep, coherent, from_⟩ := ih once.init
    cases call with
    | store sc =>
      have fresh := from_.fresh once
      have alone : Alone (sc.code b.server.store) w₁ a w₂ :=
        run.mono fun _ _ _ _ exec => performs_of_noFaults exec
      obtain ⟨answers, rep'⟩ := alone_of_wp (rep.call coherent fresh) alone
      exact ⟨_, .call answered answers, rep', coherent.next fresh, from_.next coherent⟩
    | _ => cases isStore
  · intro calls w₁ now w₂ _ ih kept env once
    obtain ⟨t, answered, rep, coherent, from_⟩ := ih once
    obtain ⟨later, rfl⟩ := env
    have kept : w₁.redis.expire now = w₁.redis := kept
    have clock : t.clock ≤ now := by
      rw [← rep.clock]
      exact later
    refine ⟨_, .tick answered clock, ?_, ⟨coherent.entered, coherent.coded⟩,
      ⟨from_.ids, from_.codes⟩⟩
    constructor
    · rw [World.at_redis, kept]
      exact rep.typed
    · rfl
    · rw [World.at_redis, kept]
      exact rep.shows

end Sequences

namespace Sample

/-- A session whose creator and room code look like keys. -/
def keyLike : NewSession := ⟨⟨id₁, "a:b", "user:x:sessions", createdAt, 2, "active"⟩, uuid_id₁⟩

/-- A creation and a listing. -/
def keyLikeCalls (a a' : Result) : List (Call × Result) :=
  [(.store (.createSession keyLike), a), (.store (.getUserSessions "user:x:sessions"), a')]

end Sample

theorem store_refines_tables_sample : ∃ a a' t,
    Tables.Run Sample.store.ttl (.empty 0) (Sample.keyLikeCalls a a') t := by
  let w : World := .empty 0 fun _ => 7
  have rep : Represents (.empty w.now) w := represents_empty rfl
  have fresh : (Tables.empty w.now).Fresh (.createSession Sample.keyLike) := ⟨rfl, fun _ => rfl⟩
  obtain ⟨a, w₁, first, _, rep₁⟩ :=
    alone_total (rep.call (r := Sample.store) Tables.coherent_empty fresh)
  have coherent : ((Tables.empty w.now).next Sample.store.ttl
      (.createSession Sample.keyLike)).Coherent := Tables.coherent_empty.next fresh
  have listing : Tables.Fresh ((Tables.empty w.now).next Sample.store.ttl
    (.createSession Sample.keyLike)) (.getUserSessions "user:x:sessions") := trivial
  obtain ⟨a', w₂, second, _⟩ := alone_total (rep₁.call (r := Sample.store) coherent listing)
  have lift {sc : StoreCall} {w w' : World} {a : Result}
      (alone : Alone (sc.code Sample.store) w a w') :
      (Sample.backend.code (.store sc)).Runs (Exec noFaults) w a w' :=
    alone.mono fun _ _ _ _ performs => .inl performs
  have hist : Hist (Y := Sample.backend.system noFaults) Unexpired w (Sample.keyLikeCalls a a')
      w₂ := .call (.call .nil rfl (lift first)) rfl (lift second)
  have once : NamedOnce (Sample.keyLikeCalls a a') :=
    ⟨List.nodup_singleton _, List.nodup_singleton _⟩
  obtain ⟨t, run, _⟩ := store_refines_tables (b := Sample.backend) rfl hist once
  exact ⟨a, a', t, run⟩

end DirectLink
