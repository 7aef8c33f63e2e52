import DirectLink.Runs
import DirectLink.Session.Apart

/-!
# Calls about different sessions do not interfere

Two calls of the store about different sessions run interleaved, Redis command by Redis command, as
if they ran one after the other, in either order: the same results and the same contents.  The
listing order of a set is arbitrary, and `EXPIRE` on the shared set of a user may find it or not;
no method looks at the reply of an `EXPIRE`.
-/

namespace DirectLink

open RedisStore

/-! ## Calls and their sessions -/

namespace StoreCall

/-- The session a call is about. -/
def subject : StoreCall → Option String
  | createSession new => some new.1.id
  | getSession id | updateSessionStatus id _ | deleteSession id | getRole id _
  | grantAccess id _ _ | revokeAccess id _ | hasAccess id _ | addIngressID id _
  | getIngressIDs id => some id.1
  | getSessionByRoomCode _ | getExpiredSessions _ | getUserSessions _ | ping => none

/-- A session is created with a room code of its own; `owner` says whose each code is. -/
def Named (owner : String → Option String) : StoreCall → Prop
  | createSession new => new.1.roomCode ≠ "" ∧ owner new.1.roomCode = some new.1.id
  | _ => True

end StoreCall

/-- The results agree, up to the order of a list of ingresses. -/
def SameResult : Result → Result → Prop
  | .texts (.ok l), .texts (.ok l') => l.Perm l'
  | a, a' => a = a'

theorem SameResult.refl (a : Result) : SameResult a a := by
  cases a
  case texts r =>
    cases r with
    | error err => rfl
    | ok l => exact List.Perm.refl l
  all_goals rfl

theorem SameResult.trans {a a' a'' : Result} (first : SameResult a a')
    (second : SameResult a' a'') : SameResult a a'' := by
  unfold SameResult at first
  split at first
  · unfold SameResult at second
    split at second
    · next l l' _ _ l₁ l₁' same =>
      cases same
      exact List.Perm.trans first second
    · next l l' _ _ different =>
      subst second
      exact first
  · subst first
    exact second

/-! ## How the commands about a session behave -/

/-- The stored sessions have room codes of their own. -/
def CodesOwned (owner : String → Option String) (db : Redis.Db) : Prop :=
  ∀ id, isUuid id = true → ∀ session, Live db id session → session.roomCode ≠ "" →
    owner session.roomCode = some id

/-- Redis answers; the hash of a session shows a room code of its own. -/
def Answered (owner : String → Option String) : (c : Cmd) → c.Reply → Prop
  | .redis (.hgetall key), r => ∃ h, r = .ok h ∧ ∀ id, isUuid id = true → key = sessionKey id →
      ∀ session, parseSession h = .ok session → session.roomCode ≠ "" →
        owner session.roomCode = some id
  | .redis _, r => ∃ v, r = .ok v
  | _, _ => True

/-- The replies agree, up to the order of a listing and the reply of an `EXPIRE`. -/
def Cmd.Similar : (c : Cmd) → c.Reply → c.Reply → Prop
  | .redis (.expire _ _), r, r' => ∃ v v', r = .ok v ∧ r' = .ok v'
  | .redis (.smembers _), r, r' => ∃ v v', r = .ok v ∧ r' = .ok v' ∧ v.Perm v'
  | _, r, r' => r = r'

theorem Cmd.Similar.trans {c : Cmd} {r r' r'' : c.Reply} (first : c.Similar r r')
    (second : c.Similar r' r'') : c.Similar r r'' := by
  unfold Cmd.Similar at first
  split at first
  · obtain ⟨v, v', rfl, _⟩ := first
    obtain ⟨_, v'', _, rfl⟩ := second
    exact ⟨v, v'', rfl, rfl⟩
  · obtain ⟨v, v', rfl, rfl, perm⟩ := first
    obtain ⟨_, v'', same, rfl, perm'⟩ := second
    cases same
    exact ⟨v, v'', rfl, rfl, perm.trans perm'⟩
  · subst first
    exact second

theorem Cmd.Similar.symm {c : Cmd} {r r' : c.Reply} (similar : c.Similar r r') :
    c.Similar r' r := by
  cases c
  case redis c =>
    cases c
    case expire =>
      obtain ⟨v, v', rfl, rfl⟩ := similar
      exact ⟨v', v, rfl, rfl⟩
    case smembers =>
      obtain ⟨v, v', rfl, rfl, perm⟩ := similar
      exact ⟨v', v, rfl, rfl, perm.symm⟩
    all_goals exact Eq.symm similar
  all_goals exact Eq.symm similar

/-- The commands of a call about the session `id`. -/
def CommandOf (owner : String → Option String) (id : String) (c : Cmd) : Prop :=
  c = .timeNow ∨ ∃ op : Op, op.Wf ∧ op.About owner id ∧ c = .redis op.cmd

/-- Commands on the store, up to its contents. -/
@[reducible] def contentsBehaviour (owner : String → Option String) : Behaviour backend where
  State := World
  Step := Performs
  Inv w := Typed w.redis ∧ CodesOwned owner w.redis
  Expected := Answered owner
  Same w w' := w.now = w'.now ∧ SameContents w w'
  Similar := Cmd.Similar
  same_refl _ := ⟨rfl, fun _ => rfl⟩
  same_trans first second :=
    ⟨first.1.trans second.1, fun key => (first.2 key).trans (second.2 key)⟩
  similar_trans := Cmd.Similar.trans

section Behaviour

variable {owner : String → Option String} {op op' : Op} {id id' : String} {w w' : World}
variable {e e' : Option Redis.Entry} {o o' : Redis.Order}

theorem SameContents.apply (same : SameContents w w') (now : w.now = w'.now) :
    SameContents (w.after op) (w'.after op) := by
  intro key
  rw [World.after_redis, World.after_redis, Op.apply, Op.apply, now]
  cases op.key with
  | none => exact same key
  | some k =>
    by_cases here : key = k.text
    · subst here
      simp only [Redis.Db.assign_self]
      exact op.value_effect (same k.text)
    · simp only [Redis.Db.assign_of_ne here]
      exact same key

theorem perm_list {m : Finset String} : (o.list m).Perm (o'.list m) := by
  refine (List.perm_ext_iff_of_nodup (o.nodup m) (o'.nodup m)).mpr ?_
  intro a
  rw [Redis.Order.mem_list, Redis.Order.mem_list]

/-- The replies from two entries with the same value are similar. -/
theorem Op.About.similar (about : op.About owner id) (same : valueOf e = valueOf e') :
    (Cmd.redis op.cmd).Similar (.ok (op.reply o e)) (.ok (op.reply o' e')) := by
  have hash := hashOf_congr same
  have isSome := isSome_of_value same
  cases op
  case existsSession => exact congrArg Except.ok isSome
  case readSession => exact congrArg Except.ok hash
  case readRole _ u => exact congrArg (fun h : Redis.Hash => Except.ok (h.lookup u)) hash
  case hasRole _ u => exact congrArg (fun h : Redis.Hash => Except.ok (h.lookup u).isSome) hash
  case readIngress =>
    refine ⟨_, _, rfl, rfl, ?_⟩
    rw [Op.reply, Op.reply, setOf_congr same]
    exact perm_list
  case expireSession | expireAccess | expireIngress | expireUser => exact ⟨_, _, rfl, rfl⟩
  case getCode | readUser | readActive | takeLock | dropLock | ping => exact about.elim
  all_goals rfl

/-- The reply is similar before and after an operation about another session. -/
theorem Op.About.similar_moved {db : Redis.Db} {now : Nat} (about : op.About owner id)
    (about' : op'.About owner id') (apart : id ≠ id') (wf : op.Wf) (wf' : op'.Wf) :
    (Cmd.redis op.cmd).Similar (.ok (op.reply o (op.entry (op'.apply now db))))
      (.ok (op.reply o' (op.entry db))) := by
  obtain same | ⟨k, own, ⟨u, rfl⟩ | rfl⟩ := about.entry about' apart wf wf'
  · rw [same]
    exact about.similar rfl
  · obtain rfl | rfl | ⟨ttl, rfl⟩ := about.user own
    · rfl
    · rfl
    · exact ⟨_, _, rfl, rfl⟩
  · obtain ⟨score, rfl⟩ | rfl := about.active own <;> rfl

theorem codesOwned_apply {db : Redis.Db} {now : Nat} (typed : Typed db)
    (owned : CodesOwned owner db) (wf : op.Wf) (about : op.About owner id) :
    CodesOwned owner (op.apply now db) := by
  intro id' uuid session live nonempty
  obtain ⟨old, status, live', rfl, _⟩ | ⟨new, rfl, rfl, rfl⟩ := live_apply typed wf uuid live
  · exact owned id' uuid old live' nonempty
  · obtain ⟨rfl, code⟩ := about
    exact code nonempty

/-- The commands of a call about a session can be carried out, with a determined outcome. -/
theorem governs_command : (contentsBehaviour owner).Governs (CommandOf owner id) where
  total := by
    intro w c _ kind
    obtain rfl | ⟨op, _, _, rfl⟩ := kind
    · exact ⟨w.now, w, rfl, rfl⟩
    · exact Cmd.OfStore.enabled (c := .redis op.cmd) trivial w
  kept := by
    intro w c r w' inv kind performs
    obtain rfl | ⟨op, wf, about, rfl⟩ := kind
    · obtain ⟨_, rfl⟩ := performs
      exact ⟨trivial, inv⟩
    · obtain ⟨o, rfl, rfl⟩ := performs_op inv.1 wf performs
      refine ⟨?_, inv.1.apply wf, codesOwned_apply inv.1 inv.2 wf about⟩
      cases op
      case readSession id' =>
        refine ⟨_, rfl, ?_⟩
        intro id'' uuid key session parsed nonempty
        have same : id' = id'' := by
          have key : (Key.session id').text = (Key.session id'').text := key
          exact Key.session.inj (Key.text_injective wf uuid key)
        subst same
        exact inv.2 id' uuid session parsed nonempty
      all_goals exact ⟨_, rfl⟩
  determined := by
    intro w t c r r' w' t' inv inv' kind same performs performs'
    obtain rfl | ⟨op, wf, about, rfl⟩ := kind
    · obtain ⟨rfl, rfl⟩ := performs
      obtain ⟨rfl, rfl⟩ := performs'
      exact ⟨same.1, same⟩
    · obtain ⟨o, rfl, rfl⟩ := performs_op inv.1 wf performs
      obtain ⟨o', rfl, rfl⟩ := performs_op inv'.1 wf performs'
      refine ⟨about.similar ?_, same.1, same.2.apply same.1⟩
      rw [Op.entry, Op.entry]
      cases op.key with
      | none => rfl
      | some k => exact same.2 k.text

/-- **Commands about different sessions** can change places. -/
theorem commute_commands (apart : id ≠ id') :
    (contentsBehaviour owner).Commute (CommandOf owner id) (CommandOf owner id') := by
  intro (w : World) (w₁ : World) (w₂ : World) (t₁ : World) (t₂ : World) c d r r' x x' inv
    kind kind' first second first' second'
  obtain rfl | ⟨op, wf, about, rfl⟩ := kind
  · obtain ⟨rfl, rfl⟩ := second
    obtain ⟨rfl, rfl⟩ := first'
    have now : w₂.now = t₁.now := by
      obtain rfl | ⟨op', wf', _, rfl⟩ := kind'
      · obtain ⟨_, rfl⟩ := first
        rfl
      · obtain ⟨_, _, rfl⟩ := performs_op inv.1 wf' first
        rfl
    obtain ⟨similar, same⟩ := governs_command.determined inv inv kind'
      ((contentsBehaviour owner).same_refl _) first second'
    exact ⟨now, similar, same⟩
  · obtain rfl | ⟨op', wf', about', rfl⟩ := kind'
    · obtain ⟨rfl, rfl⟩ := first
      obtain ⟨rfl, rfl⟩ := second'
      have now : w₁.now = t₂.now := by
        obtain ⟨_, _, rfl⟩ := performs_op inv.1 wf first'
        rfl
      have kind : CommandOf owner id (.redis op.cmd) := .inr ⟨op, wf, about, rfl⟩
      obtain ⟨similar, same⟩ := governs_command.determined inv inv kind
        ((contentsBehaviour owner).same_refl _) second first'
      exact ⟨similar, now, same⟩
    · obtain ⟨o, rfl, rfl⟩ := performs_op inv.1 wf' first
      obtain ⟨o₁, rfl, rfl⟩ := performs_op (inv.1.apply wf') wf second
      obtain ⟨o', rfl, rfl⟩ := performs_op inv.1 wf first'
      obtain ⟨o₁', rfl, rfl⟩ := performs_op (inv.1.apply wf) wf' second'
      have similar' : (Cmd.redis op'.cmd).Similar (.ok (op'.reply o (op'.entry w.redis)))
          (.ok (op'.reply o₁' (op'.entry (w.after op).redis))) :=
        (about'.similar_moved about apart.symm wf' wf).symm
      exact ⟨about.similar_moved about' apart wf wf', similar', rfl,
        about.apply_comm about' apart wf wf'⟩

end Behaviour

/-! ## The calls -/

section Calls

variable {owner : String → Option String} {r : RedisStore} {id : String} {α β : Type}

/-- The program issues commands about `id` only, and its results are related where the replies are
similar. -/
abbrev AlikeAbout (owner : String → Option String) (id : String) (A : α → α → Prop) (p : Go α) :
    Prop :=
  p.Alike (contentsBehaviour owner) (CommandOf owner id) A p

theorem Answered.exists_ok {c : Redis.Cmd} {v : Except Err c.Reply}
    (answered : Answered owner (.redis c) v) : ∃ a, v = .ok a := by
  cases c
  case hgetall =>
    obtain ⟨h, rfl, _⟩ := answered
    exact ⟨h, rfl⟩
  all_goals exact answered

theorem alike_retry {A : Except Err α → Except Err α → Prop} {p : Go (Except Err α)}
    (once : AlikeAbout owner id (fun v v' => A v v' ∧ Settled v ∧ Settled v') p) :
    AlikeAbout owner id A (r.retryRedisOp p) := by
  have loop : ∀ left attempt, AlikeAbout owner id A (r.retryFrom p left attempt) := by
    intro left attempt
    cases left with
    | zero => exact once.mono fun _ _ holds => holds.1
    | succ left =>
      refine once.bind ?_
      intro v v' holds
      obtain ⟨related, settled, settled'⟩ := holds
      cases v with
      | ok a =>
        cases v' with
        | ok a' => exact .done related
        | error err' =>
          dsimp only
          rw [settled' err' rfl]
          exact .done related
      | error err =>
        cases v' with
        | ok a' =>
          dsimp only
          rw [settled err rfl]
          exact .done related
        | error err' =>
          dsimp only
          rw [settled err rfl, settled' err' rfl]
          exact .done related
  exact loop _ 0

/-- One command, tried until it settles: Redis answers it at once. -/
theorem alike_redis (op : Op) (wf : op.Wf) (about : op.About owner id) :
    AlikeAbout owner id (fun v v' => (∃ a, v = .ok a) ∧ (∃ a, v' = .ok a) ∧
      Answered owner (.redis op.cmd) v ∧ (Cmd.redis op.cmd).Similar v v')
      (r.retryRedisOp (redis op.cmd)) := by
  refine alike_retry (.call (.inr ⟨op, wf, about, rfl⟩) ?_)
  intro v v' answered answered' similar
  obtain ⟨a, rfl⟩ := answered.exists_ok
  obtain ⟨a', rfl⟩ := answered'.exists_ok
  exact .done ⟨⟨⟨a, rfl⟩, ⟨a', rfl⟩, answered, similar⟩, settled_ok, settled_ok⟩

/-- A read whose reply is determined. -/
theorem alike_read (op : Op) (wf : op.Wf) (about : op.About owner id)
    (exact_ : ∀ v v', (Cmd.redis op.cmd).Similar v v' → v = v') :
    AlikeAbout owner id (fun v v' => v = v' ∧ ∃ a, v = .ok a ∧
      Answered owner (.redis op.cmd) (.ok a)) (r.retryRedisOp (redis op.cmd)) := by
  refine (alike_redis op wf about).mono ?_
  intro v v' holds
  obtain ⟨⟨a, rfl⟩, _, answered, similar⟩ := holds
  exact ⟨exact_ _ _ similar, a, rfl, answered⟩

/-- A pipeline looks at no reply but for errors. -/
theorem alike_pipeExec {ops : List Op} (all : ∀ op ∈ ops, op.Wf ∧ op.About owner id) :
    AlikeAbout owner id (fun v v' => v = .ok () ∧ v' = .ok ()) (pipeExec (ops.map Op.cmd)) := by
  induction ops with
  | nil => exact .done ⟨rfl, rfl⟩
  | cons op ops ih =>
    obtain ⟨wf, about⟩ := all op List.mem_cons_self
    refine .call (.inr ⟨op, wf, about, rfl⟩) ?_
    intro v v' answered answered' _
    obtain ⟨a, rfl⟩ := answered.exists_ok
    obtain ⟨a', rfl⟩ := answered'.exists_ok
    refine (ih fun op' mem => all op' (List.mem_cons_of_mem _ mem)).bind ?_
    intro rest rest' done
    obtain ⟨rfl, rfl⟩ := done
    exact .done ⟨rfl, rfl⟩

theorem alike_retry_pipeExec {ops : List Op} (all : ∀ op ∈ ops, op.Wf ∧ op.About owner id) :
    AlikeAbout owner id (· = ·) (r.retryRedisOp (pipeExec (ops.map Op.cmd))) := by
  refine alike_retry ((alike_pipeExec all).mono ?_)
  intro v v' done
  obtain ⟨rfl, rfl⟩ := done
  exact ⟨rfl, settled_ok, settled_ok⟩

theorem alike_createSession {session : Session} (uuid : isUuid session.id = true)
    (named : owner session.roomCode = some session.id) :
    AlikeAbout owner session.id (· = ·) (r.createSession session) := by
  refine alike_retry (.call (.inl rfl) ?_)
  intro now now' _ _ same
  obtain rfl : now = now' := same
  have all : ∀ op ∈ r.createOps session now, op.Wf ∧ op.About owner session.id := by
    intro op mem
    refine ⟨wf_of_mem_createOps uuid mem, ?_⟩
    obtain rfl | rfl | ⟨rfl, _⟩ | rfl | rfl | rfl := mem_createOps mem
    · exact ⟨rfl, fun _ => named⟩
    · exact rfl
    · exact ⟨rfl, named⟩
    · exact rfl
    · trivial
    · exact rfl
  dsimp only [Prog.bind]
  rw [createPipeline_eq]
  refine (alike_pipeExec all).mono ?_
  intro v v' done
  obtain ⟨rfl, rfl⟩ := done
  exact ⟨rfl, settled_ok, settled_ok⟩

theorem alike_getSession (uuid : isUuid id = true) :
    AlikeAbout owner id (fun v v' => v = v' ∧ ∀ session, v = .ok session →
      session.roomCode ≠ "" → owner session.roomCode = some id) (r.getSession id) := by
  refine (alike_read (.readSession id) uuid rfl fun _ _ same => same).bind ?_
  intro v v' holds
  obtain ⟨rfl, h, rfl, answered⟩ := holds
  obtain ⟨_, same, codes⟩ := answered
  cases same
  exact .done ⟨rfl, codes id uuid rfl⟩

theorem alike_updateSessionStatus {status : String} (uuid : isUuid id = true) :
    AlikeAbout owner id (· = ·) (r.updateSessionStatus id status) := by
  refine (alike_read (.existsSession id) uuid rfl fun _ _ same => same).bind ?_
  intro v v' holds
  obtain ⟨rfl, found, rfl, _⟩ := holds
  cases found with
  | false => exact .done rfl
  | true =>
    refine (alike_read (.writeStatus id status) uuid rfl fun _ _ same => same).bind ?_
    intro v v' holds
    obtain ⟨rfl, _, rfl, _⟩ := holds
    dsimp only
    split
    · exact (alike_read (.dropActive id) uuid rfl fun _ _ same => same).bind fun _ _ _ => .done rfl
    · exact .done rfl

theorem alike_deleteSession (uuid : isUuid id = true) :
    AlikeAbout owner id (· = ·) (r.deleteSession id) := by
  refine (alike_getSession uuid).bind ?_
  intro v v' holds
  obtain ⟨rfl, codes⟩ := holds
  cases v with
  | error err => exact .done rfl
  | ok session =>
    dsimp only
    rw [deletePipeline_eq]
    refine alike_retry_pipeExec ?_
    intro op mem
    refine ⟨wf_of_mem_deleteOps uuid mem, ?_⟩
    have codes := codes session rfl
    rw [deleteOps] at mem
    split at mem <;> simp only [List.cons_append, List.nil_append, List.append_nil, List.mem_cons,
      List.not_mem_nil, or_false] at mem
    · next nonempty =>
      obtain rfl | rfl | rfl | rfl | rfl := mem <;> first | rfl | exact codes nonempty
    · obtain rfl | rfl | rfl | rfl := mem <;> rfl

theorem alike_grantAccess {userID role : String} (uuid : isUuid id = true) :
    AlikeAbout owner id (· = ·) (r.grantAccess id userID role) := by
  refine (alike_read (.existsSession id) uuid rfl fun _ _ same => same).bind ?_
  intro v v' holds
  obtain ⟨rfl, found, rfl, _⟩ := holds
  cases found with
  | false => exact .done rfl
  | true =>
    have all : ∀ op ∈ r.grantOps id userID role, op.Wf ∧ op.About owner id := by
      intro op mem
      refine ⟨wf_of_mem_grantOps uuid mem, ?_⟩
      simp only [grantOps, List.mem_cons, List.not_mem_nil, or_false] at mem
      obtain rfl | rfl := mem <;> rfl
    exact alike_retry_pipeExec all

theorem alike_addIngressID {ingressID : String} (uuid : isUuid id = true) :
    AlikeAbout owner id (· = ·) (r.addIngressID id ingressID) := by
  have all : ∀ op ∈ r.ingressOps id ingressID, op.Wf ∧ op.About owner id := by
    intro op mem
    refine ⟨wf_of_mem_ingressOps uuid mem, ?_⟩
    simp only [ingressOps, List.mem_cons, List.not_mem_nil, or_false] at mem
    obtain rfl | rfl := mem <;> rfl
  exact alike_retry_pipeExec all

theorem alike_getRole {userID : String} (uuid : isUuid id = true) :
    AlikeAbout owner id (· = ·) (r.getRole id userID) := by
  refine alike_retry (.call (.inr ⟨.readRole id userID, uuid, rfl, rfl⟩) ?_)
  intro v v' answered _ same
  obtain rfl : v = v' := same
  have answered : Answered owner (.redis (Op.readRole id userID).cmd) v := answered
  obtain ⟨role, rfl⟩ := answered.exists_ok
  cases role with
  | none => exact .done ⟨rfl, settled_ok, settled_ok⟩
  | some role => exact .done ⟨rfl, settled_ok, settled_ok⟩

theorem alike_getIngressIDs (uuid : isUuid id = true) :
    AlikeAbout owner id (fun v v' => ∃ l l', v = .ok l ∧ v' = .ok l' ∧ l.Perm l')
      (r.getIngressIDs id) := by
  refine (alike_redis (.readIngress id) uuid rfl).mono ?_
  intro v v' holds
  exact holds.2.2.2

/-- Every call about a session. -/
theorem alike_call {call : StoreCall} (subject : call.subject = some id)
    (named : call.Named owner) : AlikeAbout owner id SameResult (call.code r) := by
  have result : ∀ {β : Type} {p : Go β} {f : β → Result}, AlikeAbout owner id (· = ·) p →
      AlikeAbout owner id SameResult (p >>= fun a => Prog.done (f a)) := by
    intro β p f alike
    refine alike.bind ?_
    intro a a' same
    subst same
    exact .done (.refl _)
  have read (op : Op) (wf : op.Wf) (about : op.About owner id)
      (exact_ : ∀ v v', (Cmd.redis op.cmd).Similar v v' → v = v') :
      AlikeAbout owner id (· = ·) (r.retryRedisOp (redis op.cmd)) :=
    (alike_read op wf about exact_).mono fun _ _ holds => holds.1
  cases call <;> cases subject
  case createSession new => exact result (alike_createSession new.2 named.2)
  case getSession id =>
    exact result ((alike_getSession id.2).mono fun _ _ holds => holds.1)
  case updateSessionStatus id status => exact result (alike_updateSessionStatus id.2)
  case deleteSession id => exact result (alike_deleteSession id.2)
  case getRole id userID => exact result (alike_getRole id.2)
  case grantAccess id userID role => exact result (alike_grantAccess id.2)
  case revokeAccess id userID =>
    exact result (read (.dropRole id.1 userID) id.2 rfl fun _ _ same => same)
  case hasAccess id userID =>
    exact result (read (.hasRole id.1 userID) id.2 rfl fun _ _ same => same)
  case addIngressID id ingressID => exact result (alike_addIngressID id.2)
  case getIngressIDs id =>
    refine (alike_getIngressIDs id.2).bind ?_
    intro v v' perm
    obtain ⟨l, l', rfl, rfl, perm⟩ := perm
    exact .done perm

end Calls

/-! ## Calls that run interleaved -/

/-- Calls about sessions are started, and nothing expires. -/
def OnlyCalls (b : Backend) (owner : String → Option String) (s : Pool (b.system noFaults)) :
    Move (b.system noFaults) → Prop
  | .start (.store call) => call.subject.isSome = true ∧ call.Named owner
  | .start _ => False
  | .exec _ _ => True
  | .tick t => s.world.redis.expire t = s.world.redis

/-- `w` is a state of the store that calls about sessions have produced from an empty one; `owner`
names the session of each room code. -/
def Produced (b : Backend) (owner : String → Option String) (w : World) : Prop :=
  ∃ s₀ s, s₀.world.redis = .empty ∧ s₀.threads = [] ∧ Pool.Reach (OnlyCalls b owner) s₀ s ∧
    s.world = w

/-- An interleaved run of `p` and `q` from `w` has the outcome of running `p` and then `q`. -/
def AsSequential (p q : Go Result) (w : World) (a b : Result) (w' : World) : Prop :=
  (∃ a₁ w₁ b₁ w₂, Alone p w a₁ w₁ ∧ Alone q w₁ b₁ w₂) ∧
    ∀ a₁ w₁ b₁ w₂, Alone p w a₁ w₁ → Alone q w₁ b₁ w₂ →
      SameResult a a₁ ∧ SameResult b b₁ ∧ SameContents w' w₂

section Interleaved

variable {b : Backend} {owner : String → Option String} {w : World}

theorem produced_inv (produced : Produced b owner w) :
    Typed w.redis ∧ CodesOwned owner w.redis := by
  obtain ⟨s₀, s, empty, none_, reach, rfl⟩ := produced
  suffices (Typed s.world.redis ∧ CodesOwned owner s.world.redis) ∧
      ∀ t ∈ s.threads, ∃ id, AlikeAbout owner id SameResult t.prog from this.1
  refine Pool.Reach.invariant (I := fun s : Pool (b.system noFaults) =>
    (Typed s.world.redis ∧ CodesOwned owner s.world.redis) ∧
      ∀ t ∈ s.threads, ∃ id, AlikeAbout owner id SameResult t.prog) ?_ ?_ reach
  · rw [empty, none_]
    refine ⟨⟨typed_empty, ?_⟩, nofun⟩
    intro id _ session live
    have stored := live.isSome
    cases stored
  · intro s m s' _ inv guard step
    obtain ⟨inv, alike⟩ := inv
    cases step with
    | start call =>
      refine ⟨inv, ?_⟩
      intro t mem
      obtain old | new := List.mem_append.mp mem
      · exact alike t old
      · rw [List.mem_singleton.mp new]
        cases call with
        | store call =>
          obtain ⟨subject, named⟩ := guard
          obtain ⟨id, subject⟩ := Option.isSome_iff_exists.mp subject
          exact ⟨id, alike_call subject named⟩
        | _ => exact guard.elim
    | @exec i t c k reply world at_ next exec =>
      obtain ⟨id, self⟩ := alike t (List.mem_of_getElem? at_)
      have performs : Performs s.world c reply world := by
        obtain performs | ⟨_, impossible, _⟩ := exec
        · exact performs
        · exact impossible.elim
      rw [next] at self
      obtain ⟨rest, inv'⟩ := self.rest governs_command inv performs
      refine ⟨inv', ?_⟩
      intro t' mem
      obtain old | rfl := Pool.mem_advance mem
      · exact alike t' old
      · exact ⟨id, rest⟩
    | tick env =>
      obtain ⟨_, rfl⟩ := env
      refine ⟨?_, alike⟩
      have kept : s.world.redis.expire _ = s.world.redis := guard
      rw [World.at_redis, kept]
      exact inv

/-- **Calls about different sessions** do not interfere: however their Redis commands interleave,
both calls return what they return one after the other, in either order, and leave the same
contents. -/
theorem calls_do_not_interfere {x y : StoreCall} {id id' : String} {a a' : Result} {w' : World}
    (produced : Produced b owner w) (subject : x.subject = some id)
    (subject' : y.subject = some id') (apart : id ≠ id') (named : x.Named owner)
    (named' : y.Named owner)
    (run : Prog.Interleaved Performs (x.code b.server.store) (y.code b.server.store) w a a' w') :
    AsSequential (x.code b.server.store) (y.code b.server.store) w a a' w' ∧
      AsSequential (y.code b.server.store) (x.code b.server.store) w a' a w' := by
  have inv := produced_inv produced
  have one {x y : StoreCall} {id id' : String} {a a' : Result} (subject : x.subject = some id)
      (subject' : y.subject = some id') (apart : id ≠ id') (named : x.Named owner)
      (named' : y.Named owner) (run : Prog.Interleaved Performs (x.code b.server.store)
        (y.code b.server.store) w a a' w') :
      AsSequential (x.code b.server.store) (y.code b.server.store) w a a' w' := by
    have alike : AlikeAbout owner id SameResult (x.code b.server.store) := alike_call subject named
    have alike' : AlikeAbout owner id' SameResult (y.code b.server.store) :=
      alike_call subject' named'
    have trans : ∀ a a' a'', SameResult a a' → SameResult a' a'' → SameResult a a'' :=
      fun _ _ _ => SameResult.trans
    constructor
    · obtain ⟨a₁, w₁, b₁, w₂, first, second, _⟩ := Prog.Interleaved.exists_sequential
        (B := contentsBehaviour owner) governs_command governs_command (commute_commands apart)
        trans trans alike alike' inv run
      exact ⟨a₁, w₁, b₁, w₂, first, second⟩
    · intro a₁ w₁ b₁ w₂ first second
      obtain ⟨same, same', contents⟩ := Prog.Interleaved.sequential
        (B := contentsBehaviour owner) governs_command governs_command (commute_commands apart)
        trans trans alike alike' inv run first second
      exact ⟨same, same', contents.2⟩
  exact ⟨one subject subject' apart named named' run,
    one subject' subject apart.symm named' named run.swap⟩

end Interleaved

namespace Sample

/-- Two sessions of one user. -/
def one : NewSession := ⟨⟨id₁, "ROOM-000007", "alice", createdAt, 2, "active"⟩, uuid_id₁⟩
def two : NewSession := ⟨⟨id₂, "ROOM-000008", "alice", createdAt, 2, "active"⟩, by decide⟩

def owner (code : String) : Option String :=
  if code = "ROOM-000007" then some id₁ else if code = "ROOM-000008" then some id₂ else none

def createOne : Go Result := (StoreCall.createSession one).code store
def createTwo : Go Result := (StoreCall.createSession two).code store

end Sample

/-- Two creations for one user, interleaved. -/
theorem calls_do_not_interfere_sample : ∃ a a' w',
    AsSequential Sample.createOne Sample.createTwo (.empty 0 fun _ => 7) a a' w' ∧
      AsSequential Sample.createTwo Sample.createOne (.empty 0 fun _ => 7) a' a w' := by
  have produced : Produced Sample.backend Sample.owner (.empty 0 fun _ => 7) :=
    ⟨Sample.start .never 7, _, rfl, rfl, .refl, rfl⟩
  have named : (StoreCall.createSession Sample.one).Named Sample.owner := by
    constructor <;> decide
  have named' : (StoreCall.createSession Sample.two).Named Sample.owner := by
    constructor <;> decide
  have alike : AlikeAbout Sample.owner Sample.id₁ SameResult Sample.createOne :=
    alike_call rfl named
  have alike' : AlikeAbout Sample.owner Sample.id₂ SameResult Sample.createTwo :=
    alike_call rfl named'
  obtain ⟨a, w₁, first, inv⟩ := alike.returns governs_command (produced_inv produced)
  obtain ⟨a', w', second, _⟩ := alike'.returns governs_command inv
  exact ⟨a, a', w', calls_do_not_interfere produced rfl rfl (by decide) named named'
    (.of_runs first second)⟩

end DirectLink
