import DirectLink.Interleaving.Backed
import DirectLink.Interleaving.CameraLimit
import DirectLink.Interleaving.ClosedFinal

/-!
# A closed session admits nobody

Once the status closed is stored, a call that starts later reads the session as closed, or not at
all, so it records no role in it and creates no ingress in its room.  Calls that started before may
still do both: they have read the session already.
-/

namespace DirectLink

open RedisStore

/-- The command of a role grant is that of no other operation. -/
theorem writeRole_of_cmd {op : Op} {id userID role : String} (wf : op.Wf) (uuid : isUuid id = true)
    (same : op.cmd = (Op.writeRole id userID role).cmd) : op = .writeRole id userID role := by
  have key : ∀ k : Key, k.Wf → k.text = (Key.access id).text → k = .access id :=
    fun k wf' eq => Key.text_injective wf' uuid eq
  cases op <;> simp only [Op.cmd, Redis.Cmd.hset.injEq, reduceCtorEq] at same <;>
    obtain ⟨at_, fields⟩ := same
  case writeSession new => cases key (.session new.id) wf at_
  case writeStatus other status => cases key (.session other) wf at_
  case writeRole other user given =>
    cases key (.access other) wf at_
    cases fields
    rfl

section Admission

variable {b : Backend} {faults : Cmd → Err → Prop}
variable {G : Pool (b.system faults) → Move (b.system faults) → Prop}
variable {s₀ s s' : Pool (b.system faults)} {m : Move (b.system faults)} {id : String}

/-- Ids of stored sessions were handed out. -/
theorem reach_handed (empty : s₀.world.redis = .empty) (none_ : s₀.threads = [])
    (requests : ∀ s call, G s (.start call) → call.isStore = false)
    (reach : Pool.Reach G s₀ s) : Handed s := by
  have typed : Typed s₀.world.redis := by
    rw [empty]
    exact typed_empty
  refine (Pool.Reach.contract (C := b.seatDuty faults) (handed_start empty none_) none_
    (fun s call guard => seat_covers (requests s call guard))
    (fun s call _ handed _ => handed.start) ?_ ?_ reach).1
  · intro s i t c k reply world reached handed _ _ at_ next allowed exec
    obtain ⟨typed', issued⟩ := reach_issued typed none_ reached at_ next
    have request := reached.calls none_ requests t (List.mem_of_getElem? at_)
    exact ⟨trivial, handed.exec typed' at_ request issued allowed exec⟩
  · intro s now world _ handed _ holds
    rcases holds with ⟨_, rfl⟩
    exact handed.tick

/-- The session is stored as closed or not at all, its id is taken, and the calls after the first
`n` have read it as nothing but closed. -/
structure Shut (n : Nat) (s : Pool (b.system faults)) (id : String) : Prop where
  status : ∀ status, statusOf s.world.redis id = some status → status = statusClosed
  sent : SentClose s id
  taken : id ∈ s.world.uuids
  count : n ≤ s.threads.length
  unread : ∀ i t, n ≤ i → s.threads[i]? = some t → ¬ Saw t.past .newUuid id ∧
    ∀ h sess, Got t.past (.readSession id) h → parseSession h = .ok sess →
      sess.status = statusClosed

/-- A session read while it is shut reads as closed. -/
theorem Shut.read {n : Nat} {h : Redis.Hash} {sess : Session} {world : World}
    (shut : Shut n s id) (typed : Typed s.world.redis) (uuid : isUuid id = true)
    (exec : Exec faults s.world (.redis (Op.readSession id).cmd) (.ok h) world)
    (parsed : parseSession h = .ok sess) : sess.status = statusClosed := by
  obtain ⟨o, rfl⟩ := reply_of_exec (.readSession id) typed uuid exec
  have live : Live s.world.redis id sess := parsed
  exact shut.status _ (live.status typed uuid)

theorem Shut.step {n : Nat} (empty : s₀.world.redis = .empty) (none_ : s₀.threads = [])
    (uuid : isUuid id = true) (reach : Pool.Reach ClosesLast s₀ s) (guard : ClosesLast s m)
    (step : Pool.Step s m s') (shut : Shut n s id) : Shut n s' id := by
  have typed : Typed s₀.world.redis := by
    rw [empty]
    exact typed_empty
  have status : ∀ status, statusOf s'.world.redis id = some status → status = statusClosed := by
    intro status found
    rcases status_step typed none_ (fun _ _ guard => guard.1) uuid reach step with
      same | gone | ⟨i, e, session, rfl, eq, rfl, _⟩ | ⟨_, closed⟩
    · exact shut.status status (same ▸ found)
    · exact absurd (stored_of_status found) gone
    · exact absurd shut.sent (guard.2.1 session eq)
    · exact Option.some.inj (found.symm.trans closed)
  cases step with
  | start call =>
    refine ⟨status, shut.sent.step (.start call), shut.taken, ?_, ?_⟩
    · exact Nat.le_trans shut.count (by simp)
    · intro i t le at_
      rcases Pool.getElem?_start at_ with old | rfl
      · exact shut.unread i t le old
      · exact ⟨fun saw => absurd saw List.not_mem_nil,
          fun h sess got => absurd got List.not_mem_nil⟩
  | @exec i t c k r world at_ next exec =>
    obtain ⟨typed', _⟩ := reach_issued typed none_ reach at_ next
    refine ⟨status, shut.sent.step (.exec at_ next exec), exec.uuids shut.taken, ?_, ?_⟩
    · rw [Pool.advance, List.length_set]
      exact shut.count
    · intro j t' le at'
      rcases Pool.getElem?_advance at' with ⟨rfl, rfl⟩ | ⟨_, old⟩
      · obtain ⟨undrawn, unread⟩ := shut.unread j t le at_
        constructor
        · intro saw
          rcases List.mem_append.mp saw with before | last
          · exact undrawn before
          · cases List.mem_singleton.mp last
            exact exec.newUuid.2.1 shut.taken
        · intro h sess got parsed
          rcases List.mem_append.mp got with before | last
          · exact unread h sess before parsed
          · cases List.mem_singleton.mp last
            exact shut.read typed' uuid exec parsed
      · exact shut.unread j t' le old
  | tick env =>
    obtain ⟨_, rfl⟩ := env
    exact ⟨status, shut.sent, shut.taken, shut.count, shut.unread⟩

/-- Whoever asks for a role in a shut session started before. -/
theorem Shut.not_asked {n i : Nat} {t : Thread (b.system faults)} {pre : List (Event backend)}
    {userID role : String} (shut : Shut n s id) (le : n ≤ i) (at_ : s.threads[i]? = some t)
    (before : pre ⊆ t.past) : ¬ Asked t.call pre id userID role := by
  obtain ⟨undrawn, unread⟩ := shut.unread i t le at_
  intro asked
  cases asked with
  | created sess written =>
    obtain ⟨⟨_, _, _, _, _, fresh, _⟩, _⟩ := written
    exact undrawn (before fresh)
  | joined _ req h sess joins known named read parsed opened =>
    exact opened (unread h sess (before read) parsed)

/-- **A closed session admits nobody**: once the status closed is stored, and as long as no
pipeline of `CreateSession` overtakes the close, no call that starts later sends a role grant in the
session or asks LiveKit for an ingress in its room, whatever else happens and whatever fails. -/
theorem closed_admits_nobody {i : Nat} {t : Thread (b.system faults)}
    (empty : s₀.world.redis = .empty) (none_ : s₀.threads = []) (uuid : isUuid id = true)
    (reach : Pool.Reach ClosesLast s₀ s) (closed : Closed s id)
    (later : Pool.Reach ClosesLast s s') (le : s.threads.length ≤ i)
    (at_ : s'.threads[i]? = some t) :
    (∀ userID role, ¬ Sent t.past (Op.writeRole id userID role).cmd) ∧
      ∀ made reply, Saw t.past (.createIngress made) reply → made.roomName ≠ id := by
  have requests : ∀ (s : Pool (b.system faults)) call, ClosesLast s (.start call) →
      call.isStore = false := fun _ _ guard => guard.1
  have start : Shut s.threads.length s id := by
    refine ⟨?_, ?_, ?_, Nat.le_refl _, ?_⟩
    · exact fun status found => Option.some.inj (found.symm.trans closed)
    · exact sentClose_of_closed empty none_ (fun _ _ guard => guard.1) uuid reach closed
    · exact (reach_handed empty none_ requests reach).stored id uuid (stored_of_status closed)
    · intro i t le at_
      exact absurd (List.getElem?_eq_some_iff.mp at_).1 (Nat.not_lt.mpr le)
  have shut : Shut s.threads.length s' id := by
    refine Pool.Reach.invariant (I := fun s' => Shut s.threads.length s' id) start ?_ later
    intro s₁ m s₂ reached shut guard step
    exact shut.step empty none_ uuid (reach.trans reached) guard step
  obtain ⟨-, keeps⟩ := reach_sourced empty none_ requests (reach.trans later)
  have kept := (keeps t (List.mem_of_getElem? at_)).2
  constructor
  · intro userID role holds
    rcases holds with ⟨r, member⟩
    obtain ⟨pre, post, split⟩ := List.append_of_mem member
    obtain ⟨op, wf, same, answers⟩ := (kept pre _ post split).1
    have grant := writeRole_of_cmd wf uuid same
    subst grant
    exact shut.not_asked le at_ (by simp [split]) answers
  · intro made r saw agrees
    subst agrees
    obtain ⟨pre, post, split⟩ := List.append_of_mem saw
    exact shut.not_asked le at_ (by simp [split]) (kept pre _ post split).1

end Admission

namespace Sample

variable {F : Failures}

/-- The command writes a session hash or adds to the active sessions. -/
def creates : Cmd → Bool
  | .redis (.hset _ fields) => fields.length = 6
  | .redis (.zadd _ _ _) => true
  | _ => false

/-- The command writes the status closed or removes from the active sessions. -/
def ends : Cmd → Bool
  | .redis (.hset _ fields) => fields = [("status", statusClosed)]
  | .redis (.zrem _ _) => true
  | _ => false

/-- Requests and sweeps, and no creation once something was ended. -/
def endsLast (s : Pool (system F)) (m : Move (system F)) : Bool :=
  isRequest s m && match m with
    | .exec _ e => !creates e.cmd || s.threads.all fun t => t.past.all fun e => !ends e.cmd
    | _ => true

theorem closesLast_of_endsLast {s : Pool (system F)} {m : Move (system F)}
    (passed : endsLast s m = true) : ClosesLast s m := by
  obtain ⟨request, last⟩ := Bool.and_eq_true_iff.mp passed
  refine ⟨requestsOnly_of_isRequest request, ?_⟩
  cases m with
  | start call => trivial
  | tick t => trivial
  | exec i e =>
    have unsent : creates e.cmd = true → ∀ e', s.Seen e' → ends e'.cmd = false := by
      intro creation e' holds
      rcases holds with ⟨t, member, seen⟩
      have none_ := (Bool.or_eq_true_iff.mp last).resolve_left (by simp [creation])
      exact (Bool.not_eq_true' _).mp (List.all_eq_true.mp (List.all_eq_true.mp none_ t member)
        e' seen)
    refine ⟨?_, ?_⟩
    · intro session eq holds
      rcases holds with ⟨r, seen⟩
      have fresh := unsent (by rw [eq]; rfl) _ seen
      simp [ends] at fresh
    · intro score id eq holds
      rcases holds with ⟨r, seen⟩
      have fresh := unsent (by rw [eq]; rfl) _ seen
      simp [ends] at fresh

/-- The creator closes her session. -/
noncomputable def closes : Option (Pool (system .never)) :=
  replay endsLast
    (.start (.createSession ⟨"alice", 2⟩) :: go 0 (create id₁) ++
      .start (.closeSession ⟨"ROOM-000007", "alice"⟩) :: go 1 (List.replicate 7 .plain))
    (start .never 7)

/-- A camera asks to join it. -/
noncomputable def knocks (s : Pool (system .never)) : Option (Pool (system .never)) :=
  replay endsLast
    (.start (.joinSession ⟨"ROOM-000007", "bob", "camera"⟩) :: go 2 [.plain, .plain]) s

end Sample

theorem closed_admits_nobody_run : ∃ (s s' : Pool (Sample.system .never))
    (t : Thread (Sample.system .never)), Pool.Reach ClosesLast (Sample.start .never 7) s ∧
      Closed s Sample.id₁ ∧ Pool.Reach ClosesLast s s' ∧ s'.threads[2]? = some t ∧
      t.call = .joinSession ⟨"ROOM-000007", "bob", "camera"⟩ ∧
      (∀ userID role, ¬ Sent t.past (Op.writeRole Sample.id₁ userID role).cmd) ∧
      ∀ made reply, Saw t.past (.createIngress made) reply → made.roomName ≠ Sample.id₁ := by
  have observed : (Sample.closes.any fun s => decide (s.threads.length = 2) &&
      decide (statusOf s.world.redis Sample.id₁ = some statusClosed) &&
        (Sample.knocks s).any fun s' => s'.threads[2]?.any fun t =>
          decide (t.call = .joinSession ⟨"ROOM-000007", "bob", "camera"⟩)) = true := by
    decide +kernel
  obtain ⟨s, computed, observed⟩ := (Option.any_eq_true _ _).mp observed
  obtain ⟨observed, knocked⟩ := Bool.and_eq_true_iff.mp observed
  obtain ⟨two, closed⟩ := Bool.and_eq_true_iff.mp observed
  obtain ⟨s', computed', found⟩ := (Option.any_eq_true _ _).mp knocked
  obtain ⟨t, at_, call⟩ := (Option.any_eq_true _ _).mp found
  have reach := (Sample.reach_of_replay computed).mono fun _ _ => Sample.closesLast_of_endsLast
  have later := (Sample.reach_of_replay computed').mono fun _ _ => Sample.closesLast_of_endsLast
  have closed : statusOf s.world.redis Sample.id₁ = some statusClosed := of_decide_eq_true closed
  exact ⟨s, s', t, reach, closed, later, at_, of_decide_eq_true call,
    closed_admits_nobody rfl rfl (by decide) reach closed later
      (Nat.le_of_eq (of_decide_eq_true two)) at_⟩

end DirectLink
