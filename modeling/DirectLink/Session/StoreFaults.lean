import DirectLink.Session.StoreSpec

/-!
# What the store methods do when commands fail

Rules for the store methods over histories in which any command can fail and be tried again.  They
speak of what is known of the history, which only grows: a reply that was used stands in it.
Methods whose replies do not matter are covered by the commands they can issue (`Prog.Issues`).
-/

namespace DirectLink

variable {E : Event backend → Prop} {A : List (Event backend) → Cmd → Prop}
variable {past : List (Event backend)} {α : Type}

/-- After a command the history has grown by it. -/
theorem hist_call {c : Cmd} {P : c.Reply → List (Event backend) → Prop} (allowed : A past c)
    (next : ∀ r past', past ⊆ past' → E ⟨c, r⟩ → ⟨c, r⟩ ∈ past' → P r past') :
    (histLogic E A).Call past c P := by
  refine histLogic_call.mpr ⟨allowed, fun r expected => ?_⟩
  exact next r _ (List.subset_append_left ..) expected (List.mem_append_right _ (by simp))

theorem hist_issue {c : Cmd} {f : c.Reply → Go α} {Q : α → List (Event backend) → Prop}
    (allowed : A past c)
    (next : ∀ r past', past ⊆ past' → E ⟨c, r⟩ → ⟨c, r⟩ ∈ past' →
      (f r).wp (histLogic E A) Q past') :
    (issue c >>= f).wp (histLogic E A) Q past :=
  hist_call allowed next

namespace RedisStore

variable {r : RedisStore}

/-! ## Commands issued -/

theorem issues_pipeExec {P : Cmd → Prop} {cs : List Redis.Cmd} (all : ∀ c ∈ cs, P (.redis c)) :
    (pipeExec cs).Issues P := by
  induction cs with
  | nil => trivial
  | cons c cs ih =>
    rw [pipeExec]
    refine Prog.Issues.bind ⟨all c List.mem_cons_self, fun _ => trivial⟩ fun reply => ?_
    have rest := ih fun c' member => all c' (List.mem_cons_of_mem _ member)
    refine Prog.Issues.bind rest fun result => ?_
    cases reply <;> trivial

theorem issues_retryRedisOp {P : Cmd → Prop} {op : Go (Except Err α)} (issues : op.Issues P)
    (waits : ∀ backoff, P (.after backoff)) : (r.retryRedisOp op).Issues P := by
  have loop : ∀ left attempt, (r.retryFrom op left attempt).Issues P := by
    intro left
    induction left with
    | zero => exact fun _ => issues
    | succ left ih =>
      intro attempt
      rw [retryFrom]
      refine issues.bind fun result => ?_
      cases result with
      | ok a => trivial
      | error err =>
        dsimp only
        split
        · refine ⟨waits _, fun reply => ?_⟩
          cases reply with
          | error ctxErr => trivial
          | ok _ => exact ih (attempt + 1)
        · trivial
  exact loop _ 0

theorem issues_retryRedisOp_redis {P : Cmd → Prop} {c : Redis.Cmd} (issued : P (.redis c))
    (waits : ∀ backoff, P (.after backoff)) : (r.retryRedisOp (redis c)).Issues P :=
  issues_retryRedisOp ⟨issued, fun _ => trivial⟩ waits

theorem issues_createSession {P : Cmd → Prop} {session : Session} (time : P .timeNow)
    (all : ∀ now, ∀ c ∈ r.createPipeline session now, P (.redis c))
    (waits : ∀ backoff, P (.after backoff)) : (r.createSession session).Issues P :=
  issues_retryRedisOp ⟨time, fun now => issues_pipeExec (all now)⟩ waits

theorem issues_updateSessionStatus {P : Cmd → Prop} {id status : String}
    (exists_ : P (.redis (.existsKey (sessionKey id))))
    (write : P (.redis (.hset (sessionKey id) [("status", status)])))
    (drop : status = statusClosed → P (.redis (.zrem activeSessionsKey id)))
    (waits : ∀ backoff, P (.after backoff)) : (r.updateSessionStatus id status).Issues P := by
  refine (issues_retryRedisOp_redis exists_ waits).bind fun found => ?_
  match found with
  | .error err => trivial
  | .ok false => trivial
  | .ok true =>
    refine (issues_retryRedisOp_redis write waits).bind fun written => ?_
    cases written with
    | error err => trivial
    | ok _ =>
      dsimp only
      split
      · next closing =>
        exact (issues_retryRedisOp_redis (drop closing) waits).bind fun _ => trivial
      · trivial

theorem issues_grantAccess {P : Cmd → Prop} {id userID role : String}
    (exists_ : P (.redis (.existsKey (sessionKey id))))
    (write : P (.redis (.hset (accessKey id) [(userID, role)])))
    (expire : P (.redis (.expire (accessKey id) r.ttl)))
    (waits : ∀ backoff, P (.after backoff)) : (r.grantAccess id userID role).Issues P := by
  refine (issues_retryRedisOp_redis exists_ waits).bind fun found => ?_
  match found with
  | .error err => trivial
  | .ok false => trivial
  | .ok true =>
    refine issues_retryRedisOp (issues_pipeExec fun c member => ?_) waits
    simp only [List.mem_cons, List.not_mem_nil, or_false] at member
    rcases member with rfl | rfl
    · exact write
    · exact expire

theorem issues_addIngressID {P : Cmd → Prop} {id ingressID : String}
    (add : P (.redis (.sadd (ingressKey id) ingressID)))
    (expire : P (.redis (.expire (ingressKey id) r.ttl)))
    (waits : ∀ backoff, P (.after backoff)) : (r.addIngressID id ingressID).Issues P := by
  refine issues_retryRedisOp (issues_pipeExec fun c member => ?_) waits
  simp only [List.mem_cons, List.not_mem_nil, or_false] at member
  rcases member with rfl | rfl
  · exact add
  · exact expire

/-! ## Replies used -/

section Replies

/-- What is allowed stays allowed as the history grows, and waiting always is. -/
structure Persistent (A : List (Event backend) → Cmd → Prop) : Prop where
  grow : ∀ past past' c, past ⊆ past' → A past c → A past' c
  waits : ∀ past backoff, A past (.after backoff)

variable (persistent : Persistent A)

include persistent

/-- However often an operation is tried, its last result is that of an attempt or of a wait. -/
theorem hist_retry {op : Go (Except Err α)} {Q : Except Err α → List (Event backend) → Prop}
    (attempt : ∀ past', past ⊆ past' →
      op.wp (histLogic E A) (fun result past'' => past' ⊆ past'' ∧ Q result past'') past')
    (failed : ∀ err past', past ⊆ past' → Q (.error err) past') :
    (r.retryRedisOp op).wp (histLogic E A) Q past := by
  refine wp_retryRedisOp_inv (L := histLogic E A) (J := fun past' => past ⊆ past') ?_ ?_
    (List.Subset.refl past)
  · intro past' grown
    exact Prog.wp_mono (attempt past' grown) fun _ _ ⟨more, holds⟩ =>
      ⟨List.Subset.trans grown more, holds⟩
  · intro past' backoff grown
    refine hist_call (persistent.waits past' backoff) fun reply past'' more _ _ => ?_
    have all := List.Subset.trans grown more
    exact ⟨all, fun err _ => failed err past'' all⟩

theorem hist_retry_redis {c : Redis.Cmd} {Q : Except Err c.Reply → List (Event backend) → Prop}
    (allowed : A past (.redis c))
    (ok : ∀ v past', past ⊆ past' → E ⟨.redis c, .ok v⟩ → ⟨.redis c, .ok v⟩ ∈ past' →
      Q (.ok v) past')
    (failed : ∀ err past', past ⊆ past' → Q (.error err) past') :
    (r.retryRedisOp (redis c)).wp (histLogic E A) Q past := by
  refine hist_retry persistent (fun past' grown => ?_) failed
  refine hist_call (persistent.grow _ _ _ grown allowed) fun reply past'' more expected member =>
    ⟨more, ?_⟩
  have all := List.Subset.trans grown more
  cases reply with
  | error err => exact failed err past'' all
  | ok v => exact ok v past'' all expected member

theorem hist_getSession {id : String} {Q : Except Err Session → List (Event backend) → Prop}
    (allowed : A past (.redis (.hgetall (sessionKey id))))
    (ok : ∀ h past', past ⊆ past' → E ⟨.redis (.hgetall (sessionKey id)), .ok h⟩ →
      ⟨.redis (.hgetall (sessionKey id)), .ok h⟩ ∈ past' → Q (parseSession h) past')
    (failed : ∀ err past', past ⊆ past' → Q (.error err) past') :
    (r.getSession id).wp (histLogic E A) Q past := by
  rw [getSession, Prog.wp_bind]
  exact hist_retry_redis persistent allowed ok failed

theorem hist_getSessionByRoomCode {code : String}
    {Q : Except Err Session → List (Event backend) → Prop}
    (allowed : A past (.redis (.get (roomCodeKey code))))
    (read : ∀ id past', past ⊆ past' → E ⟨.redis (.get (roomCodeKey code)), .ok (some id)⟩ →
      A past' (.redis (.hgetall (sessionKey id))))
    (ok : ∀ id h past', past ⊆ past' → E ⟨.redis (.get (roomCodeKey code)), .ok (some id)⟩ →
      E ⟨.redis (.hgetall (sessionKey id)), .ok h⟩ →
      ⟨.redis (.get (roomCodeKey code)), .ok (some id)⟩ ∈ past' →
      ⟨.redis (.hgetall (sessionKey id)), .ok h⟩ ∈ past' → Q (parseSession h) past')
    (failed : ∀ err past', past ⊆ past' → Q (.error err) past') :
    (r.getSessionByRoomCode code).wp (histLogic E A) Q past := by
  rw [getSessionByRoomCode, Prog.wp_bind]
  refine hist_retry persistent (fun past' grown => ?_) failed
  rw [Prog.wp_bind, clientGet, Prog.wp_bind]
  refine hist_call (persistent.grow _ _ _ grown allowed) fun reply past'' more expected member => ?_
  have all := List.Subset.trans grown more
  rcases reply with err | none | id
  · simp only [Prog.pure_eq, Prog.wp_done]
    split <;> exact ⟨more, failed _ _ all⟩
  · exact ⟨more, failed _ _ all⟩
  · refine ⟨more, hist_getSession persistent (read id past'' all expected) ?_ ?_⟩
    · intro h past₃ more' expected' member'
      exact ok id h past₃ (List.Subset.trans all more') expected expected' (more' member) member'
    · exact fun err past₃ more' => failed err past₃ (List.Subset.trans all more')

/-- A role is granted after the session was found to exist. -/
theorem hist_grantAccess {id userID role : String}
    (exists_ : A past (.redis (.existsKey (sessionKey id))))
    (write : ∀ past', past ⊆ past' → ⟨.redis (.existsKey (sessionKey id)), .ok true⟩ ∈ past' →
      A past' (.redis (.hset (accessKey id) [(userID, role)])))
    (expire : ∀ past', past ⊆ past' → A past' (.redis (.expire (accessKey id) r.ttl))) :
    (r.grantAccess id userID role).wp (histLogic E A) (fun _ past' => past ⊆ past') past := by
  rw [grantAccess, Prog.wp_bind]
  refine hist_retry_redis persistent exists_ ?_ fun _ _ grown => grown
  intro found past' grown _ member
  cases found with
  | false => exact grown
  | true =>
    have issues : (r.retryRedisOp (pipeExec [.hset (accessKey id) [(userID, role)],
        .expire (accessKey id) r.ttl])).Issues fun c => ∀ past'', past' ⊆ past'' → A past'' c := by
      refine issues_retryRedisOp (issues_pipeExec fun c mem => ?_) fun _ _ _ =>
        persistent.waits _ _
      simp only [List.mem_cons, List.not_mem_nil, or_false] at mem
      rcases mem with rfl | rfl
      · exact fun past'' more => write past'' (List.Subset.trans grown more) (more member)
      · exact fun past'' more => expire past'' (List.Subset.trans grown more)
    exact Prog.wp_mono (Prog.Issues.wp_grow issues) fun _ _ more => List.Subset.trans grown more

/-- The sessions found were read under the listed ids. -/
theorem hist_collectExpired {ids : List String} {sessions : List Session}
    {Q : Except Err (List Session) → List (Event backend) → Prop}
    (read : ∀ id ∈ ids, A past (.redis (.hgetall (sessionKey id))))
    (drop : ∀ id ∈ ids, A past (.redis (.zrem activeSessionsKey id)))
    (ok : ∀ found past', past ⊆ past' → (∀ sess ∈ found, sess ∈ sessions ∨ ∃ id ∈ ids, ∃ h,
      E ⟨.redis (.hgetall (sessionKey id)), .ok h⟩ ∧ parseSession h = .ok sess) →
      Q (.ok found) past')
    (failed : ∀ err past', past ⊆ past' → Q (.error err) past') :
    (r.collectExpired ids sessions).wp (histLogic E A) Q past := by
  induction ids generalizing past sessions with
  | nil => exact ok sessions past (List.Subset.refl past) fun sess member => .inl member
  | cons id ids ih =>
    have next : ∀ sessions' past', past ⊆ past' →
        (∀ sess ∈ sessions', sess ∈ sessions ∨ ∃ h,
          E ⟨.redis (.hgetall (sessionKey id)), .ok h⟩ ∧ parseSession h = .ok sess) →
        (r.collectExpired ids sessions').wp (histLogic E A) Q past' := by
      intro sessions' past' grown origin
      refine ih (fun id' member => ?_) (fun id' member => ?_) (fun found past'' more all => ?_)
        fun err past'' more => failed err past'' (List.Subset.trans grown more)
      · exact persistent.grow _ _ _ grown (read id' (List.mem_cons_of_mem _ member))
      · exact persistent.grow _ _ _ grown (drop id' (List.mem_cons_of_mem _ member))
      · refine ok found past'' (List.Subset.trans grown more) fun sess member => ?_
        rcases all sess member with old | ⟨id', member', h, expected, parsed⟩
        · rcases origin sess old with older | ⟨h, expected, parsed⟩
          · exact .inl older
          · exact .inr ⟨id, List.mem_cons_self, h, expected, parsed⟩
        · exact .inr ⟨id', List.mem_cons_of_mem _ member', h, expected, parsed⟩
    rw [collectExpired, Prog.wp_bind]
    refine hist_getSession persistent (read id List.mem_cons_self) ?_ ?_
    · intro h past' grown expected member
      cases parsed : parseSession h with
      | error err =>
        dsimp only
        split
        · exact next sessions past' grown fun sess old => .inl old
        · exact failed _ past' grown
      | ok sess =>
        dsimp only
        split
        · refine hist_call (persistent.grow _ _ _ grown (drop id List.mem_cons_self)) ?_
          intro reply past'' more _ _
          exact next sessions past'' (List.Subset.trans grown more) fun sess old => .inl old
        · refine next _ past' grown fun sess' member' => ?_
          rcases List.mem_append.mp member' with old | new
          · exact .inl old
          · rw [List.mem_singleton.mp new]
            exact .inr ⟨h, expected, parsed⟩
    · intro err past' grown
      dsimp only
      split
      · exact next sessions past' grown fun sess old => .inl old
      · exact failed _ past' grown

theorem hist_collectUserSessions {userKey : String} {ids : List String} {sessions : List Session}
    (read : ∀ id ∈ ids, A past (.redis (.hgetall (sessionKey id))))
    (prune : ∀ id ∈ ids, A past (.redis (.srem userKey id))) :
    (r.collectUserSessions userKey ids sessions).wp (histLogic E A) (fun _ _ => True) past := by
  induction ids generalizing past sessions with
  | nil => trivial
  | cons id ids ih =>
    have next : ∀ sessions' past', past ⊆ past' →
        (r.collectUserSessions userKey ids sessions').wp (histLogic E A)
          (fun _ _ => True) past' := by
      intro sessions' past' grown
      refine ih (fun id' member => ?_) fun id' member => ?_
      · exact persistent.grow _ _ _ grown (read id' (List.mem_cons_of_mem _ member))
      · exact persistent.grow _ _ _ grown (prune id' (List.mem_cons_of_mem _ member))
    have missing : ∀ err past', past ⊆ past' →
        ((if err.is .sessionNotFound then do
            let _ ← redis (.srem userKey id)
            r.collectUserSessions userKey ids sessions
          else return .error (.wrapped ("failed to get session " ++ id ++ ": ") err)) :
          Go (Except Err (List Session))).wp (histLogic E A) (fun _ _ => True) past' := by
      intro err past' grown
      split
      · refine hist_call (persistent.grow _ _ _ grown (prune id List.mem_cons_self)) ?_
        intro reply past'' more _ _
        exact next sessions past'' (List.Subset.trans grown more)
      · trivial
    rw [collectUserSessions, Prog.wp_bind]
    refine hist_getSession persistent (read id List.mem_cons_self) ?_ missing
    intro h past' grown _ _
    cases parseSession h with
    | error err => exact missing err past' grown
    | ok sess => exact next _ past' grown

end Replies

end RedisStore

end DirectLink
