import DirectLink.Session.StoreFaults

/-!
# What the result of a store method rests on when commands fail

The rules of `StoreFaults` say what a method may issue.  The rules here also say what stands in the
history when the method reports success: the commands that were answered, whatever was lost or
tried again before.

* `hist_pipeExec`, `hist_retryPipe`: a pipeline sends each command after those before it, and it
  reports success when all of them were answered.
* `hist_createSession`, `hist_grantAccess_answered`, `hist_updateSessionStatus_answered`: the same
  for the methods that write.
* `hist_getUserSessions`: the sessions returned were read under listed ids, in their order.
-/

namespace DirectLink

variable {E : Event backend → Prop} {A : List (Event backend) → Cmd → Prop}
variable {past past' : List (Event backend)} {α : Type}

/-- The Redis command was sent, whatever came back. -/
def Sent (past : List (Event backend)) (c : Redis.Cmd) : Prop :=
  ∃ r, (⟨.redis c, r⟩ : Event backend) ∈ past

/-- The Redis command was answered. -/
def Acked (past : List (Event backend)) (c : Redis.Cmd) : Prop :=
  ∃ v, (⟨.redis c, .ok v⟩ : Event backend) ∈ past

theorem Sent.grow {c : Redis.Cmd} (grown : past ⊆ past') (sent : Sent past c) : Sent past' c := by
  obtain ⟨r, member⟩ := sent
  exact ⟨r, grown member⟩

theorem Acked.grow {c : Redis.Cmd} (grown : past ⊆ past') (answered : Acked past c) :
    Acked past' c := by
  obtain ⟨v, member⟩ := answered
  exact ⟨v, grown member⟩

/-- The session was read back from the hash stored under the id. -/
def ReadBack (E : Event backend → Prop) (past : List (Event backend)) (id : String)
    (sess : Session) : Prop :=
  ∃ h, E ⟨.redis (.hgetall (sessionKey id)), .ok h⟩ ∧
    (⟨.redis (.hgetall (sessionKey id)), .ok h⟩ : Event backend) ∈ past ∧
    RedisStore.parseSession h = .ok sess

theorem ReadBack.grow {id : String} {sess : Session} (grown : past ⊆ past')
    (read : ReadBack E past id sess) : ReadBack E past' id sess := by
  obtain ⟨h, expected, member, parsed⟩ := read
  exact ⟨h, expected, grown member, parsed⟩

/-- Each command of the pipeline is allowed once those before it were sent. -/
def InTurn (A : List (Event backend) → Cmd → Prop) (past : List (Event backend))
    (cs : List Redis.Cmd) : Prop :=
  ∀ pre c post past', cs = pre ++ c :: post → past ⊆ past' → (∀ c' ∈ pre, Sent past' c') →
    A past' (.redis c)

theorem inTurn_of_all {cs : List Redis.Cmd}
    (all : ∀ c ∈ cs, ∀ past', past ⊆ past' → A past' (.redis c)) : InTurn A past cs := by
  intro pre c post past' split grown _
  refine all c ?_ past' grown
  rw [split]
  exact List.mem_append_right _ List.mem_cons_self

theorem InTurn.grow {cs : List Redis.Cmd} (grown : past ⊆ past') (turn : InTurn A past cs) :
    InTurn A past' cs :=
  fun pre c post past'' split more sent =>
    turn pre c post past'' split (List.Subset.trans grown more) sent

/-- After the first command was sent, the others are still in turn. -/
theorem InTurn.tail {c : Redis.Cmd} {cs : List Redis.Cmd} (turn : InTurn A past (c :: cs))
    (grown : past ⊆ past') (sent : Sent past' c) : InTurn A past' cs := by
  intro pre c' post past'' split more before
  refine turn (c :: pre) c' post past'' ?_ (List.Subset.trans grown more) ?_
  · rw [split, List.cons_append]
  · intro c₀ member
    rcases List.mem_cons.mp member with rfl | later
    · exact sent.grow more
    · exact before c₀ later

namespace RedisStore

/-! ## Pipelines -/

/-- A pipeline that reports success had all its commands answered. -/
theorem hist_pipeExec {cs : List Redis.Cmd} (turn : InTurn A past cs) :
    (pipeExec cs).wp (histLogic E A)
      (fun result past' => past ⊆ past' ∧ (result = .ok () → ∀ c ∈ cs, Acked past' c)) past := by
  induction cs generalizing past with
  | nil => exact ⟨List.Subset.refl past, fun _ c member => absurd member List.not_mem_nil⟩
  | cons c cs ih =>
    rw [pipeExec, Prog.wp_bind]
    refine hist_call (turn [] c cs past rfl (List.Subset.refl past)
      fun c' member => absurd member List.not_mem_nil) ?_
    intro reply past' grown _ member
    rw [Prog.wp_done, Prog.wp_bind]
    refine Prog.wp_mono (ih (turn.tail grown ⟨reply, member⟩)) ?_
    intro result past'' holds
    rcases holds with ⟨more, rest⟩
    have all := List.Subset.trans grown more
    cases reply with
    | error err => exact ⟨all, fun impossible => by cases impossible⟩
    | ok v =>
      refine ⟨all, ?_⟩
      intro ok c' member'
      rcases List.mem_cons.mp member' with rfl | later
      · exact ⟨v, more member⟩
      · exact rest ok c' later

variable {r : RedisStore} (persistent : Persistent A)

include persistent

theorem hist_retryPipe {cs : List Redis.Cmd} (turn : InTurn A past cs) :
    (r.retryRedisOp (pipeExec cs)).wp (histLogic E A)
      (fun result past' => past ⊆ past' ∧ (result = .ok () → ∀ c ∈ cs, Acked past' c)) past := by
  refine hist_retry persistent ?_ ?_
  · intro past' grown
    refine Prog.wp_mono (hist_pipeExec (turn.grow grown)) ?_
    intro result past'' holds
    rcases holds with ⟨more, answered⟩
    exact ⟨more, List.Subset.trans grown more, answered⟩
  · intro err past' grown
    exact ⟨grown, fun impossible => by cases impossible⟩

/-! ## Methods that write -/

theorem hist_createSession {session : Session} (time : ∀ past', past ⊆ past' → A past' .timeNow)
    (turn : ∀ now, InTurn A past (r.createPipeline session now)) :
    (r.createSession session).wp (histLogic E A)
      (fun result past' => past ⊆ past' ∧
        (result = .ok () → ∃ now, ∀ c ∈ r.createPipeline session now, Acked past' c)) past := by
  refine hist_retry persistent ?_ ?_
  · intro past' grown
    refine hist_issue (time past' grown) ?_
    intro now past'' more _ _
    have all := List.Subset.trans grown more
    refine Prog.wp_mono (hist_pipeExec ((turn now).grow all)) ?_
    intro result past₃ holds
    rcases holds with ⟨more', answered⟩
    exact ⟨List.Subset.trans more more', List.Subset.trans all more',
      fun ok => ⟨now, answered ok⟩⟩
  · intro err past' grown
    exact ⟨grown, fun impossible => by cases impossible⟩

/-- A grant that reports success found the session and had the role written. -/
theorem hist_grantAccess_answered {id userID role : String}
    (exists_ : A past (.redis (.existsKey (sessionKey id))))
    (write : ∀ past', past ⊆ past' → ⟨.redis (.existsKey (sessionKey id)), .ok true⟩ ∈ past' →
      A past' (.redis (.hset (accessKey id) [(userID, role)])))
    (expire : ∀ past', past ⊆ past' → A past' (.redis (.expire (accessKey id) r.ttl))) :
    (r.grantAccess id userID role).wp (histLogic E A)
      (fun result past' => past ⊆ past' ∧
        (result = .ok () → Acked past' (.hset (accessKey id) [(userID, role)]))) past := by
  rw [grantAccess, Prog.wp_bind]
  refine hist_retry_redis persistent exists_ ?_ ?_
  · intro found past' grown _ member
    cases found with
    | false => exact ⟨grown, fun impossible => by cases impossible⟩
    | true =>
      refine Prog.wp_mono (hist_retryPipe persistent (inTurn_of_all ?_)) ?_
      · intro c mem past'' more
        simp only [List.mem_cons, List.not_mem_nil, or_false] at mem
        rcases mem with rfl | rfl
        · exact write past'' (List.Subset.trans grown more) (more member)
        · exact expire past'' (List.Subset.trans grown more)
      · intro result past'' holds
        rcases holds with ⟨more, answered⟩
        exact ⟨List.Subset.trans grown more, fun ok => answered ok _ List.mem_cons_self⟩
  · intro err past' grown
    exact ⟨grown, fun impossible => by cases impossible⟩

/-- An update that reports success had the status written. -/
theorem hist_updateSessionStatus_answered {id status : String}
    (exists_ : A past (.redis (.existsKey (sessionKey id))))
    (write : ∀ past', past ⊆ past' → A past' (.redis (.hset (sessionKey id) [("status", status)])))
    (drop : ∀ past', past ⊆ past' → A past' (.redis (.zrem activeSessionsKey id))) :
    (r.updateSessionStatus id status).wp (histLogic E A)
      (fun result past' => past ⊆ past' ∧
        (result = .ok () → Acked past' (.hset (sessionKey id) [("status", status)]))) past := by
  rw [updateSessionStatus, Prog.wp_bind]
  refine hist_retry_redis persistent exists_ ?_ ?_
  · intro found past' grown _ _
    cases found with
    | false => exact ⟨grown, fun impossible => by cases impossible⟩
    | true =>
      dsimp only
      rw [Prog.wp_bind]
      refine hist_retry_redis persistent (write past' grown) ?_ ?_
      · intro v past'' more _ member
        have all := List.Subset.trans grown more
        dsimp only
        split
        · rw [Prog.wp_bind]
          refine hist_retry_redis persistent (drop past'' all) ?_ ?_
          · intro _ past₃ more' _ _
            exact ⟨List.Subset.trans all more', fun _ => ⟨v, more' member⟩⟩
          · intro _ past₃ more'
            exact ⟨List.Subset.trans all more', fun _ => ⟨v, more' member⟩⟩
        · exact ⟨all, fun _ => ⟨v, member⟩⟩
      · intro err past'' more
        exact ⟨List.Subset.trans grown more, fun impossible => by cases impossible⟩
  · intro err past' grown
    exact ⟨grown, fun impossible => by cases impossible⟩

/-! ## The sessions of a user -/

/-- The loop adds the sessions it has read, in the order of their ids. -/
theorem hist_collectUserSessions_read {userKey : String} {ids : List String}
    {sessions : List Session}
    (read : ∀ id ∈ ids, A past (.redis (.hgetall (sessionKey id))))
    (prune : ∀ id ∈ ids, A past (.redis (.srem userKey id))) :
    (r.collectUserSessions userKey ids sessions).wp (histLogic E A)
      (fun result past' => past ⊆ past' ∧ ∀ found, result = .ok found → ∃ ids' new,
        ids'.Sublist ids ∧ List.Forall₂ (ReadBack E past') ids' new ∧ found = sessions ++ new)
      past := by
  induction ids generalizing past sessions with
  | nil =>
    refine ⟨List.Subset.refl past, ?_⟩
    intro found same
    exact ⟨[], [], List.Sublist.refl _, .nil, by rw [List.append_nil, Except.ok.inj same]⟩
  | cons id ids ih =>
    have next : ∀ sessions' past', past ⊆ past' →
        (r.collectUserSessions userKey ids sessions').wp (histLogic E A)
          (fun result past'' => past' ⊆ past'' ∧ ∀ found, result = .ok found → ∃ ids' new,
            ids'.Sublist ids ∧ List.Forall₂ (ReadBack E past'') ids' new ∧
              found = sessions' ++ new) past' := by
      intro sessions' past' grown
      refine ih ?_ ?_
      · intro id' member
        exact persistent.grow _ _ _ grown (read id' (List.mem_cons_of_mem _ member))
      · intro id' member
        exact persistent.grow _ _ _ grown (prune id' (List.mem_cons_of_mem _ member))
    have skipped : ∀ past', past ⊆ past' →
        (r.collectUserSessions userKey ids sessions).wp (histLogic E A)
          (fun result past'' => past ⊆ past'' ∧ ∀ found, result = .ok found → ∃ ids' new,
            ids'.Sublist (id :: ids) ∧ List.Forall₂ (ReadBack E past'') ids' new ∧
              found = sessions ++ new) past' := by
      intro past' grown
      refine Prog.wp_mono (next sessions past' grown) ?_
      intro result past'' holds
      rcases holds with ⟨more, collected⟩
      refine ⟨List.Subset.trans grown more, ?_⟩
      intro found same
      obtain ⟨ids', new, sub, all, eq⟩ := collected found same
      exact ⟨ids', new, sub.trans (List.sublist_cons_self id ids), all, eq⟩
    have missing : ∀ err past', past ⊆ past' →
        ((if err.is .sessionNotFound then do
            let _ ← redis (.srem userKey id)
            r.collectUserSessions userKey ids sessions
          else return .error (.wrapped ("failed to get session " ++ id ++ ": ") err)) :
          Go (Except Err (List Session))).wp (histLogic E A)
          (fun result past'' => past ⊆ past'' ∧ ∀ found, result = .ok found → ∃ ids' new,
            ids'.Sublist (id :: ids) ∧ List.Forall₂ (ReadBack E past'') ids' new ∧
              found = sessions ++ new) past' := by
      intro err past' grown
      split
      · refine hist_call (persistent.grow _ _ _ grown (prune id List.mem_cons_self)) ?_
        intro reply past'' more _ _
        exact skipped past'' (List.Subset.trans grown more)
      · exact ⟨grown, fun found impossible => by cases impossible⟩
    rw [collectUserSessions, Prog.wp_bind]
    refine hist_getSession persistent (read id List.mem_cons_self) ?_ missing
    intro h past' grown expected member
    cases parsed : parseSession h with
    | error err => exact missing err past' grown
    | ok sess =>
      refine Prog.wp_mono (next (sessions ++ [sess]) past' grown) ?_
      intro result past'' holds
      rcases holds with ⟨more, collected⟩
      refine ⟨List.Subset.trans grown more, ?_⟩
      intro found same
      obtain ⟨ids', new, sub, all, rfl⟩ := collected found same
      have kept : ReadBack E past'' id sess := ⟨h, expected, more member, parsed⟩
      refine ⟨id :: ids', sess :: new, sub.cons_cons id, .cons kept all, ?_⟩
      rw [List.append_assoc, List.singleton_append]

/-- The sessions of a user are those read under ids that her set listed. -/
theorem hist_getUserSessions {userID : String}
    (list : A past (.redis (.smembers (userSessionsKey userID))))
    (read : ∀ ids past', past ⊆ past' →
      E ⟨.redis (.smembers (userSessionsKey userID)), .ok ids⟩ →
      ∀ id ∈ ids, A past' (.redis (.hgetall (sessionKey id))) ∧
        A past' (.redis (.srem (userSessionsKey userID) id))) :
    (r.getUserSessions userID).wp (histLogic E A)
      (fun result past' => past ⊆ past' ∧ ∀ found, result = .ok found → ∃ ids ids',
        E ⟨.redis (.smembers (userSessionsKey userID)), .ok ids⟩ ∧
        ⟨.redis (.smembers (userSessionsKey userID)), .ok ids⟩ ∈ past' ∧
        ids'.Sublist ids ∧ List.Forall₂ (ReadBack E past') ids' found) past := by
  rw [getUserSessions, Prog.wp_bind]
  refine hist_retry_redis persistent list ?_ ?_
  · intro ids past' grown expected member
    refine Prog.wp_mono (hist_collectUserSessions_read persistent ?_ ?_) ?_
    · exact fun id listed => (read ids past' grown expected id listed).1
    · exact fun id listed => (read ids past' grown expected id listed).2
    · intro result past'' holds
      rcases holds with ⟨more, collected⟩
      refine ⟨List.Subset.trans grown more, ?_⟩
      intro found same
      obtain ⟨ids', new, sub, all, rfl⟩ := collected found same
      exact ⟨ids, ids', expected, more member, sub, all⟩
  · intro err past' grown
    exact ⟨grown, fun found impossible => by cases impossible⟩

end RedisStore

end DirectLink
