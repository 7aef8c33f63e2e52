import DirectLink.Lib.Repeat
import DirectLink.Session.Sequential

/-!
# Writes that are tried again

Each attempt of a write can fail after some of its commands were carried out, or after all of them
with the reply lost; `retryRedisOp` then tries again.  A write that returns without an error in the
end has left the store as one undisturbed execution does, up to deadlines and scores.
-/

namespace DirectLink

open Redis (Write Shapes Shape Ahead Repeatable Makes runAll)

/-- Time passes without anything expiring, and a command is carried out or fails. -/
def Disturbed (faults : Cmd → Err → Prop) (w : World) (c : Cmd) (r : c.Reply) (w' : World) : Prop :=
  ∃ t, w.now ≤ t ∧ w.redis.expire t = w.redis ∧ Exec faults (w.at_ t) c r w'

/-- Whenever a disturbed execution returns without an error, so does every undisturbed one, in a
store that is the same. -/
def EndsAsClean (same : Shapes → Shapes → Prop) (p : Go (Except Err Unit)) : Prop :=
  ∀ faults w w', p.Runs (Disturbed faults) w (.ok ()) w' →
    (∃ result w₀, Alone p w result w₀) ∧
      ∀ result w₀, Alone p w result w₀ → result = .ok () ∧ same w'.redis.shapes w₀.redis.shapes

/-- A member is removed, if there is one to remove. -/
def withoutMember (member : String) : Option Shape → Option Shape
  | some (.members m) => if m.erase member = ∅ then none else some (.members (m.erase member))
  | s => s

/-- The stores agree but for the membership of a session in the active set. -/
def SameButActive (sessionID : String) (σ σ' : Shapes) : Prop :=
  ∀ k, if k = activeSessionsKey then withoutMember sessionID (σ k) = withoutMember sessionID (σ' k)
    else σ k = σ' k

/-- The logic of disturbed executions. -/
@[reducible] def disturbedLogic (faults : Cmd → Err → Prop) : Logic backend where
  State := World
  Allows _ _ := True
  Step := Disturbed faults

section Steps

variable {faults : Cmd → Err → Prop} {w w' : World} {c : Redis.Cmd} {wr : Write} {σ σ₀ : Shapes}

/-- A write carried out: it is answered exactly if it applies. -/
theorem performs_write {r : Except Err c.Reply} (isWrite : c.write = some wr)
    (performs : Performs w (.redis c) r w') :
    (∀ v, r = .ok v → wr.apply w.redis.shapes = some w'.redis.shapes) ∧
      (w'.redis.shapes = w.redis.shapes ∨ wr.apply w.redis.shapes = some w'.redis.shapes) ∧
      (wr.apply w.redis.shapes = some σ → (∃ v, r = .ok v) ∧ w'.redis.shapes = σ) := by
  obtain ⟨o, rfl, rfl⟩ := performs
  obtain ⟨answered, shapes⟩ := Redis.exec_write o w.now w.redis isWrite
  have applies : (wr.apply w.redis.shapes).isSome = (Redis.exec o w.now w.redis c).1.isSome := by
    rw [answered, Write.apply, Option.isSome_map]
  dsimp only
  rw [shapes]
  cases applied : wr.apply w.redis.shapes with
  | none =>
    rw [applied] at applies
    refine ⟨?_, .inl rfl, (fun impossible => by cases impossible)⟩
    intro v ok
    cases failed : (Redis.exec o w.now w.redis c).1 with
    | none =>
      rw [failed] at ok
      cases ok
    | some v' =>
      rw [failed] at applies
      cases applies
  | some σ₁ =>
    rw [applied] at applies
    refine ⟨fun _ _ => rfl, .inr rfl, ?_⟩
    intro same
    cases same
    obtain ⟨v, found⟩ := Option.isSome_iff_exists.mp applies.symm
    rw [found]
    exact ⟨⟨v, rfl⟩, rfl⟩

/-- A write, disturbed: where it is answered it was carried out, and otherwise it may have been. -/
theorem disturbed_write {r : Except Err c.Reply} (isWrite : c.write = some wr)
    (disturbed : Disturbed faults w (.redis c) r w') :
    (∀ v, r = .ok v → wr.apply w.redis.shapes = some w'.redis.shapes) ∧
      (w'.redis.shapes = w.redis.shapes ∨ wr.apply w.redis.shapes = some w'.redis.shapes) := by
  obtain ⟨t, _, kept, exec⟩ := disturbed
  have same : (w.at_ t).redis = w.redis := kept
  obtain performs | ⟨err, _, reports, rfl | ⟨r', performs⟩⟩ := exec
  · obtain ⟨answered, moved, _⟩ := performs_write (σ := w.redis.shapes) isWrite performs
    rw [same] at answered moved
    exact ⟨answered, moved⟩
  · have reports : r = .error err := reports
    subst reports
    exact ⟨nofun, .inl (by rw [same])⟩
  · have reports : r = .error err := reports
    subst reports
    obtain ⟨_, moved, _⟩ := performs_write (σ := w.redis.shapes) isWrite performs
    rw [same] at moved
    exact ⟨nofun, moved⟩

/-- The command only reads, and `V` says what is answered in which store. -/
def ReadsShape (c : Redis.Cmd) (V : Shapes → c.Reply → Prop) : Prop :=
  ∀ o now db, (Redis.exec o now db c).2 = db ∧
    ∀ v, (Redis.exec o now db c).1 = some v ↔ V db.shapes v

theorem reads_existsKey (key : String) :
    ReadsShape (.existsKey key) fun σ v => v = (σ key).isSome := by
  intro o now db
  refine ⟨rfl, ?_⟩
  intro v
  have answer : (Redis.exec o now db (.existsKey key)).1 = some (db key).isSome := rfl
  have shape : (db.shapes key).isSome = (db key).isSome := Option.isSome_map
  rw [answer]
  dsimp only
  rw [shape]
  exact ⟨fun same => (Option.some.inj same).symm, fun same => congrArg some same.symm⟩

theorem reads_hgetall (key : String) :
    ReadsShape (.hgetall key) fun σ v => Shape.hashAt (σ key) = some v := by
  intro o now db
  refine ⟨rfl, ?_⟩
  intro v
  dsimp only
  rw [← Redis.Db.hashAt_shape]
  exact Iff.rfl

/-- A read, disturbed. -/
theorem disturbed_read {V : Shapes → c.Reply → Prop} {r : Except Err c.Reply}
    (reads : ReadsShape c V) (disturbed : Disturbed faults w (.redis c) r w') :
    w'.redis.shapes = w.redis.shapes ∧ ∀ v, r = .ok v → V w.redis.shapes v := by
  obtain ⟨t, _, kept, exec⟩ := disturbed
  have same : (w.at_ t).redis = w.redis := kept
  have performed : ∀ {r : Except Err c.Reply}, Performs (w.at_ t) (.redis c) r w' →
      w'.redis.shapes = w.redis.shapes ∧ ∀ v, r = .ok v → V w.redis.shapes v := by
    intro r performs
    obtain ⟨o, rfl, rfl⟩ := performs
    obtain ⟨unchanged, answers⟩ := reads o (w.at_ t).now (w.at_ t).redis
    rw [same] at unchanged answers
    dsimp only
    rw [same, unchanged]
    refine ⟨rfl, ?_⟩
    intro v ok
    cases found : (Redis.exec o (w.at_ t).now w.redis c).1 with
    | none =>
      rw [found] at ok
      cases ok
    | some v' =>
      rw [found] at ok
      cases ok
      exact (answers v).mp found
  obtain performs | ⟨err, _, reports, rfl | ⟨r', performs⟩⟩ := exec
  · exact performed performs
  · have reports : r = .error err := reports
    subst reports
    exact ⟨by rw [same], nofun⟩
  · have reports : r = .error err := reports
    subst reports
    exact ⟨(performed performs).1, nofun⟩

/-- A command that is not one of Redis leaves the shapes alone. -/
theorem disturbed_other {c : Cmd} {r : c.Reply} (other : ∀ c', c ≠ .redis c')
    (disturbed : Disturbed faults w c r w') : w'.redis.shapes = w.redis.shapes := by
  obtain ⟨t, _, kept, exec⟩ := disturbed
  rw [(exec_frame other exec).1, World.at_redis, kept]

theorem disturbed_after {backoff : Int} {r : Except Err Unit}
    (disturbed : Disturbed faults w (.after backoff) r w') : w'.redis.shapes = w.redis.shapes :=
  disturbed_other (by simp) disturbed

end Steps

/-! ## Disturbed attempts -/

section Attempts

variable {faults : Cmd → Err → Prop} {r : RedisStore} {w : World} {ws all : List Write}
variable {cs : List Redis.Cmd} {σ₀ σ : Shapes} {α : Type}

/-- An attempt at a pipeline: without an error all of it was carried out, and otherwise some of
it. -/
theorem wp_pipeExec_disturbed (repeatable : Repeatable all) (makes : Makes cs ws)
    (part : ∀ wr ∈ ws, wr ∈ all) (ahead : Ahead all σ₀ w.redis.shapes) :
    (pipeExec cs).wp (disturbedLogic faults) (fun result w' => Ahead all σ₀ w'.redis.shapes ∧
      ∀ a, result = .ok a → runAll ws w.redis.shapes = some w'.redis.shapes) w := by
  induction makes generalizing w with
  | nil => exact ⟨ahead, fun _ _ => rfl⟩
  | @cons c wr cs ws isWrite _ ih =>
    refine ⟨trivial, ?_⟩
    intro reply w₁ disturbed
    obtain ⟨answered, moved⟩ := disturbed_write isWrite disturbed
    have ahead₁ : Ahead all σ₀ w₁.redis.shapes := by
      obtain same | applied := moved
      · rw [same]
        exact ahead
      · exact ahead.apply repeatable (part wr List.mem_cons_self) applied
    have part' : ∀ wr' ∈ ws, wr' ∈ all := fun wr' mem => part wr' (List.mem_cons_of_mem _ mem)
    change Prog.wp _ (pipeExec cs >>= _) _ w₁
    refine Prog.wp_bind.mpr (Prog.wp_mono (ih part' ahead₁) ?_)
    intro rest w' holds
    cases reply with
    | error err => exact ⟨holds.1, nofun⟩
    | ok v =>
      refine ⟨holds.1, ?_⟩
      intro a ok
      rw [runAll, answered v rfl, Option.bind_some]
      exact holds.2 a ok

/-- However often an operation is tried: a result without an error is that of a complete attempt,
which ends as a single one does. -/
theorem wp_retry_disturbed {p : Go (Except Err α)} (repeatable : Repeatable ws)
    (attempt : ∀ w : World, Ahead ws σ₀ w.redis.shapes → p.wp (disturbedLogic faults)
      (fun result w' => Ahead ws σ₀ w'.redis.shapes ∧
        ∀ a, result = .ok a → runAll ws w.redis.shapes = some w'.redis.shapes) w)
    (start : Ahead ws σ₀ w.redis.shapes) :
    (r.retryRedisOp p).wp (disturbedLogic faults) (fun result w' =>
      Ahead ws σ₀ w'.redis.shapes ∧ ∀ a, result = .ok a → runAll ws σ₀ = some w'.redis.shapes)
      w := by
  refine RedisStore.wp_retryRedisOp_inv (J := fun w : World => Ahead ws σ₀ w.redis.shapes)
    ?_ ?_ start
  · intro w ahead
    refine Prog.wp_mono (attempt w ahead) ?_
    intro result w' holds
    refine ⟨holds.1, holds.1, ?_⟩
    intro a ok
    exact Redis.runAll_of_ahead repeatable ahead (holds.2 a ok)
  · intro w backoff ahead
    refine ⟨trivial, ?_⟩
    intro reply w' disturbed
    rw [disturbed_after disturbed]
    refine ⟨ahead, ?_⟩
    intro err _
    exact ⟨ahead, nofun⟩

/-- A single write, tried until it is answered. -/
theorem wp_write_disturbed {c : Redis.Cmd} {wr : Write} (isWrite : c.write = some wr) :
    (r.retryRedisOp (redis c)).wp (disturbedLogic faults) (fun result w' =>
      Ahead [wr] w.redis.shapes w'.redis.shapes ∧
        ∀ a, result = .ok a → wr.apply w.redis.shapes = some w'.redis.shapes) w := by
  have repeatable := Repeatable.single isWrite
  have tried : (r.retryRedisOp (redis c)).wp (disturbedLogic faults) (fun result w' =>
      Ahead [wr] w.redis.shapes w'.redis.shapes ∧
        ∀ a, result = .ok a → runAll [wr] w.redis.shapes = some w'.redis.shapes) w := by
    refine wp_retry_disturbed repeatable ?_ (.refl [wr] w.redis.shapes)
    intro w₁ ahead
    refine ⟨trivial, ?_⟩
    intro reply w' disturbed
    obtain ⟨answered, moved⟩ := disturbed_write isWrite disturbed
    refine ⟨?_, ?_⟩
    · obtain same | applied := moved
      · rw [same]
        exact ahead
      · exact ahead.apply repeatable List.mem_cons_self applied
    · intro v ok
      rw [Redis.runAll_single]
      exact answered v ok
  simp only [Redis.runAll_single] at tried
  exact tried

/-- A read, tried until it is answered. -/
theorem wp_read_disturbed {c : Redis.Cmd} {V : Shapes → c.Reply → Prop} (reads : ReadsShape c V) :
    (r.retryRedisOp (redis c)).wp (disturbedLogic faults) (fun result w' =>
      w'.redis.shapes = w.redis.shapes ∧ ∀ v, result = .ok v → V w.redis.shapes v) w := by
  refine RedisStore.wp_retryRedisOp_inv
    (J := fun w' : World => w'.redis.shapes = w.redis.shapes) ?_ ?_ rfl
  · intro w' same
    refine ⟨trivial, ?_⟩
    intro result w'' disturbed
    obtain ⟨same', answers⟩ := disturbed_read reads disturbed
    rw [same] at same' answers
    exact ⟨same', same', answers⟩
  · intro w' backoff same
    refine ⟨trivial, ?_⟩
    intro reply w'' disturbed
    have same' := (disturbed_after disturbed).trans same
    exact ⟨same', fun _ _ => ⟨same', nofun⟩⟩

end Attempts

/-! ## Undisturbed executions -/

section Clean

variable {w : World} {c : Redis.Cmd} {wr : Write} {ws : List Write} {cs : List Redis.Cmd}
variable {σ : Shapes}

/-- A write that applies, undisturbed. -/
theorem answers_write {P : c.Reply → World → Prop} (isWrite : c.write = some wr)
    (applies : wr.apply w.redis.shapes = some σ)
    (next : ∀ v w', w'.redis.shapes = σ → P v w') :
    (worldLogic Cmd.OfStore).Answers w c P := by
  refine ⟨trivial, ?_⟩
  intro reply w' performs
  obtain ⟨⟨v, answered⟩, shapes⟩ := (performs_write isWrite performs).2.2 applies
  exact ⟨v, answered, next v w' shapes⟩

/-- A read that is answered, undisturbed. -/
theorem answers_shape {V : Shapes → c.Reply → Prop} {P : c.Reply → World → Prop} {v : c.Reply}
    (reads : ReadsShape c V) (value : V w.redis.shapes v)
    (next : ∀ w', w'.redis.shapes = w.redis.shapes → P v w') :
    (worldLogic Cmd.OfStore).Answers w c P := by
  refine ⟨trivial, ?_⟩
  intro reply w' performs
  obtain ⟨o, rfl, rfl⟩ := performs
  obtain ⟨unchanged, answers⟩ := reads o w.now w.redis
  rw [(answers v).mpr value]
  refine ⟨v, rfl, next _ ?_⟩
  exact congrArg Redis.Db.shapes unchanged

/-- Writes that all apply, undisturbed. -/
theorem answersAll_writes {P : World → Prop} (makes : Makes cs ws)
    (complete : runAll ws w.redis.shapes = some σ) (next : ∀ w', w'.redis.shapes = σ → P w') :
    (worldLogic Cmd.OfStore).AnswersAll w cs P := by
  induction makes generalizing w with
  | nil => exact next w (Option.some.inj complete)
  | cons isWrite _ ih =>
    obtain ⟨σ₁, applies, rest⟩ := Option.bind_eq_some_iff.mp complete
    refine answers_write isWrite applies ?_
    intro v w' shapes
    rw [← shapes] at rest
    exact ih rest

/-- A write that may fail, undisturbed: it is carried out or not. -/
theorem wp_retry_write {r : RedisStore} (isWrite : c.write = some wr) :
    (r.retryRedisOp (redis c)).wp (worldLogic Cmd.OfStore)
      (fun _ w' => Ahead [wr] w.redis.shapes w'.redis.shapes) w := by
  refine RedisStore.wp_retryRedisOp_inv
    (J := fun w' : World => Ahead [wr] w.redis.shapes w'.redis.shapes) ?_ ?_ (.refl _ _)
  · intro w₁ ahead
    refine ⟨trivial, ?_⟩
    intro reply w₂ performs
    have moved := (performs_write (σ := w.redis.shapes) isWrite performs).2.1
    have ahead' : Ahead [wr] w.redis.shapes w₂.redis.shapes := by
      obtain same | applied := moved
      · rw [same]
        exact ahead
      · exact ahead.apply (.single isWrite) List.mem_cons_self applied
    exact ⟨ahead', ahead'⟩
  · intro w₁ backoff ahead
    refine ⟨trivial, ?_⟩
    intro reply w₂ performs
    obtain ⟨_, rfl⟩ := performs
    exact ⟨ahead, fun _ _ => ahead⟩

end Clean

/-- What a disturbed execution that returns without an error ends in, an undisturbed one ends in
too. -/
theorem endsAsClean {same : Shapes → Shapes → Prop} {p : Go (Except Err Unit)}
    (Ends : Shapes → Shapes → Prop)
    (disturbed : ∀ faults w, p.wp (disturbedLogic faults)
      (fun result w' => result = .ok () → Ends w.redis.shapes w'.redis.shapes) w)
    (clean : ∀ w σ, Ends w.redis.shapes σ → p.wp (worldLogic Cmd.OfStore)
      (fun result w' => result = .ok () ∧ same σ w'.redis.shapes) w) : EndsAsClean same p := by
  intro faults w w' run
  have ends := Prog.wp_sound (disturbed faults w) run rfl
  have undisturbed := clean w w'.redis.shapes ends
  obtain ⟨result, w₀, alone, _⟩ := alone_total undisturbed
  refine ⟨⟨result, w₀, alone⟩, ?_⟩
  intro result w₀ alone
  exact RedisStore.alone_of_wp undisturbed alone

namespace RedisStore

variable {r : RedisStore}

/-! ## The pipelines -/

section Pipelines

variable {session : Session} {sessionID userID role ingressID : String}

/-- The kinds of keys by their first characters. -/
def keyGroup : Key → Nat
  | .session _ | .access _ | .ingress _ => 0
  | .roomCode _ => 1
  | .userSessions _ => 2
  | .active => 3
  | .lock => 4

/-- Keys of different groups differ, whatever the ids in them are. -/
theorem text_ne (k k' : Key) (apart : keyGroup k ≠ keyGroup k') : k.text ≠ k'.text := by
  intro eq
  have chars := congrArg String.toList eq
  cases k <;> cases k' <;> first
    | exact apart rfl
    | simp [Key.text, sessionKey, accessKey, ingressKey, roomCodeKey, userSessionsKey,
        sessionPrefix, sessionAccessSuffix, sessionIngressSuffix, roomCodePrefix,
        userSessionsPrefix, activeSessionsKey, janitorLockKey] at chars

theorem sessionKey_ne_accessKey (sessionID : String) :
    sessionKey sessionID ≠ accessKey sessionID := by
  intro eq
  have lengths := congrArg String.length eq
  simp [accessKey, sessionAccessSuffix] at lengths

/-- The writes of `CreateSession`, the same at every attempt. -/
theorem createPipeline_makes (r : RedisStore) (session : Session) :
    ∃ ws, Repeatable ws ∧ ∀ now, Makes (r.createPipeline session now) ws := by
  have noCode : sessionKey session.id ≠ roomCodeKey session.roomCode :=
    text_ne (.session session.id) (.roomCode session.roomCode) (by simp [keyGroup])
  have noUser : sessionKey session.id ≠ userSessionsKey session.createdBy :=
    text_ne (.session session.id) (.userSessions session.createdBy) (by simp [keyGroup])
  have inactive : sessionKey session.id ≠ activeSessionsKey :=
    text_ne (.session session.id) .active (by simp [keyGroup])
  have codeNoUser : roomCodeKey session.roomCode ≠ userSessionsKey session.createdBy :=
    text_ne (.roomCode session.roomCode) (.userSessions session.createdBy)
      (by simp [keyGroup])
  have codeInactive : roomCodeKey session.roomCode ≠ activeSessionsKey :=
    text_ne (.roomCode session.roomCode) .active (by simp [keyGroup])
  have userInactive : userSessionsKey session.createdBy ≠ activeSessionsKey :=
    text_ne (.userSessions session.createdBy) .active (by simp [keyGroup])
  have later : r.ttl ≠ 0 := r.ttl_pos.ne'
  refine ⟨(r.createPipeline session 0).filterMap Redis.Cmd.write,
    Redis.repeatable_of_nodup ?_, ?_⟩
  · by_cases coded : session.roomCode = "" <;>
      simp [createPipeline, Redis.Cmd.changed, Redis.Cmd.write, *]
  · intro now
    have same : (r.createPipeline session 0).filterMap Redis.Cmd.write =
        (r.createPipeline session now).filterMap Redis.Cmd.write := by
      by_cases coded : session.roomCode = "" <;> simp [createPipeline, coded, Redis.Cmd.write]
    rw [same]
    refine Redis.makes_filterMap ?_
    by_cases coded : session.roomCode = "" <;> simp [createPipeline, coded, Redis.Cmd.write]

/-- The writes of `DeleteSession`. -/
theorem deletePipeline_makes (sessionID : String) (session : Session) :
    ∃ ws, Repeatable ws ∧ Makes (deletePipeline sessionID session) ws := by
  have noAccess := sessionKey_ne_accessKey sessionID
  have noUser : sessionKey sessionID ≠ userSessionsKey session.createdBy :=
    text_ne (.session sessionID) (.userSessions session.createdBy) (by simp [keyGroup])
  have inactive : sessionKey sessionID ≠ activeSessionsKey :=
    text_ne (.session sessionID) .active (by simp [keyGroup])
  have noCode : sessionKey sessionID ≠ roomCodeKey session.roomCode :=
    text_ne (.session sessionID) (.roomCode session.roomCode) (by simp [keyGroup])
  have accessNoUser : accessKey sessionID ≠ userSessionsKey session.createdBy :=
    text_ne (.access sessionID) (.userSessions session.createdBy) (by simp [keyGroup])
  have accessInactive : accessKey sessionID ≠ activeSessionsKey :=
    text_ne (.access sessionID) .active (by simp [keyGroup])
  have accessNoCode : accessKey sessionID ≠ roomCodeKey session.roomCode :=
    text_ne (.access sessionID) (.roomCode session.roomCode) (by simp [keyGroup])
  have userInactive : userSessionsKey session.createdBy ≠ activeSessionsKey :=
    text_ne (.userSessions session.createdBy) .active (by simp [keyGroup])
  have userNoCode : userSessionsKey session.createdBy ≠ roomCodeKey session.roomCode :=
    text_ne (.userSessions session.createdBy) (.roomCode session.roomCode)
      (by simp [keyGroup])
  have activeNoCode : activeSessionsKey ≠ roomCodeKey session.roomCode :=
    text_ne .active (.roomCode session.roomCode) (by simp [keyGroup])
  refine ⟨_, Redis.repeatable_of_nodup ?_, Redis.makes_filterMap ?_⟩
  · by_cases coded : session.roomCode = "" <;>
      simp [deletePipeline, Redis.Cmd.changed, Redis.Cmd.write, *]
  · by_cases coded : session.roomCode = "" <;> simp [deletePipeline, coded, Redis.Cmd.write]

theorem grantPipeline_makes (r : RedisStore) (sessionID userID role : String) :
    ∃ ws, Repeatable ws ∧ Makes [.hset (accessKey sessionID) [(userID, role)],
      .expire (accessKey sessionID) r.ttl] ws := by
  refine ⟨_, Redis.repeatable_of_nodup ?_, Redis.makes_filterMap ?_⟩
  · simp [Redis.Cmd.changed, Redis.Cmd.write, r.ttl_pos.ne']
  · simp [Redis.Cmd.write]

theorem ingressPipeline_makes (r : RedisStore) (sessionID ingressID : String) :
    ∃ ws, Repeatable ws ∧ Makes [.sadd (ingressKey sessionID) ingressID,
      .expire (ingressKey sessionID) r.ttl] ws := by
  refine ⟨_, Redis.repeatable_of_nodup ?_, Redis.makes_filterMap ?_⟩
  · simp [Redis.Cmd.changed, Redis.Cmd.write, r.ttl_pos.ne']
  · simp [Redis.Cmd.write]

end Pipelines

/-! ## The methods -/

section Methods

variable {faults : Cmd → Err → Prop} {w : World} {cs : List Redis.Cmd} {ws : List Write}
variable {σ₀ : Shapes} {sessionID : String}

/-- A pipeline, tried until it succeeds. -/
theorem wp_pipeline_disturbed (repeatable : Repeatable ws) (makes : Makes cs ws) :
    (r.retryRedisOp (pipeExec cs)).wp (disturbedLogic faults) (fun result w' =>
      result = .ok () → runAll ws w.redis.shapes = some w'.redis.shapes) w := by
  refine Prog.wp_mono (wp_retry_disturbed repeatable ?_ (.refl ws w.redis.shapes)) ?_
  · intro w₁ ahead
    exact wp_pipeExec_disturbed repeatable makes (fun _ mem => mem) ahead
  · intro result w' holds
    exact holds.2 ()

theorem wp_getSession_disturbed :
    (r.getSession sessionID).wp (disturbedLogic faults) (fun result w' =>
      w'.redis.shapes = w.redis.shapes ∧ ∀ session, result = .ok session →
        ∃ fields, Shape.hashAt (w.redis.shapes (sessionKey sessionID)) = some fields ∧
          parseSession fields = .ok session) w := by
  rw [getSession, Prog.wp_bind]
  refine Prog.wp_mono (wp_read_disturbed (reads_hgetall _)) ?_
  intro result w' holds
  obtain ⟨same, answers⟩ := holds
  cases result with
  | error err => exact ⟨same, (fun _ impossible => by cases impossible)⟩
  | ok fields => exact ⟨same, fun session parsed => ⟨fields, answers fields rfl, parsed⟩⟩

theorem createSession_endsAsClean (r : RedisStore) (session : Session) :
    EndsAsClean Eq (r.createSession session) := by
  obtain ⟨ws, repeatable, makes⟩ := createPipeline_makes r session
  refine endsAsClean (fun σ₀ σ => runAll ws σ₀ = some σ) ?_ ?_
  · intro faults w
    have tried : (r.createSession session).wp (disturbedLogic faults) (fun result w' =>
        Ahead ws w.redis.shapes w'.redis.shapes ∧
          ∀ a, result = .ok a → runAll ws w.redis.shapes = some w'.redis.shapes) w := by
      refine wp_retry_disturbed repeatable ?_ (.refl ws w.redis.shapes)
      intro w₁ ahead
      refine ⟨trivial, ?_⟩
      intro now w₂ disturbed
      have same : w₂.redis.shapes = w₁.redis.shapes := disturbed_other (by simp) disturbed
      rw [← same] at ahead ⊢
      exact wp_pipeExec_disturbed repeatable (makes now) (fun _ mem => mem) ahead
    exact Prog.wp_mono tried fun result w' holds => holds.2 ()
  · intro w σ complete
    refine wp_createSession ⟨trivial, ?_⟩
    intro now w' performs
    obtain ⟨rfl, rfl⟩ := performs
    refine answersAll_writes (makes _) complete ?_
    intro w' same
    exact ⟨rfl, same.symm⟩

theorem deleteSession_endsAsClean (r : RedisStore) (sessionID : String) :
    EndsAsClean Eq (r.deleteSession sessionID) := by
  refine endsAsClean (fun σ₀ σ => ∃ fields session ws,
    Shape.hashAt (σ₀ (sessionKey sessionID)) = some fields ∧ parseSession fields = .ok session ∧
      Makes (deletePipeline sessionID session) ws ∧ runAll ws σ₀ = some σ) ?_ ?_
  · intro faults w
    rw [deleteSession, Prog.wp_bind]
    refine Prog.wp_mono wp_getSession_disturbed ?_
    intro result w₁ holds
    obtain ⟨same, found⟩ := holds
    cases result with
    | error err => exact fun impossible => by cases impossible
    | ok session =>
      obtain ⟨fields, stored, parsed⟩ := found session rfl
      obtain ⟨ws, repeatable, makes⟩ := deletePipeline_makes sessionID session
      refine Prog.wp_mono (wp_pipeline_disturbed repeatable makes) ?_
      intro result w₂ complete ok
      have complete := complete ok
      rw [same] at complete
      exact ⟨fields, session, ws, stored, parsed, makes, complete⟩
  · intro w σ ends
    obtain ⟨fields, session, ws, stored, parsed, makes, complete⟩ := ends
    refine wp_deleteSession (answers_shape (reads_hgetall _) stored ?_)
    intro w₁ same
    rw [parsed]
    rw [← same] at complete
    refine answersAll_writes makes complete ?_
    intro w₂ ended
    exact ⟨rfl, ended.symm⟩

theorem grantAccess_endsAsClean (r : RedisStore) (sessionID userID role : String) :
    EndsAsClean Eq (r.grantAccess sessionID userID role) := by
  obtain ⟨ws, repeatable, makes⟩ := grantPipeline_makes r sessionID userID role
  refine endsAsClean (fun σ₀ σ =>
    (σ₀ (sessionKey sessionID)).isSome = true ∧ runAll ws σ₀ = some σ) ?_ ?_
  · intro faults w
    rw [grantAccess, Prog.wp_bind]
    refine Prog.wp_mono (wp_read_disturbed (reads_existsKey _)) ?_
    intro result w₁ holds
    obtain ⟨same, found⟩ := holds
    cases result with
    | error err => exact fun impossible => by cases impossible
    | ok found' =>
      have found := found found' rfl
      cases found' with
      | false => exact fun impossible => by cases impossible
      | true =>
        refine Prog.wp_mono (wp_pipeline_disturbed repeatable makes) ?_
        intro result w₂ complete ok
        have complete := complete ok
        rw [same] at complete
        exact ⟨found.symm, complete⟩
  · intro w σ ends
    obtain ⟨found, complete⟩ := ends
    refine wp_grantAccess (answers_shape (reads_existsKey _) found.symm ?_)
    intro w₁ same
    rw [← same] at complete
    refine answersAll_writes makes complete ?_
    intro w₂ ended
    exact ⟨rfl, ended.symm⟩

theorem revokeAccess_endsAsClean (r : RedisStore) (sessionID userID : String) :
    EndsAsClean Eq (r.revokeAccess sessionID userID) := by
  obtain ⟨wr, isWrite⟩ : ∃ wr, (Redis.Cmd.hdel (accessKey sessionID) userID).write = some wr :=
    ⟨_, rfl⟩
  refine endsAsClean (fun σ₀ σ => wr.apply σ₀ = some σ) ?_ ?_
  · intro faults w
    refine Prog.wp_mono (wp_write_disturbed isWrite) ?_
    intro result w' holds
    exact holds.2 ()
  · intro w σ applies
    refine wp_revokeAccess (answers_write isWrite applies ?_)
    intro v w' ended
    exact ⟨rfl, ended.symm⟩

theorem addIngressID_endsAsClean (r : RedisStore) (sessionID ingressID : String) :
    EndsAsClean Eq (r.addIngressID sessionID ingressID) := by
  obtain ⟨ws, repeatable, makes⟩ := ingressPipeline_makes r sessionID ingressID
  refine endsAsClean (fun σ₀ σ => runAll ws σ₀ = some σ) ?_ ?_
  · intro faults w
    exact wp_pipeline_disturbed repeatable makes
  · intro w σ complete
    refine wp_addIngressID (answersAll_writes makes complete ?_)
    intro w' ended
    exact ⟨rfl, ended.symm⟩

/-- The write of `ZREM` on the active set. -/
theorem withoutMember_of_ahead {wr : Write} {σ : Shapes} {k : String}
    (isWrite : (Redis.Cmd.zrem activeSessionsKey sessionID).write = some wr)
    (ahead : Ahead [wr] σ₀ σ) :
    if k = activeSessionsKey then withoutMember sessionID (σ k) = withoutMember sessionID (σ₀ k)
    else σ k = σ₀ k := by
  cases isWrite
  obtain same | ⟨wr', mem, own, run⟩ := ahead k
  · rw [same]
    split <;> rfl
  · rw [List.mem_singleton.mp mem] at own run
    rw [if_pos own.symm]
    obtain ⟨m, members, left⟩ := Option.map_eq_some_iff.mp run
    cases stored : σ₀ k with
    | none =>
      rw [stored] at members
      cases members
      rw [← left]
      rfl
    | some shape =>
      rw [stored] at members
      cases shape <;> cases members
      rw [← left]
      split
      · next empty => simp only [withoutMember, empty, if_true]
      · next other => simp only [withoutMember, Finset.erase_idem]

theorem updateSessionStatus_endsAsClean (r : RedisStore) (sessionID status : String) :
    EndsAsClean (SameButActive sessionID) (r.updateSessionStatus sessionID status) := by
  obtain ⟨wr, isWrite⟩ : ∃ wr,
    (Redis.Cmd.hset (sessionKey sessionID) [("status", status)]).write = some wr := ⟨_, rfl⟩
  obtain ⟨zr, isRemoval⟩ : ∃ zr, (Redis.Cmd.zrem activeSessionsKey sessionID).write = some zr :=
    ⟨_, rfl⟩
  refine endsAsClean (fun σ₀ σ => (σ₀ (sessionKey sessionID)).isSome = true ∧
    ∃ σ₁, wr.apply σ₀ = some σ₁ ∧ Ahead [zr] σ₁ σ) ?_ ?_
  · intro faults w
    rw [updateSessionStatus, Prog.wp_bind]
    refine Prog.wp_mono (wp_read_disturbed (reads_existsKey _)) ?_
    intro result w₁ holds
    obtain ⟨same, found⟩ := holds
    cases result with
    | error err => exact fun impossible => by cases impossible
    | ok found' =>
      have found := found found' rfl
      cases found' with
      | false => exact fun impossible => by cases impossible
      | true =>
        rw [Prog.wp_bind]
        refine Prog.wp_mono (wp_write_disturbed isWrite) ?_
        intro result w₂ holds
        cases result with
        | error err => exact fun impossible => by cases impossible
        | ok v =>
          have applied := holds.2 v rfl
          rw [same] at applied
          dsimp only
          split
          · rw [Prog.wp_bind]
            refine Prog.wp_mono (wp_write_disturbed isRemoval) ?_
            intro _ w₃ removed _
            exact ⟨found.symm, w₂.redis.shapes, applied, removed.1⟩
          · intro _
            exact ⟨found.symm, w₂.redis.shapes, applied, .refl _ _⟩
  · intro w σ ends
    obtain ⟨found, σ₁, applied, ahead⟩ := ends
    have agree : ∀ σ', Ahead [zr] σ₁ σ' → SameButActive sessionID σ σ' := by
      intro σ' ahead' k
      have left := withoutMember_of_ahead (k := k) isRemoval ahead
      have right := withoutMember_of_ahead (k := k) isRemoval ahead'
      split at left
      · next own =>
        rw [if_pos own] at right ⊢
        exact left.trans right.symm
      · next other =>
        rw [if_neg other] at right ⊢
        exact left.trans right.symm
    rw [updateSessionStatus, Prog.wp_bind]
    refine wp_retryRedisOp_redis (answers_shape (reads_existsKey _) found.symm ?_)
    intro w₁ same
    rw [Prog.wp_bind]
    rw [← same] at applied
    refine wp_retryRedisOp_redis (answers_write isWrite applied ?_)
    intro v w₂ ended
    dsimp only
    split
    · rw [Prog.wp_bind]
      refine Prog.wp_mono (wp_retry_write isRemoval) ?_
      intro _ w₃ removed
      rw [ended] at removed
      exact ⟨rfl, agree _ removed⟩
    · refine ⟨rfl, agree _ ?_⟩
      rw [ended]
      exact .refl _ _

/-- The writes of the store, each with the store it is tried in up to. -/
structure RetriesEndAsClean (r : RedisStore) : Prop where
  createSession : ∀ session, EndsAsClean Eq (r.createSession session)
  deleteSession : ∀ sessionID, EndsAsClean Eq (r.deleteSession sessionID)
  grantAccess : ∀ sessionID userID role, EndsAsClean Eq (r.grantAccess sessionID userID role)
  revokeAccess : ∀ sessionID userID, EndsAsClean Eq (r.revokeAccess sessionID userID)
  addIngressID : ∀ sessionID ingressID, EndsAsClean Eq (r.addIngressID sessionID ingressID)
  updateSessionStatus : ∀ sessionID status,
    EndsAsClean (SameButActive sessionID) (r.updateSessionStatus sessionID status)

/-- **Retried writes**: however many attempts were cut short or lost their reply, a write that
returns without an error leaves the store as a single undisturbed execution does. -/
theorem retried_writes_end_as_clean (r : RedisStore) : RetriesEndAsClean r where
  createSession := createSession_endsAsClean r
  deleteSession := deleteSession_endsAsClean r
  grantAccess := grantAccess_endsAsClean r
  revokeAccess := revokeAccess_endsAsClean r
  addIngressID := addIngressID_endsAsClean r
  updateSessionStatus := updateSessionStatus_endsAsClean r

end Methods

end RedisStore

end DirectLink
