import DirectLink.Runs
import DirectLink.Session.Sequential
import DirectLink.Signaling.Calls

/-!
# Calls that fail

A handler meets failures call by call: a call of the store or of LiveKit is carried out as a whole,
or it reports an error and has had no effect.  `Tried` records which calls were made and which of
them failed.  A failure that may have had an effect is a `Fate` of the single command.
-/

namespace DirectLink

/-- The error of a call that failed is none of the store's answers. -/
def Err.IsFailure (err : Err) : Prop :=
  err.is .sessionNotFound = false ∧ err.is .invalidRoomCode = false

instance : DecidablePred Err.IsFailure := fun _ => inferInstanceAs (Decidable (_ ∧ _))

namespace ServerCall

/-- What a call replies that fails with an error. -/
def failure (err : Err) : (c : ServerCall) → Option c.Reply
  | createSession _ | updateSessionStatus _ _ | grantAccess _ _ _ | addIngressID _ _
  | getSessionByRoomCode _ | getUserSessions _ | getIngressIDs _ | own (.createIngress _)
  | own (.deleteIngress _) | own (.deleteRoom _) => some (.error err)
  | own (.redis _) | own .timeNow | own .utcNow | own .newUuid | own (.randInt _) | own (.after _)
  | own (.metric _) => none

end ServerCall

/-- The world and the calls made so far, each with whether it failed. -/
structure Tried : Type where
  world : World
  calls : List (ServerCall × Bool)

/-- The removal of a session from the active set can fail. -/
def removalFaults (c : Cmd) (_ : Err) : Prop := ∃ id, c = .redis (.zrem activeSessionsKey id)

/-- One call: carried out; carried out but for the removal from the active set, whose error
`UpdateSessionStatus` swallows; or failed without an effect. -/
inductive Trial (r : RedisStore) (s : Tried) : (c : ServerCall) → c.Reply → Tried → Prop
  | done {c : ServerCall} {reply : c.Reply} {w' : World} :
    Alone (c.code r) s.world reply w' → Trial r s c reply ⟨w', s.calls ++ [(c, false)]⟩
  | unremoved {id status : String} {w' : World} :
    (r.updateSessionStatus id status).Runs (Exec removalFaults) s.world (.ok ()) w' →
    Trial r s (.updateSessionStatus id status) (.ok ())
      ⟨w', s.calls ++ [(.updateSessionStatus id status, false)]⟩
  | failed {c : ServerCall} {err : Err} {reply : c.Reply} :
    err.IsFailure → c.failure err = some reply →
    Trial r s c reply ⟨s.world, s.calls ++ [(c, true)]⟩

/-- The logic of a handler whose calls can fail. -/
@[reducible] def trialLogic (r : RedisStore) : Logic serverCalls where
  State := Tried
  Allows _ _ := True
  Step := Trial r

section Rules

variable {α : Type} {r : RedisStore} {w : World} {calls : List (ServerCall × Bool)}

/-- A call, carried out or failed, and what the handler does then. -/
theorem wp_make {c : ServerCall} {f : c.Reply → Handler α} {Q : α → Tried → Prop}
    (other : ∀ id status, c ≠ .updateSessionStatus id status)
    (done : ∀ reply w', Alone (c.code r) w reply w' →
      (f reply).wp (trialLogic r) Q ⟨w', calls ++ [(c, false)]⟩)
    (failed : ∀ err reply, err.IsFailure → c.failure err = some reply →
      (f reply).wp (trialLogic r) Q ⟨w, calls ++ [(c, true)]⟩) :
    (make c >>= f).wp (trialLogic r) Q ⟨w, calls⟩ := by
  refine ⟨trivial, ?_⟩
  intro reply s' trial
  cases trial with
  | done run => exact done _ _ run
  | unremoved run => exact absurd rfl (other _ _)
  | failed failure reply => exact failed _ _ failure reply

/-- A command of the handler itself. -/
theorem wp_own {c : Cmd} {f : c.Reply → Handler α} {Q : α → Tried → Prop}
    (done : ∀ reply w', Performs w c reply w' →
      (f reply).wp (trialLogic r) Q ⟨w', calls ++ [(.own c, false)]⟩)
    (failed : ∀ err reply, err.IsFailure → (ServerCall.own c).failure err = some reply →
      (f reply).wp (trialLogic r) Q ⟨w, calls ++ [(.own c, true)]⟩) :
    (make (.own c) >>= f).wp (trialLogic r) Q ⟨w, calls⟩ := by
  refine wp_make nofun ?_ failed
  intro reply w' run
  cases run with
  | call performs rest =>
    cases rest
    exact done _ _ performs

/-- A command that can not fail. -/
theorem wp_own_clean {c : Cmd} {f : c.Reply → Handler α} {Q : α → Tried → Prop}
    (clean : ∀ err, (ServerCall.own c).failure err = none)
    (done : ∀ reply w', Performs w c reply w' →
      (f reply).wp (trialLogic r) Q ⟨w', calls ++ [(.own c, false)]⟩) :
    (make (.own c) >>= f).wp (trialLogic r) Q ⟨w, calls⟩ := by
  refine wp_own done ?_
  intro err reply _ failed
  rw [clean err] at failed
  cases failed

/-- A lookup changes nothing: it is answered from the store, or fails. -/
theorem wp_lookup {code : String} {f : Except Err Session → Handler α} {Q : α → Tried → Prop}
    (typed : Typed w.redis)
    (next : ∀ found failed, (failed = false → found = RedisStore.byRoomCode w.redis code) →
      (failed = true → ∃ err : Err, err.IsFailure ∧ found = .error err) →
      (f found).wp (trialLogic r) Q ⟨w, calls ++ [(.getSessionByRoomCode code, failed)]⟩) :
    (make (.getSessionByRoomCode code) >>= f).wp (trialLogic r) Q ⟨w, calls⟩ := by
  refine wp_make nofun ?_ ?_
  · intro found w' run
    obtain ⟨answer, rfl⟩ := RedisStore.alone_of_wp
      (RedisStore.alone_getSessionByRoomCode typed) run
    exact next found false (fun _ => answer) nofun
  · intro err found failure failed
    cases failed
    exact next _ true nofun fun _ => ⟨err, failure, rfl⟩

/-- A run of the handler of `Server` without failures is a run of its calls. -/
theorem trial_of_alone {p : Handler α} {a : α} {w' : World}
    (run : Alone (p.handle (ServerCall.code r)) w a w') :
    ∃ calls', p.Runs (Trial r) ⟨w, calls⟩ a ⟨w', calls'⟩ := by
  replace run := Prog.runs_handle.mp run
  induction run generalizing calls with
  | done => exact ⟨calls, .done⟩
  | call first _ ih =>
    obtain ⟨calls', rest⟩ := ih
    exact ⟨calls', .call (.done first) rest⟩

end Rules

/-- How the runs of a handler are replayed: a call fails, or its commands are hinted at one by
one. -/
noncomputable def trialReplayer (r : RedisStore) : Replayer (S := serverCalls) (Trial r) where
  Hint := Err ⊕ List Hint
  perform
    | .inl err, s, c =>
      if err.IsFailure then
        (c.failure err).map fun reply => (reply, ⟨s.world, s.calls ++ [(c, true)]⟩)
      else none
    | .inr hints, s, c =>
      match (c.code r).replay fairReplayer hints s.world with
      | some (reply, _, w') => some (reply, ⟨w', s.calls ++ [(c, false)]⟩)
      | none => none
  sound hint s c reply s' performed := by
    cases hint with
    | inl err =>
      dsimp only at performed
      split at performed
      · next failure =>
        obtain ⟨reply', failed, same⟩ := Option.map_eq_some_iff.mp performed
        cases same
        exact .failed failure failed
      · cases performed
    | inr hints =>
      dsimp only at performed
      split at performed
      · next reply' rest w' replayed =>
        cases performed
        have run : Alone (c.code r) s.world reply w' := Prog.replay_runs replayed
        exact .done run
      · cases performed

end DirectLink
