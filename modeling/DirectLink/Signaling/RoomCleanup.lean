import DirectLink.Session.Sequential
import DirectLink.Session.RecordedRuns
import DirectLink.Signaling.Calls

/-!
# Room cleanup

`Server.deleteRoom` on its own, with the commands it issues and the replies they get, when every
command can fail with any error.
-/

namespace DirectLink

/-! ### Errors in errors -/

/-- `err` stands in the tree of the second error, as `errors.Unwrap` walks it. -/
inductive Err.Contains (err : Err) : Err → Prop
  | here : Contains err err
  | wrapped {text : String} {inner : Err} : Contains err inner → Contains err (.wrapped text inner)
  | joined {errs : List Err} {inner : Err} : inner ∈ errs → Contains err inner →
    Contains err (.joined errs)

theorem Err.anyIs_of_mem {target : Sentinel} {errs : List Err} {err : Err} (member : err ∈ errs)
    (is : err.is target = true) : Err.anyIs target errs = true := by
  induction errs with
  | nil => cases member
  | cons first errs ih =>
    rw [Err.anyIs, Bool.or_eq_true]
    rcases List.mem_cons.mp member with rfl | member
    · exact .inl is
    · exact .inr (ih member)

/-- `errors.Is` finds what is contained. -/
theorem Err.is_of_contains {target : Sentinel} {err outer : Err} (contains : err.Contains outer)
    (is : err.is target = true) : outer.is target = true := by
  induction contains with
  | here => exact is
  | wrapped _ ih => rwa [Err.is]
  | joined member _ ih =>
    rw [Err.is]
    exact Err.anyIs_of_mem member ih

/-! ### Deletions -/

def Cmd.IsDeletion : Cmd → Bool
  | .deleteIngress _ | .deleteRoom _ => true
  | _ => false

/-- The deletions that were attempted. -/
def attempted (events : List (Event backend)) : List Cmd :=
  (events.map Event.cmd).filter Cmd.IsDeletion

/-- An attempted deletion has failed with the error. -/
def DeletionFailed (events : List (Event backend)) (err : Err) : Prop :=
  ∃ e ∈ events, e.cmd.IsDeletion = true ∧ e.cmd.Reports e.reply err

/-! ### What is to hold -/

/-- `GetIngressIDs`, started in `w`, has these events and this result. -/
def Reads (r : RedisStore) (w : World) (sessionID : String) (events : List (Event backend))
    (read : Except Err (List String)) : Prop :=
  ∃ w', (r.getIngressIDs sessionID).Runs RecordingStep ⟨w, []⟩ read ⟨w', events⟩

/-- The ids are those recorded for the session, each once. -/
def Recorded (w : World) (sessionID : String) (ids : List String) : Prop :=
  ids.Nodup ∧ w.redis.setAt (ingressKey sessionID) = some ids.toFinset

/-- What is deleted after the read: the room in every case. -/
def deletions (sessionID : String) : Except Err (List String) → List Cmd
  | .error _ => [.deleteRoom sessionID]
  | .ok ids => ids.map .deleteIngress ++ [.deleteRoom sessionID]

/-- The cleanup attempts all it knows of, and its result tells all that has failed. -/
def Complete (r : RedisStore) (w : World) (sessionID : String) (events : List (Event backend))
    (result : Except Err Unit) : Prop :=
  ∃ reading cleaning read, events = reading ++ cleaning ∧ Reads r w sessionID reading read ∧
    (∀ ids, read = .ok ids → Recorded w sessionID ids) ∧
    attempted events = deletions sessionID read ∧
    (result = .ok () ↔ ¬ ∃ err, read = .error err ∨ DeletionFailed events err) ∧
    ∀ err, read = .error err ∨ DeletionFailed events err →
      ∃ outer, result = .error outer ∧ err.Contains outer

/-- In every run the cleanup returns, and it is complete. -/
def CleansUp (s : Server) (w : World) (sessionID : String) : Prop :=
  (∃ result t, (s.deleteRoom sessionID).Runs RecordingStep ⟨w, []⟩ result t) ∧
    ∀ result t, (s.deleteRoom sessionID).Runs RecordingStep ⟨w, []⟩ result t →
      Complete s.store w sessionID t.events result

/-! ### The read -/

/-- The commands of a cleanup. -/
def Cmd.OfCleanup (c : Cmd) : Prop :=
  c.OfStore ∨ c.IsDeletion = true

theorem attempted_append (events new : List (Event backend)) :
    attempted (events ++ new) = attempted events ++ attempted new := by
  rw [attempted, List.map_append, List.filter_append]
  rfl

section Runs

variable {r : RedisStore} {s : Server} {w : World} {t t' : Recording} {sessionID : String}
variable {ids : List String} {errs : List Err}

theorem wp_getIngressIDs_recorded :
    (r.getIngressIDs sessionID).wp (recordingLogic Cmd.OfCleanup)
      (fun read t' => attempted t'.events = [] ∧
        ∀ ids, read = .ok ids → Recorded w sessionID ids) ⟨w, []⟩ := by
  refine RedisStore.wp_retryRedisOp_inv (L := recordingLogic Cmd.OfCleanup)
    (J := fun t => t.world.redis = w.redis ∧ attempted t.events = []) ?_ ?_ ⟨rfl, rfl⟩
  · intro holds post
    rcases holds with ⟨w₁, events⟩
    rcases post with ⟨same, none⟩
    refine ⟨.inl trivial, ?_⟩
    intro reply holds post
    rcases holds with ⟨w₂, events'⟩
    rcases post with ⟨exec, extended⟩
    dsimp only at same none exec extended ⊢
    have still : w₂.redis = w.redis := by
      refine exec.elim (P := fun w' => w'.redis = w.redis) same ?_
      intro reply' holds
      rcases holds with ⟨order, _, rfl⟩
      exact same
    have silent : attempted events' = [] := by
      rw [extended, attempted_append, none]
      rfl
    refine ⟨⟨still, silent⟩, silent, ?_⟩
    intro ids agrees
    subst agrees
    rcases exec with ⟨order, answer, _⟩ | ⟨err, _, impossible, _⟩
    · rw [same] at answer
      dsimp only [Redis.exec] at answer
      cases set : w.redis.setAt (ingressKey sessionID) with
      | none =>
        rw [set] at answer
        cases answer
      | some recorded =>
        rw [set] at answer
        cases answer
        exact ⟨order.nodup recorded, by rw [set, order.toFinset]⟩
    · cases impossible
  · intro holds backoff post
    rcases holds with ⟨w₁, events⟩
    rcases post with ⟨same, none⟩
    refine ⟨.inl trivial, ?_⟩
    intro reply holds post
    rcases holds with ⟨w₂, events'⟩
    rcases post with ⟨exec, extended⟩
    dsimp only at same none exec extended ⊢
    have silent : attempted events' = [] := by
      rw [extended, attempted_append, none]
      rfl
    refine ⟨⟨?_, silent⟩, fun err failed => ⟨silent, ?_⟩⟩
    · refine exec.elim (P := fun w' => w'.redis = w.redis) same ?_
      intro reply' holds
      rcases holds with ⟨_, rfl⟩
      exact same
    · intro ids impossible
      cases impossible

/-! ### The deletions -/

/-- What `deleteRoom` notes of a deletion that failed. -/
def noted : Event backend → Option Err
  | ⟨.deleteIngress ingressID, .error err⟩ =>
    some (.wrapped ("delete ingress " ++ ingressID ++ ": ") err)
  | ⟨.deleteRoom _, .error err⟩ => some (.wrapped "delete room: " err)
  | _ => none

theorem runs_deleteIngresses {errs' : List Err}
    (run : (deleteIngresses ids errs).Runs RecordingStep t errs' t') :
    ∃ new, t'.events = t.events ++ new ∧ new.map Event.cmd = ids.map .deleteIngress ∧
      errs' = errs ++ new.filterMap noted := by
  induction ids generalizing t errs with
  | nil =>
    cases run
    exact ⟨[], (List.append_nil _).symm, rfl, (List.append_nil _).symm⟩
  | cons id ids ih =>
    rw [deleteIngresses] at run
    obtain ⟨reply, t₁, first, rest⟩ := Prog.runs_bind.mp run
    obtain ⟨_, extended⟩ : RecordingStep t (.deleteIngress id) reply t₁ := by
      cases first with
      | call step done =>
        cases done
        exact step
    cases reply with
    | error err =>
      obtain ⟨new, more, cmds, all⟩ := ih rest
      refine ⟨⟨.deleteIngress id, .error err⟩ :: new, ?_, ?_, ?_⟩
      · rw [more, extended, List.append_assoc, List.singleton_append]
      · rw [List.map_cons, List.map_cons, cmds]
      · rw [all, List.append_assoc]
        rfl
    | ok done =>
      obtain ⟨new, more, cmds, all⟩ := ih rest
      refine ⟨⟨.deleteIngress id, .ok done⟩ :: new, ?_, ?_, all⟩
      · rw [more, extended, List.append_assoc, List.singleton_append]
      · rw [List.map_cons, List.map_cons, cmds]

theorem runs_finishRoom {result : Except Err Unit}
    (run : (finishRoom sessionID errs).Runs RecordingStep t result t') :
    ∃ reply, t'.events = t.events ++ [⟨.deleteRoom sessionID, reply⟩] ∧
      result = joinErrors (errs ++ [(⟨.deleteRoom sessionID, reply⟩ : Event backend)].filterMap
        noted) := by
  obtain ⟨reply, t₁, first, rest⟩ := Prog.runs_bind.mp run
  obtain ⟨_, extended⟩ : RecordingStep t (.deleteRoom sessionID) reply t₁ := by
    cases first with
    | call step done =>
      cases done
      exact step
  refine ⟨reply, ?_⟩
  cases reply with
  | error err =>
    cases rest
    exact ⟨extended, rfl⟩
  | ok done =>
    cases rest
    exact ⟨extended, congrArg joinErrors (List.append_nil errs).symm⟩

/-- What `deleteRoom` notes of the read. -/
def readNoted : Except Err (List String) → List Err
  | .error err => [.wrapped "fetch ingress IDs: " err]
  | .ok _ => []

/-- The read, the deletions, and the errors that were noted, joined. -/
theorem runs_deleteRoom {result : Except Err Unit}
    (run : (s.deleteRoom sessionID).Runs RecordingStep ⟨w, []⟩ result t) :
    ∃ reading cleaning read, t.events = reading ++ cleaning ∧
      Reads s.store w sessionID reading read ∧
      cleaning.map Event.cmd = deletions sessionID read ∧
      result = joinErrors (readNoted read ++ cleaning.filterMap noted) := by
  rw [Server.deleteRoom] at run
  obtain ⟨read, t₁, reading, rest⟩ := Prog.runs_bind.mp run
  cases read with
  | error err =>
    obtain ⟨reply, extended, joined⟩ := runs_finishRoom rest
    exact ⟨t₁.events, _, .error err, extended, ⟨t₁.world, reading⟩, rfl, joined⟩
  | ok ids =>
    obtain ⟨errs, t₂, deleting, finishing⟩ := Prog.runs_bind.mp rest
    obtain ⟨new, more, cmds, rfl⟩ := runs_deleteIngresses deleting
    obtain ⟨reply, extended, joined⟩ := runs_finishRoom finishing
    refine ⟨t₁.events, new ++ [⟨.deleteRoom sessionID, reply⟩], .ok ids, ?_, ⟨t₁.world, reading⟩,
      ?_, ?_⟩
    · rw [extended, more, List.append_assoc]
    · rw [List.map_append, cmds]
      rfl
    · rw [joined, List.filterMap_append]
      rfl

/-! ### The result -/

theorem noted_of_reports {e : Event backend} {err : Err} (deletion : e.cmd.IsDeletion = true)
    (reports : e.cmd.Reports e.reply err) : ∃ outer, noted e = some outer ∧ err.Contains outer := by
  obtain ⟨c, reply⟩ := e
  cases c with
  | deleteIngress id =>
    obtain rfl : reply = .error err := reports
    exact ⟨_, rfl, .wrapped .here⟩
  | deleteRoom room =>
    obtain rfl : reply = .error err := reports
    exact ⟨_, rfl, .wrapped .here⟩
  | _ => cases deletion

theorem reports_of_noted {e : Event backend} {outer : Err} (some : noted e = some outer) :
    ∃ err, e.cmd.IsDeletion = true ∧ e.cmd.Reports e.reply err := by
  obtain ⟨c, reply⟩ := e
  cases c with
  | deleteIngress id =>
    cases reply with
    | error err => exact ⟨err, rfl, rfl⟩
    | ok _ => cases some
  | deleteRoom room =>
    cases reply with
    | error err => exact ⟨err, rfl, rfl⟩
    | ok _ => cases some
  | _ => cases some

theorem joinErrors_eq_ok : joinErrors errs = .ok () ↔ errs = [] := by
  cases errs <;> simp [joinErrors]

theorem contains_joinErrors {err outer : Err} (member : outer ∈ errs)
    (contains : err.Contains outer) :
    ∃ joined, joinErrors errs = .error joined ∧ err.Contains joined := by
  refine ⟨.joined errs, ?_, .joined member contains⟩
  cases errs with
  | nil => cases member
  | cons first errs => rfl

/-- What was noted, and what has failed. -/
theorem mem_noted_of_failed {events : List (Event backend)} {read : Except Err (List String)}
    {err : Err} (failed : read = .error err ∨ DeletionFailed events err) :
    ∃ outer ∈ readNoted read ++ events.filterMap noted, err.Contains outer := by
  rcases failed with rfl | ⟨e, member, deletion, reports⟩
  · exact ⟨_, List.mem_append_left _ (List.mem_singleton_self _), .wrapped .here⟩
  · obtain ⟨outer, some, contains⟩ := noted_of_reports deletion reports
    exact ⟨outer, List.mem_append_right _ (List.mem_filterMap.mpr ⟨e, member, some⟩), contains⟩

theorem failed_of_mem_noted {events : List (Event backend)} {read : Except Err (List String)}
    {outer : Err} (member : outer ∈ readNoted read ++ events.filterMap noted) :
    ∃ err, read = .error err ∨ DeletionFailed events err := by
  rcases List.mem_append.mp member with first | later
  · cases read with
    | error err => exact ⟨err, .inl rfl⟩
    | ok ids => cases first
  · obtain ⟨e, among, some⟩ := List.mem_filterMap.mp later
    obtain ⟨err, deletion, reports⟩ := reports_of_noted some
    exact ⟨err, .inr ⟨e, among, deletion, reports⟩⟩

theorem deletionFailed_append {events new : List (Event backend)} {err : Err}
    (none : attempted events = []) :
    DeletionFailed (events ++ new) err ↔ DeletionFailed new err := by
  constructor
  · intro holds
    rcases holds with ⟨e, member, deletion, reports⟩
    rcases List.mem_append.mp member with early | late
    · have listed : e.cmd ∈ attempted events :=
        List.mem_filter.mpr ⟨List.mem_map_of_mem early, deletion⟩
      rw [none] at listed
      cases listed
    · exact ⟨e, late, deletion, reports⟩
  · intro holds
    rcases holds with ⟨e, member, deletion, reports⟩
    exact ⟨e, List.mem_append_right _ member, deletion, reports⟩

theorem filter_deletions {read : Except Err (List String)} :
    (deletions sessionID read).filter Cmd.IsDeletion = deletions sessionID read := by
  refine List.filter_eq_self.mpr fun c member => ?_
  cases read with
  | error err =>
    rw [List.mem_singleton.mp member]
    rfl
  | ok ids =>
    rcases List.mem_append.mp member with ingress | room
    · obtain ⟨id, _, rfl⟩ := List.mem_map.mp ingress
      rfl
    · rw [List.mem_singleton.mp room]
      rfl

/-! ### The cleanup -/

theorem issues_deleteRoom : (s.deleteRoom sessionID).Issues Cmd.OfCleanup := by
  refine (RedisStore.issues_retryRedisOp_redis (.inl trivial) fun _ => .inl trivial).bind ?_
  have finish (errs : List Err) : (finishRoom sessionID errs).Issues Cmd.OfCleanup := by
    refine ⟨.inr rfl, ?_⟩
    intro reply
    cases reply <;> trivial
  intro read
  cases read with
  | error err => exact finish _
  | ok ids => exact (issues_deleteIngresses fun _ _ => .inr rfl).bind finish

theorem Cmd.OfCleanup.enabled {c : Cmd} (ofCleanup : c.OfCleanup) (t : Recording) :
    ∃ reply t', RecordingStep t c reply t' := by
  suffices performed : ∃ reply w', Performs t.world c reply w' by
    obtain ⟨reply, w', performs⟩ := performed
    exact ⟨reply, ⟨w', _⟩, .inl performs, rfl⟩
  rcases ofCleanup with ofStore | deletion
  · exact ofStore.enabled t.world
  · cases c with
    | deleteIngress id => exact ⟨_, _, rfl, rfl⟩
    | deleteRoom room => exact ⟨_, _, rfl, rfl⟩
    | _ => cases deletion

theorem complete_of_runs {result : Except Err Unit}
    (run : (s.deleteRoom sessionID).Runs RecordingStep ⟨w, []⟩ result t) :
    Complete s.store w sessionID t.events result := by
  obtain ⟨reading, cleaning, read, split, reads, cmds, joined⟩ := runs_deleteRoom run
  obtain ⟨none, recorded⟩ : attempted reading = [] ∧
      ∀ ids, read = .ok ids → Recorded w sessionID ids := by
    obtain ⟨w', reads⟩ := reads
    exact Prog.wp_sound (L := recordingLogic Cmd.OfCleanup) wp_getIngressIDs_recorded reads
  refine ⟨reading, cleaning, read, split, reads, recorded, ?_, ?_, ?_⟩
  · rw [split, attempted_append, none, List.nil_append, attempted, cmds, filter_deletions]
  · rw [joined, joinErrors_eq_ok, split, not_exists]
    simp only [deletionFailed_append none]
    constructor
    · intro empty err failed
      obtain ⟨outer, member, _⟩ := mem_noted_of_failed failed
      rw [empty] at member
      cases member
    · intro clean
      refine List.eq_nil_iff_forall_not_mem.mpr fun outer member => ?_
      obtain ⟨err, failed⟩ := failed_of_mem_noted member
      exact clean err failed
  · intro err failed
    rw [split, deletionFailed_append none] at failed
    obtain ⟨outer, member, contains⟩ := mem_noted_of_failed failed
    rw [joined]
    exact contains_joinErrors member contains

end Runs

/-- Whatever fails, `deleteRoom` attempts to delete each recorded ingress once and then the room,
and reports exactly what has failed. -/
theorem deleteRoom_cleansUp (s : Server) (w : World) (sessionID : String) :
    CleansUp s w sessionID := by
  constructor
  · have total :
        (s.deleteRoom sessionID).wp (recordingLogic Cmd.OfCleanup) (fun _ _ => True) ⟨w, []⟩ :=
      issues_deleteRoom.wp (fun _ _ _ ofCleanup => ⟨ofCleanup, fun _ _ _ => trivial⟩) trivial
    obtain ⟨result, t, run, _⟩ := Prog.wp_total (L := recordingLogic Cmd.OfCleanup)
      (fun t _ ofCleanup => ofCleanup.enabled t) total
    exact ⟨result, t, run⟩
  · exact fun _ _ run => complete_of_runs run

end DirectLink
