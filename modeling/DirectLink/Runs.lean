import DirectLink.Lib.Replay
import DirectLink.System

/-!
# Replaying runs of the backend

The hints a schedule of the backend needs: the order in which a set is listed, a reading of the wall
clock, a UUID, an ingress, and which Redis commands fail.
-/

namespace DirectLink

/-- How a command is answered, where it can be answered in several ways. -/
inductive Hint : Type
  | plain
  | order (ids : List String)
  | utc (t : UtcTime)
  | uuid (id : String)
  | ingress (info : IngressInfo)
  /-- The Redis command is carried out and an error reported. -/
  | lost (err : Err)
  /-- The Redis command is not carried out and an error reported. -/
  | refused (err : Err)

namespace Hint

/-- The order of a listing. -/
noncomputable def listing : Hint → Redis.Order
  | order ids => if nodup : ids.Nodup then .preferring ids nodup else .preferring [] .nil
  | _ => .preferring [] .nil

/-- Carry a command out. -/
noncomputable def perform (w : World) : (c : Cmd) → Hint → Option (c.Reply × World)
  | .redis c, h =>
    some (redisReply (Redis.exec h.listing w.now w.redis c).1,
      { w with redis := (Redis.exec h.listing w.now w.redis c).2 })
  | .createIngress req, .ingress info =>
    if w.livekit.rooms info.ingressId = none then
      some (.ok info, { w with livekit := w.livekit.create info.ingressId req.roomName })
    else none
  | .createIngress _, _ => none
  | .deleteIngress id, _ => some (.ok (), { w with livekit := w.livekit.deleteIngress id })
  | .deleteRoom room, _ => some (.ok (), { w with livekit := w.livekit.deleteRoom room })
  | .timeNow, _ => some (w.now, w)
  | .utcNow, .utc t => some (t, w)
  | .utcNow, _ => none
  | .newUuid, .uuid id =>
    if isUuid id = true ∧ id ∉ w.uuids then some (id, { w with uuids := insert id w.uuids })
    else none
  | .newUuid, _ => none
  | .randInt max, _ => some (.ok (w.rand 0 % max), { w with rand := fun i => w.rand (i + 1) })
  | .after _, _ => some (.ok (), w)
  | .metric op, _ => some ((), { w with metrics := w.metrics.apply op })

theorem performs_of_perform {w w' : World} {c : Cmd} {h : Hint} {r : c.Reply}
    (performed : perform w c h = some (r, w')) : Performs w c r w' := by
  cases c with
  | redis c =>
    cases performed
    exact ⟨h.listing, rfl, rfl⟩
  | createIngress req =>
    cases h with
    | ingress info =>
      rw [perform] at performed
      split at performed
      · next fresh =>
        cases performed
        exact ⟨info, fresh, rfl, rfl⟩
      · cases performed
    | _ => cases performed
  | utcNow =>
    cases h with
    | utc t =>
      cases performed
      rfl
    | _ => cases performed
  | newUuid =>
    cases h with
    | uuid id =>
      rw [perform] at performed
      split at performed
      · next fresh =>
        cases performed
        exact ⟨fresh.1, fresh.2, rfl⟩
      · cases performed
    | _ => cases performed
  | deleteIngress | deleteRoom | timeNow | randInt | after =>
    cases performed
    exact ⟨rfl, rfl⟩
  | metric op =>
    cases performed
    rfl

/-- Carry a command out or let it fail, where `admits` says that it can. -/
noncomputable def exec (admits : Cmd → Err → Bool) (h : Hint) (w : World) (c : Cmd) :
    Option (c.Reply × World) :=
  match c, h with
  | .redis c, .lost err =>
    if admits (.redis c) err then (perform w (.redis c) .plain).map fun p => (.error err, p.2)
    else none
  | .redis c, .refused err => if admits (.redis c) err then some (.error err, w) else none
  | c, h => perform w c h

theorem exec_of_exec {faults : Cmd → Err → Prop} {admits : Cmd → Err → Bool}
    (admitted : ∀ c err, admits c err = true → faults c err) {w w' : World} {c : Cmd} {h : Hint}
    {r : c.Reply} (executed : exec admits h w c = some (r, w')) : Exec faults w c r w' := by
  cases c
  case redis c =>
    cases h
    case lost err =>
      simp only [exec] at executed
      split at executed
      · next fault =>
        obtain ⟨moved, performed, same⟩ := Option.map_eq_some_iff.mp executed
        cases same
        exact .inr ⟨err, admitted _ _ fault, rfl, .inr ⟨moved.1, performs_of_perform performed⟩⟩
      · cases executed
    case refused err =>
      simp only [exec] at executed
      split at executed
      · next fault =>
        cases executed
        exact .inr ⟨err, admitted _ _ fault, rfl, .inl rfl⟩
      · cases executed
    all_goals exact .inl (performs_of_perform executed)
  all_goals exact .inl (performs_of_perform (h := h) executed)

end Hint

/-- Which failures there are, and which of them a schedule may choose. -/
structure Failures : Type where
  faults : Cmd → Err → Prop
  admits : Cmd → Err → Bool
  admitted : ∀ c err, admits c err = true → faults c err

/-- No command fails. -/
def Failures.never : Failures where
  faults := noFaults
  admits _ _ := false
  admitted _ _ impossible := by cases impossible

/-- An attempt on Redis can fail with an error that `retryRedisOp` tries again after. -/
def Failures.lostReplies : Failures where
  faults c err := (∃ c', c = .redis c') ∧ isRetryable err = true
  admits
    | .redis _, err => isRetryable err
    | _, _ => false
  admitted c err admitted := by
    cases c
    case redis c => exact ⟨⟨c, rfl⟩, admitted⟩
    all_goals cases admitted

/-- How the runs of the backend are replayed. -/
noncomputable def replayer (F : Failures) : Replayer (S := backend) (Exec F.faults) where
  Hint := Hint
  perform := Hint.exec F.admits
  sound _ _ _ _ _ executed := Hint.exec_of_exec F.admitted executed

/-- How runs without failures are replayed. -/
noncomputable def fairReplayer : Replayer (S := backend) Performs where
  Hint := Hint
  perform h w c := Hint.perform w c h
  sound _ _ _ _ _ performed := Hint.performs_of_perform performed

/-- Time passes. -/
def wait (w : World) (t : Nat) : Option World := if w.now ≤ t then some (w.at_ t) else none

theorem env_of_wait {w w' : World} {t : Nat} (waited : wait w t = some w') :
    w.now ≤ t ∧ w' = w.at_ t := by
  rw [wait] at waited
  split at waited
  · next later =>
    cases waited
    exact ⟨later, rfl⟩
  · cases waited

/-! ## Looking at the end of a run -/

/-- The UUIDs a call was handed. -/
def uuidsOf (past : List (Event backend)) : List String :=
  past.filterMap fun
    | ⟨.newUuid, id⟩ => some id
    | _ => none

theorem mem_of_mem_uuidsOf {past : List (Event backend)} {id : String}
    (member : id ∈ uuidsOf past) :
    (⟨.newUuid, id⟩ : Event backend) ∈ past := by
  obtain ⟨e, inPast, found⟩ := List.mem_filterMap.mp member
  split at found
  · cases found
    exact inPast
  · cases found

/-! ## A backend to run -/

namespace Sample

/-- A store with the default settings. -/
def store : RedisStore where
  sessionTTL := 86400
  maxRetries := 3
  retryBackOff := 100000000
  sessionTTL_pos := by decide
  retryBackOff_pos := by decide

def backend : Backend where
  server :=
    { store
      liveKitAPIKey := "key"
      liveKitAPISecret := "secret"
      liveKitExternalURL := "wss://livekit"
      toJWT := fun _ _ => .ok "token" }
  lockTTL := 300 * second

def id₁ : String := "00000000-0000-4000-8000-000000000001"
def id₂ : String := "00000000-0000-4000-8000-000000000002"

theorem uuid_id₁ : isUuid id₁ = true := by decide
theorem uuid_id₂ : isUuid id₂ = true := by decide

def createdAt : UtcTime := ⟨2024, 1, 2, 3, 4, 5, 678, by decide⟩

/-- The runs of the backend under some failures. -/
abbrev system (F : Failures) : System DirectLink.backend := backend.system F.faults

variable {F : Failures}

/-- No call yet, and every draw is `n`. -/
def start (F : Failures) (n : Nat) : Pool (system F) := ⟨.empty 0 fun _ => n, []⟩

/-- A schedule, every move of which passes the check. -/
noncomputable def replay (check : Pool (system F) → Move (system F) → Bool)
    (choices : List (Choice (system F) Hint)) (s : Pool (system F)) : Option (Pool (system F)) :=
  Pool.replay (Y := system F) (replayer F) wait check choices s

theorem reach_of_replay {check : Pool (system F) → Move (system F) → Bool}
    {choices : List (Choice (system F) Hint)} {s s' : Pool (system F)}
    (computed : replay check choices s = some s') :
    Pool.Reach (fun s m => check s m = true) s s' :=
  Pool.replay_reach (Y := system F) (fun _ _ _ => env_of_wait) computed

/-- Only requests and sweeps are started. -/
def isRequest (_ : Pool (system F)) : Move (system F) → Bool
  | .start call => !Call.isStore call
  | _ => true

theorem requestsOnly_of_isRequest {s : Pool (system F)} {m : Move (system F)}
    (passed : isRequest s m = true) : RequestsOnly s m := by
  cases m with
  | start call => exact (Bool.not_eq_true' _).mp passed
  | _ => trivial

/-- Only store methods are called. -/
def isStoreCall (_ : Pool (system F)) : Move (system F) → Bool
  | .start call => Call.isStore call
  | _ => true

theorem storeOnly_of_isStoreCall {s : Pool (system F)} {m : Move (system F)}
    (passed : isStoreCall s m = true) : StoreOnly s m := by
  cases m with
  | start call => exact passed
  | _ => trivial

/-- No call is in flight. -/
def atRest (s : Pool (system F)) : Bool :=
  s.threads.all fun t => match t.prog with
    | .done _ => true
    | .call _ _ => false

theorem quiet_of_atRest {s : Pool (system F)} (rest : atRest s = true) : s.Quiet := by
  intro t member
  have returned := List.all_eq_true.mp rest t member
  cases prog : t.prog with
  | done a => trivial
  | call c k =>
    rw [prog] at returned
    cases returned

/-- The choices of thread `i`, as many as there are hints. -/
def go (i : Nat) (hints : List Hint) : List (Choice (system F) Hint) := hints.map (.exec i)

/-- The hints of a `CreateSession` that draws a free code at once. -/
def create (id : String) : List Hint :=
  [.uuid id, .plain, .plain, .utc createdAt] ++ List.replicate 12 .plain

end Sample

end DirectLink
