import DirectLink.Interleaving.RoomCodes
import DirectLink.Session.Sequential

/-!
# Drawing a room code

Which code `NewRoomCode` returns, over every state of the store that calls, however they interleave,
and expiries can lead to, and over every sequence of draws.
-/

namespace DirectLink

open RedisStore

/-! ## What is to hold -/

/-- A session that can be read has the room code. -/
def InUse (db : Redis.Db) (code : String) : Prop :=
  ∃ id s, isUuid id = true ∧ Live db id s ∧ s.roomCode = code

/-- The code of draw number `i`. -/
def drawn (rand : Nat → Nat) (i : Nat) : String := roomCodeOf (rand i % 1000000)

/-- The result is the first code drawn that no session uses, or an error when each of the ten is in
use. -/
def FirstUnused (w : World) (result : Except Err String) : Prop :=
  (∃ i < maxRoomAttempts, ¬ InUse w.redis (drawn w.rand i) ∧
    (∀ j < i, InUse w.redis (drawn w.rand j)) ∧ result = .ok (drawn w.rand i)) ∨
  (∀ i < maxRoomAttempts, InUse w.redis (drawn w.rand i)) ∧ ∃ err, result = .error err

/-- `NewRoomCode` skips the codes that are in use and no others. -/
def SkipsUnusable (r : RedisStore) (w : World) : Prop :=
  ∃ result, (newRoomCode r).Returns Performs w result ∧ FirstUnused w result

/-- The code is mapped to a session that can be read. -/
def Taken (db : Redis.Db) (code : String) : Prop := ∃ s, byRoomCode db code = .ok s

/-- The code is not mapped. -/
def Unmapped (db : Redis.Db) (code : String) : Prop := strOf (db (roomCodeKey code)) = none

/-- For each code that is examined, those before it being taken: it is unmapped just when no session
uses it, and it is mapped to a session that cannot be read only when all ten are in use. -/
def Agrees (w : World) : Prop :=
  ∀ i < maxRoomAttempts, (∀ j < i, Taken w.redis (drawn w.rand j)) →
    (Unmapped w.redis (drawn w.rand i) ↔ ¬ InUse w.redis (drawn w.rand i)) ∧
    (¬ Taken w.redis (drawn w.rand i) → ¬ Unmapped w.redis (drawn w.rand i) →
      ∀ j < maxRoomAttempts, InUse w.redis (drawn w.rand j))

/-- `P` holds in every world that calls of the store and time can lead to. -/
def InReachable (b : Backend) (P : World → Prop) : Prop :=
  ∀ now rand s, Pool.Reach StoreOnly (b.idle noFaults now rand) s → P s.world

/-! ## The draws -/

/-- What `n` attempts return. -/
def draw (db : Redis.Db) : Nat → (Nat → Nat) → Except Err String
  | 0, _ => .error (.other "failed to generate unique room code after 10 attempts")
  | n + 1, rand =>
    match byRoomCode db (drawn rand 0) with
    | .ok _ => draw db n fun i => rand (i + 1)
    | .error err => if err.is .invalidRoomCode then .ok (drawn rand 0) else .error err

section Draws

variable {r : RedisStore} {w : World} {db : Redis.Db} {rand : Nat → Nat} {n i : Nat}
variable {code : String}

/-- A mapped session that cannot be read is no invalid room code. -/
theorem taken_or_unmapped_or :
    Taken db code ∨ Unmapped db code ∨
      ∃ err, byRoomCode db code = .error err ∧ err.is .invalidRoomCode = false := by
  cases found : byRoomCode db code with
  | ok s => exact .inl ⟨s, found⟩
  | error err =>
    cases mapped : strOf (db (roomCodeKey code)) with
    | none => exact .inr (.inl mapped)
    | some id =>
      refine .inr (.inr ⟨err, rfl, ?_⟩)
      rw [byRoomCode, mapped] at found
      dsimp only [parseSession] at found
      split at found
      · cases found
        rfl
      · split at found
        · cases found
          rfl
        · split at found
          · cases found
            rfl
          · cases found

theorem not_taken_of_unmapped (unmapped : Unmapped db code) : ¬ Taken db code := by
  intro holds
  rcases holds with ⟨s, found⟩
  rw [byRoomCode, unmapped] at found
  cases found

theorem draw_of_unmapped (unmapped : Unmapped db (drawn rand 0)) :
    draw db (n + 1) rand = .ok (drawn rand 0) := by
  have found : byRoomCode db (drawn rand 0) = .error (.sentinel .invalidRoomCode) := by
    rw [byRoomCode, unmapped]
  rw [draw, found]
  rfl

theorem draw_of_taken (taken : Taken db (drawn rand 0)) :
    draw db (n + 1) rand = draw db n fun i => rand (i + 1) := by
  obtain ⟨s, found⟩ := taken
  rw [draw, found]

/-- The first code that is not taken is returned if it is unmapped, and else ends the loop. -/
theorem draw_of_first (lt : i < n) (earlier : ∀ j < i, Taken db (drawn rand j))
    (first : ¬ Taken db (drawn rand i)) :
    (Unmapped db (drawn rand i) → draw db n rand = .ok (drawn rand i)) ∧
      (¬ Unmapped db (drawn rand i) → ∃ err, draw db n rand = .error err) := by
  induction i generalizing n rand with
  | zero =>
    obtain ⟨n, rfl⟩ := Nat.exists_eq_succ_of_ne_zero (Nat.ne_of_gt lt)
    refine ⟨draw_of_unmapped, fun mapped => ?_⟩
    obtain ⟨err, found, other⟩ := (taken_or_unmapped_or.resolve_left first).resolve_left mapped
    rw [draw, found]
    exact ⟨err, by simp [other]⟩
  | succ i ih =>
    obtain ⟨n, rfl⟩ := Nat.exists_eq_succ_of_ne_zero (Nat.ne_of_gt (Nat.zero_lt_of_lt lt))
    rw [draw_of_taken (earlier 0 (Nat.succ_pos i))]
    exact @ih (fun i => rand (i + 1)) n (Nat.lt_of_succ_lt_succ lt)
      (fun j before => earlier (j + 1) (Nat.succ_lt_succ before)) first

theorem draw_of_all (all : ∀ j < n, Taken db (drawn rand j)) :
    ∃ err, draw db n rand = .error err := by
  induction n generalizing rand with
  | zero => exact ⟨_, rfl⟩
  | succ n ih =>
    rw [draw_of_taken (all 0 (Nat.succ_pos n))]
    exact ih fun j before => all (j + 1) (Nat.succ_lt_succ before)

/-- All codes are taken, or there is a first that is not. -/
theorem all_taken_or_first (db : Redis.Db) (rand : Nat → Nat) (n : Nat) :
    (∀ j < n, Taken db (drawn rand j)) ∨
      ∃ i < n, ¬ Taken db (drawn rand i) ∧ ∀ j < i, Taken db (drawn rand j) := by
  classical
  by_cases all : ∀ j < n, Taken db (drawn rand j)
  · exact .inl all
  · right
    have some_ : ∃ i, i < n ∧ ¬ Taken db (drawn rand i) := by simpa using all
    obtain ⟨lt, first⟩ := Nat.find_spec some_
    refine ⟨Nat.find some_, lt, first, fun j before => ?_⟩
    by_contra open_
    exact Nat.find_min some_ before ⟨before.trans lt, open_⟩

/-! ## `NewRoomCode` alone -/

/-- The commands of `NewRoomCode`. -/
def Cmd.OfDraw (c : Cmd) : Prop := c.OfStore ∨ ∃ max, c = .randInt max

theorem Cmd.OfDraw.enabled {c : Cmd} (ofDraw : c.OfDraw) (w : World) :
    ∃ reply w', Performs w c reply w' := by
  rcases ofDraw with ofStore | ⟨max, rfl⟩
  · exact ofStore.enabled w
  · exact ⟨_, _, rfl, rfl⟩

/-- A call of the store between draws. -/
theorem wp_ofDraw {α : Type} {p : Go α} {Q : α → World → Prop}
    (holds : p.wp (worldLogic Cmd.OfStore) Q w) : p.wp (worldLogic Cmd.OfDraw) Q w := by
  induction p generalizing w with
  | done a => exact holds
  | call c k ih =>
    obtain ⟨ofStore, rest⟩ := holds
    exact ⟨.inl ofStore, fun reply w' performs => ih reply (rest reply w' performs)⟩

theorem wp_newRoomCodeFrom (typed : Typed w.redis) :
    (newRoomCodeFrom r n).wp (worldLogic Cmd.OfDraw)
      (fun result _ => result = draw w.redis n w.rand) w := by
  induction n generalizing w with
  | zero => rfl
  | succ n ih =>
    rw [newRoomCodeFrom]
    refine ⟨.inr ⟨_, rfl⟩, ?_⟩
    intro _ _ holds
    rcases holds with ⟨rfl, rfl⟩
    dsimp only [Prog.bind]
    refine Prog.wp_bind.mpr (Prog.wp_mono (wp_ofDraw (alone_getSessionByRoomCode typed)) ?_)
    intro _ _ holds
    rcases holds with ⟨rfl, rfl⟩
    rw [draw]
    have code : roomCodeOf (w.rand 0 % 1000000) = drawn w.rand 0 := rfl
    dsimp only
    rw [code]
    cases byRoomCode w.redis (drawn w.rand 0) with
    | ok s => exact ih (w := { w with rand := fun i => w.rand (i + 1) }) typed
    | error err =>
      dsimp only
      split <;> rfl

theorem newRoomCode_returns (typed : Typed w.redis) :
    (newRoomCode r).Returns Performs w (draw w.redis maxRoomAttempts w.rand) :=
  Prog.returns_of_wp (L := worldLogic Cmd.OfDraw) (fun w _ ofDraw => ofDraw.enabled w)
    (wp_newRoomCodeFrom typed)

theorem skipsUnusable_iff_firstUnused (typed : Typed w.redis) :
    SkipsUnusable r w ↔ FirstUnused w (draw w.redis maxRoomAttempts w.rand) := by
  constructor
  · intro holds
    rcases holds with ⟨result, ⟨⟨w', run⟩, _⟩, first⟩
    rwa [(newRoomCode_returns typed).2 result w' run] at first
  · exact fun first => ⟨_, newRoomCode_returns typed, first⟩

/-- A code that is returned is not mapped. -/
theorem unmapped_of_draw (returned : draw db n rand = .ok code) : Unmapped db code := by
  rcases all_taken_or_first db rand n with all | ⟨i, lt, first, earlier⟩
  · obtain ⟨err, failed⟩ := draw_of_all all
    rw [failed] at returned
    cases returned
  · obtain ⟨ok, error⟩ := draw_of_first lt earlier first
    by_cases unmapped : Unmapped db (drawn rand i)
    · rw [ok unmapped] at returned
      cases returned
      exact unmapped
    · obtain ⟨err, failed⟩ := error unmapped
      rw [failed] at returned
      cases returned

theorem firstUnused_of_agrees (agrees : Agrees w) :
    FirstUnused w (draw w.redis maxRoomAttempts w.rand) := by
  have used_of_taken (i : Nat) (lt : i < maxRoomAttempts)
      (taken : ∀ j ≤ i, Taken w.redis (drawn w.rand j)) : InUse w.redis (drawn w.rand i) := by
    by_contra free
    have unmapped := (agrees i lt fun j before => taken j before.le).1.mpr free
    exact not_taken_of_unmapped unmapped (taken i le_rfl)
  rcases all_taken_or_first w.redis w.rand maxRoomAttempts with
    all | ⟨i, lt, first, earlier⟩
  · have used (i : Nat) (lt : i < maxRoomAttempts) : InUse w.redis (drawn w.rand i) :=
      used_of_taken i lt fun j before => all j (before.trans_lt lt)
    exact .inr ⟨used, draw_of_all all⟩
  · obtain ⟨ok, error⟩ := draw_of_first lt earlier first
    obtain ⟨free, full⟩ := agrees i lt earlier
    have used (j : Nat) (before : j < i) : InUse w.redis (drawn w.rand j) :=
      used_of_taken j (before.trans lt) fun k upto => earlier k (upto.trans_lt before)
    by_cases unmapped : Unmapped w.redis (drawn w.rand i)
    · exact .inl ⟨i, lt, free.mp unmapped, used, ok unmapped⟩
    · exact .inr ⟨full first unmapped, error unmapped⟩

theorem agrees_of_firstUnused (result : FirstUnused w (draw w.redis maxRoomAttempts w.rand)) :
    Agrees w := by
  intro i lt earlier
  by_cases taken : Taken w.redis (drawn w.rand i)
  · have mapped : ¬ Unmapped w.redis (drawn w.rand i) :=
      fun unmapped => not_taken_of_unmapped unmapped taken
    have used : InUse w.redis (drawn w.rand i) := by
      rcases result with ⟨k, _, _, used, returned⟩ | ⟨used, _⟩
      · -- a taken code is not returned, so the returned one is drawn later
        rcases Nat.lt_trichotomy i k with before | rfl | after
        · exact used i before
        · exact absurd (unmapped_of_draw returned) mapped
        · exact absurd (earlier k after) (not_taken_of_unmapped (unmapped_of_draw returned))
      · exact used i lt
    exact ⟨iff_of_false mapped (not_not.mpr used), fun untaken => absurd taken untaken⟩
  · obtain ⟨ok, error⟩ := draw_of_first lt earlier taken
    rcases result with ⟨k, _, free, _, returned⟩ | ⟨used, err, failed⟩
    · have unmapped : Unmapped w.redis (drawn w.rand i) := by
        by_contra mapped
        obtain ⟨err, failed⟩ := error mapped
        rw [failed] at returned
        cases returned
      have same : drawn w.rand i = drawn w.rand k :=
        Except.ok.inj ((ok unmapped).symm.trans returned)
      rw [← same] at free
      exact ⟨iff_of_true unmapped free, fun _ mapped => absurd unmapped mapped⟩
    · have mapped : ¬ Unmapped w.redis (drawn w.rand i) := by
        intro unmapped
        rw [ok unmapped] at failed
        cases failed
      exact ⟨iff_of_false mapped (not_not.mpr (used i lt)), fun _ _ => used⟩

/-- The result is right just where the mapping of the codes that are examined agrees with the
sessions. -/
theorem skipsUnusable_iff (typed : Typed w.redis) : SkipsUnusable r w ↔ Agrees w := by
  rw [skipsUnusable_iff_firstUnused typed]
  exact ⟨agrees_of_firstUnused, firstUnused_of_agrees⟩

end Draws

/-- `NewRoomCode` skips the codes that are in use and no others just where the mapping of the codes
it examines agrees with the sessions. -/
theorem newRoomCode_skips_iff (b : Backend) :
    InReachable b fun w => SkipsUnusable b.server.store w ↔ Agrees w := by
  intro now rand s reach
  exact skipsUnusable_iff (reach_duties typed_empty rfl reach).1

namespace Sample

/-- Two sessions are created with one room code, and the second is deleted. -/
noncomputable def secondDeleted : Option (Pool (system .never)) :=
  replay isStoreCall
    (.start (.store (.createSession ⟨drawnSeven id₁ "alice", uuid_id₁⟩)) ::
        go 0 (List.replicate 7 .plain) ++
      .start (.store (.createSession ⟨drawnSeven id₂ "bob", uuid_id₂⟩)) ::
        go 1 (List.replicate 7 .plain) ++
      .start (.store (.deleteSession ⟨id₂, uuid_id₂⟩)) :: go 2 (List.replicate 6 .plain))
    (start .never 7)

end Sample

/-- A code that one session of two still uses is not mapped, and is returned. -/
theorem newRoomCode_returns_used :
    ¬ ∀ b : Backend, InReachable b fun w => SkipsUnusable b.server.store w := by
  intro skips
  have observed : (Sample.secondDeleted.any fun s =>
      (decide (s.world.rand 0 = 7) &&
        decide (strOf (s.world.redis (roomCodeKey "ROOM-000007")) = none)) &&
      decide (hashOf (s.world.redis (sessionKey Sample.id₁)) =
        encode (Sample.drawnSeven Sample.id₁ "alice"))) = true := by
    decide +kernel
  obtain ⟨s, computed, observed⟩ := (Option.any_eq_true _ _).mp observed
  obtain ⟨observed, hash⟩ := Bool.and_eq_true_iff.mp observed
  obtain ⟨seven, mapping⟩ := Bool.and_eq_true_iff.mp observed
  have reach := (Sample.reach_of_replay computed).mono fun _ _ => Sample.storeOnly_of_isStoreCall
  have code : drawn s.world.rand 0 = "ROOM-000007" := by
    rw [drawn, of_decide_eq_true seven]
    rfl
  have used : InUse s.world.redis (drawn s.world.rand 0) :=
    ⟨Sample.id₁, _, Sample.uuid_id₁, Live.of_hash (of_decide_eq_true hash), code.symm⟩
  have unmapped : strOf (s.world.redis (roomCodeKey (drawn s.world.rand 0))) = none := by
    rw [code]
    exact of_decide_eq_true mapping
  have typed := (reach_duties typed_empty rfl reach).1
  have agrees := (skipsUnusable_iff typed).mp (skips Sample.backend 0 (fun _ => 7) s reach)
  have first := (agrees 0 (by decide) fun j before => absurd before (Nat.not_lt_zero j)).1
  exact first.mp unmapped used

end DirectLink
