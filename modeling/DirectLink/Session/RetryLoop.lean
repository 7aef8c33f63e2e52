import DirectLink.Lib.Layers
import DirectLink.Session.RedisStore

/-!
# The retry loop

`retryRedisOp` under every store operation, whatever the operation is and however it ends each
time: a run of the loop is a run of rounds, each a whole call of the operation or a wait, and
`Attempts` says which rounds there are and what is returned after them.
-/

namespace DirectLink

/-! ### Rounds -/

/-- A round of the loop: the operation was called and came to `outcome`, or a wait of `backoff`
nanoseconds was over (`.ok`) or was ended by the context (`.error`). -/
inductive Round (α : Type) : Type
  | call (outcome : Except Err α)
  | wait (backoff : Int) (ended : Except Err Unit)

/-- How often the operation was called. -/
def calls {α : Type} : List (Round α) → Nat
  | [] => 0
  | .call _ :: rounds => calls rounds + 1
  | .wait _ _ :: rounds => calls rounds

/-- How often was waited. -/
def waits {α : Type} : List (Round α) → Nat
  | [] => 0
  | .call _ :: rounds => waits rounds
  | .wait _ _ :: rounds => waits rounds + 1

/-- The rounds are carried out one after another; a call is a whole run of `op`. -/
inductive Rounds {σ α : Type} (Step : σ → (c : Cmd) → c.Reply → σ → Prop)
    (op : Go (Except Err α)) : σ → List (Round α) → σ → Prop
  | none {s : σ} : Rounds Step op s [] s
  | call {s s' s'' : σ} {outcome : Except Err α} {rounds : List (Round α)} :
    op.Runs Step s outcome s' → Rounds Step op s' rounds s'' →
    Rounds Step op s (.call outcome :: rounds) s''
  | wait {s s' s'' : σ} {backoff : Int} {ended : Except Err Unit} {rounds : List (Round α)} :
    Step s (.after backoff) ended s' → Rounds Step op s' rounds s'' →
    Rounds Step op s (.wait backoff ended :: rounds) s''

/-! ### What the loop owes -/

/-- The errors after which another attempt is of no use. -/
def finalErrors : List Sentinel :=
  [.sessionNotFound, .invalidRoomCode, .sessionClosed, .redisNil, .contextCanceled,
    .deadlineExceeded]

/-- A success, or one of the final errors, wrapped or not. -/
def Conclusive {α : Type} : Except Err α → Prop
  | .ok _ => True
  | .error err => ∃ s ∈ finalErrors, err.is s = true

/-- The rounds of one run of the loop and what it returned. -/
structure Attempts {α : Type} (r : RedisStore) (rounds : List (Round α)) (result : Except Err α) :
    Prop where
  /-- The operation is called at least once, before anything else. -/
  first : ∃ outcome rest, rounds = .call outcome :: rest
  atMost : (calls rounds : Int) ≤ max 1 r.maxRetries
  /-- It is called again only after a retryable error and a completed wait. -/
  again : ∀ before outcome after, rounds = before ++ .call outcome :: after → before = [] ∨
    ∃ earlier err backoff, before = earlier ++ [.call (.error err), .wait backoff (.ok ())] ∧
      isRetryable err = true
  /-- Nothing follows a success or a final error. -/
  conclusive : ∀ before outcome after, rounds = before ++ .call outcome :: after →
    Conclusive outcome → after = []
  /-- A wait follows a failed attempt, and never the last one allowed. -/
  waiting : ∀ before backoff ended after, rounds = before ++ .wait backoff ended :: after →
    (∃ earlier err, before = earlier ++ [.call (.error err)] ∧ isRetryable err = true) ∧
      (calls before : Int) < max 1 r.maxRetries
  /-- As long as the product does not overflow, each wait is twice as long as the one before. -/
  backoff : ∀ before backoff ended after, rounds = before ++ .wait backoff ended :: after →
    r.retryBackOff * 2 ^ waits before < 2 ^ 63 → backoff = r.retryBackOff * 2 ^ waits before
  /-- A wait that the context ended is the last round, and its error the result. -/
  cancelled : ∀ before backoff ctxErr after,
    rounds = before ++ .wait backoff (.error ctxErr) :: after →
    after = [] ∧ result = .error ctxErr
  /-- Otherwise the result is that of the last call, after which nothing was left to try. -/
  last : (∃ before backoff ctxErr, rounds = before ++ [.wait backoff (.error ctxErr)]) ∨
    (∃ before, rounds = before ++ [.call result]) ∧
      (Conclusive result ∨ (calls rounds : Int) = max 1 r.maxRetries)

/-- Every run of the loop around `op` is made of the attempts it owes, and where `op` and every
wait come to an end, so does the loop. -/
def RedisStore.MakesItsAttempts {α : Type} (r : RedisStore) (op : Go (Except Err α)) : Prop :=
  ∀ (σ : Type) (Step : σ → (c : Cmd) → c.Reply → σ → Prop) (s : σ),
    (∀ result s', (r.retryRedisOp op).Runs Step s result s' →
      ∃ rounds, Rounds Step op s rounds s' ∧ Attempts r rounds result) ∧
    ((∀ s, ∃ outcome s', op.Runs Step s outcome s') →
      (∀ s backoff, ∃ ended s', Step s (.after backoff) ended s') →
      ∃ result s', (r.retryRedisOp op).Runs Step s result s')

/-! ### Which errors are retried -/

theorem isRetryable_iff {α : Type} {err : Err} :
    isRetryable err = true ↔ ¬ Conclusive (.error err : Except Err α) := by
  have listed : Conclusive (.error err : Except Err α) ↔ err.is .sessionNotFound = true ∨
      err.is .invalidRoomCode = true ∨ err.is .sessionClosed = true ∨ err.is .redisNil = true ∨
      err.is .contextCanceled = true ∨ err.is .deadlineExceeded = true := by
    simp only [Conclusive, finalErrors, List.mem_cons, List.not_mem_nil, or_false,
      exists_eq_or_imp, exists_eq_left]
  rw [listed, isRetryable]
  grind

theorem not_conclusive {α : Type} {err : Err} (retryable : isRetryable err = true) :
    ¬ Conclusive (.error err : Except Err α) :=
  isRetryable_iff.mp retryable

theorem conclusive_of_not_retryable {α : Type} {err : Err} (final : isRetryable err ≠ true) :
    Conclusive (.error err : Except Err α) := by
  by_contra open'
  exact final (isRetryable_iff.mpr open')

namespace RedisStore

variable {r : RedisStore} {α σ : Type} {Step : σ → (c : Cmd) → c.Reply → σ → Prop}
  {op : Go (Except Err α)} {s s' : σ} {left attempt : Nat} {rounds : List (Round α)}
  {result : Except Err α}

/-! ### The rounds of the loop -/

/-- The rounds from attempt number `attempt` on, with `left` more allowed after it. -/
inductive Tries (r : RedisStore) : Nat → Nat → List (Round α) → Except Err α → Prop
  | last {attempt : Nat} {outcome : Except Err α} :
    Tries r 0 attempt [.call outcome] outcome
  | settled {left attempt : Nat} {outcome : Except Err α} :
    Conclusive outcome → Tries r (left + 1) attempt [.call outcome] outcome
  | cancelled {left attempt : Nat} {err ctxErr : Err} :
    isRetryable err = true → Tries r (left + 1) attempt
      [.call (.error err), .wait (r.backoff attempt) (.error ctxErr)] (.error ctxErr)
  | again {left attempt : Nat} {err : Err} {rounds : List (Round α)} {result : Except Err α} :
    isRetryable err = true → Tries r left (attempt + 1) rounds result →
    Tries r (left + 1) attempt
      (.call (.error err) :: .wait (r.backoff attempt) (.ok ()) :: rounds) result

theorem tries_of_runs (run : (r.retryFrom op left attempt).Runs Step s result s') :
    ∃ rounds, Rounds Step op s rounds s' ∧ r.Tries left attempt rounds result := by
  induction left generalizing s attempt with
  | zero => exact ⟨[.call result], .call run .none, .last⟩
  | succ left ih =>
    rw [retryFrom] at run
    obtain ⟨outcome, s₁, called, run⟩ := Prog.runs_bind.mp run
    cases outcome with
    | ok a =>
      cases run
      exact ⟨[.call (.ok a)], .call called .none, .settled trivial⟩
    | error err =>
      dsimp only at run
      by_cases retryable : isRetryable err = true
      · rw [if_pos retryable] at run
        obtain ⟨ended, s₂, waited, run⟩ := Prog.runs_bind.mp run
        cases waited with
        | call step done =>
          cases done
          cases ended with
          | error ctxErr =>
            cases run
            exact ⟨[.call (.error err), .wait (r.backoff attempt) (.error ctxErr)],
              .call called (.wait step .none), .cancelled retryable⟩
          | ok _ =>
            obtain ⟨rounds, executed, tries⟩ := ih run
            exact ⟨.call (.error err) :: .wait (r.backoff attempt) (.ok ()) :: rounds,
              .call called (.wait step executed), .again retryable tries⟩
      · rw [if_neg retryable] at run
        cases run
        exact ⟨[.call (.error err)], .call called .none,
          .settled (conclusive_of_not_retryable retryable)⟩

/-- The loop comes to an end. -/
theorem retryFrom_returns (ends : ∀ s, ∃ outcome s', op.Runs Step s outcome s')
    (waitEnds : ∀ s backoff, ∃ ended s', Step s (.after backoff) ended s') :
    ∃ result s', (r.retryFrom op left attempt).Runs Step s result s' := by
  induction left generalizing s attempt with
  | zero => exact ends s
  | succ left ih =>
    rw [retryFrom]
    obtain ⟨outcome, s₁, called⟩ := ends s
    cases outcome with
    | ok a => exact ⟨.ok a, s₁, Prog.runs_bind.mpr ⟨.ok a, s₁, called, .done⟩⟩
    | error err =>
      by_cases retryable : isRetryable err = true
      · obtain ⟨ended, s₂, waited⟩ := waitEnds s₁ (r.backoff attempt)
        cases ended with
        | error ctxErr =>
          refine ⟨.error ctxErr, s₂, Prog.runs_bind.mpr ⟨.error err, s₁, called, ?_⟩⟩
          dsimp only
          rw [if_pos retryable]
          exact .call waited .done
        | ok _ =>
          obtain ⟨result, s', run⟩ := @ih s₂ (attempt + 1)
          refine ⟨result, s', Prog.runs_bind.mpr ⟨.error err, s₁, called, ?_⟩⟩
          dsimp only
          rw [if_pos retryable]
          exact .call waited run
      · refine ⟨.error err, s₁, Prog.runs_bind.mpr ⟨.error err, s₁, called, ?_⟩⟩
        dsimp only
        rw [if_neg retryable]
        exact .done

/-! ### Where a round stands -/

theorem single_split {a x : Round α} {before after : List (Round α)}
    (split : [a] = before ++ x :: after) : before = [] ∧ a = x ∧ after = [] := by
  rcases before with - | ⟨b, before⟩
  · rcases split
    exact ⟨rfl, rfl, rfl⟩
  · have tail : [] = before ++ x :: after := (List.cons.inj split).2
    cases (List.append_eq_nil_iff.mp tail.symm).2

theorem pair_split {a b x : Round α} {rest before after : List (Round α)}
    (split : a :: b :: rest = before ++ x :: after) :
    (before = [] ∧ a = x) ∨ (before = [a] ∧ b = x ∧ rest = after) ∨
      ∃ before', before = a :: b :: before' ∧ rest = before' ++ x :: after := by
  rcases before with - | ⟨a', - | ⟨b', before⟩⟩
  · exact .inl ⟨rfl, (List.cons.inj split).1⟩
  · rcases split
    exact .inr (.inl ⟨rfl, rfl, rfl⟩)
  · rcases split
    exact .inr (.inr ⟨before, rfl, rfl⟩)

theorem Tries.starts (tries : r.Tries left attempt rounds result) :
    ∃ outcome rest, rounds = .call outcome :: rest := by
  cases tries with
  | last | settled | cancelled | again => exact ⟨_, _, rfl⟩

theorem Tries.calls_le (tries : r.Tries left attempt rounds result) : calls rounds ≤ left + 1 := by
  induction tries with
  | last => exact Nat.le_refl 1
  | settled | cancelled => exact Nat.le_add_left ..
  | again _ _ ih => exact Nat.succ_le_succ ih

/-- What stands before and after a call. -/
theorem Tries.at_call {before after : List (Round α)} {outcome : Except Err α}
    (tries : r.Tries left attempt rounds result)
    (split : rounds = before ++ .call outcome :: after) :
    (before = [] ∨ ∃ earlier err backoff,
      before = earlier ++ [.call (.error err), .wait backoff (.ok ())] ∧
        isRetryable err = true) ∧
      (Conclusive outcome → after = []) := by
  induction tries generalizing before with
  | last | settled =>
    obtain ⟨rfl, -, rfl⟩ := single_split split
    exact ⟨.inl rfl, fun _ => rfl⟩
  | cancelled retryable =>
    obtain ⟨rfl, same⟩ | ⟨_, same, _⟩ | ⟨before', rfl, nothing⟩ := pair_split split
    · rcases same
      exact ⟨.inl rfl, fun concludes => absurd concludes (not_conclusive retryable)⟩
    · cases same
    · cases (List.append_eq_nil_iff.mp nothing.symm).2
  | @again left attempt err rounds result retryable _ ih =>
    obtain ⟨rfl, same⟩ | ⟨_, same, _⟩ | ⟨before', rfl, split'⟩ := pair_split split
    · rcases same
      exact ⟨.inl rfl, fun concludes => absurd concludes (not_conclusive retryable)⟩
    · cases same
    · obtain ⟨rfl | ⟨earlier, err', backoff, rfl, retryable'⟩, concludes⟩ := ih split'
      · exact ⟨.inr ⟨[], err, r.backoff attempt, rfl, retryable⟩, concludes⟩
      · exact ⟨.inr ⟨.call (.error err) :: .wait (r.backoff attempt) (.ok ()) :: earlier, err',
          backoff, rfl, retryable'⟩, concludes⟩

/-- What stands before and after a wait, and how long it is. -/
theorem Tries.at_wait {before after : List (Round α)} {backoff : Int} {ended : Except Err Unit}
    (tries : r.Tries left attempt rounds result)
    (split : rounds = before ++ .wait backoff ended :: after) :
    (∃ earlier err, before = earlier ++ [.call (.error err)] ∧ isRetryable err = true) ∧
      calls before ≤ left ∧ backoff = r.backoff (attempt + waits before) ∧
      ∀ ctxErr, ended = .error ctxErr → after = [] ∧ result = .error ctxErr := by
  induction tries generalizing before with
  | last | settled =>
    obtain ⟨_, same, _⟩ := single_split split
    cases same
  | @cancelled left attempt err ctxErr retryable =>
    obtain ⟨_, same⟩ | ⟨rfl, same, rfl⟩ | ⟨before', rfl, nothing⟩ := pair_split split
    · cases same
    · rcases same
      refine ⟨⟨[], err, rfl, retryable⟩, Nat.le_add_left .., rfl, ?_⟩
      intro ctxErr' same
      cases same
      exact ⟨rfl, rfl⟩
    · cases (List.append_eq_nil_iff.mp nothing.symm).2
  | @again left attempt err rounds result retryable _ ih =>
    obtain ⟨_, same⟩ | ⟨rfl, same, rfl⟩ | ⟨before', rfl, split'⟩ := pair_split split
    · cases same
    · rcases same
      exact ⟨⟨[], err, rfl, retryable⟩, Nat.le_add_left .., rfl,
        fun _ impossible => by cases impossible⟩
    · obtain ⟨⟨earlier, err', rfl, retryable'⟩, few, long, cancelled⟩ := ih split'
      refine ⟨⟨.call (.error err) :: .wait (r.backoff attempt) (.ok ()) :: earlier, err', rfl,
        retryable'⟩, Nat.succ_le_succ few, ?_, cancelled⟩
      rw [long]
      exact congrArg r.backoff (by simp only [waits]; omega)

/-- How the rounds end. -/
theorem Tries.ends (tries : r.Tries left attempt rounds result) :
    (∃ before backoff ctxErr, rounds = before ++ [.wait backoff (.error ctxErr)]) ∨
      (∃ before, rounds = before ++ [.call result]) ∧
        (Conclusive result ∨ calls rounds = left + 1) := by
  induction tries with
  | last => exact .inr ⟨⟨[], rfl⟩, .inr rfl⟩
  | settled concludes => exact .inr ⟨⟨[], rfl⟩, .inl concludes⟩
  | @cancelled left attempt err ctxErr _ =>
    exact .inl ⟨[.call (.error err)], r.backoff attempt, ctxErr, rfl⟩
  | @again left attempt err rounds result _ _ ih =>
    obtain ⟨before, backoff, ctxErr, rfl⟩ | ⟨⟨before, rfl⟩, concludes | all⟩ := ih
    · exact .inl ⟨.call (.error err) :: .wait (r.backoff attempt) (.ok ()) :: before, backoff,
        ctxErr, rfl⟩
    · exact .inr ⟨⟨.call (.error err) :: .wait (r.backoff attempt) (.ok ()) :: before, rfl⟩,
        .inl concludes⟩
    · exact .inr ⟨⟨.call (.error err) :: .wait (r.backoff attempt) (.ok ()) :: before, rfl⟩,
        .inr (congrArg Nat.succ all)⟩

/-! ### The result -/

/-- A backoff that fits the 64 bits is the product. -/
theorem backoff_eq (fits : r.retryBackOff * 2 ^ attempt < 2 ^ 63) :
    r.backoff attempt = r.retryBackOff * 2 ^ attempt := by
  have positive : 0 < r.retryBackOff * 2 ^ attempt :=
    Int.mul_pos r.retryBackOff_pos (Int.pow_pos (by decide))
  rw [RedisStore.backoff, Int.bmod_eq_of_le]
  · omega
  · omega

theorem attempts_of_tries (left_eq : (left : Int) + 1 = max 1 r.maxRetries)
    (tries : r.Tries left 0 rounds result) : Attempts r rounds result where
  first := tries.starts
  atMost := by
    have few := tries.calls_le
    omega
  again _ _ _ split := (tries.at_call split).1
  conclusive _ _ _ split := (tries.at_call split).2
  waiting before _ _ _ split := by
    obtain ⟨failed, few, _⟩ := tries.at_wait split
    exact ⟨failed, by omega⟩
  backoff before backoff ended after split fits := by
    obtain ⟨_, _, long, _⟩ := tries.at_wait split
    rw [long, Nat.zero_add, backoff_eq fits]
  cancelled _ _ ctxErr _ split := (tries.at_wait split).2.2.2 ctxErr rfl
  last := by
    obtain cancelled | ⟨called, concludes | all⟩ := tries.ends
    · exact .inl cancelled
    · exact .inr ⟨called, .inl concludes⟩
    · exact .inr ⟨called, .inr (by omega)⟩

/-- The retry loop makes exactly the attempts it owes, whatever the operation, the settings and the
moment at which the context ends. -/
theorem retryRedisOp_exact (r : RedisStore) (op : Go (Except Err α)) : r.MakesItsAttempts op := by
  intro σ Step s
  refine ⟨?_, fun ends waitEnds => retryFrom_returns ends waitEnds⟩
  intro result s' run
  obtain ⟨rounds, executed, tries⟩ := tries_of_runs run
  refine ⟨rounds, executed, attempts_of_tries ?_ tries⟩
  split
  · omega
  · omega

end RedisStore

end DirectLink
