import DirectLink.Lib.Pool

/-!
# Accounts of events

A number read off the world that every command changes by what its event is worth, and that nothing
else changes, is what it was at the start plus what all the events seen so far are worth.  Where a
program's events are worth what its result is due for, however it went, the number follows from the
results alone as soon as no call is in flight.

* `Worth`: what a history is worth.
* `Pool.Reach.ledger`: the number from the histories of the threads.
* `Pool.Reach.balanced`: the number from their results.
-/

namespace DirectLink

variable {S : Sig} {α : Type}

/-- What the events of a history are worth together. -/
def Worth (worth : Event S → Int) (past : List (Event S)) : Int := (past.map worth).sum

@[simp] theorem worth_nil {worth : Event S → Int} : Worth worth [] = 0 := rfl

theorem worth_append {worth : Event S → Int} (past : List (Event S)) (e : Event S) :
    Worth worth (past ++ [e]) = Worth worth past + worth e := by
  rw [Worth, Worth, List.map_append, List.sum_append, List.map_singleton, List.sum_singleton]

/-- The logic whose local state is what the events so far are worth. -/
abbrev ledgerLogic (worth : Event S → Int) : Logic S :=
  ghostLogic (fun _ => True) (fun g e => g + worth e) fun _ _ => True

section Rules

variable {worth : Event S → Int} {g : Int}

/-- A program whose commands are worth nothing costs nothing. -/
theorem wp_ledger_of_free {p : Prog S α} (issues : p.Issues fun c => ∀ r, worth ⟨c, r⟩ = 0) :
    p.wp (ledgerLogic worth) (fun _ g' => g' = g) g := by
  refine issues.wp (L := ledgerLogic worth) (J := fun g' => g' = g) ?_ rfl
  intro g' c same free
  refine ghostLogic_call.mpr ⟨trivial, ?_⟩
  intro r _
  change g' + worth ⟨c, r⟩ = g
  rw [free r, same, Int.add_zero]

/-- A free program before the rest. -/
theorem wp_ledger_bind {β : Type} {p : Prog S α} {f : α → Prog S β} {Q : β → Int → Prop}
    (issues : p.Issues fun c => ∀ r, worth ⟨c, r⟩ = 0)
    (rest : ∀ a, (f a).wp (ledgerLogic worth) Q g) : (p >>= f).wp (ledgerLogic worth) Q g := by
  rw [Prog.wp_bind]
  refine Prog.wp_mono (wp_ledger_of_free issues) ?_
  intro a g' same
  subst same
  exact rest a

/-- One command and what it is worth, before the rest. -/
theorem wp_ledger_issue {c : S.Cmd} {k : S.Reply c → Prog S α} {Q : α → Int → Prop} (cost : Int)
    (priced : ∀ r, worth ⟨c, r⟩ = cost)
    (rest : ∀ r, (k r).wp (ledgerLogic worth) Q (g + cost)) :
    (Prog.issue c >>= k).wp (ledgerLogic worth) Q g := by
  refine ghostLogic_call.mpr ⟨trivial, ?_⟩
  intro r _
  rw [priced r]
  exact rest r

theorem worth_foldl (past : List (Event S)) (g : Int) :
    past.foldl (fun g e => g + worth e) g = g + Worth worth past := by
  induction past generalizing g with
  | nil => exact (Int.add_zero g).symm
  | cons e past ih =>
    rw [List.foldl_cons, ih, Worth, Worth, List.map_cons, List.sum_cons, Int.add_assoc]

end Rules

namespace Pool.Reach

variable {Y : System S} {G : Pool Y → Move Y → Prop} {s₀ s : Pool Y} {f : Y.World → Int}
variable {worth : Event S → Int}

/-- **The ledger**: the number is what it was plus what all threads have seen is worth. -/
theorem ledger (none_ : s₀.threads = [])
    (exec : ∀ w c r w', Y.Exec w c r w' → f w' = f w + worth ⟨c, r⟩)
    (env : ∀ w t w', Y.Env w t w' → f w' = f w) (reach : Pool.Reach G s₀ s) :
    f s.world = f s₀.world + (s.threads.map fun t => Worth worth t.past).sum := by
  refine Pool.Reach.invariant
    (I := fun s => f s.world = f s₀.world + (s.threads.map fun t => Worth worth t.past).sum)
    ?_ ?_ reach
  · rw [none_, List.map_nil, List.sum_nil, Int.add_zero]
  · intro s m s' _ balance _ step
    cases step with
    | start call =>
      rw [Pool.sum_start fun t : Thread Y => Worth worth t.past, worth_nil, Int.add_zero]
      exact balance
    | @exec i t c k r world at_ _ exec' =>
      rw [Pool.advance_world, Pool.sum_advance (fun t : Thread Y => Worth worth t.past) at_,
        worth_append, exec _ _ _ _ exec', balance]
      omega
    | tick env' =>
      rw [env _ _ _ env']
      exact balance

/-- What a thread that has returned is due for. -/
def due (price : Y.Call → Y.Result → Int) (t : Thread Y) : Int :=
  match t.prog with
  | .done a => price t.call a
  | .call _ _ => 0

/-- The contract of calls whose events are worth what their results are due for. -/
def settles (worth : Event S → Int) (price : Y.Call → Y.Result → Int) : Contract Y where
  Expects _ := True
  Allows _ _ _ := True
  Post call a past := Worth worth past = price call a

/-- **The balance**: where every call's events are worth what its result is due for, however it
went, the number follows from the results when no call is in flight. -/
theorem balanced {price : Y.Call → Y.Result → Int} (none_ : s₀.threads = [])
    (exec : ∀ w c r w', Y.Exec w c r w' → f w' = f w + worth ⟨c, r⟩)
    (env : ∀ w t w', Y.Env w t w' → f w' = f w)
    (covers : ∀ s call, G s (.start call) →
      (Y.code call).wp (ledgerLogic worth) (fun a g => g = price call a) 0)
    (reach : Pool.Reach G s₀ s) (quiet : s.Quiet) :
    f s.world = f s₀.world + (s.threads.map (due price)).sum := by
  have kept := (Pool.Reach.contract (C := settles worth price) (I := fun _ => True) trivial none_ ?_
    (fun _ _ _ _ _ => trivial) (fun _ _ _ _ _ _ _ _ _ _ _ _ _ _ _ => ⟨trivial, trivial⟩)
    (fun _ _ _ _ _ _ _ => trivial) reach).2
  · rw [reach.ledger none_ exec env]
    have same : s.threads.map (fun t => Worth worth t.past) = s.threads.map (due price) := by
      refine List.map_congr_left ?_
      intro t member
      obtain ⟨a, returned⟩ := (quiet t member).exists_eq
      have post : Worth worth t.past = price t.call a := (kept t member).1.post returned
      rw [post, due, returned]
    rw [same]
  · intro s call guard
    have priced : (Y.code call).wp (ledgerLogic worth) (fun a g => g = price call a)
        (([] : List (Event S)).foldl (fun g e => g + worth e) 0) := covers s call guard
    refine Prog.wp_mono (Prog.wp_of_ghost priced) ?_
    intro a past balance
    rw [worth_foldl, Int.zero_add] at balance
    exact balance

end Pool.Reach

end DirectLink
