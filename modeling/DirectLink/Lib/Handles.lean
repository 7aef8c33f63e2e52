import DirectLink.Lib.Program
import Mathlib.Data.Set.Insert
import Mathlib.Order.BooleanAlgebra.Set
import Mathlib.Logic.Function.Basic

/-!
# References to what a library has allocated

An interface says, for each command of a signature, which references it uses, which it makes part
of others, which it releases and which it yields.  In `Interface.logic` a program may use what is
live only and release what is its own only.  `Handles.logic` puts the programs of several objects
side by side, each with references of its own, and lends references to threads: what is lent to a
running thread must not be released.

* `Prog.wp_on`: what is shown of a program with one object's references holds beside the others.
* `Prog.Permitted`: no command of any execution is forbidden.
-/

namespace DirectLink

namespace Handles

abbrev Ref : Type := Nat

/-- What has become of a reference. -/
inductive Status : Type
  | unused
  /-- Whoever has it must release it. -/
  | owned
  /-- It belongs to another one and goes with it. -/
  | part (whole : Ref)
  | released
  deriving DecidableEq

abbrev Heap : Type := Ref → Status

namespace Heap

def empty : Heap := fun _ => .unused

/-- The reference can be used. -/
def Live (h : Heap) (r : Ref) : Prop := h r = .owned ∨ ∃ whole, h r = .part whole

/-- The reference was never seen before. -/
def Fresh (h : Heap) (r : Ref) : Prop := h r = .unused ∧ ∀ x, h x ≠ .part r

def make (h : Heap) (r : Ref) : Heap := Function.update h r .owned

def give (h : Heap) (part whole : Ref) : Heap := Function.update h part (.part whole)

/-- Release a reference, and with it all that belongs to it. -/
def release (h : Heap) (r : Ref) : Heap :=
  fun x => if x = r ∨ h x = .part r then .released else h x

/-- Exactly these references are to be released. -/
def Owns (h : Heap) (refs : Set Ref) : Prop := ∀ r, h r = .owned ↔ r ∈ refs

theorem make_eq {h : Heap} {r x : Ref} (fresh : h.Fresh r) (seen : h x ≠ .unused) :
    h.make r x = h x := by
  refine Function.update_of_ne ?_ ..
  intro same
  subst same
  exact seen fresh.1

section Owns

variable {h : Heap} {refs : Set Ref} {r : Ref}

theorem owns_empty : empty.Owns ∅ := by
  intro r
  simp [empty]

theorem Owns.notMem (owns : h.Owns refs) (unused : h r = .unused) : r ∉ refs := by
  intro member
  rw [(owns r).mpr member] at unused
  cases unused

theorem Owns.make (owns : h.Owns refs) (r : Ref) : (h.make r).Owns (insert r refs) := by
  intro x
  rw [Heap.make, Function.update_apply]
  split
  · next same => simp [same]
  · next other => simp [other, owns x]

/-- Give several references to one. -/
theorem foldl_give (h : Heap) (parts : List Ref) (whole : Ref) :
    ((parts.map fun part => (part, whole)).foldl (fun h g => h.give g.1 g.2) h) =
      fun x => if x ∈ parts then .part whole else h x := by
  induction parts generalizing h with
  | nil => simp
  | cons part rest ih =>
    funext x
    rw [List.map_cons, List.foldl_cons, ih]
    by_cases later : x ∈ rest
    · simp [later]
    · simp [later, give, Function.update_apply]

theorem Owns.give_all (owns : h.Owns refs) (parts : List Ref) (whole : Ref) :
    Owns (fun x => if x ∈ parts then .part whole else h x) (refs \ {r | r ∈ parts}) := by
  intro x
  by_cases given : x ∈ parts
  · simp [given]
  · simp [given, owns x]

theorem Owns.release (owns : h.Owns refs) (r : Ref) : (h.release r).Owns (refs \ {r}) := by
  intro x
  rw [Heap.release, Set.mem_sdiff, Set.mem_singleton_iff, ← owns x]
  split
  · next gone =>
    rcases gone with same | part
    · simp [same]
    · simp [part]
  · next stays =>
    rw [not_or] at stays
    exact ⟨fun is => ⟨is, stays.1⟩, And.left⟩

theorem Owns.make_only (owns : h.Owns ∅) (r : Ref) : (h.make r).Owns {r} := by
  have made := owns.make r
  rwa [LawfulSingleton.insert_empty_eq] at made

theorem Owns.release_only (owns : h.Owns {r}) : (h.release r).Owns ∅ := by
  have left := owns.release r
  rwa [Set.sdiff_self] at left

end Owns

/-! ### What a detour leaves behind -/

/-- What was seen in `h` is the same in `h'`, and what came since is released. -/
def Keeps (h h' : Heap) : Prop := ∀ r, h' r = h r ∨ h r = .unused ∧ h' r = .released

section Keeps

variable {h h' h'' : Heap} {refs : Set Ref} {r : Ref}

theorem Keeps.refl (h : Heap) : h.Keeps h := fun _ => .inl rfl

theorem Keeps.trans (first : h.Keeps h') (second : h'.Keeps h'') : h.Keeps h'' := by
  intro r
  rcases second r with same | ⟨unused, gone⟩
  · rw [same]
    exact first r
  · rcases first r with same | ⟨_, gone'⟩
    · exact .inr ⟨same ▸ unused, gone⟩
    · rw [gone'] at unused
      cases unused

theorem Keeps.eq (keeps : h.Keeps h') (seen : h r ≠ .unused) : h' r = h r :=
  (keeps r).resolve_right fun new => seen new.1

theorem Keeps.owns (keeps : h.Keeps h') (owns : h.Owns refs) : h'.Owns refs := by
  intro r
  rw [← owns r]
  rcases keeps r with same | ⟨unused, gone⟩
  · rw [same]
  · rw [unused, gone]
    exact ⟨nofun, nofun⟩

/-- To obtain a reference, make a detour and release it is a detour. -/
theorem Keeps.release (fresh : h.Fresh r) (kept : (h.make r).Keeps h') :
    h.Keeps (h'.release r) := by
  intro x
  by_cases same : x = r
  · rw [same]
    exact .inr ⟨fresh.1, if_pos (.inl rfl)⟩
  · have made : h.make r x = h x := Function.update_of_ne same ..
    have now := kept x
    rw [made] at now
    rw [Heap.release]
    split
    · next gone =>
      rcases now with unchanged | new
      · rw [unchanged] at gone
        exact absurd (gone.resolve_left same) (fresh.2 x)
      · exact .inr ⟨new.1, rfl⟩
    · exact now

end Keeps

/-! ### References that are numbered in turn -/

/-- From `n` on no reference was seen. -/
def Below (n : Nat) (h : Heap) : Prop := ∀ r, n ≤ r → h.Fresh r

section Below

variable {h : Heap} {n : Nat}

theorem below_empty : Below 0 empty := fun _ _ => ⟨rfl, nofun⟩

theorem Below.make (below : h.Below n) : (h.make n).Below (n + 1) := by
  intro r above
  have fresh := below r (Nat.le_of_succ_le above)
  refine ⟨(Function.update_of_ne (Nat.ne_of_gt above) ..).trans fresh.1, ?_⟩
  intro x
  rw [Heap.make, Function.update_apply]
  split
  · exact nofun
  · exact fresh.2 x

theorem Below.give {part whole : Nat} (below : h.Below n) (isPart : part < n)
    (isWhole : whole < n) : (h.give part whole).Below n := by
  intro r above
  have fresh := below r above
  refine ⟨(Function.update_of_ne (Nat.ne_of_gt (isPart.trans_le above)) ..).trans fresh.1, ?_⟩
  intro x
  rw [Heap.give, Function.update_apply]
  split
  · intro impossible
    cases impossible
    exact Nat.not_le.mpr isWhole above
  · exact fresh.2 x

theorem Below.release {r : Nat} (below : h.Below n) (seen : h r ≠ .unused) :
    (h.release r).Below n := by
  intro x above
  have fresh := below x above
  have stays : ¬(x = r ∨ h x = .part r) := by
    intro either
    rcases either with rfl | part
    · exact seen fresh.1
    · rw [fresh.1] at part
      cases part
  refine ⟨(if_neg stays).trans fresh.1, ?_⟩
  intro y
  rw [Heap.release]
  split
  · intro impossible
    cases impossible
  · exact fresh.2 y

/-- The next reference may be yielded. -/
theorem Below.next (below : h.Below n) : ∀ r ∈ some n, h.Fresh r := by
  intro r impossible
  cases impossible
  exact below n (Nat.le_refl n)

end Below

end Heap

/-- A library whose commands handle references. -/
structure Interface : Type 1 where
  S : Sig
  uses : S.Cmd → List Ref
  /-- Which references become part of which others. -/
  gives : S.Cmd → List (Ref × Ref)
  releases : S.Cmd → Option Ref
  yields : (c : S.Cmd) → S.Reply c → Option Ref

namespace Interface

variable (I : Interface)

/-- The command uses live references, gives away and releases its own, and nothing that is lent. -/
structure Permits (lent : Ref → Prop) (h : Heap) (c : I.S.Cmd) : Prop where
  live : ∀ r ∈ I.uses c, h.Live r
  own : ∀ g ∈ I.gives c, h g.1 = .owned ∧ h g.2 = .owned ∧ g.1 ≠ g.2
  last : ∀ r ∈ I.releases c, h r = .owned ∧ ∀ x, lent x → x ≠ r ∧ h x ≠ .part r

/-- The references after a command. -/
def after (h : Heap) (c : I.S.Cmd) (reply : I.S.Reply c) : Heap :=
  let given := (I.gives c).foldl (fun h g => h.give g.1 g.2) h
  let left := (I.releases c).elim given given.release
  (I.yields c reply).elim left left.make

/-- One object with its references, some of which are lent to threads.  The library replies as `E`
expects, and what it yields is fresh. -/
@[reducible] def logic (E : (c : I.S.Cmd) → I.S.Reply c → Prop) (lent : Ref → Prop) :
    Logic I.S where
  State := Heap
  Allows := I.Permits lent
  Step h c reply h' :=
    E c reply ∧ (∀ r ∈ I.yields c reply, h.Fresh r) ∧ h' = I.after h c reply

section Rules

variable {I} {E : (c : I.S.Cmd) → I.S.Reply c → Prop} {lent : Ref → Prop} {h : Heap} {c : I.S.Cmd}
variable {α : Type} {k : I.S.Reply c → Prog I.S α} {Q : α → Heap → Prop}

/-- A command that only uses references. -/
theorem wp_use (live : ∀ r ∈ I.uses c, h.Live r) (gives : I.gives c = [])
    (releases : I.releases c = none) (yields : ∀ reply, I.yields c reply = none)
    (rest : ∀ reply, E c reply → (k reply).wp (I.logic E lent) Q h) :
    (Prog.call c k).wp (I.logic E lent) Q h := by
  refine ⟨⟨live, by simp [gives], by simp [releases]⟩, ?_⟩
  intro reply _ holds
  rcases holds with ⟨expected, _, rfl⟩
  simp only [after, gives, releases, yields, List.foldl_nil, Option.elim_none]
  exact rest reply expected

/-- A command that may yield a reference. -/
theorem wp_yield (live : ∀ r ∈ I.uses c, h.Live r) (gives : I.gives c = [])
    (releases : I.releases c = none)
    (without : ∀ reply, I.yields c reply = none → E c reply → (k reply).wp (I.logic E lent) Q h)
    (obtained : ∀ reply r, I.yields c reply = some r → E c reply → h.Fresh r →
      (k reply).wp (I.logic E lent) Q (h.make r)) :
    (Prog.call c k).wp (I.logic E lent) Q h := by
  refine ⟨⟨live, by simp [gives], by simp [releases]⟩, ?_⟩
  intro reply _ holds
  rcases holds with ⟨expected, fresh, rfl⟩
  simp only [after, gives, releases, List.foldl_nil, Option.elim_none]
  cases yields : I.yields c reply with
  | none => exact without reply yields expected
  | some r => exact obtained reply r yields expected (fresh r yields)

/-- A command that makes references part of another one. -/
theorem wp_give {parts : List Ref} {whole : Ref} (uses : I.uses c = [])
    (gives : I.gives c = parts.map fun part => (part, whole)) (releases : I.releases c = none)
    (yields : ∀ reply, I.yields c reply = none) (own : h whole = .owned)
    (parted : ∀ part ∈ parts, h part = .owned ∧ part ≠ whole)
    (rest : ∀ reply, E c reply → (k reply).wp (I.logic E lent) Q
      fun x => if x ∈ parts then .part whole else h x) :
    (Prog.call c k).wp (I.logic E lent) Q h := by
  refine ⟨⟨by simp [uses], ?_, by simp [releases]⟩, ?_⟩
  · intro g member
    rw [gives] at member
    obtain ⟨part, isPart, rfl⟩ := List.mem_map.mp member
    exact ⟨(parted part isPart).1, own, (parted part isPart).2⟩
  · intro reply _ holds
    rcases holds with ⟨expected, _, rfl⟩
    simp only [after, gives, releases, yields, Option.elim_none, Heap.foldl_give]
    exact rest reply expected

/-- A command that releases a reference. -/
theorem wp_release {r : Ref} (own : h r = .owned)
    (last : ∀ x, lent x → x ≠ r ∧ h x ≠ .part r) (uses : I.uses c = []) (gives : I.gives c = [])
    (releases : I.releases c = some r) (yields : ∀ reply, I.yields c reply = none)
    (rest : ∀ reply, E c reply → (k reply).wp (I.logic E lent) Q (h.release r)) :
    (Prog.call c k).wp (I.logic E lent) Q h := by
  refine ⟨⟨by simp [uses], by simp [gives], ?_⟩, ?_⟩
  · intro x same
    rw [releases, Option.mem_some_iff] at same
    subst same
    exact ⟨own, last⟩
  · intro reply _ holds
    rcases holds with ⟨expected, _, rfl⟩
    simp only [after, gives, releases, yields, List.foldl_nil, Option.elim_none, Option.elim_some]
    exact rest reply expected

end Rules

end Interface

/-! ### Several objects and the threads that use them -/

/-- A command on the references of one object, or one about a thread. -/
inductive Cmd (S : Sig) (O T : Type) : Type
  | on (o : O) (c : S.Cmd)
  | spawn (t : T) (lent : List (O × Ref))
  /-- Wait for the thread to end, if it runs. -/
  | join (t : T)
  /-- Ask whether the thread still runs; it may have ended by itself. -/
  | runs (t : T)

@[reducible] def sig (S : Sig) (O T : Type) : Sig where
  Cmd := Cmd S O T
  Reply
    | .on _ c => S.Reply c
    | .spawn _ _ | .join _ => Unit
    | .runs _ => Bool

/-- The references of each object, and what each running thread uses of them. -/
structure State (O T : Type) : Type where
  heap : O → Heap
  lent : T → Option (List (O × Ref))

namespace State

variable {O T : Type}

/-- Nothing is allocated and no thread runs. -/
def start : State O T := ⟨fun _ => .empty, fun _ => none⟩

/-- A running thread uses the reference. -/
def Lent (g : State O T) (o : O) (r : Ref) : Prop := ∃ t l, g.lent t = some l ∧ (o, r) ∈ l

section On

variable [DecidableEq O] {g : State O T} {o o' : O} {h h' : Heap}

def on (g : State O T) (o : O) (h : Heap) : State O T :=
  { g with heap := Function.update g.heap o h }

@[simp] theorem on_heap : (g.on o h).heap o = h := Function.update_self ..

@[simp] theorem on_heap_of_ne (ne : o' ≠ o) : (g.on o h).heap o' = g.heap o' :=
  Function.update_of_ne ne ..

@[simp] theorem on_lent : (g.on o h).lent = g.lent := rfl

@[simp] theorem on_same : g.on o (g.heap o) = g := by
  rw [on, Function.update_eq_self]

@[simp] theorem on_on : (g.on o h).on o h' = g.on o h' := by
  simp only [on, Function.update_idem]

end On

section Lend

variable [DecidableEq T] {g : State O T} {t t' : T} {l : Option (List (O × Ref))}

def lend (g : State O T) (t : T) (l : Option (List (O × Ref))) : State O T :=
  { g with lent := Function.update g.lent t l }

@[simp] theorem lend_heap : (g.lend t l).heap = g.heap := rfl

@[simp] theorem lend_lent : (g.lend t l).lent t = l := Function.update_self ..

theorem lend_same (is : g.lent t = l) : g.lend t l = g := by
  rw [lend, ← is, Function.update_eq_self]

@[simp] theorem lend_lent_of_ne (ne : t' ≠ t) : (g.lend t l).lent t' = g.lent t' :=
  Function.update_of_ne ne ..

end Lend

end State

section Logic

/-- The objects side by side; what the library replies is expected of each by itself. -/
@[reducible] def logic (I : Interface) {O : Type} (E : O → (c : I.S.Cmd) → I.S.Reply c → Prop)
    (T : Type) [DecidableEq O] [DecidableEq T] : Logic (sig I.S O T) where
  State := State O T
  Allows g
    | .on o c => I.Permits (g.Lent o) (g.heap o) c
    | .spawn t lent => g.lent t = none ∧ ∀ p ∈ lent, (g.heap p.1).Live p.2
    | .join _ | .runs _ => True
  Step g
    | .on o c, reply, g' =>
      ∃ h', (I.logic (E o) (g.Lent o)).Step (g.heap o) c reply h' ∧ g' = g.on o h'
    | .spawn t lent, _, g' => g' = g.lend t (some lent)
    | .join t, _, g' => g' = g.lend t none
    | .runs t, running, g' =>
      if running then (g.lent t).isSome = true ∧ g' = g else g' = g.lend t none

end Logic

end Handles

namespace Prog

open Handles

variable {S : Sig} {O T α β : Type}

/-- A program on the references of the object `o`. -/
def on (o : O) : Prog S α → Prog (sig S O T) α
  | .done a => .done a
  | .call c k => .call (.on o c) fun r => (k r).on o

section Rules

variable [DecidableEq O] [DecidableEq T] {I : Interface}
variable {E : O → (c : I.S.Cmd) → I.S.Reply c → Prop} {g : State O T} {o : O}

/-- **Framing**: a program on one object's references leaves the other objects and the threads
alone. -/
theorem wp_on {p : Prog I.S α} {Q : α → State O T → Prop}
    (holds : p.wp (I.logic (E o) (g.Lent o)) (fun a h' => Q a (g.on o h')) (g.heap o)) :
    (p.on o).wp (Handles.logic I E T) Q g := by
  have general : ∀ {p : Prog I.S α} {h : Heap},
      p.wp (I.logic (E o) (g.Lent o)) (fun a h' => Q a (g.on o h')) h →
        (p.on o).wp (Handles.logic I E T) Q (g.on o h) := by
    intro p
    induction p with
    | done a => exact id
    | call c k ih =>
      intro h post
      rcases post with ⟨allowed, rest⟩
      refine ⟨?_, ?_⟩
      · rw [← State.on_heap (g := g) (o := o) (h := h)] at allowed
        exact allowed
      · intro r _ post
        rcases post with ⟨h', step, rfl⟩
        rw [State.on_on]
        rw [State.on_heap] at step
        exact ih r (rest r h' step)
  have here := general holds
  rwa [State.on_same] at here

theorem wp_on_bind {p : Prog I.S α} {f : α → Prog (sig I.S O T) β} {Q : β → State O T → Prop}
    (holds : p.wp (I.logic (E o) (g.Lent o))
      (fun a h' => (f a).wp (Handles.logic I E T) Q (g.on o h')) (g.heap o)) :
    (p.on o >>= f).wp (Handles.logic I E T) Q g :=
  Prog.wp_bind.mpr (wp_on holds)

end Rules

/-! ### Executions -/

section Executions

variable {L : Logic S} {Q : α → L.State → Prop} {p p' : Prog S α} {s s' : L.State}

/-- The execution of `p` from `s` has come to `p'` in `s'`. -/
inductive Comes (L : Logic S) (p : Prog S α) (s : L.State) : Prog S α → L.State → Prop
  | start : Comes L p s p s
  | move {c : S.Cmd} {k : S.Reply c → Prog S α} {r : S.Reply c} {s' s'' : L.State} :
    Comes L p s (.call c k) s' → L.Step s' c r s'' → Comes L p s (k r) s''

/-- No execution comes to a command that is forbidden there. -/
def Permitted (L : Logic S) (p : Prog S α) (s : L.State) : Prop :=
  ∀ c k s', Comes L p s (.call c k) s' → L.Allows s' c

theorem wp_comes (holds : p.wp L Q s) (comes : Comes L p s p' s') : p'.wp L Q s' := by
  induction comes with
  | start => exact holds
  | move _ step ih => exact ih.2 _ _ step

theorem wp_of_permitted (permitted : p.Permitted L s) : p.wp L (fun _ _ => True) s := by
  have general : ∀ {p' : Prog S α} {s' : L.State}, Comes L p s p' s' →
      p'.wp L (fun _ _ => True) s' := by
    intro p'
    induction p' with
    | done a => exact fun _ => trivial
    | call c k ih =>
      intro s' comes
      exact ⟨permitted c k s' comes, fun r s'' step => ih r (comes.move step)⟩
  exact general .start

/-- What `wp` promises: no execution is forbidden a command, and `Q` holds at its end. -/
theorem permitted_of_wp (holds : p.wp L Q s) :
    p.Permitted L s ∧ ∀ a s', Comes L p s (.done a) s' → Q a s' :=
  ⟨fun _ _ _ comes => (wp_comes holds comes).1, fun _ _ comes => wp_comes holds comes⟩

end Executions

end Prog

end DirectLink
