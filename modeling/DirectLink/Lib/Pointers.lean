import DirectLink.Lib.Handles

/-!
# Objects whose fields are pointers

A field is null or the reference that it points to.  `Tracks` says of such an object what is to be
released: what a field points to, and what was lost because the field that pointed to it has been
overwritten.
-/

namespace DirectLink

namespace Handles

/-- The null pointer. -/
def null : Ref := 0

namespace Heap

/-- Nothing is allocated, and the null pointer is never live. -/
def blank : Heap := Function.update empty null .released

variable {h : Heap} {r : Ref}

theorem below_blank : blank.Below 1 := by
  intro r above
  have other : r ≠ null := Nat.ne_of_gt above
  refine ⟨Function.update_of_ne other .., ?_⟩
  intro x
  rw [blank, Function.update_apply]
  split <;> exact nofun

theorem Below.mono {n m : Nat} (below : h.Below n) (le : n ≤ m) : h.Below m :=
  fun r above => below r (Nat.le_trans le above)

/-- There is always a reference that was not seen. -/
theorem Below.make_any {n : Nat} (below : h.Below n) (r : Ref) :
    (h.make r).Below (max n (r + 1)) := by
  intro x above
  have fresh := below x (Nat.le_trans (Nat.le_max_left ..) above)
  have other : x ≠ r := by omega
  refine ⟨(Function.update_of_ne other ..).trans fresh.1, ?_⟩
  intro y
  rw [Heap.make, Function.update_apply]
  split
  · intro impossible
    cases impossible
  · exact fresh.2 y

end Heap

/-- What is to be released is what the fields point to, each something else, and what was lost. -/
structure Tracks {F : Type} (ptr : F → Ref) (lost : Set Ref) (h : Heap) : Prop where
  null : h null = .released
  owns : h.Owns {r | r ∈ lost ∨ r ≠ Handles.null ∧ ∃ f, ptr f = r}
  apart : ∀ f f', ptr f = ptr f' → f = f' ∨ ptr f = Handles.null
  lost : ∀ f, ptr f ∉ lost
  bounded : ∃ n, h.Below n

/-- What is lost with a pointer. -/
def leave (lost : Set Ref) (r : Ref) : Set Ref := {x | x ∈ lost ∨ x ≠ null ∧ x = r}

theorem subset_leave (lost : Set Ref) (r : Ref) : lost ⊆ leave lost r := fun _ => .inl

@[simp] theorem leave_null (lost : Set Ref) : leave lost null = lost := by
  ext x
  constructor
  · intro either
    rcases either with old | ⟨some, none_⟩
    · exact old
    · exact absurd none_ some
  · exact .inl

theorem mem_leave {lost : Set Ref} {r : Ref} (some : r ≠ null) : r ∈ leave lost r :=
  .inr ⟨some, rfl⟩

namespace Tracks

variable {F : Type} {ptr : F → Ref} {lost : Set Ref} {h : Heap} {f : F} {r : Ref}

theorem blank : Tracks (fun _ : F => Handles.null) ∅ Heap.blank where
  null := Function.update_self ..
  owns r := by
    rw [Heap.blank, Function.update_apply]
    split
    · next same => simp [same]
    · next other => simp [Heap.empty, Ne.symm other]
  apart _ _ _ := .inr rfl
  lost _ impossible := impossible
  bounded := ⟨1, Heap.below_blank⟩

theorem own (tracks : Tracks ptr lost h) (some : ptr f ≠ Handles.null) : h (ptr f) = .owned :=
  (tracks.owns _).mpr (.inr ⟨some, f, rfl⟩)

theorem live (tracks : Tracks ptr lost h) (some : ptr f ≠ Handles.null) : h.Live (ptr f) :=
  .inl (tracks.own some)

/-- The null pointer must not be used. -/
theorem not_live (tracks : Tracks ptr lost h) : ¬ h.Live Handles.null := by
  intro either
  rcases either with own | ⟨whole, part⟩
  · rw [tracks.null] at own
    cases own
  · rw [tracks.null] at part
    cases part

theorem ne_null (tracks : Tracks ptr lost h) (fresh : h.Fresh r) : r ≠ Handles.null := by
  intro same
  subst same
  have unused := fresh.1
  rw [tracks.null] at unused
  cases unused

theorem exists_fresh (tracks : Tracks ptr lost h) : ∃ r, h.Fresh r := by
  obtain ⟨n, below⟩ := tracks.bounded
  exact ⟨n, below n (Nat.le_refl n)⟩

/-- What is pointed to or lost was seen. -/
theorem fresh_apart (tracks : Tracks ptr lost h) (fresh : h.Fresh r) :
    r ∉ lost ∧ ∀ f, ptr f ≠ r := by
  have new := tracks.owns.notMem fresh.1
  refine ⟨fun old => new (.inl old), fun f points => new (.inr ⟨tracks.ne_null fresh, f, points⟩)⟩

/-- Something new becomes part of what a field points to. -/
theorem attach (tracks : Tracks ptr lost h) (some : ptr f ≠ Handles.null) (fresh : h.Fresh r) :
    Tracks ptr lost (fun x => if x ∈ [r] then .part (ptr f) else h.make r x) where
  null := by
    have new := tracks.ne_null fresh
    rw [if_neg (by simpa using Ne.symm new)]
    exact (Heap.make_eq fresh (by simp [tracks.null])).trans tracks.null
  owns := by
    intro x
    rw [(tracks.owns.make r).give_all [r] (ptr f) x]
    have unseen := tracks.owns.notMem fresh.1
    constructor
    · intro holds
      rcases holds with ⟨rfl | old, other⟩
      · exact absurd (List.mem_singleton.mpr rfl) other
      · exact old
    · intro old
      refine ⟨.inr old, fun same => ?_⟩
      rw [List.mem_singleton.mp same] at old
      exact unseen old
  apart := tracks.apart
  lost := tracks.lost
  bounded := by
    obtain ⟨n, below⟩ := tracks.bounded
    have seen : ptr f < n := by
      by_contra above
      have unused := (below (ptr f) (Nat.not_lt.mp above)).1
      rw [tracks.own some] at unused
      cases unused
    refine ⟨max n (r + 1), ?_⟩
    intro x above
    have made := below.make_any r x above
    have other : x ≠ r := by omega
    refine ⟨(if_neg (by simpa using other)).trans made.1, ?_⟩
    intro y
    dsimp only
    split
    · intro points
      cases points
      exact Nat.not_lt.mpr (Nat.le_trans (Nat.le_max_left ..) above) seen
    · exact made.2 y

variable [DecidableEq F]

/-- A field points to something new, and what it pointed to is lost. -/
theorem assign (tracks : Tracks ptr lost h) (f : F) (fresh : h.Fresh r) :
    Tracks (Function.update ptr f r) (leave lost (ptr f)) (h.make r) where
  null := (Heap.make_eq fresh (by simp [tracks.null])).trans tracks.null
  owns := by
    intro x
    have made := tracks.owns.make r x
    rw [made]
    have new := tracks.ne_null fresh
    constructor
    · intro either
      rcases either with rfl | old | ⟨some, f', points⟩
      · exact .inr ⟨new, f, Function.update_self ..⟩
      · exact .inl (.inl old)
      · by_cases same : f' = f
        · subst same
          exact .inl (.inr ⟨some, points.symm⟩)
        · exact .inr ⟨some, f', (Function.update_of_ne same ..).trans points⟩
    · intro either
      rcases either with (old | ⟨some, rfl⟩) | ⟨some, f', points⟩
      · exact .inr (.inl old)
      · exact .inr (.inr ⟨some, f, rfl⟩)
      · by_cases same : f' = f
        · subst same
          rw [Function.update_self] at points
          exact .inl points.symm
        · rw [Function.update_of_ne same] at points
          exact .inr (.inr ⟨some, f', points⟩)
  apart f₁ f₂ same := by
    have other := (tracks.fresh_apart fresh).2
    rw [Function.update_apply, Function.update_apply] at same
    rw [Function.update_apply]
    split at same <;> rename_i first <;> split at same <;> rename_i second
    · exact .inl (first.trans second.symm)
    · exact absurd same.symm (other f₂)
    · exact absurd same (other f₁)
    · rw [if_neg first]
      exact tracks.apart f₁ f₂ same
  lost f' := by
    rw [Function.update_apply]
    split
    · intro either
      rcases either with old | ⟨_, points⟩
      · exact (tracks.fresh_apart fresh).1 old
      · exact (tracks.fresh_apart fresh).2 f points.symm
    · next other =>
      intro either
      rcases either with old | ⟨some, points⟩
      · exact tracks.lost f' old
      · rcases tracks.apart f' f points with same | none_
        · exact other same
        · exact some none_
  bounded := by
    obtain ⟨n, below⟩ := tracks.bounded
    exact ⟨_, below.make_any r⟩

/-- A field becomes null, and what it pointed to is lost. -/
theorem clear (tracks : Tracks ptr lost h) (f : F) :
    Tracks (Function.update ptr f Handles.null) (leave lost (ptr f)) h where
  null := tracks.null
  owns := by
    intro x
    rw [tracks.owns x]
    constructor
    · intro either
      rcases either with old | ⟨some, f', points⟩
      · exact .inl (.inl old)
      · by_cases same : f' = f
        · subst same
          exact .inl (.inr ⟨some, points.symm⟩)
        · exact .inr ⟨some, f', (Function.update_of_ne same ..).trans points⟩
    · intro either
      rcases either with (old | ⟨some, rfl⟩) | ⟨some, f', points⟩
      · exact .inl old
      · exact .inr ⟨some, f, rfl⟩
      · by_cases same : f' = f
        · subst same
          rw [Function.update_self] at points
          exact absurd points.symm some
        · rw [Function.update_of_ne same] at points
          exact .inr ⟨some, f', points⟩
  apart f₁ f₂ same := by
    rw [Function.update_apply, Function.update_apply] at same
    rw [Function.update_apply]
    split at same <;> rename_i first <;> split at same <;> rename_i second
    · exact .inl (first.trans second.symm)
    · rw [if_pos first]
      exact .inr rfl
    · rw [if_neg first]
      exact .inr same
    · rw [if_neg first]
      exact tracks.apart f₁ f₂ same
  lost f' := by
    rw [Function.update_apply]
    split
    · intro either
      rcases either with old | ⟨some, _⟩
      · have own := (tracks.owns _).mpr (.inl old)
        rw [tracks.null] at own
        cases own
      · exact some rfl
    · next other =>
      intro either
      rcases either with old | ⟨some, points⟩
      · exact tracks.lost f' old
      · rcases tracks.apart f' f points with same | none_
        · exact other same
        · exact some none_
  bounded := tracks.bounded

/-- What a field points to is released. -/
theorem release (tracks : Tracks ptr lost h) (some : ptr f ≠ Handles.null) :
    Tracks (Function.update ptr f Handles.null) lost (h.release (ptr f)) where
  null := by
    rw [Heap.release]
    split
    · rfl
    · exact tracks.null
  owns := by
    intro x
    rw [tracks.owns.release (ptr f) x]
    constructor
    · intro holds
      rcases holds with ⟨old | ⟨some', f', points⟩, other⟩
      · exact .inl old
      · refine .inr ⟨some', f', (Function.update_of_ne ?_ ..).trans points⟩
        intro agrees
        subst agrees
        exact other points.symm
    · intro either
      rcases either with old | ⟨some', f', points⟩
      · refine ⟨.inl old, ?_⟩
        intro agrees
        subst agrees
        exact tracks.lost f old
      · by_cases same : f' = f
        · subst same
          rw [Function.update_self] at points
          exact absurd points.symm some'
        · rw [Function.update_of_ne same] at points
          refine ⟨.inr ⟨some', f', points⟩, ?_⟩
          intro agrees
          subst agrees
          rcases tracks.apart f' f points with same' | none_
          · exact same same'
          · rw [points] at none_
            exact some' none_
  apart := (tracks.clear f).apart
  lost f' := fun old => (tracks.clear f).lost f' (subset_leave _ _ old)
  bounded := by
    obtain ⟨n, below⟩ := tracks.bounded
    exact ⟨n, below.release (by simp [tracks.own some])⟩

end Tracks

end Handles

end DirectLink
