import Mathlib.Order.Lattice
import Mathlib.Data.List.InsertIdx

/-!
# Sorted maps

Maps kept as lists in the order of their keys.  A key has a position, which an insertion or a
removal can shift.
-/

namespace DirectLink

/-- The entries of a map in the order of their keys. -/
structure SortedMap (κ α : Type) [LinearOrder κ] : Type where
  entries : List (κ × α)
  sorted : entries.Pairwise fun e e' => e.1 < e'.1

namespace SortedMap

variable {κ α : Type} [LinearOrder κ] {m : SortedMap κ α} {k k' : κ} {v : α}

def empty : SortedMap κ α := ⟨[], .nil⟩

def keys (m : SortedMap κ α) : List κ := m.entries.map Prod.fst

def values (m : SortedMap κ α) : List α := m.entries.map Prod.snd

/-- The distance of the entry of a key from the first entry. -/
def position (m : SortedMap κ α) (k : κ) : Nat := m.entries.findIdx fun e => e.1 = k

/-! ### Insertion -/

/-- Insert or replace an entry. -/
def insertEntry (k : κ) (v : α) : List (κ × α) → List (κ × α)
  | [] => [(k, v)]
  | e :: entries =>
    if k < e.1 then (k, v) :: e :: entries
    else if e.1 < k then e :: insertEntry k v entries
    else (k, v) :: entries

theorem mem_insertEntry {e : κ × α} {entries : List (κ × α)}
    (member : e ∈ insertEntry k v entries) : e = (k, v) ∨ e ∈ entries := by
  induction entries with
  | nil => exact .inl (List.mem_singleton.mp member)
  | cons e' entries ih =>
    rw [insertEntry] at member
    split at member
    · exact List.mem_cons.mp member
    · split at member
      · rcases List.mem_cons.mp member with rfl | member
        · exact .inr List.mem_cons_self
        · exact (ih member).imp_right (List.mem_cons_of_mem _)
      · exact (List.mem_cons.mp member).imp_right (List.mem_cons_of_mem _)

theorem sorted_insertEntry {entries : List (κ × α)}
    (sorted : entries.Pairwise fun e e' => e.1 < e'.1) :
    (insertEntry k v entries).Pairwise fun e e' => e.1 < e'.1 := by
  induction entries with
  | nil => exact List.pairwise_singleton ..
  | cons e entries ih =>
    obtain ⟨below, rest⟩ := List.pairwise_cons.mp sorted
    rw [insertEntry]
    split
    · next before =>
      refine List.pairwise_cons.mpr ⟨fun e' member => ?_, sorted⟩
      rcases List.mem_cons.mp member with rfl | member
      · exact before
      · exact lt_trans before (below e' member)
    · split
      · next after =>
        refine List.pairwise_cons.mpr ⟨fun e' member => ?_, ih rest⟩
        rcases mem_insertEntry member with rfl | member
        · exact after
        · exact below e' member
      · next before after =>
        have same : e.1 = k := le_antisymm (not_lt.mp before) (not_lt.mp after)
        exact List.pairwise_cons.mpr ⟨fun e' member => same ▸ below e' member, rest⟩

def insert (m : SortedMap κ α) (k : κ) (v : α) : SortedMap κ α :=
  ⟨insertEntry k v m.entries, sorted_insertEntry m.sorted⟩

/-- A new entry is inserted at the position that it has afterwards. -/
theorem insertEntry_eq {entries : List (κ × α)} (absent : k ∉ entries.map Prod.fst) :
    (insertEntry k v entries).findIdx (fun e => e.1 = k) ≤ entries.length ∧
      insertEntry k v entries =
        entries.insertIdx ((insertEntry k v entries).findIdx fun e => e.1 = k) (k, v) := by
  induction entries with
  | nil => simp [insertEntry]
  | cons e entries ih =>
    rw [List.map_cons, List.mem_cons, not_or] at absent
    obtain ⟨short, placed⟩ := ih absent.2
    rw [insertEntry]
    split
    · simp [List.findIdx_cons]
    · split
      · have other : (e.1 = k) = False := eq_false fun same => absent.1 same.symm
        simp only [List.findIdx_cons, other, decide_false, cond_false, List.length_cons,
          List.insertIdx_succ_cons, ← placed, and_true]
        omega
      · next before after =>
        exact absurd (le_antisymm (not_lt.mp after) (not_lt.mp before)) absent.1

theorem position_insert_le (absent : k ∉ m.keys) :
    (m.insert k v).position k ≤ m.values.length := by
  rw [values, List.length_map]
  exact (insertEntry_eq absent).1

theorem values_insert (absent : k ∉ m.keys) :
    (m.insert k v).values = m.values.insertIdx ((m.insert k v).position k) v := by
  have placed := congrArg (List.map Prod.snd) (insertEntry_eq (v := v) absent).2
  rw [List.map_insertIdx] at placed
  exact placed

/-! ### Removal -/

/-- Remove the entry of a key. -/
def erase (m : SortedMap κ α) (k : κ) : SortedMap κ α :=
  ⟨m.entries.eraseIdx (m.position k), m.sorted.sublist (List.eraseIdx_sublist ..)⟩

theorem values_erase : (m.erase k).values = m.values.eraseIdx (m.position k) :=
  (List.eraseIdx_map ..).symm

end SortedMap

end DirectLink
