import Mathlib.Data.Finmap
import Mathlib.Data.Finset.Dedup

/-!
# A Redis database, command by command

Keys are flat strings.  A key holds one typed value and possibly a deadline; a hash, a set or a
sorted set that becomes empty disappears.  `exec` is the effect of one command at one instant:
its reply, or `none` where the key holds a value of another type, and the new database.  Expiry is
eager: `Db.expire` drops every key whose deadline has come, so a stored key is a live one.

The order in which the server lists the members of a set is arbitrary (`Order`), also for a range
of a sorted set.
-/

namespace DirectLink.Redis

/-- The fields of a hash. -/
abbrev Hash : Type := Finmap fun _ : String => String

/-- The members of a sorted set with their scores. -/
abbrev ZSet : Type := Finmap fun _ : String => Int

inductive Value : Type
  | str (s : String)
  | hash (h : Hash)
  | set (m : Finset String)
  | zset (z : ZSet)
  deriving DecidableEq

/-- A stored value and the instant at which it expires. -/
structure Entry : Type where
  value : Value
  expireAt : Option Nat
  deriving DecidableEq

/-- The database: what each key holds. -/
abbrev Db : Type := String → Option Entry

/-- The commands, with times to live in the unit of the clock. -/
inductive Cmd : Type
  | get (key : String)
  | set (key value : String) (ttl : Option Nat)
  | setNX (key value : String) (ttl : Option Nat)
  | delIfEq (key value : String)
  | del (key : String)
  | existsKey (key : String)
  | expire (key : String) (ttl : Nat)
  | hset (key : String) (fields : List (String × String))
  | hget (key field : String)
  | hgetall (key : String)
  | hdel (key field : String)
  | hexists (key field : String)
  | sadd (key member : String)
  | srem (key member : String)
  | smembers (key : String)
  | zadd (key : String) (score : Int) (member : String)
  | zrem (key member : String)
  | zrangeByScore (key : String) (stop : Int)
  | ping
  deriving DecidableEq

/-- What a command answers when the key has the right type. -/
@[reducible] def Cmd.Reply : Cmd → Type
  | .get _ | .hget _ _ => Option String
  | .setNX _ _ _ | .delIfEq _ _ | .existsKey _ | .expire _ _ | .hexists _ _ => Bool
  | .hgetall _ => Hash
  | .smembers _ | .zrangeByScore _ _ => List String
  | .set _ _ _ | .del _ | .hset _ _ | .hdel _ _ | .sadd _ _ | .srem _ _ | .zadd _ _ _ | .zrem _ _
  | .ping => Unit

/-- The key a command may change. -/
def Cmd.writes : Cmd → Option String
  | .set k _ _ | .setNX k _ _ | .delIfEq k _ | .del k | .expire k _ | .hset k _ | .hdel k _
  | .sadd k _ | .srem k _ | .zadd k _ _ | .zrem k _ => some k
  | .get _ | .existsKey _ | .hget _ _ | .hgetall _ | .hexists _ _ | .smembers _
  | .zrangeByScore _ _ | .ping => none

/-- A way to list the members of each set. -/
structure Order : Type where
  list : Finset String → List String
  nodup (s : Finset String) : (list s).Nodup
  toFinset (s : Finset String) : (list s).toFinset = s

/-- An order that lists the set of the members `l` in that order. -/
noncomputable def Order.preferring (l : List String) (nodup : l.Nodup) : Order where
  list s := if s = l.toFinset then l else s.toList
  nodup s := by
    split
    · exact nodup
    · exact s.nodup_toList
  toFinset s := by
    split
    · next same => exact same.symm
    · exact s.toList_toFinset

theorem Order.mem_list {o : Order} {s : Finset String} {m : String} :
    m ∈ o.list s ↔ m ∈ s := by
  rw [← List.mem_toFinset, o.toFinset]

namespace Db

variable (db : Db) (k : String)

/-- The empty database. -/
def empty : Db := fun _ => none

/-- The string at `k`, `none` inside when the key is absent. -/
def strAt : Option (Option String) :=
  match db k with
  | none => some none
  | some ⟨.str s, _⟩ => some (some s)
  | some _ => none

/-- The hash at `k`, empty when the key is absent. -/
def hashAt : Option Hash :=
  match db k with
  | none => some ∅
  | some ⟨.hash h, _⟩ => some h
  | some _ => none

/-- The set at `k`, empty when the key is absent. -/
def setAt : Option (Finset String) :=
  match db k with
  | none => some ∅
  | some ⟨.set m, _⟩ => some m
  | some _ => none

/-- The sorted set at `k`, empty when the key is absent. -/
def zsetAt : Option ZSet :=
  match db k with
  | none => some ∅
  | some ⟨.zset z, _⟩ => some z
  | some _ => none

/-- Let `k` hold `e`. -/
def assign (e : Option Entry) : Db := Function.update db k e

/-- Drop `k`. -/
def erase : Db := db.assign k none

/-- Store `v` at `k` with a deadline of its own. -/
def store (v : Value) (expireAt : Option Nat) : Db := db.assign k (some ⟨v, expireAt⟩)

/-- Store `v` at `k`, keeping the deadline the key has. -/
def put (v : Value) : Db := db.store k v ((db k).bind Entry.expireAt)

/-- Give `k`, when it exists, the deadline `t`. -/
def deadline (t : Nat) : Db := db.assign k ((db k).map fun e => ⟨e.value, some t⟩)

/-- Drop every key whose deadline is at or before `now`. -/
def expire (now : Nat) : Db := fun k => (db k).filter fun e => e.expireAt.all (now < ·)

end Db

/-- Set several fields of a hash. -/
def Hash.insertAll (h : Hash) (fields : List (String × String)) : Hash :=
  fields.foldl (fun h f => h.insert f.1 f.2) h

/-- The members with a score of at most `stop`. -/
def ZSet.upTo (z : ZSet) (stop : Int) : Finset String :=
  z.keys.filter fun m => ∃ score ∈ z.lookup m, score ≤ stop

/-- One command at the instant `now`. -/
def exec (o : Order) (now : Nat) (db : Db) : (c : Cmd) → Option c.Reply × Db
  | .get k => (db.strAt k, db)
  | .set k v ttl => (some (), db.store k (.str v) (ttl.map (now + ·)))
  | .setNX k v ttl =>
    if (db k).isSome then (some false, db)
    else (some true, db.store k (.str v) (ttl.map (now + ·)))
  | .delIfEq k v =>
    match db.strAt k with
    | none => (none, db)
    | some s => if s = some v then (some true, db.erase k) else (some false, db)
  | .del k => (some (), db.erase k)
  | .existsKey k => (some (db k).isSome, db)
  | .expire k ttl =>
    (some (db k).isSome, if ttl = 0 then db.erase k else db.deadline k (now + ttl))
  | .hset k fields =>
    match db.hashAt k with
    | none => (none, db)
    | some h => (some (), db.put k (.hash (Hash.insertAll h fields)))
  | .hget k f => ((db.hashAt k).map (Finmap.lookup f), db)
  | .hgetall k => (db.hashAt k, db)
  | .hdel k f =>
    match db.hashAt k with
    | none => (none, db)
    | some h => (some (), if h.erase f = ∅ then db.erase k else db.put k (.hash (h.erase f)))
  | .hexists k f => ((db.hashAt k).map fun h => (h.lookup f).isSome, db)
  | .sadd k m =>
    match db.setAt k with
    | none => (none, db)
    | some s => (some (), db.put k (.set (insert m s)))
  | .srem k m =>
    match db.setAt k with
    | none => (none, db)
    | some s => (some (), if s.erase m = ∅ then db.erase k else db.put k (.set (s.erase m)))
  | .smembers k => ((db.setAt k).map o.list, db)
  | .zadd k score m =>
    match db.zsetAt k with
    | none => (none, db)
    | some z => (some (), db.put k (.zset (z.insert m score)))
  | .zrem k m =>
    match db.zsetAt k with
    | none => (none, db)
    | some z => (some (), if z.erase m = ∅ then db.erase k else db.put k (.zset (z.erase m)))
  | .zrangeByScore k stop => ((db.zsetAt k).map fun z => o.list (z.upTo stop), db)
  | .ping => (some (), db)

/-! ## Reading a changed database -/

section Reads

variable {db : Db} {k k' : String} {v : Value} {t now : Nat} {d : Option Nat}

@[simp] theorem Db.assign_self {e : Option Entry} : db.assign k e k = e := Function.update_self ..

@[simp] theorem Db.assign_of_ne {e : Option Entry} (ne : k' ≠ k) : db.assign k e k' = db k' :=
  Function.update_of_ne ne ..

@[simp] theorem Db.assign_same : db.assign k (db k) = db := Function.update_eq_self ..

@[simp] theorem Db.erase_self : db.erase k k = none := Function.update_self ..

@[simp] theorem Db.store_self : db.store k v d k = some ⟨v, d⟩ := Function.update_self ..

@[simp] theorem Db.put_self : db.put k v k = some ⟨v, (db k).bind Entry.expireAt⟩ :=
  Function.update_self ..

@[simp] theorem Db.deadline_self :
    db.deadline k t k = (db k).map fun e => ⟨e.value, some t⟩ := Function.update_self ..

@[simp] theorem Db.erase_of_ne (ne : k' ≠ k) : db.erase k k' = db k' := Function.update_of_ne ne ..

@[simp] theorem Db.store_of_ne (ne : k' ≠ k) : db.store k v d k' = db k' :=
  Function.update_of_ne ne ..

@[simp] theorem Db.put_of_ne (ne : k' ≠ k) : db.put k v k' = db k' := Function.update_of_ne ne ..

@[simp] theorem Db.deadline_of_ne (ne : k' ≠ k) : db.deadline k t k' = db k' :=
  Function.update_of_ne ne ..

@[simp] theorem Db.empty_apply : Db.empty k = none := rfl

theorem Db.expire_apply :
    db.expire now k = (db k).filter fun e => e.expireAt.all (now < ·) := rfl

/-- A key expires or stays as it is. -/
theorem Db.expire_cases (db : Db) (k : String) (now : Nat) :
    db.expire now k = db k ∨ db.expire now k = none := by
  rw [Db.expire_apply]
  cases db k with
  | none => exact .inl rfl
  | some e =>
    rw [Option.filter_some]
    split
    · exact .inl rfl
    · exact .inr rfl

/-- What is left has its deadline still to come. -/
theorem Db.lt_of_expire {d : Nat} (left : (db.expire now k).isSome = true)
    (deadline : (db k).bind Entry.expireAt = some d) : now < d := by
  rw [Db.expire_apply] at left
  cases found : db k with
  | none =>
    rw [found] at deadline
    cases deadline
  | some e =>
    rw [found, Option.bind_some] at deadline
    rw [found, Option.filter_some, deadline] at left
    by_contra passed
    simp [passed] at left

/-- What has no deadline that has come is left. -/
theorem Db.expire_of_lasting (lasting : ∀ d, (db k).bind Entry.expireAt = some d → now < d) :
    db.expire now k = db k := by
  rw [Db.expire_apply]
  cases found : db k with
  | none => rfl
  | some e =>
    rw [found, Option.bind_some] at lasting
    rw [Option.filter_some]
    cases deadline : e.expireAt with
    | none => rfl
    | some d => simp [lasting d deadline]

theorem Db.expire_of_lt {d : Nat} (deadline : (db k).bind Entry.expireAt = some d)
    (later : now < d) : db.expire now k = db k := by
  refine Db.expire_of_lasting ?_
  intro d' deadline'
  rw [deadline] at deadline'
  cases deadline'
  exact later

/-- A command changes at most the key it writes. -/
theorem exec_frame (o : Order) {c : Cmd} (ne : c.writes ≠ some k) :
    (exec o now db c).2 k = db k := by
  have other : ∀ {k₀ : String}, some k₀ ≠ some k → k ≠ k₀ := fun ne eq => ne (congrArg some eq.symm)
  cases c <;> simp only [exec, Cmd.writes] at ne ⊢ <;> (try have away := other ne) <;>
    repeat' split
  all_goals simp_all

end Reads

/-- Reading a field or a score after one was written. -/
theorem lookup_insert {V : Type} (m : Finmap fun _ : String => V) (k k' : String) (v : V) :
    (m.insert k v).lookup k' = if k' = k then some v else m.lookup k' := by
  split
  · next same => rw [same, Finmap.lookup_insert]
  · next other => exact Finmap.lookup_insert_of_ne _ other

/-- Reading a field or a score after one was removed. -/
theorem lookup_erase {V : Type} (m : Finmap fun _ : String => V) (k k' : String) :
    (m.erase k).lookup k' = if k' = k then none else m.lookup k' := by
  split
  · next same => rw [same, Finmap.lookup_erase]
  · next other => exact Finmap.lookup_erase_ne other

/-- Writing one field and removing another, in either order. -/
theorem erase_insert_of_ne {V : Type} (m : Finmap fun _ : String => V) {k k' : String} {v : V}
    (ne : k ≠ k') : (m.insert k v).erase k' = (m.erase k').insert k v := by
  refine Finmap.ext_lookup fun f => ?_
  by_cases erased : f = k'
  · subst erased
    rw [Finmap.lookup_erase, Finmap.lookup_insert_of_ne _ ne.symm, Finmap.lookup_erase]
  · rw [Finmap.lookup_erase_ne erased, lookup_insert, lookup_insert, Finmap.lookup_erase_ne erased]

theorem Hash.lookup_insertAll_of_notMem {h : Hash} {fields : List (String × String)} {f : String}
    (notMem : f ∉ fields.map Prod.fst) : (Hash.insertAll h fields).lookup f = h.lookup f := by
  induction fields generalizing h with
  | nil => rfl
  | cons p fields ih =>
    rw [List.map_cons, List.mem_cons, not_or] at notMem
    rw [insertAll, List.foldl_cons]
    exact (ih notMem.2).trans (Finmap.lookup_insert_of_ne _ notMem.1)

theorem ZSet.mem_upTo {z : ZSet} {stop : Int} {m : String} :
    m ∈ z.upTo stop ↔ ∃ score, z.lookup m = some score ∧ score ≤ stop := by
  rw [upTo, Finset.mem_filter, Finmap.mem_keys]
  constructor
  · intro holds
    rcases holds with ⟨_, score, found, le⟩
    exact ⟨score, found, le⟩
  · intro holds
    rcases holds with ⟨score, found, le⟩
    exact ⟨Finmap.mem_of_lookup_eq_some found, score, found, le⟩

end DirectLink.Redis
