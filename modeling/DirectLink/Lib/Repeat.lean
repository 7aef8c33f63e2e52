import DirectLink.Lib.Redis

/-!
# Writes that can be repeated

The shape of a database is its values without their deadlines and without the scores of sorted sets.
Each write command changes the shape of one key, by a partial function that is idempotent
(`Cmd.write`).  A list of writes of which at most one changes the shape of each key can be repeated:
after any number of attempts that carried out some of them, a complete attempt ends in the shapes of
a single one (`runAll_of_ahead`).
-/

namespace DirectLink.Redis

/-! ## Shapes -/

/-- A value without the scores of a sorted set. -/
inductive Shape : Type
  | str (s : String)
  | hash (h : Hash)
  | set (m : Finset String)
  | members (m : Finset String)
  deriving DecidableEq

def Value.shape : Value → Shape
  | .str s => .str s
  | .hash h => .hash h
  | .set m => .set m
  | .zset z => .members z.keys

/-- What each key holds, up to deadlines and scores. -/
abbrev Shapes : Type := String → Option Shape

def shapeOf (e : Option Entry) : Option Shape := e.map fun entry => entry.value.shape

def Db.shapes (db : Db) : Shapes := fun k => shapeOf (db k)

namespace Shape

/-- The hash of a key, empty when the key is absent. -/
def hashAt : Option Shape → Option Hash
  | none => some ∅
  | some (.hash h) => some h
  | some _ => none

/-- The set of a key, empty when the key is absent. -/
def setAt : Option Shape → Option (Finset String)
  | none => some ∅
  | some (.set m) => some m
  | some _ => none

/-- The members of the sorted set of a key, none when the key is absent. -/
def membersAt : Option Shape → Option (Finset String)
  | none => some ∅
  | some (.members m) => some m
  | some _ => none

end Shape

/-! ## Writes -/

/-- A write to one key: the new shape, or `none` where the key holds a value of another type. -/
structure Write : Type where
  key : String
  run : Option Shape → Option (Option Shape)

/-- The shapes after a write. -/
def Write.apply (wr : Write) (σ : Shapes) : Option Shapes :=
  (wr.run (σ wr.key)).map (Function.update σ wr.key)

/-- The write that a command makes. -/
def Cmd.write : Cmd → Option Write
  | .set k v _ => some ⟨k, fun _ => some (some (.str v))⟩
  | .del k => some ⟨k, fun _ => some none⟩
  | .expire k ttl => some ⟨k, fun s => some (if ttl = 0 then none else s)⟩
  | .hset k fields => some ⟨k, fun s => (Shape.hashAt s).map fun h =>
      some (.hash (Hash.insertAll h fields))⟩
  | .hdel k f => some ⟨k, fun s => (Shape.hashAt s).map fun h =>
      if h.erase f = ∅ then none else some (.hash (h.erase f))⟩
  | .sadd k x => some ⟨k, fun s => (Shape.setAt s).map fun m => some (.set (insert x m))⟩
  | .srem k x => some ⟨k, fun s => (Shape.setAt s).map fun m =>
      if m.erase x = ∅ then none else some (.set (m.erase x))⟩
  | .zadd k _ x => some ⟨k, fun s => (Shape.membersAt s).map fun m =>
      some (.members (insert x m))⟩
  | .zrem k x => some ⟨k, fun s => (Shape.membersAt s).map fun m =>
      if m.erase x = ∅ then none else some (.members (m.erase x))⟩
  | .get _ | .setNX _ _ _ | .delIfEq _ _ | .existsKey _ | .hget _ _ | .hgetall _ | .hexists _ _
  | .smembers _ | .zrangeByScore _ _ | .ping => none

section Exec

variable {db : Db} {k : String} {v : Value} {d : Option Nat} {wr : Write} {c : Cmd} {o : Order}
variable {now : Nat}

theorem Db.hashAt_shape : db.hashAt k = Shape.hashAt (db.shapes k) := by
  rw [Db.hashAt, Db.shapes, shapeOf]
  cases db k with
  | none => rfl
  | some entry => obtain ⟨value, d⟩ := entry; cases value <;> rfl

theorem Db.setAt_shape : db.setAt k = Shape.setAt (db.shapes k) := by
  rw [Db.setAt, Db.shapes, shapeOf]
  cases db k with
  | none => rfl
  | some entry => obtain ⟨value, d⟩ := entry; cases value <;> rfl

theorem Db.zsetAt_shape : (db.zsetAt k).map Finmap.keys = Shape.membersAt (db.shapes k) := by
  rw [Db.zsetAt, Db.shapes, shapeOf]
  cases db k with
  | none => rfl
  | some entry => obtain ⟨value, d⟩ := entry; cases value <;> rfl

theorem Db.shapes_assign {e : Option Entry} :
    (db.assign k e).shapes = Function.update db.shapes k (shapeOf e) := by
  funext k'
  by_cases same : k' = k
  · subst same
    rw [Db.shapes, Db.assign_self, Function.update_self]
  · rw [Db.shapes, Db.assign_of_ne same, Function.update_of_ne same, Db.shapes]

@[simp] theorem shapeOf_none : shapeOf none = none := rfl

theorem keys_eq_empty {z : ZSet} : z.keys = ∅ ↔ z = ∅ := by
  constructor
  · intro empty
    refine Finmap.ext_lookup fun m => ?_
    have absent : m ∉ z := by
      rw [← Finmap.mem_keys, empty]
      exact Finset.notMem_empty m
    rw [Finmap.lookup_eq_none.mpr absent, Finmap.lookup_empty]
  · intro same
    subst same
    exact Finmap.keys_empty

theorem Db.shapes_put {v : Value} : (db.put k v).shapes = Function.update db.shapes k
    (some v.shape) := Db.shapes_assign

theorem Db.shapes_erase : (db.erase k).shapes = Function.update db.shapes k none :=
  Db.shapes_assign

/-- Dropping a key or giving it a new value. -/
theorem Db.shapes_ite {p : Prop} [Decidable p] {v : Value} :
    (if p then db.erase k else db.put k v).shapes =
      Function.update db.shapes k (if p then none else some v.shape) := by
  split
  · exact Db.shapes_erase
  · exact Db.shapes_put

/-- **A write on shapes**: it succeeds where the command does, and changes the shapes as the command
does. -/
theorem exec_write (o : Order) (now : Nat) (db : Db) (isWrite : c.write = some wr) :
    (exec o now db c).1.isSome = (wr.run (db.shapes wr.key)).isSome ∧
      (exec o now db c).2.shapes = (wr.apply db.shapes).getD db.shapes := by
  cases c <;> cases isWrite <;> simp only [exec, Write.apply]
  case set k v ttl => exact ⟨rfl, Db.shapes_assign⟩
  case del k => exact ⟨rfl, Db.shapes_erase⟩
  case expire k ttl =>
    refine ⟨rfl, ?_⟩
    by_cases zero : ttl = 0
    · simp only [zero, if_true]
      exact Db.shapes_erase
    · simp only [zero, if_false]
      refine Db.shapes_assign.trans ?_
      have kept : shapeOf ((db k).map fun e => ⟨e.value, some (now + ttl)⟩) = db.shapes k := by
        rw [Db.shapes]
        cases db k <;> rfl
      rw [kept]
      rfl
  case hset k fields | hdel k f =>
    rw [← Db.hashAt_shape]
    cases db.hashAt k with
    | none => exact ⟨rfl, rfl⟩
    | some h => exact ⟨rfl, by first | exact Db.shapes_put | exact Db.shapes_ite⟩
  case sadd k x | srem k x =>
    rw [← Db.setAt_shape]
    cases db.setAt k with
    | none => exact ⟨rfl, rfl⟩
    | some m => exact ⟨rfl, by first | exact Db.shapes_put | exact Db.shapes_ite⟩
  case zadd k score x =>
    rw [← Db.zsetAt_shape]
    cases db.zsetAt k with
    | none => exact ⟨rfl, rfl⟩
    | some z =>
      refine ⟨rfl, Db.shapes_put.trans ?_⟩
      have keys : (z.insert x score).keys = insert x z.keys := by
        ext m
        rw [Finmap.mem_keys, Finmap.mem_insert, Finset.mem_insert, Finmap.mem_keys]
      simp only [Value.shape, keys]
      rfl
  case zrem k x =>
    rw [← Db.zsetAt_shape]
    cases db.zsetAt k with
    | none => exact ⟨rfl, rfl⟩
    | some z =>
      refine ⟨rfl, Db.shapes_ite.trans ?_⟩
      have empty : z.keys.erase x = ∅ ↔ z.erase x = ∅ := by
        rw [← Finmap.keys_erase, keys_eq_empty]
      simp only [Option.map_some, Option.getD_some, empty, Value.shape, Finmap.keys_erase]

/-- Setting the same fields again changes nothing. -/
theorem Hash.insertAll_insertAll (h : Hash) (fields : List (String × String)) :
    Hash.insertAll (Hash.insertAll h fields) fields = Hash.insertAll h fields := by
  have written : ∀ {fields : List (String × String)} {f : String} {h h' : Hash},
      f ∈ fields.map Prod.fst →
        (Hash.insertAll h fields).lookup f = (Hash.insertAll h' fields).lookup f := by
    intro fields f
    induction fields with
    | nil => nofun
    | cons p fields ih =>
      intro h h' mem
      by_cases later : f ∈ fields.map Prod.fst
      · exact ih later
      · have first : f = p.1 := (List.mem_cons.mp mem).resolve_right later
        have last : ∀ h : Hash, (Hash.insertAll h (p :: fields)).lookup f = some p.2 := by
          intro h
          refine (Hash.lookup_insertAll_of_notMem later).trans ?_
          rw [first, Finmap.lookup_insert]
        rw [last, last]
  refine Finmap.ext_lookup fun f => ?_
  by_cases mem : f ∈ fields.map Prod.fst
  · exact written mem
  · rw [Hash.lookup_insertAll_of_notMem mem]

/-- Every write is idempotent. -/
theorem write_idempotent (isWrite : c.write = some wr) {s s' : Option Shape}
    (run : wr.run s = some s') : wr.run s' = some s' := by
  cases c <;> cases isWrite
  case set | del => exact run
  case expire k ttl =>
    have run : (if ttl = 0 then none else s) = s' := Option.some.inj run
    dsimp only
    split at run
    · next zero => rw [if_pos zero, run]
    · next other => rw [if_neg other]
  case hset k fields =>
    obtain ⟨h, _, rfl⟩ := Option.map_eq_some_iff.mp run
    simp only [Shape.hashAt, Option.map_some, Hash.insertAll_insertAll]
  case hdel k f =>
    obtain ⟨h, _, rfl⟩ := Option.map_eq_some_iff.mp run
    have again : (h.erase f).erase f = h.erase f := by
      refine Finmap.ext_lookup fun f' => ?_
      by_cases same : f' = f
      · rw [same, Finmap.lookup_erase, Finmap.lookup_erase]
      · rw [Finmap.lookup_erase_ne same]
    split
    · next empty =>
      rw [empty] at again
      simp only [Shape.hashAt, Option.map_some, again, if_true]
    · next other => simp only [Shape.hashAt, Option.map_some, again, other, if_false]
  case sadd k x =>
    obtain ⟨m, _, rfl⟩ := Option.map_eq_some_iff.mp run
    simp only [Shape.setAt, Option.map_some, Finset.insert_idem]
  case srem k x =>
    obtain ⟨m, _, rfl⟩ := Option.map_eq_some_iff.mp run
    split
    · simp only [Shape.setAt, Option.map_some, Finset.erase_empty, if_true]
    · next other => simp only [Shape.setAt, Option.map_some, Finset.erase_idem, other, if_false]
  case zadd k score x =>
    obtain ⟨m, _, rfl⟩ := Option.map_eq_some_iff.mp run
    simp only [Shape.membersAt, Option.map_some, Finset.insert_idem]
  case zrem k x =>
    obtain ⟨m, _, rfl⟩ := Option.map_eq_some_iff.mp run
    split
    · simp only [Shape.membersAt, Option.map_some, Finset.erase_empty, if_true]
    · next other =>
      simp only [Shape.membersAt, Option.map_some, Finset.erase_idem, other, if_false]

end Exec

/-! ## Repeating writes -/

/-- The writes are idempotent, and at most one of them changes the shape of each key. -/
structure Repeatable (ws : List Write) : Prop where
  idempotent : ∀ wr ∈ ws, ∀ s s', wr.run s = some s' → wr.run s' = some s'
  separate : ∀ wr ∈ ws, ∀ wr' ∈ ws, wr.key = wr'.key →
    wr = wr' ∨ (∀ s, wr.run s = some s) ∨ ∀ s, wr'.run s = some s

/-- A write that never changes the shape of its key. -/
def Write.Keeps (wr : Write) : Prop := ∀ s, wr.run s = some s

/-- The key whose shape a write command can change: none for a deadline in the future. -/
def Cmd.changed : Cmd → Option String
  | .expire k ttl => if ttl = 0 then some k else none
  | c => c.write.map Write.key

theorem keeps_or_changed {c : Cmd} {wr : Write} (isWrite : c.write = some wr) :
    wr.Keeps ∨ c.changed = some wr.key := by
  cases c
  case expire k ttl =>
    cases isWrite
    by_cases zero : ttl = 0
    · exact .inr (if_pos zero)
    · exact .inl fun s => congrArg some (if_neg zero)
  all_goals exact .inr (congrArg (Option.map Write.key) isWrite)

/-- Some of the writes may have been carried out, any number of times, from `σ₀` on. -/
def Ahead (ws : List Write) (σ₀ σ : Shapes) : Prop :=
  ∀ k, σ k = σ₀ k ∨ ∃ wr ∈ ws, wr.key = k ∧ wr.run (σ₀ k) = some (σ k)

/-- All writes, one after the other. -/
def runAll : List Write → Shapes → Option Shapes
  | [], σ => some σ
  | wr :: ws, σ => (wr.apply σ).bind (runAll ws)

section Repeat

variable {ws : List Write} {wr : Write} {σ₀ σ σ' : Shapes}

theorem Repeatable.nil : Repeatable [] := ⟨nofun, nofun⟩

/-- One more write, to a key that no other of the writes changes. -/
theorem Repeatable.cons {c : Cmd} (isWrite : c.write = some wr)
    (apart : ∀ wr' ∈ ws, wr.key = wr'.key → wr.Keeps ∨ wr'.Keeps) (rest : Repeatable ws) :
    Repeatable (wr :: ws) := by
  constructor
  · intro wr₁ mem s s' run
    obtain rfl | later := List.mem_cons.mp mem
    · exact write_idempotent isWrite run
    · exact rest.idempotent wr₁ later s s' run
  · intro wr₁ mem₁ wr₂ mem₂ key
    obtain rfl | later₁ := List.mem_cons.mp mem₁ <;> obtain rfl | later₂ := List.mem_cons.mp mem₂
    · exact .inl rfl
    · exact .inr (apart wr₂ later₂ key)
    · exact .inr (apart wr₁ later₁ key.symm).symm
    · exact rest.separate wr₁ later₁ wr₂ later₂ key

/-- A single write can always be repeated. -/
theorem Repeatable.single {c : Cmd} (isWrite : c.write = some wr) : Repeatable [wr] :=
  .cons isWrite nofun .nil

/-- The commands make these writes. -/
abbrev Makes (cs : List Cmd) (ws : List Write) : Prop :=
  List.Forall₂ (fun c wr => c.write = some wr) cs ws

/-- The writes of commands that are all writes. -/
theorem makes_filterMap {cs : List Cmd} (writes : ∀ c ∈ cs, c.write.isSome) :
    Makes cs (cs.filterMap Cmd.write) := by
  induction cs with
  | nil => exact .nil
  | cons c cs ih =>
    obtain ⟨wr, isWrite⟩ := Option.isSome_iff_exists.mp (writes c List.mem_cons_self)
    rw [List.filterMap_cons_some isWrite]
    exact .cons isWrite (ih fun c' mem => writes c' (List.mem_cons_of_mem _ mem))

/-- Commands of which no two change the same key can be repeated. -/
theorem repeatable_of_nodup {cs : List Cmd} (nodup : (cs.filterMap Cmd.changed).Nodup) :
    Repeatable (cs.filterMap Cmd.write) := by
  induction cs with
  | nil => exact .nil
  | cons c cs ih =>
    have rest : Repeatable (cs.filterMap Cmd.write) := by
      refine ih (nodup.sublist ?_)
      exact (List.sublist_cons_self c cs).filterMap _
    cases isWrite : c.write with
    | none =>
      rw [List.filterMap_cons_none isWrite]
      exact rest
    | some wr =>
      rw [List.filterMap_cons_some isWrite]
      refine .cons isWrite ?_ rest
      intro wr' mem key
      obtain ⟨c', mem', isWrite'⟩ := List.mem_filterMap.mp mem
      obtain keeps | changed := keeps_or_changed isWrite
      · exact .inl keeps
      obtain keeps' | changed' := keeps_or_changed isWrite'
      · exact .inr keeps'
      rw [List.filterMap_cons_some changed] at nodup
      refine absurd (List.mem_filterMap.mpr ⟨c', mem', ?_⟩) (List.nodup_cons.mp nodup).1
      rw [changed', key]

theorem runAll_single : runAll [wr] σ = wr.apply σ := by
  rw [runAll]
  cases wr.apply σ <;> rfl

theorem Repeatable.tail (repeatable : Repeatable (wr :: ws)) : Repeatable ws := by
  constructor
  · intro wr' mem
    exact repeatable.idempotent wr' (List.mem_cons_of_mem _ mem)
  · intro wr₁ mem₁ wr₂ mem₂
    exact repeatable.separate wr₁ (List.mem_cons_of_mem _ mem₁) wr₂ (List.mem_cons_of_mem _ mem₂)

theorem Ahead.refl (ws : List Write) (σ : Shapes) : Ahead ws σ σ := fun _ => .inl rfl

/-- What a write makes of its key, and of the others. -/
theorem Write.apply_eq (applied : wr.apply σ = some σ') :
    wr.run (σ wr.key) = some (σ' wr.key) ∧ ∀ k, k ≠ wr.key → σ' k = σ k := by
  obtain ⟨s, run, rfl⟩ := Option.map_eq_some_iff.mp applied
  refine ⟨run.trans (by rw [Function.update_self]), ?_⟩
  intro k other
  exact Function.update_of_ne other ..

/-- Carrying out one more of the writes. -/
theorem Ahead.apply (repeatable : Repeatable ws) (mem : wr ∈ ws) (ahead : Ahead ws σ₀ σ)
    (applied : wr.apply σ = some σ') : Ahead ws σ₀ σ' := by
  obtain ⟨run, others⟩ := Write.apply_eq applied
  intro k
  by_cases own : k = wr.key
  · subst own
    obtain same | ⟨wr', mem', key, run'⟩ := ahead wr.key
    · rw [same] at run
      exact .inr ⟨wr, mem, rfl, run⟩
    · obtain rfl | keeps | keeps := repeatable.separate wr mem wr' mem' key.symm
      · rw [repeatable.idempotent wr mem _ _ run'] at run
        rw [← Option.some.inj run]
        exact .inr ⟨wr, mem, rfl, run'⟩
      · rw [keeps] at run
        rw [← Option.some.inj run]
        exact .inr ⟨wr', mem', key, run'⟩
      · rw [keeps] at run'
        rw [← Option.some.inj run'] at run
        exact .inr ⟨wr, mem, rfl, run⟩
  · rw [others k own]
    exact ahead k

/-- **A complete attempt** after incomplete ones ends in the shapes of a single one. -/
theorem runAll_of_ahead (repeatable : Repeatable ws) (ahead : Ahead ws σ₀ σ)
    (complete : runAll ws σ = some σ') : runAll ws σ₀ = some σ' := by
  induction ws generalizing σ₀ σ with
  | nil =>
    have same : σ = σ₀ := by
      funext k
      obtain same | ⟨_, impossible, _⟩ := ahead k
      · exact same
      · cases impossible
    rw [← same]
    exact complete
  | cons wr ws ih =>
    obtain ⟨σ₁, applied, rest⟩ := Option.bind_eq_some_iff.mp complete
    obtain ⟨run, others⟩ := Write.apply_eq applied
    have mem : wr ∈ wr :: ws := List.mem_cons_self
    -- the write succeeds from `σ₀` too; its key is then as it is now, or another write is ahead
    obtain ⟨s₁, run₀, ahead₁⟩ : ∃ s₁, wr.run (σ₀ wr.key) = some s₁ ∧ (σ₁ wr.key = s₁ ∨
        ∃ wr' ∈ ws, wr'.key = wr.key ∧ wr'.run s₁ = some (σ₁ wr.key)) := by
      obtain same | ⟨wr', mem', key, run'⟩ := ahead wr.key
      · rw [same] at run
        exact ⟨_, run, .inl rfl⟩
      · obtain rfl | keeps | keeps := repeatable.separate wr mem wr' mem' key.symm
        · rw [repeatable.idempotent wr mem _ _ run'] at run
          exact ⟨_, run', .inl (Option.some.inj run).symm⟩
        · obtain rfl | later := List.mem_cons.mp mem'
          · rw [repeatable.idempotent wr' mem _ _ run'] at run
            exact ⟨_, run', .inl (Option.some.inj run).symm⟩
          · rw [keeps] at run
            refine ⟨_, keeps _, .inr ⟨wr', later, key, ?_⟩⟩
            rw [← Option.some.inj run]
            exact run'
        · rw [keeps] at run'
          rw [← Option.some.inj run'] at run
          exact ⟨_, run, .inl rfl⟩
    have applied₀ : wr.apply σ₀ = some (Function.update σ₀ wr.key s₁) := by
      rw [Write.apply, run₀, Option.map_some]
    rw [runAll, applied₀, Option.bind_some]
    refine ih repeatable.tail ?_ rest
    intro k
    by_cases own : k = wr.key
    · subst own
      rw [Function.update_self]
      exact ahead₁
    · rw [Function.update_of_ne own, others k own]
      obtain same | ⟨wr', mem', key, run'⟩ := ahead k
      · exact .inl same
      · obtain rfl | later := List.mem_cons.mp mem'
        · exact absurd key.symm own
        · exact .inr ⟨wr', later, key, run'⟩

end Repeat

end DirectLink.Redis
