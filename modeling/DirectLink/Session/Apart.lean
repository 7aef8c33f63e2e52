import DirectLink.Lib.Commute
import DirectLink.Session.Sequential

/-!
# Operations about different sessions

What an operation does to the contents of the store, its values without their deadlines, and when
two operations about different sessions can change places: their keys differ, or they add and
remove different members of one set.
-/

namespace DirectLink

open Redis (Db Entry Value Hash ZSet Order)

/-! ## Contents -/

/-- The value of an entry. -/
def valueOf (e : Option Entry) : Option Value := e.map Entry.value

/-- The stores hold the same keys and values. -/
def SameContents (w w' : World) : Prop := ∀ key, valueOf (w.redis key) = valueOf (w'.redis key)

section Values

variable {e e' : Option Entry} {v : Value} {t now : Nat}

@[simp] theorem valueOf_none : valueOf none = none := rfl

@[simp] theorem valueOf_keep : valueOf (keep e v) = some v := rfl

@[simp] theorem valueOf_redate : valueOf (redate e t) = valueOf e := by
  cases e <;> rfl

theorem isSome_of_value (same : valueOf e = valueOf e') : e.isSome = e'.isSome := by
  have isSome := congrArg Option.isSome same
  rwa [valueOf, valueOf, Option.isSome_map, Option.isSome_map] at isSome

/-- What is read of an entry is read of its value. -/
theorem read_of_value {α : Type} {read : Option Entry → α}
    (undated : ∀ v d, read (some ⟨v, d⟩) = read (some ⟨v, none⟩))
    (same : valueOf e = valueOf e') : read e = read e' := by
  cases e with
  | none =>
    cases e' with
    | none => rfl
    | some entry' => cases same
  | some entry =>
    cases e' with
    | none => cases same
    | some entry' =>
      obtain ⟨v, d⟩ := entry
      obtain ⟨v', d'⟩ := entry'
      cases same
      rw [undated v d, undated v d']

theorem strOf_congr (same : valueOf e = valueOf e') : strOf e = strOf e' :=
  read_of_value (by intro v d; cases v <;> rfl) same

theorem hashOf_congr (same : valueOf e = valueOf e') : hashOf e = hashOf e' :=
  read_of_value (by intro v d; cases v <;> rfl) same

theorem setOf_congr (same : valueOf e = valueOf e') : setOf e = setOf e' :=
  read_of_value (by intro v d; cases v <;> rfl) same

theorem zsetOf_congr (same : valueOf e = valueOf e') : zsetOf e = zsetOf e' :=
  read_of_value (by intro v d; cases v <;> rfl) same

/-- The new value depends on the old value only. -/
theorem Op.value_effect (op : Op) (same : valueOf e = valueOf e') :
    valueOf (op.effect now e) = valueOf (op.effect now e') := by
  have str := strOf_congr same
  have hash := hashOf_congr same
  have set := setOf_congr same
  have zset := zsetOf_congr same
  have isSome := isSome_of_value same
  cases op <;> simp only [Op.effect, valueOf_redate, valueOf_keep, str, hash, set, zset, isSome]
  case dropRole | dropUserSession | dropActive => split <;> rfl
  case takeLock value ttl => split <;> first | exact same | rfl
  case dropLock value => split <;> first | exact same | rfl
  all_goals exact same

end Values

/-! ## Sets that become empty disappear -/

/-- What a set is stored as. -/
def setValue (m : Finset String) : Option Value := if m = ∅ then none else some (.set m)

/-- What a sorted set is stored as. -/
def zsetValue (z : ZSet) : Option Value := if z = ∅ then none else some (.zset z)

section Members

variable {e : Option Entry} {now : Nat} {u id : String} {score : Int}

theorem value_addUserSession :
    valueOf ((Op.addUserSession u id).effect now e) = setValue (insert id (setOf e)) := by
  rw [setValue, if_neg (Finset.insert_ne_empty id (setOf e))]
  rfl

theorem value_dropUserSession :
    valueOf ((Op.dropUserSession u id).effect now e) = setValue ((setOf e).erase id) := by
  rw [Op.effect, setValue]
  split <;> rfl

theorem set_addUserSession :
    setOf ((Op.addUserSession u id).effect now e) = insert id (setOf e) := rfl

theorem set_dropUserSession :
    setOf ((Op.dropUserSession u id).effect now e) = (setOf e).erase id := by
  rw [Op.effect]
  split
  · next empty => rw [setOf_none, empty]
  · rfl

theorem insert_ne_empty (z : ZSet) : z.insert id score ≠ ∅ := by
  intro empty
  have found := Finmap.lookup_insert (b := score) (a := id) z
  rw [empty, Finmap.lookup_empty] at found
  cases found

theorem value_addActive :
    valueOf ((Op.addActive score id).effect now e) = zsetValue ((zsetOf e).insert id score) := by
  rw [zsetValue, if_neg (insert_ne_empty _)]
  rfl

theorem value_dropActive :
    valueOf ((Op.dropActive id).effect now e) = zsetValue ((zsetOf e).erase id) := by
  rw [Op.effect, zsetValue]
  split <;> rfl

theorem zset_addActive :
    zsetOf ((Op.addActive score id).effect now e) = (zsetOf e).insert id score := rfl

theorem zset_dropActive :
    zsetOf ((Op.dropActive id).effect now e) = (zsetOf e).erase id := by
  rw [Op.effect]
  split
  · next empty => rw [zsetOf_none, empty]
  · rfl

end Members

/-! ## Operations about one session -/

/-- The operation is about the session `id`: about a key or a member of its own, or about a room
code that belongs to it. -/
def Op.About (owner : String → Option String) (id : String) : Op → Prop
  | existsSession id' | readSession id' | writeStatus id' _ | expireSession id' _ | delSession id'
  | readRole id' _ | hasRole id' _ | writeRole id' _ _ | expireAccess id' _ | dropRole id' _
  | delAccess id' | addIngress id' _ | expireIngress id' _ | readIngress id'
  | addUserSession _ id' | dropUserSession _ id' | addActive _ id' | dropActive id' => id' = id
  | writeSession session =>
    session.id = id ∧ (session.roomCode ≠ "" → owner session.roomCode = some id)
  | setCode code id' _ => id' = id ∧ owner code = some id
  | delCode code => owner code = some id
  | expireUser _ _ => True
  | getCode _ | readUser _ | readActive _ | takeLock _ _ | dropLock _ | ping => False

/-- The key is one of the session, or one that sessions share. -/
def Key.About (owner : String → Option String) (id : String) : Key → Prop
  | .session id' | .access id' | .ingress id' => id' = id
  | .roomCode code => owner code = some id
  | .userSessions _ | .active => True
  | .lock => False

section About

variable {owner : String → Option String} {op op' : Op} {k : Key} {id id' u : String}
variable {db : Db} {now : Nat}

theorem Op.About.key (about : op.About owner id) : ∃ k, op.key = some k ∧ k.About owner id := by
  cases op <;> first
    | exact about.elim
    | exact ⟨_, rfl, about⟩
    | exact ⟨_, rfl, about.1⟩
    | exact ⟨_, rfl, about.2⟩
    | exact ⟨_, rfl, trivial⟩

theorem Op.About.user (about : op.About owner id) (own : op.key = some (.userSessions u)) :
    op = .addUserSession u id ∨ op = .dropUserSession u id ∨ ∃ ttl, op = .expireUser u ttl := by
  cases op <;> cases own
  case addUserSession id' =>
    obtain rfl : id' = id := about
    exact .inl rfl
  case expireUser ttl => exact .inr (.inr ⟨ttl, rfl⟩)
  case dropUserSession id' =>
    obtain rfl : id' = id := about
    exact .inr (.inl rfl)
  case readUser => exact about.elim

theorem Op.About.active (about : op.About owner id) (own : op.key = some .active) :
    (∃ score, op = .addActive score id) ∨ op = .dropActive id := by
  cases op <;> cases own
  case addActive score id' =>
    obtain rfl : id' = id := about
    exact .inl ⟨score, rfl⟩
  case dropActive id' =>
    obtain rfl : id' = id := about
    exact .inr rfl
  case readActive => exact about.elim

/-- A key that operations about two sessions have in common is a shared one. -/
theorem Key.About.shared (about : k.About owner id) (about' : k.About owner id')
    (apart : id ≠ id') : (∃ u, k = .userSessions u) ∨ k = .active := by
  cases k with
  | session _ | access _ | ingress _ => exact absurd (about.symm.trans about') apart
  | roomCode code =>
    have same : some id = some id' := Eq.trans (Eq.symm about) about'
    exact absurd (Option.some.inj same) apart
  | userSessions u => exact .inl ⟨u, rfl⟩
  | active => exact .inr rfl
  | lock => exact about.elim

/-- Operations about two sessions on one key change its value in either order. -/
theorem Op.About.effect_comm (about : op.About owner id) (about' : op'.About owner id')
    (apart : id ≠ id') (own : op.key = some k) (own' : op'.key = some k) (e : Option Entry) :
    valueOf (op.effect now (op'.effect now e)) = valueOf (op'.effect now (op.effect now e)) := by
  obtain ⟨_, same, aboutKey⟩ := about.key
  obtain rfl := Option.some.inj (own.symm.trans same)
  obtain ⟨_, same', aboutKey'⟩ := about'.key
  obtain rfl := Option.some.inj (own'.symm.trans same')
  obtain ⟨u, rfl⟩ | rfl := aboutKey.shared aboutKey' apart
  · obtain rfl | rfl | ⟨ttl, rfl⟩ := about.user own
    · obtain rfl | rfl | ⟨ttl', rfl⟩ := about'.user own'
      · simp only [value_addUserSession, set_addUserSession, Finset.insert_comm]
      · simp only [value_addUserSession, value_dropUserSession, set_addUserSession,
          set_dropUserSession, Finset.erase_insert_of_ne apart]
      · exact Op.value_effect _ valueOf_redate |>.trans valueOf_redate.symm
    · obtain rfl | rfl | ⟨ttl', rfl⟩ := about'.user own'
      · simp only [value_addUserSession, value_dropUserSession, set_addUserSession,
          set_dropUserSession, Finset.erase_insert_of_ne apart.symm]
      · simp only [value_dropUserSession, set_dropUserSession, Finset.erase_right_comm]
      · exact Op.value_effect _ valueOf_redate |>.trans valueOf_redate.symm
    · exact valueOf_redate.trans (Op.value_effect _ valueOf_redate).symm
  · obtain ⟨score, rfl⟩ | rfl := about.active own
    · obtain ⟨score', rfl⟩ | rfl := about'.active own'
      · simp only [value_addActive, zset_addActive]
        rw [Finmap.insert_insert_of_ne _ apart.symm]
      · simp only [value_addActive, value_dropActive, zset_addActive, zset_dropActive,
          Redis.erase_insert_of_ne _ apart]
    · obtain ⟨score', rfl⟩ | rfl := about'.active own'
      · simp only [value_addActive, value_dropActive, zset_addActive, zset_dropActive,
          Redis.erase_insert_of_ne _ apart.symm]
      · simp only [value_dropActive, zset_dropActive, Finmap.erase_erase]

/-- Operations about two sessions change the contents in either order. -/
theorem Op.About.apply_comm (about : op.About owner id) (about' : op'.About owner id')
    (apart : id ≠ id') (wf : op.Wf) (wf' : op'.Wf) (key : String) :
    valueOf (op.apply now (op'.apply now db) key) =
      valueOf (op'.apply now (op.apply now db) key) := by
  obtain ⟨k, own, _⟩ := about.key
  obtain ⟨k', own', _⟩ := about'.key
  have moved : ∀ db : Db, op.apply now db = db.assign k.text (op.effect now (db k.text)) := by
    intro db
    rw [Op.apply, own]
  have moved' : ∀ db : Db, op'.apply now db = db.assign k'.text (op'.effect now (db k'.text)) := by
    intro db
    rw [Op.apply, own']
  by_cases same : k = k'
  · subst same
    rw [moved, moved', moved', moved]
    by_cases here : key = k.text
    · subst here
      simp only [Db.assign_self]
      exact about.effect_comm about' apart own own' _
    · simp only [Db.assign_of_ne here]
  · have texts : k.text ≠ k'.text :=
      fun texts => same (Key.text_injective (wf.key own) (wf'.key own') texts)
    rw [moved, moved', moved', moved, Db.assign_of_ne texts, Db.assign_of_ne texts.symm,
      Db.assign, Db.assign, Db.assign, Db.assign, Function.update_comm texts]

/-- What an operation about another session leaves of an entry. -/
theorem Op.About.entry (about : op.About owner id) (about' : op'.About owner id')
    (apart : id ≠ id') (wf : op.Wf) (wf' : op'.Wf) :
    op.entry (op'.apply now db) = op.entry db ∨ ∃ k, op.key = some k ∧
      ((∃ u, k = .userSessions u) ∨ k = .active) := by
  obtain ⟨k, own, aboutKey⟩ := about.key
  obtain ⟨k', own', aboutKey'⟩ := about'.key
  by_cases same : k = k'
  · subst same
    exact .inr ⟨k, own, aboutKey.shared aboutKey' apart⟩
  · refine .inl ?_
    have away : op'.key ≠ some k := by
      rw [own']
      exact fun eq => same (Option.some.inj eq).symm
    rw [Op.entry, Op.entry, own, Option.bind_some, Option.bind_some,
      Op.apply_at wf' (wf.key own), if_neg away]

end About

end DirectLink
