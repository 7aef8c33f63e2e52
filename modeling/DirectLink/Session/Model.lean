import DirectLink.Lib.Decimal
import DirectLink.Lib.Redis
import Mathlib.Data.List.Infix

/-!
# The session record and its keys

The record of `pkg/session/model.go`, the sentinel errors the store and the handlers tell apart,
the texts a session hash holds (`time.RFC3339` and decimal `int32`), and the six kinds of flat
Redis keys of `redis.go`.  `Key` names a key by its kind; `Key.text_injective` says that the
flat texts of two keys of live UUIDs never collide, whatever room codes and user ids contain.
-/

namespace DirectLink

/-! ## Errors -/

/-- The error values that `errors.Is` is asked about. -/
inductive Sentinel : Type
  | sessionNotFound
  | sessionClosed
  | invalidRoomCode
  | redisUnavailable
  | redisNil
  | contextCanceled
  | deadlineExceeded
  deriving DecidableEq

/-- An error: a sentinel, any other error by its text, one wrapped by `%w`, or several joined. -/
inductive Err : Type
  | sentinel (s : Sentinel)
  | other (text : String)
  | wrapped (text : String) (err : Err)
  | joined (errs : List Err)

mutual

/-- `errors.Is(err, target)`. -/
def Err.is (target : Sentinel) : Err → Bool
  | .sentinel s => s = target
  | .other _ => false
  | .wrapped _ err => err.is target
  | .joined errs => Err.anyIs target errs

/-- `errors.Is` on some of several errors. -/
def Err.anyIs (target : Sentinel) : List Err → Bool
  | [] => false
  | err :: errs => err.is target || Err.anyIs target errs

end

/-! ## Wall-clock readings -/

/-- `time.Month` lengths. -/
def daysIn (year month : Nat) : Nat :=
  if month = 2 then if year % 4 = 0 ∧ (year % 100 ≠ 0 ∨ year % 400 = 0) then 29 else 28
  else if month = 4 ∨ month = 6 ∨ month = 9 ∨ month = 11 then 30
  else 31

/-- The fields name an instant of the calendar, in a year of four digits. -/
def UtcTime.Valid (year month day hour minute second nanosecond : Nat) : Prop :=
  year < 10000 ∧ 1 ≤ month ∧ month ≤ 12 ∧ 1 ≤ day ∧ day ≤ daysIn year month ∧ hour < 24 ∧
    minute < 60 ∧ second < 60 ∧ nanosecond < 1000000000

instance (year month day hour minute second nanosecond : Nat) :
    Decidable (UtcTime.Valid year month day hour minute second nanosecond) :=
  inferInstanceAs (Decidable (_ ∧ _))

/-- A reading of the wall clock in UTC, as `time.Now().UTC()` gives it up to the year 9999. -/
structure UtcTime : Type where
  year : Nat
  month : Nat
  day : Nat
  hour : Nat
  minute : Nat
  second : Nat
  nanosecond : Nat
  valid : UtcTime.Valid year month day hour minute second nanosecond
  deriving DecidableEq

namespace UtcTime

/-- The reading without its fraction of a second. -/
def truncate (t : UtcTime) : UtcTime :=
  { t with
    nanosecond := 0
    valid := by
      obtain ⟨h1, h2, h3, h4, h5, h6, h7, h8, _⟩ := t.valid
      exact ⟨h1, h2, h3, h4, h5, h6, h7, h8, by omega⟩ }

/-- `t.Format(time.RFC3339)` of a UTC reading. -/
def formatRFC3339 (t : UtcTime) : String :=
  String.ofList (fixedDigits 4 t.year ++ '-' :: fixedDigits 2 t.month ++ '-' ::
    fixedDigits 2 t.day ++ 'T' :: fixedDigits 2 t.hour ++ ':' :: fixedDigits 2 t.minute ++ ':' ::
    fixedDigits 2 t.second ++ ['Z'])

/-- `time.Parse(time.RFC3339, text)` on the texts `formatRFC3339` writes, the only ones the store
reads.  It is narrower than `time.Parse`, which also accepts an offset in place of `Z`, a fraction
of a second and an hour of one digit. -/
def parseRFC3339 (text : String) : Option UtcTime :=
  match text.toList with
  | [y₁, y₂, y₃, y₄, '-', o₁, o₂, '-', d₁, d₂, 'T', h₁, h₂, ':', m₁, m₂, ':', s₁, s₂, 'Z'] => do
    let year ← parseDecimal [y₁, y₂, y₃, y₄]
    let month ← parseDecimal [o₁, o₂]
    let day ← parseDecimal [d₁, d₂]
    let hour ← parseDecimal [h₁, h₂]
    let minute ← parseDecimal [m₁, m₂]
    let second ← parseDecimal [s₁, s₂]
    if valid : Valid year month day hour minute second 0 then
      some ⟨year, month, day, hour, minute, second, 0, valid⟩
    else none
  | _ => none

theorem day_lt (t : UtcTime) : t.day < 100 := by
  obtain ⟨_, _, _, _, le, _⟩ := t.valid
  have : daysIn t.year t.month ≤ 31 := by
    unfold daysIn
    repeat' split
    all_goals omega
  omega

/-- What is stored of a reading is the reading without its fraction of a second. -/
theorem parseRFC3339_formatRFC3339 (t : UtcTime) :
    parseRFC3339 t.formatRFC3339 = some t.truncate := by
  have two : ∀ {n : Nat}, n < 100 →
      parseDecimal [Nat.digitChar (n / 10 % 10), Nat.digitChar (n % 10)] = some n :=
    fun lt => parseDecimal_fixedDigits Nat.two_pos lt
  obtain ⟨year, _, month, _, _, hour, minute, second, _⟩ := t.valid
  have four : parseDecimal [Nat.digitChar (t.year / 10 / 10 / 10 % 10),
      Nat.digitChar (t.year / 10 / 10 % 10), Nat.digitChar (t.year / 10 % 10),
      Nat.digitChar (t.year % 10)] = some t.year :=
    parseDecimal_fixedDigits (show 0 < 4 by omega) year
  simp only [parseRFC3339, formatRFC3339, String.toList_ofList, fixedDigits, List.nil_append,
    List.cons_append]
  rw [four, two (show t.month < 100 by omega), two t.day_lt, two (show t.hour < 100 by omega),
    two (show t.minute < 100 by omega), two (show t.second < 100 by omega)]
  exact dif_pos t.truncate.valid

end UtcTime

/-! ## Thirty-two bit integers as texts -/

/-- The decimal text of an `int32`. -/
def formatInt32 (n : Int32) : String := n.toInt.repr

/-- `sign` times the decimal numeral `cs`, if it fits an `int32`. -/
def parseSigned (sign : Int) (cs : List Char) : Option Int32 :=
  (parseDecimal cs).bind fun n =>
    if -2 ^ 31 ≤ sign * n ∧ sign * n < 2 ^ 31 then some (Int32.ofInt (sign * n)) else none

/-- `strconv.ParseInt(text, 10, 32)`. -/
def parseInt32 (text : String) : Option Int32 :=
  match text.toList with
  | '-' :: cs => parseSigned (-1) cs
  | '+' :: cs => parseSigned 1 cs
  | cs => parseSigned 1 cs

theorem parseSigned_toDigits {sign : Int} {m : Nat} {n : Int32} (value : sign * m = n.toInt) :
    parseSigned sign (Nat.toDigits 10 m) = some n := by
  rw [parseSigned, parseDecimal_toDigits, Option.bind_some, value,
    if_pos ⟨Int32.le_toInt n, Int32.toInt_lt n⟩, Int32.ofInt_toInt]

theorem parseInt32_formatInt32 (n : Int32) : parseInt32 (formatInt32 n) = some n := by
  rw [formatInt32, parseInt32]
  cases eq : n.toInt with
  | ofNat m =>
    have text : (Int.repr (.ofNat m)).toList = Nat.toDigits 10 m := Nat.toList_repr
    have digit : ∀ c ∈ Nat.toDigits 10 m, c.isDigit = true :=
      fun c => Nat.isDigit_of_mem_toDigits (by omega) (by omega)
    rw [text]
    split
    · next sign => exact absurd (digit '-' (by rw [sign]; exact List.mem_cons_self)) (by decide)
    · next sign => exact absurd (digit '+' (by rw [sign]; exact List.mem_cons_self)) (by decide)
    · exact parseSigned_toDigits (by rw [eq, one_mul]; rfl)
  | negSucc m =>
    have text : (Int.repr (.negSucc m)).toList = '-' :: Nat.toDigits 10 (m + 1) := by
      simp [Int.repr]
    rw [text]
    exact parseSigned_toDigits (by rw [eq]; omega)

/-! ## Sessions -/

/-- A session, as `pkg/session/model.go` declares it. -/
structure Session : Type where
  id : String
  roomCode : String
  createdBy : String
  createdAt : UtcTime
  maxCameras : Int32
  status : String
  deriving DecidableEq

/-! ## Keys -/

def sessionPrefix : String := "session:"
def sessionAccessSuffix : String := ":access"
def sessionIngressSuffix : String := ":ingress_ids"
def roomCodePrefix : String := "roomcode:"
def userSessionsPrefix : String := "user:"
def activeSessionsKey : String := "sessions:active"
def janitorLockKey : String := "janitor:lock"
def statusClosed : String := "closed"

def sessionKey (sessionID : String) : String := sessionPrefix ++ sessionID
def accessKey (sessionID : String) : String := sessionKey sessionID ++ sessionAccessSuffix
def ingressKey (sessionID : String) : String := sessionPrefix ++ sessionID ++ sessionIngressSuffix
def roomCodeKey (code : String) : String := roomCodePrefix ++ code
def userSessionsKey (userID : String) : String := userSessionsPrefix ++ userID ++ ":sessions"

/-- The text of a UUID as `uuid.New().String()` writes it: thirty-two lower-case hexadecimal
digits in five groups separated by hyphens. -/
def isUuid (s : String) : Bool :=
  s.toList.length == 36 && s.toList.zipIdx.all fun (c, i) =>
    if i ∈ [8, 13, 18, 23] then c == '-' else c.isDigit || ('a' ≤ c && c ≤ 'f')

theorem length_of_isUuid {s : String} (uuid : isUuid s = true) : s.toList.length = 36 :=
  beq_iff_eq.mp (Bool.and_eq_true_iff.mp uuid).1

/-- A key by its kind. -/
inductive Key : Type
  | session (sessionID : String)
  | access (sessionID : String)
  | ingress (sessionID : String)
  | roomCode (code : String)
  | userSessions (userID : String)
  | active
  | lock
  deriving DecidableEq

namespace Key

/-- The flat text of a key. -/
def text : Key → String
  | .session sessionID => sessionKey sessionID
  | .access sessionID => accessKey sessionID
  | .ingress sessionID => ingressKey sessionID
  | .roomCode code => roomCodeKey code
  | .userSessions userID => userSessionsKey userID
  | .active => activeSessionsKey
  | .lock => janitorLockKey

/-- The session id in the key, if it has one, is a UUID. -/
def Wf : Key → Prop
  | .session sessionID | .access sessionID | .ingress sessionID => isUuid sessionID = true
  | .roomCode _ | .userSessions _ | .active | .lock => True

/-- Keys that differ have different texts, whatever the room codes and user ids are: the kinds
differ in their prefixes, or for the three kinds of one session in the length of their suffixes. -/
theorem text_injective {k k' : Key} (wf : k.Wf) (wf' : k'.Wf) (eq : k.text = k'.text) : k = k' := by
  have chars := congrArg String.toList eq
  cases k <;> cases k' <;>
    simp [text, sessionKey, accessKey, ingressKey, roomCodeKey, userSessionsKey, sessionPrefix,
      sessionAccessSuffix, sessionIngressSuffix, roomCodePrefix, userSessionsPrefix,
      activeSessionsKey, janitorLockKey] at chars ⊢
  all_goals first
    | exact String.toList_inj.mp chars
    | have lengths := congrArg List.length chars
      simp [length_of_isUuid wf, length_of_isUuid wf'] at lengths

end Key

end DirectLink
