import DirectLink.Lib.Duration
import DirectLink.Session.RedisStore

/-!
# The configuration of the server

`LoadConfig` of `internal/signaling/config.go`, over every environment, and what the janitor and the
store need of the configuration it returns.
-/

namespace DirectLink

open Duration (Bytes utf8 parseDuration atoi)

/-- `Config`; durations are in nanoseconds. -/
structure Config : Type where
  httpPort : Int
  grpcPort : Int
  shutdownTimeout : Int
  redisAddr : Bytes
  redisPassword : Bytes
  redisDB : Int
  redisPoolSize : Int
  redisMinIdle : Int
  redisDialTimeout : Int
  redisReadTimeout : Int
  redisWriteTimeout : Int
  redisMaxRetries : Int
  redisRetryBackoff : Int
  sessionTTL : Int
  liveKitHost : Bytes
  liveKitExternalURL : Bytes
  liveKitAPIKey : Bytes
  liveKitAPISecret : Bytes
  janitorInterval : Int
  janitorLockTTL : Int

/-- `DefaultConfig`. -/
def defaultConfig : Config where
  httpPort := 8081
  grpcPort := 50051
  shutdownTimeout := 5 * Duration.second
  redisAddr := utf8 "redis:6379"
  redisPassword := utf8 ""
  redisDB := 0
  redisPoolSize := 10
  redisMinIdle := 2
  redisDialTimeout := 5 * Duration.second
  redisReadTimeout := 3 * Duration.second
  redisWriteTimeout := 3 * Duration.second
  redisMaxRetries := 3
  redisRetryBackoff := 100 * Duration.millisecond
  sessionTTL := 24 * Duration.hour
  liveKitHost := utf8 "http://livekit:7880"
  liveKitExternalURL := utf8 "ws://localhost:7880"
  liveKitAPIKey := utf8 "devkey"
  liveKitAPISecret := utf8 "dev-secret-that-is-32-chars-long"
  janitorInterval := 1 * Duration.minute
  janitorLockTTL := 5 * Duration.minute

/-! ### The branches of `LoadConfig` -/

/-- A text is taken unless it is empty. -/
def loadText (value default : Bytes) : Bytes := if value ≠ [] then value else default

/-- A value is taken if it is not empty, can be parsed and passes the check of the branch. -/
def loadParsed (parse : Bytes → Option Int) (check : Int → Bool) (value : Bytes) (default : Int) :
    Int :=
  if value ≠ [] then
    match parse value with
    | some n => if check n then n else default
    | none => default
  else default

/-- `JANITOR_INTERVAL` and `JANITOR_LOCK_TTL`: nothing is checked. -/
def loadDuration : Bytes → Int → Int := loadParsed parseDuration fun _ => true

/-- `REDIS_MAX_RETRIES`: `n >= 0`. -/
def loadRetries : Bytes → Int → Int := loadParsed atoi fun n => 0 ≤ n

/-- `REDIS_RETRY_BACKOFF`: `d > 0`. -/
def loadBackoff : Bytes → Int → Int := loadParsed parseDuration fun d => 0 < d

/-- `LoadConfig`, where a variable that is not set is empty. -/
def loadConfig (getenv : String → Bytes) : Config :=
  { defaultConfig with
    redisAddr := loadText (getenv "REDIS_ADDR") defaultConfig.redisAddr
    redisPassword := loadText (getenv "REDIS_PASSWORD") defaultConfig.redisPassword
    liveKitHost := loadText (getenv "LIVEKIT_HOST") defaultConfig.liveKitHost
    liveKitExternalURL :=
      loadText (getenv "LIVEKIT_EXTERNAL_URL") defaultConfig.liveKitExternalURL
    liveKitAPIKey := loadText (getenv "LIVEKIT_API_KEY") defaultConfig.liveKitAPIKey
    liveKitAPISecret := loadText (getenv "LIVEKIT_API_SECRET") defaultConfig.liveKitAPISecret
    janitorInterval := loadDuration (getenv "JANITOR_INTERVAL") defaultConfig.janitorInterval
    janitorLockTTL := loadDuration (getenv "JANITOR_LOCK_TTL") defaultConfig.janitorLockTTL
    redisMaxRetries := loadRetries (getenv "REDIS_MAX_RETRIES") defaultConfig.redisMaxRetries
    redisRetryBackoff :=
      loadBackoff (getenv "REDIS_RETRY_BACKOFF") defaultConfig.redisRetryBackoff }

/-- What the code that is given the configuration needs of it. -/
structure Preconditions (cfg : Config) : Prop where
  /-- `time.NewTicker` panics otherwise. -/
  janitorInterval : 0 < cfg.janitorInterval
  /-- The sweep lock is set without an expiry otherwise. -/
  janitorLockTTL : 0 < cfg.janitorLockTTL
  /-- `NewRedisStore` refuses to start otherwise. -/
  redisRetryBackoff : 0 < cfg.redisRetryBackoff
  redisMaxRetries : 0 ≤ cfg.redisMaxRetries

/-- The text is a duration with a minus sign, or one that comes to nothing. -/
def NotPositive (value : Bytes) : Prop :=
  (parseDuration value).isSome = true ∧
    (value.head? = some Duration.minus ∨ Duration.magnitude (Duration.signed value).2 = some 0)

/-! ### What is loaded -/

variable {parse : Bytes → Option Int} {check : Int → Bool} {value : Bytes} {default n : Int}

/-- What is loaded is the default or a parsed value that passes the check. -/
theorem loadParsed_cases : loadParsed parse check value default = default ∨
    ∃ n, parse value = some n ∧ check n = true ∧ loadParsed parse check value default = n := by
  rw [loadParsed]
  split
  · split
    · next n parsed =>
      split
      · next passed => exact .inr ⟨n, parsed, passed, rfl⟩
      · exact .inl rfl
    · exact .inl rfl
  · exact .inl rfl

theorem parseDuration_nil : parseDuration [] = none := by
  decide +kernel

theorem loadDuration_of_some (parsed : parseDuration value = some n) :
    loadDuration value default = n := by
  have some : value ≠ [] := by
    intro same
    subst same
    rw [parseDuration_nil] at parsed
    cases parsed
  rw [loadDuration, loadParsed, if_pos some, parsed]
  rfl

/-- A duration of the janitor is positive unless it is set to one that is not. -/
theorem loadDuration_pos_iff (positive : 0 < default) :
    0 < loadDuration value default ↔ ¬ NotPositive value := by
  cases parsed : parseDuration value with
  | none =>
    have kept : loadDuration value default = default := by
      rw [loadDuration, loadParsed, parsed]
      split <;> rfl
    rw [kept, NotPositive, parsed]
    exact iff_of_true positive fun accepted => by cases accepted.1
  | some n =>
    rw [loadDuration_of_some parsed, Duration.parseDuration_pos_iff parsed, NotPositive, parsed,
      Option.isSome_some, not_and, not_or]
    exact ⟨fun holds _ => holds, fun holds => holds rfl⟩

theorem loadBackoff_pos (positive : 0 < default) : 0 < loadBackoff value default := by
  rcases @loadParsed_cases parseDuration (fun d => 0 < d) value default with kept | loaded
  · rw [loadBackoff, kept]
    exact positive
  · obtain ⟨d, _, passed, loaded⟩ := loaded
    rw [loadBackoff, loaded]
    exact of_decide_eq_true passed

theorem loadRetries_nonneg (nonneg : 0 ≤ default) : 0 ≤ loadRetries value default := by
  rcases @loadParsed_cases atoi (fun n => 0 ≤ n) value default with kept | loaded
  · rw [loadRetries, kept]
    exact nonneg
  · obtain ⟨n, _, passed, loaded⟩ := loaded
    rw [loadRetries, loaded]
    exact of_decide_eq_true passed

theorem preconditions_default : Preconditions defaultConfig :=
  ⟨by decide, by decide, by decide, by decide⟩

/-- In every environment the store gets settings that it starts with. -/
theorem loadConfig_store (getenv : String → Bytes) : ∃ r : RedisStore,
    r.retryBackOff = (loadConfig getenv).redisRetryBackoff ∧
      r.maxRetries = (loadConfig getenv).redisMaxRetries ∧
      (r.ttl : Int) = (loadConfig getenv).sessionTTL := by
  have positive : 0 < (loadConfig getenv).redisRetryBackoff :=
    loadBackoff_pos preconditions_default.redisRetryBackoff
  have ttl : ((86400 * DirectLink.second : Nat) : Int) = defaultConfig.sessionTTL := by decide
  exact ⟨⟨86400, (loadConfig getenv).redisMaxRetries, _, by decide, positive⟩, rfl, rfl, ttl⟩

/-- **The configuration meets the preconditions** of the janitor and the store in exactly the
environments in which neither duration of the janitor is set to one that is not positive. -/
theorem loadConfig_meets_iff (getenv : String → Bytes) : Preconditions (loadConfig getenv) ↔
    ¬ NotPositive (getenv "JANITOR_INTERVAL") ∧ ¬ NotPositive (getenv "JANITOR_LOCK_TTL") := by
  have base := preconditions_default
  have interval := @loadDuration_pos_iff (getenv "JANITOR_INTERVAL") _ base.janitorInterval
  have lockTTL := @loadDuration_pos_iff (getenv "JANITOR_LOCK_TTL") _ base.janitorLockTTL
  constructor
  · intro meets
    exact ⟨interval.mp meets.janitorInterval, lockTTL.mp meets.janitorLockTTL⟩
  · intro holds
    rcases holds with ⟨positive, positive'⟩
    exact ⟨interval.mpr positive, lockTTL.mpr positive', loadBackoff_pos base.redisRetryBackoff,
      loadRetries_nonneg base.redisMaxRetries⟩

theorem parseDuration_zero_seconds : parseDuration (utf8 "0s") = some 0 := by
  have single : Duration.part (utf8 "0s") = some (0, []) := by decide +kernel
  have size : Duration.magnitude (utf8 "0s") = some 0 := by
    rw [Duration.magnitude, if_neg (by decide), if_neg (by decide),
      Duration.parts_single single (by decide)]
  have sign : Duration.signed (utf8 "0s") = (false, utf8 "0s") := by decide
  rw [parseDuration, sign]
  dsimp only
  rw [size]
  rfl

/-- With `JANITOR_INTERVAL=0s`, the ticker is created for an interval of zero. -/
theorem loadConfig_zero_interval :
    ¬ Preconditions (loadConfig fun name =>
      if name = "JANITOR_INTERVAL" then utf8 "0s" else []) := by
  intro meets
  have interval : 0 < loadDuration (utf8 "0s") defaultConfig.janitorInterval :=
    meets.janitorInterval
  rw [loadDuration_of_some parseDuration_zero_seconds] at interval
  cases interval

end DirectLink
