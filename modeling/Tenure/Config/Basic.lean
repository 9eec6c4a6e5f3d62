import Tenure.Decimal.Text
import Tenure.Election.State
import Tenure.Text.Blank

/-!
# The configuration of a replica

Eleven settings with a default each. `merge` lays one configuration over
another: a setting of the upper layer counts where it differs from the
default. `validate` gives the first problem found, and `warnings` what may
be unwise but works.
-/

namespace Tenure

/-- The settings of a replica; times are in milliseconds. -/
structure Config where
  /-- Who this replica is; empty means that an identity is to be made up. -/
  identity : String := ""
  leaseName : String := "aspen-singleton"
  leaseNamespace : String := "default"
  leaseDuration : UInt64 := 15000
  renewInterval : UInt64 := 5000
  retryPeriod : UInt64 := 2000
  jitterFactor : Float := 0.2
  maxBackoff : UInt64 := 30000
  workerCount : UInt32 := 2
  /-- How long a new leader waits for its caches. -/
  cacheSyncTimeout : UInt64 := 60000
  /-- How long a key rests after its reconcile failed. -/
  requeueDelay : UInt64 := 1000

namespace Config

/-- All settings as they are where nothing is said. -/
def default : Config := {}

/-- The upper value, unless it is the default. -/
def overlay {α : Type} [BEq α] (standard lower upper : α) : α :=
  if upper != standard then upper else lower

/-- **Lays a configuration over this one.** A setting of the upper layer
that has its default value leaves the lower layer's value in place. -/
def merge (lower upper : Config) : Config where
  identity := overlay default.identity lower.identity upper.identity
  leaseName := overlay default.leaseName lower.leaseName upper.leaseName
  leaseNamespace := overlay default.leaseNamespace lower.leaseNamespace upper.leaseNamespace
  leaseDuration := overlay default.leaseDuration lower.leaseDuration upper.leaseDuration
  renewInterval := overlay default.renewInterval lower.renewInterval upper.renewInterval
  retryPeriod := overlay default.retryPeriod lower.retryPeriod upper.retryPeriod
  jitterFactor := overlay default.jitterFactor lower.jitterFactor upper.jitterFactor
  maxBackoff := overlay default.maxBackoff lower.maxBackoff upper.maxBackoff
  workerCount := overlay default.workerCount lower.workerCount upper.workerCount
  cacheSyncTimeout :=
    overlay default.cacheSyncTimeout lower.cacheSyncTimeout upper.cacheSyncTimeout
  requeueDelay := overlay default.requeueDelay lower.requeueDelay upper.requeueDelay

/-- The timings of the election. -/
def timing (c : Config) : Election.Timing where
  leaseDuration := c.leaseDuration
  renewInterval := c.renewInterval
  retryPeriod := c.retryPeriod
  jitterFactor := c.jitterFactor
  maxBackoff := c.maxBackoff

/-! ## Identities -/

/-- The name of the host: the given one without blanks around it, or a
general one if nothing is left. -/
def hostName (given : String) : String :=
  let name := Text.trim given
  if name.isEmpty then "localhost" else name

/-- An identity made from the host and a unique mark. -/
def identityOf (host mark : String) : String := hostName host ++ "_" ++ mark

/-- The configuration with an identity, made up if there is none. -/
def withIdentity (c : Config) (host mark : String) : Config :=
  if c.identity.isEmpty then { c with identity := identityOf host mark } else c

/-! ## Validation -/

/-- What is wrong with a configuration, or with where it came from. -/
inductive Error where
  | unreadable (path reason : String)
  | malformedToml (path reason : String)
  | missingLeaseName
  | missingLeaseNamespace
  | missingIdentity
  | zeroDuration (setting : String)
  | renewIntervalTooLong (renewInterval leaseDuration : UInt64)
  | invalidJitter (value : Float)
  | zeroWorkers

/-- The wording of each problem. -/
def Error.message : Error → String
  | unreadable path reason => "failed to read config file " ++ path ++ ": " ++ reason
  | malformedToml path reason => "failed to parse TOML config file " ++ path ++ ": " ++ reason
  | missingLeaseName => "lease name must not be empty"
  | missingLeaseNamespace => "lease namespace must not be empty"
  | missingIdentity => "replica identity must not be empty"
  | zeroDuration setting => setting ++ " must be greater than 0"
  | renewIntervalTooLong renewInterval leaseDuration =>
    "renew_interval_ms (" ++ toString renewInterval.toNat
      ++ ") must be less than lease_duration_ms (" ++ toString leaseDuration.toNat ++ ")"
  | invalidJitter value =>
    "jitter_factor must be within [0, 1], got " ++ Decimal.positional value
  | zeroWorkers => "worker_count must be at least 1"

/-- The first setting among these that is zero. -/
def firstZero (settings : List (String × UInt64)) : Option String :=
  (settings.find? (fun s => s.2 = 0)).map Prod.fst

/-- **The first problem of a configuration.** -/
def validate (c : Config) : Except Error Unit :=
  if Text.isBlankText c.identity then .error .missingIdentity
  else if Text.isBlankText c.leaseName then .error .missingLeaseName
  else if Text.isBlankText c.leaseNamespace then .error .missingLeaseNamespace
  else match firstZero [("lease_duration_ms", c.leaseDuration),
      ("renew_interval_ms", c.renewInterval), ("retry_period_ms", c.retryPeriod),
      ("cache_sync_timeout_ms", c.cacheSyncTimeout)] with
    | some setting => .error (.zeroDuration setting)
    | none =>
      if !Lease.isRenewIntervalSafe c.renewInterval c.leaseDuration then
        .error (.renewIntervalTooLong c.renewInterval c.leaseDuration)
      else if !(0.0 ≤ c.jitterFactor && c.jitterFactor ≤ 1.0) then
        .error (.invalidJitter c.jitterFactor)
      else if c.workerCount = 0 then .error .zeroWorkers
      else .ok ()

/-- Settings without a problem name an identity, and leave time for another
renewal before the lease runs out. -/
theorem of_validate {c : Config} (h : c.validate = .ok ()) :
    c.identity ≠ "" ∧ Lease.isRenewIntervalSafe c.renewInterval c.leaseDuration = true := by
  unfold validate at h
  split at h
  · contradiction
  rename_i hidentity
  refine ⟨fun hempty => hidentity (hempty ▸ rfl), ?_⟩
  split at h
  · contradiction
  split at h
  · contradiction
  split at h
  · contradiction
  split at h
  · contradiction
  rename_i hsafe
  simpa using hsafe

/-- What may be unwise about the timings. -/
def warnings (c : Config) : List String :=
  (if c.leaseDuration < Saturating.mul c.renewInterval 2 then
    ["renew interval (" ++ ms c.renewInterval ++ ") leaves less than one retry before the lease ("
      ++ ms c.leaseDuration ++ ") expires"]
  else [])
  ++ (if c.leaseDuration < c.retryPeriod then
    ["retry period (" ++ ms c.retryPeriod ++ ") is longer than the lease duration ("
      ++ ms c.leaseDuration ++ "), failover will be slow"]
  else [])
  ++ (if c.maxBackoff < c.retryPeriod then
    ["max backoff (" ++ ms c.maxBackoff ++ ") is below the retry period ("
      ++ ms c.retryPeriod ++ ") and will cap every retry"]
  else [])
where
  ms (d : UInt64) : String := toString d.toNat ++ "ms"

end Config

end Tenure
