import Rustymail.Server.Connection
import Rustymail.Server.Options
import Rustymail.Server.Rates

/-!
# The configuration

`Config` as it is parsed from the file, and `Config::validate`. Arithmetic on `u64` that does not fit
is an outcome of its own: a build with overflow checks panics there.
-/

namespace Rustymail.Core

open Checked Server

inductive Mode where
  | lab
  | production
  deriving DecidableEq

structure SocketAddr where
  ip : IpAddr
  port : Nat

/-- `IpAddr::is_unspecified`. -/
def isUnspecified : IpAddr → Bool
  | .v4 octets => octets.toList.all (· == 0)
  | .v6 segments => segments.toList.all (· == 0)

/-- `IpAddr::is_loopback`. -/
def isLoopback : IpAddr → Bool
  | .v4 octets => octets.toList.head? == some 127
  | .v6 segments => segments.toList == [0, 0, 0, 0, 0, 0, 0, 1]

structure Listeners where
  smtp : SocketAddr
  submissions : SocketAddr
  submission : SocketAddr

structure Tls where
  certificateFile : Text
  privateKeyFile : Text
  minimumVersion : Text
  handshakeTimeoutSeconds : Nat

structure Timeouts where
  smtpCommandSeconds : Nat
  dataIdleSeconds : Nat
  dataTotalSeconds : Nat
  submissionUnauthenticatedSeconds : Nat
  shutdownGraceSeconds : Nat

structure Writer where
  writerQueue : Nat
  writerCacheKib : Nat

structure Authentication where
  argon2MemoryKib : Nat
  argon2Iterations : Nat
  argon2Lanes : Nat
  concurrency : Nat
  waitingRequests : Nat
  queueTimeoutSeconds : Nat

structure Delivery where
  mode : DeliveryMode
  concurrency : Nat
  perDomainConcurrency : Nat
  batchSize : Nat
  retrySeconds : List Nat
  retryJitterPercent : Nat
  maxAgeSeconds : Nat
  connectTimeoutSeconds : Nat
  bannerTimeoutSeconds : Nat
  commandTimeoutSeconds : Nat
  dataCommandTimeoutSeconds : Nat
  dataWriteTimeoutSeconds : Nat
  finalReplyTimeoutSeconds : Nat

structure Relay where
  host : Text
  port : Nat
  tls : Text
  passwordFile : Text
  caFile : Option Text

structure Config where
  mode : Mode
  hostname : Text
  localDomains : List Text
  dataDir : Text
  adminSocket : Text
  listeners : Listeners
  tls : Tls
  limits : Limits
  timeouts : Timeouts
  store : Writer
  authentication : Authentication
  delivery : Delivery
  relay : Relay

inductive ConfigError where
  | invalid (reason : String)
  | overflow
  deriving DecidableEq

/-- The result of an operation on `u64`. -/
def u64 (n : Nat) : Option Nat := fit (2 ^ 64) n

/-- A number that `as i64` leaves as it is. -/
def i64 (n : Nat) : Option Nat := fit (2 ^ 63) n

/-- `require` in `config.rs`. -/
abbrev demand (condition : Prop) [Decidable condition] (reason : String) :
    Except ConfigError Unit :=
  require condition (.invalid reason)

namespace Config

/-- `Path::as_os_str` of every path that must be given. -/
def paths (config : Config) : List Text :=
  [config.dataDir, config.adminSocket, config.tls.certificateFile, config.tls.privateKeyFile,
    config.relay.passwordFile]

def addresses (config : Config) : List SocketAddr :=
  [config.listeners.smtp, config.listeners.submissions, config.listeners.submission]

def overlaps (address other : SocketAddr) : Bool :=
  address.port == other.port
    && (decide (address.ip = other.ip) || isUnspecified address.ip || isUnspecified other.ip)

/-- The loop over the listeners. -/
def validateListeners : List SocketAddr → Except ConfigError Unit
  | [] => .ok ()
  | address :: others => do
      demand (address.port ≠ 0) "listener port must not be zero"
      demand (∀ other ∈ others, overlaps address other = false) "listener addresses overlap"
      validateListeners others

/-- The timeouts that have to be from one second to a day. -/
def durations (config : Config) : List Nat :=
  [config.timeouts.smtpCommandSeconds, config.timeouts.dataIdleSeconds,
    config.timeouts.dataTotalSeconds, config.timeouts.submissionUnauthenticatedSeconds,
    config.timeouts.shutdownGraceSeconds, config.tls.handshakeTimeoutSeconds,
    config.authentication.queueTimeoutSeconds, config.delivery.connectTimeoutSeconds,
    config.delivery.bannerTimeoutSeconds, config.delivery.commandTimeoutSeconds,
    config.delivery.dataCommandTimeoutSeconds, config.delivery.dataWriteTimeoutSeconds,
    config.delivery.finalReplyTimeoutSeconds]

/-- `validate` up to the TLS version. -/
def validateNames (config : Config) : Except ConfigError Unit := do
  demand (validDomain config.hostname = true) "hostname must be a DNS name"
  demand (config.localDomains ≠ [] ∧ config.localDomains.length ≤ 100)
    "local_domains must contain 1..100 domains"
  -- As many distinct names as names: none is written twice.
  demand ((config.localDomains.map lowercase).Nodup
      ∧ ∀ domain ∈ config.localDomains.map lowercase, validDomain domain = true)
    "local_domains contains duplicates or invalid names"
  demand (∀ path ∈ config.paths, path ≠ []) "configured paths must not be empty"
  validateListeners config.addresses
  demand (config.tls.minimumVersion = ascii "1.2" ∨ config.tls.minimumVersion = ascii "1.3")
    "tls.minimum_version must be 1.2 or 1.3"

def validateLimits (l : Limits) : Except ConfigError Unit := do
  demand (1 ≤ l.connections ∧ l.connections ≤ 4096) "limits.connections must be 1..4096"
  demand (∀ count ∈ [l.connectionsPerIp, l.tlsHandshakes, l.ingestConcurrency],
    0 < count ∧ count ≤ l.connections) "connection sub-limits must be positive and <= connections"
  demand (1024 ≤ l.messageBytes ∧ l.messageBytes ≤ 25 * 1024 * 1024)
    "limits.message_bytes must be 1 KiB..25 MiB"
  demand (1024 ≤ l.headerBytes ∧ l.headerBytes ≤ l.messageBytes)
    "limits.header_bytes must be 1 KiB..message_bytes"
  demand (1 ≤ l.recipientsPerMessage ∧ l.recipientsPerMessage ≤ 100)
    "limits.recipients_per_message must be 1..100"
  demand (1024 ≤ l.streamBufferBytes ∧ l.streamBufferBytes ≤ 64 * 1024)
    "limits.stream_buffer_bytes must be 1..64 KiB"
  demand (0 < l.diskReservePercent ∧ l.diskReservePercent < 100) "disk_reserve_percent must be 1..99"
  demand (0 < l.diskReserveBytes) "invalid disk reservation limits"
  let needed ← found .overflow (u64 (l.messageBytes + localDeliveryOverheadBytes))
  demand (needed ≤ l.temporaryReservedBytes ∧ l.temporaryReservedBytes ≤ i64Max)
    "invalid disk reservation limits"

def validateAuthentication (a : Authentication) : Except ConfigError Unit := do
  demand ((65536 ≤ a.argon2MemoryKib ∧ a.argon2MemoryKib ≤ 1048576)
      ∧ (3 ≤ a.argon2Iterations ∧ a.argon2Iterations ≤ 10)
      ∧ (1 ≤ a.argon2Lanes ∧ a.argon2Lanes ≤ 16))
    "invalid Argon2 memory/iteration/lane budget"
  demand ((1 ≤ a.concurrency ∧ a.concurrency ≤ 2)
      ∧ (1 ≤ a.waitingRequests ∧ a.waitingRequests ≤ 64))
    "invalid authentication concurrency/queue budget"
  let memory ← found .overflow (u64 (a.argon2MemoryKib * a.concurrency))
  demand (memory ≤ 256 * 1024)
    "combined Argon2 working memory must not exceed 256 MiB in this release"

/-- `windows(2)` of a schedule that never decreases. -/
def nondecreasing : List Nat → Bool
  | first :: second :: rest => decide (first ≤ second) && nondecreasing (second :: rest)
  | _ => true

def validateDelivery (d : Delivery) : Except ConfigError Unit := do
  demand ((1 ≤ d.concurrency ∧ d.concurrency ≤ 128)
      ∧ 0 < d.perDomainConcurrency ∧ d.perDomainConcurrency ≤ d.concurrency
      ∧ (1 ≤ d.batchSize ∧ d.batchSize ≤ 128))
    "invalid delivery concurrency/batch"
  demand (d.retrySeconds ≠ [] ∧ d.retrySeconds.length ≤ 32
      ∧ (∀ v ∈ d.retrySeconds, 1800 ≤ v ∧ v ≤ 86400)
      ∧ nondecreasing d.retrySeconds = true)
    "retry_seconds must be a nondecreasing schedule of 1800..86400 seconds"
  demand (d.retryJitterPercent ≤ 50 ∧ (432000 ≤ d.maxAgeSeconds ∧ d.maxAgeSeconds ≤ 604800))
    "invalid delivery jitter/max_age"

def validate (config : Config) : Except ConfigError Unit := do
  config.validateNames
  validateLimits config.limits
  demand (∀ v ∈ config.durations, 1 ≤ v ∧ v ≤ 86400) "timeouts must be 1..86400 seconds"
  demand (config.timeouts.dataIdleSeconds ≤ config.timeouts.dataTotalSeconds)
    "total transfer deadline cannot be shorter than idle deadline"
  demand (1 ≤ config.store.writerQueue ∧ config.store.writerQueue ≤ 1024)
    "invalid database queue budget"
  demand (128 ≤ config.store.writerCacheKib ∧ config.store.writerCacheKib ≤ 65536)
    "database cache must be 128..65536 KiB"
  validateAuthentication config.authentication
  validateDelivery config.delivery
  demand (validDomain config.relay.host = true ∧ config.relay.port ≠ 0
      ∧ (config.relay.tls = ascii "implicit" ∨ config.relay.tls = ascii "starttls"))
    "invalid relay host/port/TLS mode"
  demand (config.mode = .lab) "production mode is not implemented"
  demand (∀ address ∈ config.addresses, isLoopback address.ip = true)
    "lab listeners must bind loopback"

end Config

end Rustymail.Core
