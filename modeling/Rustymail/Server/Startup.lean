import Rustymail.Core.Config
import Rustymail.Store.Notification

/-!
# What the configuration starts

The options, policies and capacities that the server derives from its configuration, with the
arithmetic as the machine does it, and the checks that await them in the store.
-/

namespace Rustymail

open Checked Rustymail.Core

/-- `StoreOptions` as `Store::open_inner` is given them. -/
structure OpenOptions where
  maxMessageBytes : Nat
  streamBufferBytes : Nat
  diskReserveBytes : Nat
  diskReservePercent : Nat
  temporaryReservedBytes : Nat
  cacheKib : Nat
  deriving DecidableEq

namespace OpenOptions

/-- The argument checks of `Store::open_inner`. -/
def check (options : OpenOptions) : Except StoreError Unit :=
  if options.maxMessageBytes = 0
      ∨ 25 * 1024 * 1024 + Server.localDeliveryOverheadBytes < options.maxMessageBytes
      ∨ ¬ (1024 ≤ options.streamBufferBytes ∧ options.streamBufferBytes ≤ 65536)
      ∨ 100 ≤ options.diskReservePercent
      ∨ 65536 < options.cacheKib
      ∨ options.temporaryReservedBytes < options.maxMessageBytes then
    .error .invalidInput
  else .ok ()

theorem check_eq_ok {options : OpenOptions} (h : options.check = .ok ()) :
    0 < options.maxMessageBytes ∧ options.maxMessageBytes ≤ maxStoredBytes
      ∧ (1024 ≤ options.streamBufferBytes ∧ options.streamBufferBytes ≤ 65536)
      ∧ options.diskReservePercent < 100
      ∧ options.maxMessageBytes ≤ options.temporaryReservedBytes := by
  unfold check Server.localDeliveryOverheadBytes at h
  unfold maxStoredBytes
  split_ifs at h with hrefused
  omega

/-- The options of an opened store. -/
def opened (options : OpenOptions) (h : options.check = .ok ()) : StoreOptions where
  maxMessageBytes := options.maxMessageBytes
  streamBufferBytes := options.streamBufferBytes
  diskReserveBytes := options.diskReserveBytes
  diskReservePercent := options.diskReservePercent
  temporaryReservedBytes := options.temporaryReservedBytes
  positive := (check_eq_ok h).1
  limited := (check_eq_ok h).2.1
  buffered := (check_eq_ok h).2.2.1
  percent := (check_eq_ok h).2.2.2.1
  room := (check_eq_ok h).2.2.2.2

end OpenOptions

namespace QueuePolicy

/-- `(lease_seconds * 1000) as i64`. -/
def leaseMs (policy : QueuePolicy) : Option Nat := u64 (policy.leaseSeconds * 1000) >>= i64

/-- `QueuePolicy::delay_ms`, one operation after the other. -/
def machineDelayMs (policy : QueuePolicy) (random attempts : Nat) : Option Nat := do
  -- `len() as u64 - 1`, on a schedule that may be empty.
  let last ← if policy.retrySeconds = [] then none else some (policy.retrySeconds.length - 1)
  let seconds ← policy.retrySeconds[min (attempts - 1) last]?
  let base ← u64 (seconds * 1000)
  let product ← u64 (base * policy.jitterPercent)
  let choices ← u64 (product / 100 + 1)
  let delay ← u64 (base + random % choices)
  i64 delay

end QueuePolicy

namespace RelayAcceptance

/-- `max_age_seconds as i64`. -/
def ageColumn (relay : RelayAcceptance) : Option Nat := i64 relay.maxAgeSeconds

/-- `(age * 1000) as i64` in `insert_relay`. -/
def lifetimeMs (relay : RelayAcceptance) : Option Nat := u64 (relay.maxAgeSeconds * 1000) >>= i64

end RelayAcceptance

namespace Core.Config

/-- `store_options`. -/
def storeOptions (config : Config) : Option OpenOptions := do
  let maxMessageBytes ← u64 (config.limits.messageBytes + Server.localDeliveryOverheadBytes)
  some
    { maxMessageBytes := maxMessageBytes
      streamBufferBytes := config.limits.streamBufferBytes
      diskReserveBytes := config.limits.diskReserveBytes
      diskReservePercent := config.limits.diskReservePercent
      temporaryReservedBytes := config.limits.temporaryReservedBytes
      cacheKib := config.store.writerCacheKib }

/-- The policy with which `relay::serve` claims. -/
def queuePolicy (config : Config) : QueuePolicy where
  concurrency := config.delivery.concurrency
  perDomain := config.delivery.perDomainConcurrency
  leaseSeconds := 300
  retrySeconds := config.delivery.retrySeconds
  jitterPercent := config.delivery.retryJitterPercent

/-- `notification_policy`. -/
def notificationPolicy (config : Config) : NotificationPolicy where
  hostname := config.hostname
  localDomains := config.localDomains
  maxAgeSeconds := config.delivery.maxAgeSeconds

/-- The part that a DATA transaction reads. -/
def transactions (config : Config) : Server.Config where
  localDomains := config.localDomains
  maxAgeSeconds := config.delivery.maxAgeSeconds
  writerQueue := config.store.writerQueue

/-- The ingest permits of `serve_until`. The division has no result when there is nothing to divide
by. -/
def slots (config : Config) : Option Nat := do
  let options ← config.storeOptions
  let reservations ← if options.maxMessageBytes = 0 then none
    else some (config.limits.temporaryReservedBytes / options.maxMessageBytes)
  some (min reservations config.limits.ingestConcurrency)

end Core.Config

end Rustymail
