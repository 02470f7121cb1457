import Rustymail.Store.Depot

/-!
# Limits of a configuration

The limits that `Config::validate` lets through, and the options with which the server opens its
store.
-/

namespace Rustymail.Server

open Checked

/-- `LOCAL_DELIVERY_OVERHEAD_BYTES`. -/
def localDeliveryOverheadBytes : Nat := 2048

structure Limits where
  connections : Nat
  connectionsPerIp : Nat
  tlsHandshakes : Nat
  messageBytes : Nat
  headerBytes : Nat
  recipientsPerMessage : Nat
  ingestConcurrency : Nat
  streamBufferBytes : Nat
  diskReserveBytes : Nat
  diskReservePercent : Nat
  temporaryReservedBytes : Nat
  deriving DecidableEq

/-- The part of `Config::validate` that is about the limits. -/
def Limits.validate (l : Limits) : Except String Unit := do
  require (1 ≤ l.connections ∧ l.connections ≤ 4096) "limits.connections must be 1..4096"
  require (∀ count ∈ [l.connectionsPerIp, l.tlsHandshakes, l.ingestConcurrency],
    0 < count ∧ count ≤ l.connections) "connection sub-limits must be positive and <= connections"
  require (1024 ≤ l.messageBytes ∧ l.messageBytes ≤ 25 * 1024 * 1024)
    "limits.message_bytes must be 1 KiB..25 MiB"
  require (1024 ≤ l.headerBytes ∧ l.headerBytes ≤ l.messageBytes)
    "limits.header_bytes must be 1 KiB..message_bytes"
  require (1 ≤ l.recipientsPerMessage ∧ l.recipientsPerMessage ≤ 100)
    "limits.recipients_per_message must be 1..100"
  require (1024 ≤ l.streamBufferBytes ∧ l.streamBufferBytes ≤ 64 * 1024)
    "limits.stream_buffer_bytes must be 1..64 KiB"
  require (0 < l.diskReservePercent ∧ l.diskReservePercent < 100) "disk_reserve_percent must be 1..99"
  require (0 < l.diskReserveBytes
    ∧ l.messageBytes + localDeliveryOverheadBytes ≤ l.temporaryReservedBytes
    ∧ (l.temporaryReservedBytes : Int) ≤ i64Max) "invalid disk reservation limits"

/-- What the store needs of the limits. -/
structure Limits.Valid (l : Limits) : Prop where
  message : 1024 ≤ l.messageBytes ∧ l.messageBytes ≤ 25 * 1024 * 1024
  buffer : 1024 ≤ l.streamBufferBytes ∧ l.streamBufferBytes ≤ 64 * 1024
  percent : l.diskReservePercent < 100
  reserved : l.messageBytes + localDeliveryOverheadBytes ≤ l.temporaryReservedBytes

theorem Limits.valid_of_validate {l : Limits} (h : l.validate = .ok ()) : l.Valid := by
  unfold Limits.validate at h
  simp only [bind_eq_ok, require_eq_ok] at h
  obtain ⟨_, -, _, -, _, hmessage, _, -, _, -, _, hbuffer, _, hpercent, hreserved⟩ := h
  exact ⟨hmessage, hbuffer, hpercent.2, hreserved.2.1⟩

/-- `store_options`. -/
def storeOptions (l : Limits) (h : l.validate = .ok ()) : StoreOptions where
  maxMessageBytes := l.messageBytes + localDeliveryOverheadBytes
  streamBufferBytes := l.streamBufferBytes
  diskReserveBytes := l.diskReserveBytes
  diskReservePercent := l.diskReservePercent
  temporaryReservedBytes := l.temporaryReservedBytes
  positive := Nat.add_pos_right _ (by decide)
  limited := Nat.add_le_add_right (Limits.valid_of_validate h).message.2 _
  buffered := (Limits.valid_of_validate h).buffer
  percent := (Limits.valid_of_validate h).percent
  room := (Limits.valid_of_validate h).reserved

/-- The smallest message limit still leaves room for the report of a failure. -/
theorem storeOptions_room (l : Limits) (h : l.validate = .ok ()) :
    3072 ≤ (storeOptions l h).maxMessageBytes :=
  Nat.add_le_add_right (Limits.valid_of_validate h).message.1 2048

end Rustymail.Server
