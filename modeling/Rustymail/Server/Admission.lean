import Rustymail.Core.Config
import Rustymail.Lib.Keyed
import Rustymail.Lib.Runs
import Rustymail.Lib.Semaphore
import Rustymail.Server.Startup

/-!
# Who is let in

The loop of `serve_until` with the leases of its connections, and the permits of the `AuthService`.
A session may end at any moment, and a login may be dropped while its hash is still being computed.
-/

namespace Rustymail.Server

/-! ### Connections -/

/-- A session under its `ConnectionLease`. -/
structure LiveSession where
  id : Nat
  ip : IpAddr
  role : Role
  deriving DecidableEq

/-- The shared state of `serve_until`. Connections and sessions are numbered as they come. -/
structure Reception where
  connectionsPerIp : Nat
  connections : Semaphore Nat
  handshakes : Semaphore Nat
  management : Semaphore Nat
  ingest : Semaphore Nat
  counts : List (IpAddr × Nat)
  sessions : List LiveSession
  next : Nat
  accepting : Bool

/-- What becomes of a connection. -/
inductive Admittance where
  | served
  /-- `421 4.3.2 Connection limit`, which a client of implicit TLS could not read. -/
  | limited (told : Bool)
  /-- `421 4.3.2 IP connection limit`. -/
  | limitedForIp (told : Bool)
  deriving DecidableEq

namespace Reception

/-- The state at the start, for this number of ingest permits. -/
def start (limits : Limits) (slots : Nat) : Reception where
  connectionsPerIp := limits.connectionsPerIp
  connections := ⟨limits.connections, [], []⟩
  handshakes := ⟨limits.tlsHandshakes, [], []⟩
  management := ⟨4, [], []⟩
  ingest := ⟨slots, [], []⟩
  counts := []
  sessions := []
  next := 0
  accepting := true

/-- `map.get(&ip).copied().unwrap_or(0)`. -/
def count (f : Reception) (ip : IpAddr) : Nat := (Keyed.lookup Prod.fst f.counts ip).elim 0 Prod.snd

/-- `*map.entry(ip).or_default() += 1`. -/
def countUp (counts : List (IpAddr × Nat)) (ip : IpAddr) : List (IpAddr × Nat) :=
  match Keyed.lookup Prod.fst counts ip with
  | some _ => Keyed.modify Prod.fst counts ip fun row => (row.1, row.2 + 1)
  | none => counts ++ [(ip, 1)]

/-- What dropping a `ConnectionLease` does to the counts. -/
def countDown (counts : List (IpAddr × Nat)) (ip : IpAddr) : List (IpAddr × Nat) :=
  match Keyed.lookup Prod.fst counts ip with
  | some row =>
      if row.2 - 1 = 0 then Keyed.remove Prod.fst counts ip
      else Keyed.modify Prod.fst counts ip fun row => (row.1, row.2 - 1)
  | none => counts

/-- A connection comes in. -/
def accept (f : Reception) (ip : IpAddr) (role : Role) : Reception × Admittance :=
  let told := role != .implicitSubmission
  match f.connections.tryAcquire f.next with
  | none => ({ f with next := f.next + 1 }, .limited told)
  | some connections =>
      if f.connectionsPerIp ≤ f.count ip then ({ f with next := f.next + 1 }, .limitedForIp told)
      else
        ({ f with
          connections := connections
          counts := countUp f.counts ip
          sessions := f.sessions ++ [⟨f.next, ip, role⟩]
          next := f.next + 1 }, .served)

def session? (f : Reception) (id : Nat) : Option LiveSession :=
  Keyed.lookup LiveSession.id f.sessions id

/-- A session ends, in whatever way: all its permits and its lease are dropped. -/
def finish (f : Reception) (session : LiveSession) : Reception :=
  { f with
    connections := f.connections.leave session.id
    handshakes := f.handshakes.leave session.id
    ingest := f.ingest.leave session.id
    counts := countDown f.counts session.ip
    sessions := Keyed.remove LiveSession.id f.sessions session.id }

/-- The steps of the server, of its sessions and of the administration. -/
inductive Event where
  | accept (ip : IpAddr) (role : Role)
  | finish (id : Nat)
  /-- A session begins a TLS handshake. Without a permit a session of implicit TLS ends, and the others
  answer `454`. -/
  | handshake (id : Nat)
  | handshakeEnds (id : Nat)
  /-- A session begins a DATA transaction. Without a permit it answers `452`. -/
  | data (id : Nat)
  | dataEnds (id : Nat)
  | admin
  | adminEnds (id : Nat)
  | stop

def step (f : Reception) : Event → Reception
  | .accept ip role => if f.accepting then (f.accept ip role).1 else f
  | .finish id => (f.session? id).elim f f.finish
  | .handshake id =>
      match f.session? id with
      | some session =>
          if id ∈ f.handshakes.holders then f
          else
            match f.handshakes.tryAcquire id with
            | some handshakes => { f with handshakes := handshakes }
            | none => if session.role = .implicitSubmission then f.finish session else f
      | none => f
  | .handshakeEnds id => { f with handshakes := f.handshakes.leave id }
  | .data id =>
      match f.session? id with
      | some _ =>
          if id ∈ f.ingest.holders then f
          else (f.ingest.tryAcquire id).elim f fun ingest => { f with ingest := ingest }
      | none => f
  | .dataEnds id => { f with ingest := f.ingest.leave id }
  | .admin =>
      if f.accepting then
        (f.management.tryAcquire f.next).elim f fun management =>
          { f with management := management, next := f.next + 1 }
      else f
  | .adminEnds id => { f with management := f.management.leave id }
  | .stop => { f with accepting := false }

def run (f : Reception) (events : List Event) : Reception := Runs.run step f events

end Reception

/-! ### Logins -/

/-- Where `AuthService::authenticate` or `generate` is. The hash runs to its end also when the caller
has gone away. -/
inductive AuthStage where
  | queued
  | looking
  | hashing (dropped : Bool)
  deriving DecidableEq

def AuthStage.isHashing : AuthStage → Bool
  | .hashing _ => true
  | _ => false

structure AuthCall where
  id : Nat
  stage : AuthStage
  deriving DecidableEq

/-- The semaphores of an `AuthService` and the calls that use them. -/
structure AuthPermits where
  admission : Semaphore Nat
  active : Semaphore Nat
  calls : List AuthCall
  next : Nat

namespace AuthPermits

def start (settings : Core.Authentication) : AuthPermits where
  admission := ⟨settings.concurrency + settings.waitingRequests, [], []⟩
  active := ⟨settings.concurrency, [], []⟩
  calls := []
  next := 0

def call? (a : AuthPermits) (id : Nat) : Option AuthCall := Keyed.lookup AuthCall.id a.calls id

/-- Both permits of a call are dropped. -/
def finish (a : AuthPermits) (id : Nat) : AuthPermits :=
  { a with
    admission := a.admission.leave id
    active := a.active.leave id
    calls := Keyed.remove AuthCall.id a.calls id }

def move (a : AuthPermits) (id : Nat) (stage : AuthStage) : AuthPermits :=
  { a with calls := Keyed.modify AuthCall.id a.calls id fun call => { call with stage := stage } }

inductive Event where
  /-- A call comes in; its rate may be exhausted. -/
  | arrive (rated : Bool)
  /-- The wait for the second permit is over. Making a credential needs no lookup. -/
  | granted (id : Nat) (lookup : Bool)
  | timeout (id : Nat)
  | lookedUp (id : Nat) (found : Bool)
  | hashed (id : Nat)
  /-- The caller goes away. -/
  | drop (id : Nat)

def step (a : AuthPermits) : Event → AuthPermits
  | .arrive rated =>
      if rated then
        match a.admission.tryAcquire a.next with
        | some admission =>
            { admission := admission
              active := a.active.acquire a.next
              calls := a.calls ++ [⟨a.next, .queued⟩]
              next := a.next + 1 }
        | none => { a with next := a.next + 1 }
      else a
  | .granted id lookup =>
      match a.call? id with
      | some ⟨_, .queued⟩ =>
          if id ∈ a.active.holders then a.move id (if lookup then .looking else .hashing false) else a
      | _ => a
  | .timeout id =>
      match a.call? id with
      | some ⟨_, .queued⟩ => if id ∈ a.active.holders then a else a.finish id
      | _ => a
  | .lookedUp id found =>
      match a.call? id with
      | some ⟨_, .looking⟩ => if found then a.move id (.hashing false) else a.finish id
      | _ => a
  | .hashed id =>
      match a.call? id with
      | some ⟨_, .hashing _⟩ => a.finish id
      | _ => a
  | .drop id =>
      match a.call? id with
      | some ⟨_, .hashing _⟩ => a.move id (.hashing true)
      | some _ => a.finish id
      | none => a

def run (a : AuthPermits) (events : List Event) : AuthPermits := Runs.run step a events

/-- The hashes being computed. -/
def hashes (a : AuthPermits) : Nat := a.calls.countP fun call => call.stage.isHashing

end AuthPermits

end Rustymail.Server
