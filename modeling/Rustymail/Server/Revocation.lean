import Rustymail.Authority

/-!
# Revocation of a session

`Revocations::wait` of one session, the watch channel of the `AuthService`, and the store owner.
The owner runs an authority change and publishes it in one step, whoever still waits for the reply;
everything else it runs leaves authority alone. `wait` is dropped at any of its await points when
another branch of `select!` wins, and `changed` marks the current version as seen exactly when it
completes.
-/

namespace Rustymail.Server

/-- How SQLite reports the commit of an authority change: truthfully, so that it is committed exactly
if it is reported so. -/
def reported (committed : Bool) : Faults := { report := if committed then .ok else .failed }

/-- A closure that `change_authority` hands to the owner. -/
inductive AuthorityChange where
  | revokeCredential (selector : Text) (reading : Reading) (committed : Bool)
  | disableAccount (login : Address) (reading : Reading) (committed : Bool)
  | setSendAs (login address : Address) (enabled committed : Bool)

def AuthorityChange.op : AuthorityChange → Op
  | .revokeCredential selector reading committed =>
      .revokeCredential selector reading (reported committed)
  | .disableAccount login reading committed => .disableAccount login reading (reported committed)
  | .setSendAs login address enabled committed =>
      .setSendAs login address enabled (reported committed)

/-- The receiver's half of the watch channel, as the session keeps it, and its pending check. -/
structure Revocations where
  seen : Nat
  pending : Bool
  deriving DecidableEq

/-- Why `wait` returned. -/
inductive Return where
  | closed
  | unavailable
  | revoked
  deriving DecidableEq

/-- The await points of `wait`: not running, at `changed`, at handing the check to the owner, at its
reply; or returned. Without a principal `wait` never gets anywhere. -/
inductive Wait where
  | idle
  | changed
  | sending
  | asked (answer : Option Bool)
  | returned (why : Return)
  deriving DecidableEq

/-- The part of a session that `wait` concerns. `proven` has passed `finish_authentication`, but the
session does not know yet. -/
structure Guarded where
  revocations : Revocations
  principal : Option Principal
  proven : Option Principal
  wait : Wait

namespace Guarded

/-- A session subscribes before its first command. -/
def subscribe (version : Nat) : Guarded := ⟨⟨version, false⟩, none, none, .idle⟩

/-- AUTH is refused once there is a principal. -/
def prove (session : Guarded) (principal : Principal) : Guarded :=
  if session.principal.isNone && session.proven.isNone then
    { session with proven := some principal }
  else session

/-- The outcome of AUTH reaches the session. -/
def authenticate (session : Guarded) : Guarded :=
  match session.proven with
  | none => session
  | some principal => { session with principal := some principal, proven := none }

/-- The deadline of the AUTH dialogue passes, and its outcome is lost. -/
def abandon (session : Guarded) : Guarded := { session with proven := none }

/-- `wait` is called, and runs to its first await point. -/
def enter (session : Guarded) : Guarded :=
  match session.principal, session.wait with
  | some _, .idle =>
      { session with wait := if session.revocations.pending then .sending else .changed }
  | _, _ => session

/-- `wait` is polled, and goes on if what it waits for is there. -/
def poll (version : Nat) (closed : Bool) (session : Guarded) : Guarded :=
  match session.wait with
  | .changed =>
      if session.revocations.seen < version then
        { session with revocations := ⟨version, true⟩, wait := .sending }
      else if closed then { session with wait := .returned .closed }
      else session
  | .sending => { session with wait := .asked none }
  | .asked (some true) =>
      { session with
        revocations := { session.revocations with pending := false }
        wait := .changed }
  | .asked (some false) => { session with wait := .returned .revoked }
  | _ => session

/-- The owner runs the check and replies. -/
def serve (db : Db) (session : Guarded) : Guarded :=
  match session.principal, session.wait with
  | some principal, .asked none => { session with wait := .asked (some (current db principal)) }
  | _, _ => session

/-- The check cannot be handed over, or there will be no reply. -/
def refuse (session : Guarded) : Guarded :=
  match session.wait with
  | .sending => { session with wait := .returned .unavailable }
  | .asked none => { session with wait := .returned .unavailable }
  | _ => session

/-- Another branch of `select!` wins, and `wait` is dropped where it is. -/
def cancel (session : Guarded) : Guarded :=
  match session.wait with
  | .returned _ => session
  | _ => { session with wait := .idle }

end Guarded

/-- The store, the channel and the session. -/
structure Watch where
  world : World
  version : Nat
  closed : Bool
  session : Option Guarded

/-- What can happen next. -/
inductive Watch.Event where
  | change (change : AuthorityChange)
  | call (op : Op) (hop : op.changesAuthority = false)
  | close
  | subscribe
  | prove (principal : Principal) (reading : Reading) (faults : Faults)
  | authenticate
  | abandon
  | enter
  | poll
  | serve
  | refuse
  | cancel

namespace Watch

def on (watch : Watch) (f : Guarded → Guarded) : Watch :=
  { watch with session := watch.session.map f }

/-- `change_authority` in the owner. -/
def changeAuthority (watch : Watch) (change : AuthorityChange) : Watch :=
  match watch.world.step change.op with
  | (world, .number (.ok _)) => { watch with world := world, version := watch.version + 1 }
  | (world, _) => { watch with world := world }

/-- `finish_authentication` in the owner. -/
def finishAuthentication (watch : Watch) (principal : Principal) (reading : Reading)
    (faults : Faults) : Watch :=
  match watch.world.step (.finishAuthentication principal reading faults) with
  | (world, .unit (.ok _)) => { watch with world := world }.on (·.prove principal)
  | (world, _) => { watch with world := world }

def step (watch : Watch) : Event → Watch
  | .change change => watch.changeAuthority change
  | .call op _ => { watch with world := watch.world.next op }
  | .close => { watch with closed := true }
  | .subscribe =>
      match watch.session with
      | none => { watch with session := some (.subscribe watch.version) }
      | some _ => watch
  | .prove principal reading faults => watch.finishAuthentication principal reading faults
  | .authenticate => watch.on Guarded.authenticate
  | .abandon => watch.on Guarded.abandon
  | .enter => watch.on Guarded.enter
  | .poll => watch.on (Guarded.poll watch.version watch.closed)
  | .serve => watch.on (Guarded.serve watch.world.store.db)
  | .refuse => watch.on Guarded.refuse
  | .cancel => watch.on Guarded.cancel

def run (watch : Watch) (events : List Event) : Watch := Runs.run step watch events

/-- A store on a fresh directory, before the session begins. -/
def init (root : Text) (maxMessageBytes : Nat) : Watch :=
  ⟨World.init root maxMessageBytes, 0, false, none⟩

/-- The principal of the session is no longer current, and `wait` has not returned. -/
def Outlived (watch : Watch) (session : Guarded) (principal : Principal) : Prop :=
  watch.session = some session ∧ session.principal = some principal
    ∧ current watch.world.store.db principal = false ∧ ∀ why, session.wait ≠ .returned why

end Watch

end Rustymail.Server
