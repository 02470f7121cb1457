import Rustymail.Server.Admin
import Rustymail.Server.Auth
import Rustymail.Server.Revocation

/-!
# Administration

What a request of the management socket comes to: the checks before a password is hashed, the one
operation of the store with the shape of its result, `dispatch`, and the session around it. Nothing
before the owner's turn reads or changes the store, so a request takes effect in that turn. How
requests are written as JSON is a parameter.
-/

namespace Rustymail.Server

open Checked

inductive AdminRequest where
  | status
  | credentialCreate (login : Text) (label : String) (scope : Text)
  | credentialList (login : Text) (afterId : Int) (limit : Nat)
  | credentialRevoke (selector : Text)
  | accountDisable (login : Text)
  | sendAs (login address : Text) (enabled : Bool)
  | reloadTls

/-- A selector, its token and the PHC string of the token. -/
structure NewCredential where
  selector : Text
  token : Text
  phc : Text

/-- Why a request is not carried out. -/
inductive AdminError where
  | store (e : StoreError)
  | auth (e : AuthError)
  | tls
  /-- A certificate is loaded by the running server only. -/
  | offline

/-- What the surroundings of one request come to. -/
structure AdminInput where
  generated : Except AuthError NewCredential
  reading : Reading
  /-- Whether an authority change is committed, which SQLite reports truthfully. -/
  committed : Bool
  /-- Whether the certificate can be loaded. -/
  reloaded : Bool
  /-- Whether the reply of the owner is awaited to the end. -/
  awaited : Bool

/-- What the answers are made of besides the store. -/
structure AdminSetting where
  config : Config
  version : Text
  mode : Text

def localAddress (raw : Text) (config : Config) : Except StoreError Address := do
  let address ← found .invalidInput (Address.parse raw)
  require (config.isLocal address = true) .invalidInput
  pure address

/-- `matches!(scope, "mail" | "read_only")`. -/
def scopeNamed (name : Text) : Option Scope :=
  if name = scopeName .mail then some .mail
  else if name = scopeName .readOnly then some .readOnly
  else none

namespace AdminRequest

/-- Check cheap input constraints before reserving memory for the hash. -/
def needsCredential (config : Config) : AdminRequest → Except StoreError Bool
  | credentialCreate login label scope => do
      let _ ← localAddress login config
      require (label ≠ "" ∧ label.utf8ByteSize ≤ 80 ∧ label.toList.any isControl = false
        ∧ (scopeNamed scope).isSome) .invalidInput
      pure true
  | _ => .ok false

section Apply

variable (json : Json.Serializer) (setting : AdminSetting) (input : AdminInput)

/-- The id of an account as a result. -/
def accountValue (account : Nat) : json.Value :=
  json.object [(ascii "account_id", json.number account)]

/-- One business operation and response shape, for offline and socket users. -/
def apply (store : Store) (credential : Option NewCredential) :
    AdminRequest → Store × Except StoreError json.Value
  | status =>
      (store, .ok (json.object [(ascii "mode", json.string setting.mode),
        (ascii "production_ready", json.bool false),
        (ascii "version", json.string setting.version)]))
  | credentialCreate login label scope =>
      match credential, localAddress login setting.config, scopeNamed scope with
      | none, _, _ => (store, .error .invalidInput)
      | _, .error e, _ => (store, .error e)
      | _, _, none => (store, .error .invalidInput)
      | some made, .ok address, some scope =>
          let result :=
            createCredential store address made.selector label scope made.phc input.reading
          (result.1, result.2.map fun (id : Nat) =>
            json.object [(ascii "application_password", json.string made.token),
              (ascii "credential_id", json.number id), (ascii "selector", json.string made.selector)])
  | credentialList login afterId limit =>
      match localAddress login setting.config with
      | .error e => (store, .error e)
      | .ok address =>
          (store, (listCredentials store.db address afterId limit).map (credentialsValue json))
  | credentialRevoke selector =>
      let result := revokeCredential store selector input.reading (reported input.committed)
      (result.1, result.2.map (accountValue json))
  | accountDisable login =>
      match localAddress login setting.config with
      | .error e => (store, .error e)
      | .ok address =>
          let result := disableAccount store address input.reading (reported input.committed)
          (result.1, result.2.map (accountValue json))
  | sendAs login address enabled =>
      match localAddress login setting.config, localAddress address setting.config with
      | .error e, _ => (store, .error e)
      | _, .error e => (store, .error e)
      | .ok login, .ok address =>
          let result := setSendAs store login address enabled (reported input.committed)
          (result.1, result.2.map fun (account : Nat) =>
            json.object [(ascii "account_id", json.number account),
              (ascii "enabled", json.bool enabled)])
  | reloadTls => (store, .error .invalidInput)

end Apply

/-- The requests that `dispatch` runs through `change_authority`. -/
def authority : AdminRequest → Bool
  | credentialRevoke _ => true
  | accountDisable _ => true
  | sendAs _ _ _ => true
  | _ => false

/-- What is done before the owner's turn: the checks, and a credential where one is needed. -/
def prepare (config : Config) (generated : Except AuthError NewCredential)
    (request : AdminRequest) : Except AdminError (Option NewCredential) := do
  let needed ← (request.needsCredential config).mapError .store
  if needed then (generated.map some).mapError .auth else pure none

end AdminRequest

namespace Watch

variable {α : Type}

/-- `StoreClient::call`, or `change_authority` for an authority change. -/
def ask (watch : Watch) (authority : Bool) (operation : Store → Store × Except StoreError α) :
    Watch × Except StoreError α :=
  match watch.world.call operation with
  | (world, .ok value) =>
      ({ watch with
        world := world
        version := if authority then watch.version + 1 else watch.version }, .ok value)
  | (world, .error e) => ({ watch with world := world }, .error e)

/-- `dispatch`. -/
def dispatch (json : Json.Serializer) (setting : AdminSetting) (watch : Watch)
    (request : AdminRequest) (input : AdminInput) : Watch × Except AdminError json.Value :=
  match request with
  | .reloadTls =>
      (watch, if input.reloaded then .ok (json.object [(ascii "reloaded", json.bool true)])
        else .error .tls)
  | request =>
      match request.prepare setting.config input.generated with
      | .error e => (watch, .error e)
      | .ok credential =>
          let asked := watch.ask request.authority fun store =>
            request.apply json setting input store credential
          (asked.1, asked.2.mapError .store)

end Watch

/-! ### A session -/

structure PeerCred where
  uid : Nat
  gid : Nat
  deriving DecidableEq

/-- Only root and the daemon itself may ask. -/
def PeerCred.allowed (peer daemon : PeerCred) : Bool := peer.uid == 0 || peer == daemon

/-- The response to a request that was not carried out. -/
def refused (json : Json.Serializer) (error : String) : json.Value :=
  json.object [(ascii "error", json.string (ascii error)), (ascii "ok", json.bool false)]

/-- The response to what `dispatch` came to. -/
def response (json : Json.Serializer) : Except AdminError json.Value → json.Value
  | .ok value => succeeded json value
  | .error _ => refused json "management request failed"

/-- `admin::session`, with all that is sent to the peer. -/
def adminSession (json : Json.Serializer) (decode : Text → Option AdminRequest)
    (setting : AdminSetting) (daemon peer : PeerCred) (watch : Watch)
    (arrivals : List (Except FrameError Text)) (input : AdminInput) : Watch × Text :=
  if peer.allowed daemon then
    match readFrame .request arrivals with
    | .error _ => (watch, [])
    | .ok bytes =>
        match decode bytes with
        | none =>
            (watch, (writeFrame json [] (refused json "invalid management request") .response).1)
        | some request =>
            let (watch, result) := watch.dispatch json setting request input
            if input.awaited then (watch, (writeFrame json [] (response json result) .response).1)
            else (watch, [])
  else (watch, [])

/-- `offline_management`, on a store that was opened for it. -/
def offlineManagement (json : Json.Serializer) (setting : AdminSetting) (w : World)
    (request : AdminRequest) (input : AdminInput) : World × Except AdminError json.Value :=
  match request with
  | .reloadTls => (w, .error .offline)
  | request =>
      match request.prepare setting.config input.generated with
      | .error e => (w, .error e)
      | .ok credential =>
          let called := w.call fun store => request.apply json setting input store credential
          (called.1, called.2.mapError .store)

/-! ### Sessions among other events -/

/-- A peer of the management socket, what arrives from it, and what its request meets. -/
structure Visit where
  peer : PeerCred
  arrivals : List (Except FrameError Text)
  input : AdminInput

/-- What can happen next. -/
inductive Managed where
  | session (visit : Visit)
  | other (event : Watch.Event)

/-- The management socket of a daemon. -/
structure Management where
  json : Json.Serializer
  decode : Text → Option AdminRequest
  setting : AdminSetting
  daemon : PeerCred

namespace Management

variable (management : Management)

def session (watch : Watch) (visit : Visit) : Watch × Text :=
  adminSession management.json management.decode management.setting management.daemon visit.peer
    watch visit.arrivals visit.input

def dispatch (watch : Watch) (request : AdminRequest) (input : AdminInput) :
    Watch × Except AdminError management.json.Value :=
  watch.dispatch management.json management.setting request input

def step (watch : Watch) : Managed → Watch
  | .session visit => (management.session watch visit).1
  | .other event => watch.step event

def run (watch : Watch) (turns : List Managed) : Watch := Runs.run management.step watch turns

/-- The watch after some turns, from a fresh directory on. -/
def past (root : Text) (maxMessageBytes : Nat) (turns : List Managed) : Watch :=
  management.run (Watch.init root maxMessageBytes) turns

end Management

end Rustymail.Server
