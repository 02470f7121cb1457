import Rustymail.Core.Config
import Rustymail.Server.Auth
import Rustymail.Store.World

/-!
# Logging in

`AuthService::authenticate`, from the rate and the permits over the lookup and the hash to the check
that the credential is still good. While the hash is computed the store goes on with other work. The
hash itself and the parser of PHC strings are parameters, and whether a call is admitted is an input.
-/

namespace Rustymail.Server

/-- What `PasswordHash::new` and `Params::try_from` find in a PHC string. -/
structure Phc where
  algorithm : Text
  version : Option Nat
  mCost : Nat
  tCost : Nat
  pCost : Nat
  hash : Option Text

/-- The parts of the argon2 crate that are used: making the PHC string of a password under memory,
iterations, lanes and a salt, reading one, and verifying a password against one. -/
structure Argon2 where
  hashPassword : Nat → Nat → Nat → Text → Text → Option Text
  parse : Text → Option Phc
  verifyPassword : Text → Text → Bool

/-- What the crate promises: the string of a password tells how it was made, and verifies it. -/
structure Argon2.Works (argon2 : Argon2) : Prop where
  reads : ∀ {m t p password salt phc}, argon2.hashPassword m t p password salt = some phc →
    ∃ hash, hash.length = 32 ∧ argon2.parse phc = some ⟨ascii "argon2id", some 19, m, t, p, some hash⟩
  verifies : ∀ {m t p password salt phc}, argon2.hashPassword m t p password salt = some phc →
    argon2.verifyPassword password phc = true

/-- `hash_token`, for a salt that may not be drawn. -/
def hashToken (argon2 : Argon2) (settings : Core.Authentication) (salt : Except AuthError Text)
    (token : Text) : Except AuthError Text :=
  match salt with
  | .error e => .error e
  | .ok salt =>
      match argon2.hashPassword settings.argon2MemoryKib settings.argon2Iterations
          settings.argon2Lanes token salt with
      | some phc => .ok phc
      | none => .error .busy

/-- The bounds within which a stored string may ask for work. -/
def Phc.accepted (parsed : Phc) (settings : Core.Authentication) : Bool :=
  decide (parsed.algorithm = ascii "argon2id") && decide (parsed.version = some 19)
    && decide (65536 ≤ parsed.mCost ∧ parsed.mCost ≤ settings.argon2MemoryKib)
    && decide (3 ≤ parsed.tCost ∧ parsed.tCost ≤ settings.argon2Iterations)
    && decide (1 ≤ parsed.pCost ∧ parsed.pCost ≤ settings.argon2Lanes)
    && parsed.hash.any fun hash => hash.length == 32

def verifyToken (argon2 : Argon2) (settings : Core.Authentication) (token phc : Text) : Bool :=
  if 512 < phc.length then false
  else
    match argon2.parse phc with
    | none => false
    | some parsed =>
        if parsed.accepted settings then argon2.verifyPassword token phc else false

/-- The part of an `AuthService` that decides about a token. -/
structure AuthService where
  argon2 : Argon2
  settings : Core.Authentication
  dummy : Text

/-- What the surroundings come to during one call. -/
structure LoginInput where
  /-- Whether the rates let the call pass, and whether it gets both permits. -/
  admitted : Bool
  /-- What the store does while the hash is computed. -/
  meanwhile : List Op
  /-- Whether the thread of the hash returns. -/
  joined : Bool
  reading : Reading
  faults : Faults

namespace AuthService

/-- After the hash. -/
def settle (record : Option CredentialRecord) (valid : Bool) (w : World) (input : LoginInput) :
    World × Except AuthError Principal :=
  match (record.map CredentialRecord.principal).filter fun _ => valid with
  | none => (w, .error .denied)
  | some principal =>
      match w.step (.finishAuthentication principal input.reading input.faults) with
      | (w, .unit (.ok _)) => (w, .ok principal)
      | (w, .unit (.error .permissionDenied)) => (w, .error .denied)
      | (w, _) => (w, .error .busy)

def authenticate (service : AuthService) (w : World) (credentials : PlainCredentials)
    (input : LoginInput) : World × Except AuthError Principal :=
  if input.admitted && w.opened then
    let record := credentialLookup w.store.db credentials.login (selectorOf credentials.token)
    let phc := record.elim service.dummy CredentialRecord.passwordPhc
    let w := w.run input.meanwhile
    if input.joined then
      settle record (verifyToken service.argon2 service.settings credentials.token phc) w input
    else (w, .error .busy)
  else (w, .error .busy)

end AuthService

end Rustymail.Server
