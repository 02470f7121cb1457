import Rustymail.Server.Connection

/-!
# Credentials

What `auth.rs` makes of the bytes of AUTH PLAIN, and the tokens it makes itself. The base64 engine,
the random bytes and the password hash are parameters.
-/

namespace Rustymail.Server

open Checked

/-- `std::str::from_utf8` succeeds. -/
def validUtf8 (bytes : Text) : Bool := decide (ByteArray.IsValidUTF8 ⟨bytes.toArray⟩)

structure PlainCredentials where
  login : Address
  token : Text
  deriving DecidableEq

/-- The identity to act as has to be the one that logs in. -/
def checkAuthorization (login : Address) (identity : Text) : Except AuthError Unit :=
  if identity.isEmpty then .ok ()
  else do
    require (validUtf8 identity = true) .denied
    let identity ← found .denied (Address.parse identity)
    require (identity.localKey = login.localKey) .denied

def decodePlain (decode : Text → Option Text) (encoded : Text) : Except AuthError PlainCredentials := do
  require (encoded.length ≤ 1024) .denied
  let raw ← found .denied (decode encoded)
  match raw.splitOn 0 with
  | [identity, name, token] => do
      require (name.length ≤ 254 ∧ token.length ≤ 128) .denied
      require (validUtf8 name = true) .denied
      let login ← found .denied (Address.parse name)
      checkAuthorization login identity
      require (validUtf8 token = true) .denied
      pure ⟨login, token⟩
  | _ => .error .denied

/-- The selector with which `AuthService::authenticate` looks a token up. -/
def selectorOf (token : Text) : Text := (splitOnce 46 token).elim [] Prod.fst

def hexDigit (n : Nat) : UInt8 := if n < 10 then (48 + n).toUInt8 else (87 + n).toUInt8

/-- `random_hex`: two digits for each byte. -/
def randomHex (raw : List UInt8) : Text :=
  raw.flatMap fun b => [hexDigit (b.toNat / 16), hexDigit (b.toNat % 16)]

/-- `generate_credential`: the selector, the token and its hash. Either drawing of random bytes may
fail. -/
def generateCredential (first : Except AuthError (Vector UInt8 16))
    (second : Except AuthError (Vector UInt8 32)) (hashToken : Text → Except AuthError Text) :
    Except AuthError (Text × Text × Text) := do
  let first ← first
  let selector := randomHex first.toList
  let second ← second
  let token := selector ++ 46 :: randomHex second.toList
  let phc ← hashToken token
  pure (selector, token, phc)

end Rustymail.Server
