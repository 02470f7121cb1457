import Rustymail.Core.Address
import Rustymail.Lib.Checked

/-!
# The client's credentials

What `SmtpClient::load` makes of the configured user name and of the password file.
-/

namespace Rustymail.Client

open Checked

/-- The secret without the line ending after it. -/
def stripEnding (secret : Text) : Text :=
  if [13, 10].isSuffixOf secret then secret.take (secret.length - 2)
  else if [10].isSuffixOf secret then secret.take (secret.length - 1)
  else secret

/-- The bytes of the initial response. -/
def plainResponse (username secret : Text) : Text := [0] ++ username ++ [0] ++ secret

/-- The `authorization` of `SmtpClient::load`. `material` is what reading the password file gives. -/
def loadAuthorization (encode : Text → Text) (username : Text) (material : Except String Text) :
    Except String (Option Text) :=
  if username.isEmpty then .ok none
  else do
    require (username.length ≤ 256 ∧ username.any isAsciiControl = false) "invalid relay username"
    let secret ← material
    let secret := stripEnding secret
    require (secret ≠ [] ∧ secret.any isAsciiControl = false) "invalid relay secret"
    pure (some (encode (plainResponse username secret)))

end Rustymail.Client
