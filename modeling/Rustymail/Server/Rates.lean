import Rustymail.Lib.Keyed
import Rustymail.Lib.Windows
import Rustymail.Server.Connection
import Rustymail.Server.Receive

/-!
# The authentication rate limit

`Rates` in front of the password verification: attempts counted for each address and each account,
in two tables of bounded size that are swept now and then. Instants are nanoseconds.
-/

namespace Rustymail.Server

deriving instance DecidableEq for IpAddr

/-- `RateEntry`. -/
abbrev RateEntry := Windows.Window

abbrev RateTable (κ : Type) := List (κ × RateEntry)

namespace RateTable

variable {κ : Type} [DecidableEq κ]

def get (table : RateTable κ) (key : κ) : Option RateEntry :=
  (Keyed.lookup Prod.fst table key).map Prod.snd

/-- `entry(key).or_insert(value)`, and its entry rewritten. -/
def upsert (table : RateTable κ) (key : κ) (value : RateEntry) (f : RateEntry → RateEntry) :
    RateTable κ :=
  let table := if (get table key).isSome then table else table ++ [(key, value)]
  Keyed.modify Prod.fst table key fun row => (row.1, f row.2)

end RateTable

def seconds (n : Nat) : Nat := n * 1000000000

def rateWindow : Nat := seconds 60

/-- `u32::MAX`, where `saturating_add` stops. -/
def u32Max : Nat := 4294967295

def maxRateEntries : Nat := 4096

/-- `attempt`. -/
def attempt (now : Nat) (entry : RateEntry) : RateEntry := Windows.attempt rateWindow u32Max now entry

/-- The arguments of `check`. -/
structure RateCall where
  ip : IpAddr
  account : Text
  now : Nat

structure Rates where
  ips : RateTable IpAddr
  accounts : RateTable Text
  lastCleanup : Nat

namespace Rates

/-- As `AuthService::new` makes it. -/
def new (created : Nat) : Rates := ⟨[], [], created⟩

/-- The sweep, at most once a second. -/
def sweep (rates : Rates) (now : Nat) : Rates :=
  if seconds 1 ≤ now - rates.lastCleanup then
    { ips := rates.ips.filter fun row => now - row.2.started < rateWindow
      accounts := rates.accounts.filter fun row => now - row.2.started < rateWindow
      lastCleanup := now }
  else rates

/-- Is there no place in a table for the key of a call? -/
def full (rates : Rates) (call : RateCall) : Bool :=
  ((RateTable.get rates.ips call.ip).isNone && decide (maxRateEntries ≤ rates.ips.length))
    || ((RateTable.get rates.accounts call.account).isNone
        && decide (maxRateEntries ≤ rates.accounts.length))

/-- Both attempts of a call. -/
def count (rates : Rates) (call : RateCall) : Rates :=
  { rates with
    ips := RateTable.upsert rates.ips call.ip ⟨call.now, 0⟩ (attempt call.now)
    accounts := RateTable.upsert rates.accounts call.account ⟨call.now, 0⟩ (attempt call.now) }

/-- `check`. -/
def check (rates : Rates) (call : RateCall) : Rates × Except AuthError Unit :=
  let rates := rates.sweep call.now
  if rates.full call then (rates, .error .busy)
  else
    let rates := rates.count call
    let ipAttempts := (RateTable.get rates.ips call.ip).elim 0 (·.attempts)
    let accountAttempts := (RateTable.get rates.accounts call.account).elim 0 (·.attempts)
    if 30 < ipAttempts ∨ 10 < accountAttempts then (rates, .error .busy) else (rates, .ok ())

/-- The limiter after a list of calls. -/
def after (rates : Rates) (calls : List RateCall) : Rates :=
  calls.foldl (fun rates call => (rates.check call).1) rates

end Rates

/-! ### What the limiter is for -/

/-- What attempts are counted for. -/
inductive RateKey where
  | ip (peer : IpAddr)
  | account (name : Text)
  deriving DecidableEq

namespace RateKey

/-- The attempts that a window grants. -/
def limit : RateKey → Nat
  | .ip _ => 30
  | .account _ => 10

def concerns (key : RateKey) (call : RateCall) : Prop :=
  match key with
  | .ip peer => call.ip = peer
  | .account name => call.account = name

instance (key : RateKey) (call : RateCall) : Decidable (key.concerns call) := by
  cases key <;> exact inferInstanceAs (Decidable (_ = _))

end RateKey

namespace Rates

def entry (rates : Rates) : RateKey → Option RateEntry
  | .ip peer => RateTable.get rates.ips peer
  | .account name => RateTable.get rates.accounts name

/-- A call that is not refused for want of a place counts for its two keys. -/
def Counts (rates : Rates) (call : RateCall) (key : RateKey) : Prop :=
  key.concerns call ∧ (rates.sweep call.now).full call = false

/-- The call opens a window of the key: it finds no entry, or one whose window is over. -/
def Opens (rates : Rates) (call : RateCall) (key : RateKey) : Prop :=
  rates.Counts call key ∧ ∀ entry, rates.entry key = some entry → rateWindow ≤ call.now - entry.started

/-- The calls for a key that are granted. -/
def granted (key : RateKey) : Rates → List RateCall → Nat
  | _, [] => 0
  | rates, call :: rest =>
      (if key.concerns call ∧ (rates.check call).2 = .ok () then 1 else 0)
        + granted key (rates.check call).1 rest

/-- No call of the list opens a window of the key. -/
def NoneOpens (key : RateKey) (rates : Rates) (calls : List RateCall) : Prop :=
  ∀ before call rest, calls = before ++ call :: rest → ¬ (rates.after before).Opens call key

end Rates

/-- The limiter that never sweeps, with a place for every key. -/
structure UnsweptRates where
  entry : RateKey → Option RateEntry

namespace UnsweptRates

def new : UnsweptRates := ⟨fun _ => none⟩

def check (rates : UnsweptRates) (call : RateCall) : UnsweptRates × Except AuthError Unit :=
  let ipEntry := attempt call.now ((rates.entry (.ip call.ip)).getD ⟨call.now, 0⟩)
  let accountEntry := attempt call.now ((rates.entry (.account call.account)).getD ⟨call.now, 0⟩)
  let rates : UnsweptRates :=
    ⟨fun key =>
      if key = .ip call.ip then some ipEntry
      else if key = .account call.account then some accountEntry
      else rates.entry key⟩
  if 30 < ipEntry.attempts ∨ 10 < accountEntry.attempts then (rates, .error .busy)
  else (rates, .ok ())

def after (rates : UnsweptRates) (calls : List RateCall) : UnsweptRates :=
  calls.foldl (fun rates call => (rates.check call).1) rates

end UnsweptRates

end Rustymail.Server
