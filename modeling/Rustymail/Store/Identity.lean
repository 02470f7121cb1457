import Rustymail.Store.Runtime

/-!
# Accounts and identities

`create_account` and `set_account_quota` from `lib.rs`, and the database authority of `identity.rs`.
-/

namespace Rustymail

open Checked

structure Principal where
  accountId : Nat
  credentialId : Nat
  authEpoch : Nat
  scope : Scope
  deriving DecidableEq

structure SubmissionIdentity where
  principal : Principal
  author : Address
  deriving DecidableEq

/-- `identity::current`. -/
def current (db : Db) (principal : Principal) : Bool :=
  match db.credential? principal.credentialId, db.account? principal.accountId with
  | some credential, some account =>
      decide (credential.accountId = account.id ∧ account.authEpoch = principal.authEpoch
        ∧ account.status = .active ∧ credential.revokedAtMs = none
        ∧ credential.scope = principal.scope)
  | _, _ => false

/-- `identity::may_send`. -/
def maySend (db : Db) (principal : Principal) (address : Address) : Bool :=
  decide (principal.scope = .mail) && current db principal
    && (db.address? address.localKey).any fun row =>
      decide (row.accountId = principal.accountId) && row.sendEnabled

def mailboxNames : List Text :=
  [ascii "INBOX", ascii "Sent", ascii "Drafts", ascii "Trash", ascii "Archive", ascii "Junk"]

def insertMailboxNamed (accountId : Nat) (uidvalidity : Text → Nat) (db : Db) (name : Text) :
    Except StoreError Db :=
  db.insertMailbox
    { id := nextRowId (db.mailboxes.map Mailbox.id)
      accountId := accountId
      name := name
      uidvalidity := max (uidvalidity name % 2 ^ 32) 1
      uidnext := 1
      eventSeq := 0 }

def createAccountTx (address : Address) (quotaBytes : Nat) (now : Int) (uidvalidity : Text → Nat)
    (db : Db) : Except StoreError (Db × Unit) := do
  let accountId := nextRowId (db.accounts.map Account.id)
  let db ← db.insertAccount
    { id := accountId
      login := address.localKey
      status := .active
      quotaBytes := quotaBytes
      usedBytes := 0
      authEpoch := 1
      createdAtMs := now }
  let db ← db.insertAddress
    { address := address.localKey
      accountId := accountId
      receiveEnabled := true
      sendEnabled := false }
  let db ← mailboxNames.foldlM (insertMailboxNamed accountId uidvalidity) db
  pure (db, ())

def createAccount (store : Store) (address : Address) (quotaBytes : Nat) (reading : Reading)
    (uidvalidity : Text → Nat) (faults : Faults) : Store × Except StoreError Unit :=
  if quotaBytes > i64Max then (store, .error .invalidInput)
  else
    match reading.nowMs with
    | .error e => (store, .error e)
    | .ok now =>
        store.transaction (createAccountTx address quotaBytes now uidvalidity)
          (Store.commitPlain faults)

def setAccountQuota (store : Store) (address : Address) (bytes : Nat) :
    Store × Except StoreError Unit :=
  if bytes > i64Max then (store, .error .invalidInput)
  else
    match store.db.accountByLogin? address.localKey with
    | none => (store, .error .notFound)
    | some account =>
        if bytes < account.usedBytes then (store, .error .quota)
        else
          store.autocommit
            (store.db.updateAccountByLogin address.localKey fun row =>
              { row with quotaBytes := bytes }) ()

structure CredentialRecord where
  principal : Principal
  passwordPhc : Text
  deriving DecidableEq

/-- `credential_lookup`. A PHC string beyond the limit is cut one byte beyond it. -/
def credentialLookup (db : Db) (login : Address) (selector : Text) : Option CredentialRecord :=
  if validId selector then
    match db.credentialBySelector? selector with
    | some credential =>
        match db.account? credential.accountId with
        | some account =>
            if account.login = login.localKey ∧ account.status = .active
                ∧ credential.revokedAtMs = none then
              some ⟨⟨account.id, credential.id, account.authEpoch, credential.scope⟩,
                credential.passwordPhc.take 513⟩
            else none
        | none => none
    | none => none
  else none

def finishAuthenticationTx (principal : Principal) (now : Int) (db : Db) :
    Except StoreError (Db × Unit) := do
  require (current db principal = true) .permissionDenied
  pure (db.updateCredential principal.credentialId fun row =>
    { row with lastUsedAtMs := some now }, ())

def finishAuthentication (store : Store) (principal : Principal) (reading : Reading)
    (faults : Faults) : Store × Except StoreError Unit :=
  match reading.nowMs with
  | .error e => (store, .error e)
  | .ok now => store.transaction (finishAuthenticationTx principal now) (Store.commitPlain faults)

def isControl (c : Char) : Bool :=
  decide (c.toNat < 32) || (decide (127 ≤ c.toNat) && decide (c.toNat ≤ 159))

def validCredential (selector : Text) (label : String) (phc : Text) : Bool :=
  validId selector && label != "" && decide (label.utf8ByteSize ≤ 80)
    && !label.toList.any isControl && decide (phc.length ≤ 512)
    && (ascii "$argon2id$v=19$").isPrefixOf phc

def createCredential (store : Store) (login : Address) (selector : Text) (label : String)
    (scope : Scope) (phc : Text) (reading : Reading) : Store × Except StoreError Nat :=
  if validCredential selector label phc then
    match store.db.accountByLogin? login.localKey with
    | none => (store, .error .notFound)
    | some account =>
        if account.status ≠ .active then (store, .error .notFound)
        else
          match reading.nowMs with
          | .error e => (store, .error e)
          | .ok now =>
              let id := nextRowId (store.db.credentials.map Credential.id)
              match store.db.insertCredential
                { id := id
                  accountId := account.id
                  selector := selector
                  label := label
                  passwordPhc := phc
                  scope := scope
                  revokedAtMs := none
                  lastUsedAtMs := none
                  createdAtMs := now } with
              | .error e => (store, .error e)
              | .ok db => store.autocommit db id
  else (store, .error .invalidInput)

/-- The bytes of a `String`. -/
def utf8 (s : String) : Text := s.toList.flatMap String.utf8EncodeChar

/-- A column that is read as an `i64`. The tables hold numbers of any size. -/
def i64Column (n : Int) : Except StoreError Int :=
  if -2 ^ 63 ≤ n ∧ n < 2 ^ 63 then .ok n else .error .database

structure CredentialSummary where
  id : Int
  selector : Text
  label : Text
  scope : Scope
  revokedAtMs : Option Int
  lastUsedAtMs : Option Int
  deriving DecidableEq

def Credential.summary (row : Credential) : Except StoreError CredentialSummary := do
  let id ← i64Column row.id
  let revokedAtMs ← row.revokedAtMs.mapM i64Column
  let lastUsedAtMs ← row.lastUsedAtMs.mapM i64Column
  pure ⟨id, row.selector, utf8 row.label, row.scope, revokedAtMs, lastUsedAtMs⟩

def listCredentials (db : Db) (login : Address) (afterId : Int) (limit : Nat) :
    Except StoreError (List CredentialSummary) :=
  if afterId < 0 ∨ ¬ (1 ≤ limit ∧ limit ≤ 100) then .error .invalidInput
  else
    (((db.credentials.filter fun c =>
        ((db.account? c.accountId).any fun a => decide (a.login = login.localKey))
          && decide (afterId < c.id)).insertionSort fun a b => a.id ≤ b.id).take limit).mapM
      Credential.summary

def Credential.revoke (now : Int) (row : Credential) : Credential :=
  { row with revokedAtMs := row.revokedAtMs.or (some now) }

def Account.bumpEpoch (row : Account) : Account :=
  { row with authEpoch := row.authEpoch + 1 }

def revokeCredentialTx (selector : Text) (now : Int) (db : Db) : Except StoreError (Db × Nat) := do
  let credential ← found .notFound (db.credentialBySelector? selector)
  let db := db.updateCredentialBySelector selector (Credential.revoke now)
  pure (db.updateAccount credential.accountId Account.bumpEpoch, credential.accountId)

def revokeCredential (store : Store) (selector : Text) (reading : Reading) (faults : Faults) :
    Store × Except StoreError Nat :=
  if validId selector then
    match reading.nowMs with
    | .error e => (store, .error e)
    | .ok now => store.transaction (revokeCredentialTx selector now) (Store.commitPlain faults)
  else (store, .error .invalidInput)

def disableAccountTx (login : Address) (now : Int) (db : Db) : Except StoreError (Db × Nat) := do
  let account ← found .notFound (db.accountByLogin? login.localKey)
  let db := db.updateAccount account.id fun row => { row.bumpEpoch with status := .disabled }
  pure (db.updateCredentialsOf account.id (Credential.revoke now), account.id)

def disableAccount (store : Store) (login : Address) (reading : Reading) (faults : Faults) :
    Store × Except StoreError Nat :=
  match reading.nowMs with
  | .error e => (store, .error e)
  | .ok now => store.transaction (disableAccountTx login now) (Store.commitPlain faults)

/-- `INSERT ... ON CONFLICT(address) DO UPDATE SET send_enabled=excluded.send_enabled`. -/
def upsertSendAs (db : Db) (address : Text) (accountId : Nat) (enabled : Bool) :
    Except StoreError Db :=
  match db.address? address with
  | some _ => .ok (db.updateAddress address fun row => { row with sendEnabled := enabled })
  | none => db.insertAddress
      { address := address, accountId := accountId, receiveEnabled := false, sendEnabled := enabled }

def setSendAsTx (login address : Address) (enabled : Bool) (db : Db) :
    Except StoreError (Db × Nat) := do
  let account ← found .notFound (db.accountByLogin? login.localKey)
  require (account.status = .active) .notFound
  require (∀ owner ∈ db.address? address.localKey, owner.accountId = account.id) .permissionDenied
  let db ← upsertSendAs db address.localKey account.id enabled
  pure (db.updateAccount account.id Account.bumpEpoch, account.id)

def setSendAs (store : Store) (login address : Address) (enabled : Bool) (faults : Faults) :
    Store × Except StoreError Nat :=
  store.transaction (setSendAsTx login address enabled) (Store.commitPlain faults)

/-- `INSERT INTO address(address,account_id)`, by hand: the operations above write no second
receiving address, but the schema has them and the tests use them. -/
def insertAlias (store : Store) (address : Text) (accountId : Nat) : Store × Except StoreError Unit :=
  match store.db.insertAddress
    { address := address
      accountId := accountId
      receiveEnabled := true
      sendEnabled := false } with
  | .error e => (store, .error e)
  | .ok db => store.autocommit db ()

end Rustymail
