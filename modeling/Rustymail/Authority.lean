import Rustymail.Commits

/-!
# Who may send

What it means that a message was accepted on somebody's authority, and that an address was opened
for sending by its owner.
-/

namespace Rustymail

/-- The operations that `admin::dispatch` runs through `change_authority`. -/
def Op.changesAuthority : Op → Bool
  | .revokeCredential .. => true
  | .disableAccount .. => true
  | .setSendAs .. => true
  | _ => false

/-- The address belongs to the account and is enabled for sending. -/
def Db.SendsAs (db : Db) (account : Nat) (address : Address) : Prop :=
  ∃ row, db.address? address.localKey = some row ∧ row.accountId = account ∧ row.sendEnabled = true

/-- The operation submits this message for a principal of the account that is current, has scope
`mail`, and may send as the envelope sender and as the author. -/
def Submits (db : Db) (op : Op) (message : Message) (account : Nat) : Prop :=
  ∃ i identity sender, op.intake? = some i ∧ i.identity = some identity
    ∧ i.plan.sender = some sender ∧ message.ingestKey = i.plan.operationId
    ∧ message.reversePath = sender.asStr ∧ identity.principal.accountId = account
    ∧ current db identity.principal = true ∧ identity.principal.scope = .mail
    ∧ db.SendsAs account sender ∧ db.SendsAs account identity.author

/-- The operation enables sending from the address for the account. -/
def Enables (db : Db) (op : Op) (key : Text) (account : Nat) : Prop :=
  ∃ login address faults owner, op = .setSendAs login address true faults ∧ address.localKey = key
    ∧ db.accountByLogin? login.localKey = some owner ∧ owner.id = account

end Rustymail
