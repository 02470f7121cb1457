import Rustymail.Store.World
import Rustymail.Lifecycle

/-!
# What an operation can commit

`Commits w op db db'` lists, for each operation, the transactions it may leave behind: every change
of the database is one of them, whatever fails around it. A claim can leave up to three.
-/

namespace Rustymail

/-- Recovery runs on its own and at the start of every claim. -/
def Op.recovers : Op → Bool
  | .queueRecover .. => true
  | .queueClaim .. => true
  | _ => false

/-- So does expiry. -/
def Op.expires : Op → Bool
  | .queueExpire .. => true
  | .queueClaim .. => true
  | _ => false

/-- The message an acceptance operation brings in, and on whose behalf. -/
structure Intake where
  ids : FreshIds
  message : PreparedMessage
  plan : Acceptance
  identity : Option SubmissionIdentity
  relay : Option RelayAcceptance

def Op.intake? : Op → Option Intake
  | .accept ids message plan _ _ => some ⟨ids, message, plan, none, none⟩
  | .acceptSubmission ids message plan identity _ _ =>
      some ⟨ids, message, plan, some identity, none⟩
  | .acceptRelaySubmission ids message plan identity relay _ _ =>
      some ⟨ids, message, plan, some identity, some relay⟩
  | _ => none

inductive Commits (w : World) : Op → Db → Db → Prop
  | createAccount {address quotaBytes reading uidvalidity faults now db db'}
      (hquota : quotaBytes ≤ i64Max)
      (htx : createAccountTx address quotaBytes now uidvalidity db = .ok (db', ())) :
      Commits w (.createAccount address quotaBytes reading uidvalidity faults) db db'
  | setAccountQuota {address : Address} {bytes : Nat} {account : Account} {db : Db}
      (hbytes : bytes ≤ i64Max) (haccount : db.accountByLogin? address.localKey = some account)
      (hused : account.usedBytes ≤ bytes) :
      Commits w (.setAccountQuota address bytes) db
        (db.updateAccountByLogin address.localKey fun row => { row with quotaBytes := bytes })
  | finishAuthentication {principal reading faults now db db'}
      (htx : finishAuthenticationTx principal now db = .ok (db', ())) :
      Commits w (.finishAuthentication principal reading faults) db db'
  | createCredential {login selector label scope phc reading row db db'}
      (htx : db.insertCredential row = .ok db') :
      Commits w (.createCredential login selector label scope phc reading) db db'
  | revokeCredential {selector reading faults now account db db'}
      (htx : revokeCredentialTx selector now db = .ok (db', account)) :
      Commits w (.revokeCredential selector reading faults) db db'
  | disableAccount {login reading faults now account db db'}
      (htx : disableAccountTx login now db = .ok (db', account)) :
      Commits w (.disableAccount login reading faults) db db'
  | setSendAs {login address enabled faults account db db'}
      (htx : setSendAsTx login address enabled db = .ok (db', account)) :
      Commits w (.setSendAs login address enabled faults) db db'
  | insertAlias {address accountId row db db'} (htx : db.insertAddress row = .ok db') :
      Commits w (.insertAlias address accountId) db db'
  | acceptance {op : Op} {i : Intake} {now db db'} (hop : op.intake? = some i)
      (hvalid : validAcceptance w.store i.message i.plan i.relay)
      (hauth : authorizeSubmission db i.identity i.plan.sender = .ok ())
      (hnew : previousAcceptance db i.plan.operationId = none)
      (htx : writeAcceptance i.ids i.message i.plan i.identity i.relay now db = .ok db') :
      Commits w op db db'
  | enqueue {ids message plan reading faults now db db'}
      (hvalid : validEnqueue w.store message plan)
      (hnew : previousAcceptance db plan.operationId = none)
      (htx : writeEnqueue ids message plan now db = .ok db') :
      Commits w (.enqueue ids message plan reading faults) db db'
  | expire {op : Op} {now limit count db db'} (hop : op.expires = true)
      (htx : expireTx now limit db = .ok (db', count)) : Commits w op db db'
  | recover {op : Op} {now limit cursor result db db'} (hop : op.recovers = true)
      (htx : recoverTx (w.store.queue.retain w.live).active now limit cursor db = .ok (db', result)) :
      Commits w op db db'
  | claim {policy limit keepLease keepReader input ctx cursor domains result db db'}
      (htx : claimTx ctx cursor domains db = .ok (db', result)) :
      Commits w (.queueClaim policy limit keepLease keepReader input) db db'
  | renew {serial seconds reading faults lease now db db'}
      (hlease : w.lease? serial = some lease)
      (htx : renewTx lease w.store.lock now seconds db = .ok (db', ())) :
      Commits w (.queueRenew serial seconds reading faults) db db'
  | markBody {serial faults lease db db'} (hlease : w.lease? serial = some lease)
      (htx : markBodyTx lease w.store.lock db = .ok (db', ())) :
      Commits w (.queueMarkBody serial faults) db db'
  | finish {serial outcome reading guardReading faults lease now due db db'}
      (hlease : w.lease? serial = some lease)
      (htx : finishTx lease w.store.lock outcome now due db = .ok (db', ())) :
      Commits w (.queueFinish serial outcome reading guardReading faults) db db'
  | hold {id reading faults now db db'} (htx : holdTx id now db = .ok (db', ())) :
      Commits w (.queueHold id reading faults) db db'
  | retry {id allowDuplicate extendExpired reading faults now db db'}
      (htx : retryTx id allowDuplicate extendExpired now db = .ok (db', ())) :
      Commits w (.queueRetry id allowDuplicate extendExpired reading faults) db db'
  | closeUnknown {id note reading faults now db db'}
      (htx : closeUnknownTx id note now db = .ok (db', ())) :
      Commits w (.queueCloseUnknown id note reading faults) db db'
  | suppress {policy input now failure reason db} (hdue : nextFailure now db = some failure)
      (hreason : failure.suppressed = some reason) :
      Commits w (.notificationNext policy input) db
        (db.updateDelivery failure.id (Delivery.suppress reason))
  | postpone {op : Op} {id reason due db} :
      Commits w op db (db.updateDelivery id (Delivery.postponeReport reason due))
  | report {prepared delivery reading faults now db db'}
      (hnew : db.notification? prepared.plan.deliveryId = none)
      (heligible : eligible db prepared.plan = true)
      (htx : writeReport delivery prepared now db = .ok db') :
      Commits w (.notificationCommit prepared delivery reading faults) db db'

/-- Everything one operation leaves behind. -/
def CommitsAll (w : World) (op : Op) : Db → Db → Prop := Relation.ReflTransGen (Commits w op)

/-- The operation behind each event of one delivery's life. -/
def Performs (w : World) (op : Op) (id : Text) : LifeEvent → Prop
  | .leased _ _ _ => ∃ policy limit keepLease keepReader input,
      op = .queueClaim policy limit keepLease keepReader input
  | .exhausted _ => ∃ policy limit keepLease keepReader input,
      op = .queueClaim policy limit keepLease keepReader input
  | .bodyMarked => ∃ serial faults lease,
      op = .queueMarkBody serial faults ∧ w.lease? serial = some lease ∧ lease.id = id
  | .finished outcome _ _ => ∃ serial reading guardReading faults lease,
      op = .queueFinish serial outcome reading guardReading faults
        ∧ w.lease? serial = some lease ∧ lease.id = id
  | .recovered _ => op.recovers = true
      ∧ ((w.store.queue.retain w.live).active.any fun entry => entry.1 = id) = false
  | .expired _ => op.expires = true
  | .held => ∃ reading faults, op = .queueHold id reading faults
  | .retried allowDuplicate extendExpired _ _ => ∃ reading faults,
      op = .queueRetry id allowDuplicate extendExpired reading faults
  | .closed _ => ∃ note reading faults, op = .queueCloseUnknown id note reading faults
  | .reported _ => ∃ prepared delivery reading faults,
      op = .notificationCommit prepared delivery reading faults ∧ prepared.plan.deliveryId = id
  | .created _ | .renewed _ | .suppressed _ _ | .postponed _ _ => True

end Rustymail
