import Rustymail.Store.Queue

/-!
# Failure notifications

`notification.rs`: a failed delivery stays due for a report until one is committed or suppressed.
Preparing the report happens outside the database owner, so any number of prepared reports for the
same failure can be waiting when one of them commits.
-/

namespace Rustymail

open Checked

def maxReport : Nat := 16384

def retryMs : Int := 60000

structure NotificationPolicy where
  hostname : Text
  localDomains : List Text
  maxAgeSeconds : Nat

/-- `NotificationPolicy::validate`: the author of the generated reports. -/
def NotificationPolicy.validate (policy : NotificationPolicy) : Except StoreError Address := do
  require (validDomain policy.hostname = true ∧ policy.localDomains ≠ []
    ∧ policy.localDomains.length ≤ 100 ∧ (∀ d ∈ policy.localDomains, validDomain d = true)
    ∧ 1 ≤ policy.maxAgeSeconds ∧ policy.maxAgeSeconds ≤ 604800) .invalidInput
  found .invalidInput (Address.parse (ascii "postmaster@" ++ policy.localDomains.headD []))

structure NotificationPlan where
  deliveryId : Text
  reportId : Uuid
  recipient : Address
  isLocal : Bool
  maxAgeSeconds : Nat

structure NotificationTask where
  plan : NotificationPlan
  bytes : Text

structure PreparedNotification where
  plan : NotificationPlan
  message : PreparedMessage

inductive NotificationWork where
  | empty
  | suppressed
  | prepare (task : NotificationTask)

/-- The joined row `notification_next` selects. -/
structure Failure where
  id : Text
  messageId : Text
  sender : Text
  recipient : Text
  source : Source
  authenticated : Bool
  reason : Option LifecycleReason
  code : Option Nat

def Failure.status (f : Failure) : Text :=
  if f.reason = some .expired then ascii "5.4.7" else ascii "5.0.0"

def Failure.diagnosticCode (f : Failure) : Text :=
  if f.reason = some .expired then ascii "x-rustymail; delivery lifetime exceeded"
  else
    match f.code.filter fun c => decide (500 ≤ c ∧ c < 600) with
    | some code => ascii "smtp; " ++ decimal code ++ ascii " (remote text omitted)"
    | none => ascii "x-rustymail; permanent delivery failure"

/-- The lines of a report, without their line ends. -/
def reportLines (f : Failure) (plan : NotificationPlan) (policy : NotificationPolicy)
    (postmaster recipient : Address) (date : Text) : List Text :=
  let boundary := ascii "rustymail-" ++ plan.reportId.text
  (if plan.isLocal then [ascii "Return-Path: <>"] else []) ++
  [ascii "From: Mail Delivery Subsystem <" ++ postmaster.asStr ++ ascii ">",
    ascii "To: " ++ plan.recipient.asStr,
    ascii "Date: " ++ date,
    ascii "Message-ID: <" ++ plan.reportId.text ++ ascii "@" ++ policy.hostname ++ ascii ">",
    ascii "Subject: Delivery failure",
    ascii "Auto-Submitted: auto-generated",
    ascii "X-Rustymail-Original-Message: " ++ f.messageId,
    ascii "MIME-Version: 1.0",
    ascii "Content-Type: multipart/report; report-type=delivery-status;",
    ascii " boundary=\"" ++ boundary ++ ascii "\"",
    [],
    ascii "--" ++ boundary,
    ascii "Content-Type: text/plain; charset=us-ascii",
    ascii "Content-Transfer-Encoding: 7bit",
    [],
    ascii "Delivery failed for " ++ recipient.asStr ++ ascii ".",
    ascii "Original acceptance ID: " ++ f.messageId,
    ascii "Status: " ++ f.status
      ++ ascii ". Other recipients, if any, have independent outcomes.",
    ascii "Original headers and content are omitted for privacy.",
    [],
    ascii "--" ++ boundary,
    ascii "Content-Type: message/delivery-status",
    [],
    ascii "Reporting-MTA: dns; " ++ policy.hostname,
    [],
    ascii "Final-Recipient: rfc822; " ++ recipient.asStr,
    ascii "Action: failed",
    ascii "Status: " ++ f.status,
    ascii "Diagnostic-Code: " ++ f.diagnosticCode,
    ascii "Final-Log-ID: " ++ f.id,
    [],
    ascii "--" ++ boundary ++ ascii "--"]

/-- `render`. The RFC 2822 date of the time crate is the parameter `date`. -/
def render (date : Int → Option Text) (f : Failure) (plan : NotificationPlan)
    (policy : NotificationPolicy) (postmaster : Address) (now : Int) : Except StoreError Text := do
  let recipient ← found .integrity (Address.parse f.recipient)
  let date ← found .invalidInput (date (now / 1000))
  let bytes := (reportLines f plan policy postmaster recipient date).flatMap (· ++ crlf)
  require (bytes.length ≤ maxReport) .sizeLimit
  pure bytes

/-- Failed deliveries whose report is due, the first one first. -/
def dueFailures (now : Int) (db : Db) : List Delivery :=
  (db.deliveries.filter fun d =>
      decide (d.route = .relay ∧ d.state = .failed ∧ d.notificationState = .pending
        ∧ d.notificationDueMs ≤ now ∧ (db.message? d.messageId).isSome)).insertionSort
    (timeThenId Delivery.notificationDueMs)

def nextFailure (now : Int) (db : Db) : Option Failure := do
  let row ← (dueFailures now db).head?
  let message ← db.message? row.messageId
  some
    { id := row.id
      messageId := message.id
      sender := message.reversePath
      recipient := row.recipient
      source := message.source
      authenticated := message.authenticatedAccountId.isSome
      reason := row.lifecycleReason
      code := row.lastSmtpCode }

/-- Why no report is owed for this failure. -/
def Failure.suppressed (f : Failure) : Option String :=
  if f.source = .dsn then some "dsn_loop_suppressed"
  else if f.sender = [] then some "null_reverse_path"
  else if f.source ≠ .submission ∨ f.authenticated = false then some "source_not_eligible"
  else none

/-- `UPDATE ... WHERE id=?1 AND notification_state='pending'`. -/
def Delivery.suppress (reason : String) (row : Delivery) : Delivery :=
  if row.notificationState = .pending then
    { row with notificationState := .suppressed, notificationError := some reason }
  else row

/-- `UPDATE ... WHERE id=?1 AND state='failed' AND notification_state='pending'`. -/
def Delivery.postponeReport (reason : String) (due : Int) (row : Delivery) : Delivery :=
  if row.state = .failed ∧ row.notificationState = .pending then
    { row with notificationError := some reason, notificationDueMs := due }
  else row

def notificationReason : StoreError → String
  | .quota => "recipient_quota"
  | .recipientUnavailable => "recipient_unavailable"
  | .uidExhausted => "recipient_counter_exhausted"
  | .diskReserve => "disk_or_temporary_budget"
  | .sizeLimit => "report_size_limit"
  | _ => "storage_unavailable"

def notificationFailed (store : Store) (id : Text) (error : StoreError) (reading : Reading) :
    Store × Except StoreError Unit :=
  if validId id then
    match store.queue.now reading with
    | (queue, .error e) => ({ store with queue := queue }, .error e)
    | (queue, .ok now) =>
        ({ store with queue := queue } : Store).autocommit
          (store.db.updateDelivery id (Delivery.postponeReport (notificationReason error)
            (saturatingAdd now retryMs))) ()
  else (store, .error .invalidId)

/-- What `notification_next` takes from outside: two clock readings, the report id, the date
formatter and what creating the stage reports. -/
structure NotificationInput where
  reading : Reading
  failedReading : Reading
  reportId : Uuid
  date : Int → Option Text
  stage : Except StoreError Unit

/-- The closure of `notification_next`: plan, render and stage one report. -/
def prepareReport (store : Store) (policy : NotificationPolicy) (postmaster : Address)
    (failure : Failure) (now : Int) (input : NotificationInput) :
    Except StoreError NotificationTask := do
  let recipient ← found .integrity (Address.parse failure.sender)
  let isLocal := policy.localDomains.any fun d => lowercase d == lowercase recipient.domain
  let plan : NotificationPlan :=
    ⟨failure.id, input.reportId, recipient, isLocal, policy.maxAgeSeconds⟩
  let bytes ← render input.date failure plan policy postmaster now
  if isLocal then preflight store.db recipient.localKey bytes.length else pure ()
  require (bytes.length ≤ min store.maxMessageBytes maxReport) .sizeLimit
  input.stage
  pure ⟨plan, bytes⟩

def notificationNext (store : Store) (policy : NotificationPolicy) (input : NotificationInput) :
    Store × Except StoreError NotificationWork :=
  match policy.validate with
  | .error e => (store, .error e)
  | .ok postmaster =>
      match store.queue.now input.reading with
      | (queue, .error e) => ({ store with queue := queue }, .error e)
      | (queue, .ok now) =>
          let store := { store with queue := queue }
          match nextFailure now store.db with
          | none => (store, .ok .empty)
          | some failure =>
              match failure.suppressed with
              | some reason =>
                  store.autocommit (store.db.updateDelivery failure.id (Delivery.suppress reason))
                    .suppressed
              | none =>
                  match prepareReport store policy postmaster failure now input with
                  | .ok task => (store, .ok (.prepare task))
                  | .error error =>
                      match notificationFailed store failure.id error input.failedReading with
                      | (store, .error e) => (store, .error e)
                      | (store, .ok _) => (store, .error error)

/-- The condition under which a report may be committed for a delivery. -/
def eligible (db : Db) (plan : NotificationPlan) : Bool :=
  match db.delivery? plan.deliveryId with
  | none => false
  | some row =>
      decide (row.state = .failed ∧ row.route = .relay ∧ row.possiblyDelivered = false
        ∧ row.notificationState = .pending)
      && (db.message? row.messageId).any fun m =>
        decide (m.source = .submission ∧ m.authenticatedAccountId.isSome = true
          ∧ m.reversePath = plan.recipient.asStr)

def dsnKey (deliveryId : Text) : Text := ascii "dsn:" ++ deliveryId

def Delivery.reportCreated (row : Delivery) : Delivery :=
  { row with notificationState := .created, notificationError := none }

/-- The message row of a report. -/
def reportRow (prepared : PreparedNotification) (now : Int) : Message :=
  { id := prepared.plan.reportId.text
    ingestKey := dsnKey prepared.plan.deliveryId
    blobId := prepared.message.id.text
    source := .dsn
    reversePath := []
    authenticatedAccountId := none
    acceptedAtMs := now }

/-- A report goes straight into a local mailbox or to the relay queue. -/
def placeReport (delivery : Uuid) (plan : NotificationPlan) (size : Nat) (now : Int) (db : Db) :
    Except StoreError Db :=
  if plan.isLocal then
    deliver delivery plan.recipient.localKey plan.reportId.text size now db
  else
    insertRelay (fun _ => delivery) plan.reportId.text [plan.recipient.asStr] .sevenBit
      plan.maxAgeSeconds now db

/-- The rows of a committed report. -/
def writeReport (delivery : Uuid) (prepared : PreparedNotification) (now : Int) (db : Db) :
    Except StoreError Db := do
  let plan := prepared.plan
  let db ← storeMessage (prepared.message.blobRow now) (reportRow prepared now) db
  let db ← placeReport delivery plan prepared.message.size now db
  let db ← db.insertNotification
    { deliveryId := plan.deliveryId, reportMessageId := plan.reportId.text, createdAtMs := now }
  pure (db.updateDelivery plan.deliveryId Delivery.reportCreated)

def notificationCommitTx (delivery : Uuid) (prepared : PreparedNotification) (now : Int)
    (faults : Faults) (db : Db) : Except StoreError (Db × AcceptedMessage) :=
  match db.notification? prepared.plan.deliveryId with
  | some row => .ok (db, ⟨row.reportMessageId, true⟩)
  | none => do
      require (eligible db prepared.plan = true) .invalidInput
      require (faults.hit .databaseWrite = false) .io
      let db ← writeReport delivery prepared now db
      pure (db, ⟨prepared.plan.reportId.text, false⟩)

def Store.commitReport (faults : Faults) (store : Store) (db : Db) (accepted : AcceptedMessage) :
    Store × Except StoreError AcceptedMessage :=
  if accepted.alreadyCommitted then (store, .ok accepted)
  else if faults.hit .notificationBeforeCommit then (store, .error .io)
  else
    match faults.report with
    | .failed => (store, .error .queueOutcomeUnknown)
    | .failedButApplied => ({ store with db := db }, .error .queueOutcomeUnknown)
    | .ok =>
        if faults.hit .notificationAfterCommit then
          ({ store with db := db }, .error .queueOutcomeUnknown)
        else ({ store with db := db }, .ok accepted)

def notificationCommit (store : Store) (prepared : PreparedNotification) (delivery : Uuid)
    (reading : Reading) (faults : Faults) : Store × Except StoreError AcceptedMessage :=
  if prepared.message.root = store.root then
    match store.queue.now reading with
    | (queue, .error e) => ({ store with queue := queue }, .error e)
    | (queue, .ok now) =>
        ({ store with queue := queue } : Store).transaction
          (notificationCommitTx delivery prepared now faults) (Store.commitReport faults)
  else (store, .error .invalidInput)

end Rustymail
