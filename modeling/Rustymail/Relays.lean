import Rustymail.Acceptances
import Rustymail.Client.Prepare
import Rustymail.Client.Transfer
import Rustymail.Server.Receive
import Rustymail.Server.Relay

/-!
# What it means to be able to relay

Three producers make messages that `send_body` is to send later: `receive_message`, `prepare` and the
reports of `render`. Whatever one of them has made, the consumer must not find fault with.
-/

namespace Rustymail

open Dialogue

/-- However its reader cuts the stored bytes, `send_body` never objects to them, and what it writes
reads back as the lines of `sent`. -/
structure Client.Relays (message : Client.Message) (stored sent : Text) : Prop where
  fits : ∀ seen, (Client.Transfer.after seen).Faithful stored →
    ¬ Reaches message.send seen (.failed .content)
  sends : ∀ seen, (Client.Transfer.after seen).Faithful stored → Reaches message.send seen (.done ()) →
    ∃ lines : List Text, lines.flatten = sent ∧ ∀ pieces further,
      pieces.flatten = (Client.Transfer.after seen).written ++ Client.terminator ++ further →
      ∃ rest, Server.collect pieces = .ok (lines, rest) ∧ rest.flatten = further

/-- What the date formatter of the time crate returns for RFC 2822: a short printable ASCII text. -/
def Rfc2822 (date : Int → Option Text) : Prop :=
  ∀ seconds, ∀ text ∈ date seconds, (∀ b ∈ text, 32 ≤ b ∧ b ≤ 126) ∧ text.length ≤ 40

/-- Every lease of a submission that `receive_message` has received sends it without its first line.
The lease comes from the queue, and the submission was accepted as the server does it. -/
def RelaysSubmissions (date : Int → Option Text) : Prop :=
  ∀ (limits : Server.ReceiveLimits) (faults : Server.ReceiveFaults) (trace : Server.Trace)
    (envelope : Server.Envelope) (operation : Uuid) (seconds : Int) (traced : Text) (root : Text)
    (id : Uuid) (bufferLimit maxSize : Nat) (limited : maxSize ≤ maxStoredBytes)
    (pieces rest : List Text) (stage : StagedMessage) (author : Option Address)
    (sha256 : Text → Text) (config : Server.Config) (session : Nat) (identity : SubmissionIdentity)
    (request : Server.AcceptRequest) (w : World) (lease : QueueLease),
    trace.prefixText envelope.sender operation (date seconds) = some traced →
    Server.receiveMessage limits faults true envelope.body traced
      (.new root id bufferLimit maxSize limited) pieces = .ok (stage, author, rest) →
    request = Server.acceptRequest config session operation envelope (stage.prepared sha256)
      (some identity) →
    w.Reachable → lease ∈ w.issued →
    w.store.db.Holds request.plan.operationId
      (acceptanceFingerprint request.message request.plan request.identity request.relay)
      lease.messageId →
    ∃ line sent : Text, lf ∉ line ∧ stage.hashed = line ++ crlf ++ sent
      ∧ Client.Relays lease.message stage.hashed sent

/-- Every snapshot of `prepare` is sent whole. -/
def RelaysSnapshots : Prop :=
  ∀ (limits : Client.InputLimits) (created flushed : Bool) (input : List Client.InputRound)
    (snapshot : Client.Snapshot) (sender recipient : Address),
    Client.prepare limits created flushed input = .ok snapshot →
    Client.Relays (snapshot.message sender recipient) snapshot.bytes snapshot.bytes

/-- Every report for a remote sender is sent whole as a 7-bit message. -/
def RelaysReports (date : Int → Option Text) : Prop :=
  ∀ (w : World) (policy : NotificationPolicy) (input : NotificationInput) (task : NotificationTask)
    (message : Client.Message), w.Reachable → input.date = date →
    (w.step (.notificationNext policy input)).2 = .work (.ok (.prepare task)) →
    task.plan.isLocal = false → message.body = .sevenBit → message.storedSize = task.bytes.length →
    message.omitPrefix = [] → Client.Relays message task.bytes task.bytes

end Rustymail
