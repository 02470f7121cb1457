import Mathlib.Logic.Function.Iterate
import Rustymail.Proof.Preliminaries
import Rustymail.Protocol.Content

/-!
# A peer that answers an envelope

It gives one reply for every command line that it gets, and nothing more after a 421. What it has sent
waits for the client to read it.
-/

namespace Rustymail.Client

open Dialogue

/-- A reply that the client takes: its form, and the bounds on its lines. -/
structure WellFormedReply (code : Nat) (lines : List Text) : Prop where
  reply : IsReply code lines
  few : lines.length ≤ 64
  short : octets lines ≤ 16384
  fits : ∀ line ∈ lines, line.length + 2 ≤ 512
  printable : ∀ line ∈ lines, ∀ b ∈ line, (32 ≤ b ∧ b ≤ 126) ∨ b = 9

/-- The replies still to be given, the lines sent and not read, and whether a 421 has been sent. -/
structure Peer where
  replies : List (Nat × List Text)
  pending : List Text := []
  closed : Bool := false

namespace Peer

/-- One command. -/
def command (peer : Peer) : Peer :=
  match peer.replies with
  | [] => peer
  | (code, lines) :: rest =>
      if peer.closed then { peer with replies := rest }
      else ⟨rest, peer.pending ++ lines, decide (code = 421)⟩

/-- As many commands as there are line ends. -/
def receive (peer : Peer) (bytes : Text) : Peer := Peer.command^[bytes.count lf] peer

/-- Every write succeeds. A wait for more than has been sent comes to nothing. -/
def answer (peer : Peer) : (question : Ask) → question.Answer × Peer
  | .write _ bytes => (true, peer.receive bytes)
  | .line _ =>
      match peer.pending with
      | [] => (none, peer)
      | line :: rest => (some (some line), { peer with pending := rest })
  | .prefetched => (!peer.pending.isEmpty, peer)
  | .connect | .handshake | .beforeBody => (true, peer)
  | .pump => (.failed, peer)

/-- The attempt against the peer, up to its first step towards the body. -/
abbrev play {ε α : Type} (talk : Talk ε α) (peer : Peer) : Talk ε α × Peer :=
  Dialogue.play Ask.preliminary answer talk peer

end Peer

/-- What the codes of an envelope come to: the first command that is refused, or the reply to DATA. -/
def verdict (mail rcpt data : Nat) : Except Nat Nat :=
  if success mail = false then .error mail
  else if success rcpt = false then .error rcpt
  else .ok data

end Rustymail.Client
