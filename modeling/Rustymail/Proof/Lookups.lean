import Rustymail.Proof.ConnectionLemmas
import Rustymail.Server.Stream

/-!
# Looking recipients up

A round asks the store about a recipient exactly if it looks one up: no other answer can matter, and
this one does.
-/

namespace Rustymail.Server

/-- Only an RCPT within a transaction has a recipient checked. -/
theorem Session.apply_checkRecipient {session : Session} {command : Command} {address : Address}
    (h : (session.apply command).2 = .checkRecipient address) :
    command = .rcpt address ∧ session.transaction.isNone = false
      ∧ (session.apply command).1 = session := by
  cases command with
  | rcpt other =>
      unfold Session.apply at h ⊢
      dsimp only at h ⊢
      split_ifs at h with hnone
      cases h
      exact ⟨rfl, Bool.eq_false_iff.2 hnone, rfl⟩
  | mail sender size body =>
      unfold Session.apply Session.mail at h
      dsimp only at h
      split_ifs at h
  | data =>
      unfold Session.apply Session.data at h
      dsimp only at h
      split at h
      · cases h
      · split_ifs at h
  | startTls =>
      unfold Session.apply at h
      dsimp only at h
      split_ifs at h
  | _ => cases h

namespace Connection

variable {context : SessionContext} {input : RoundInput} {connection : Connection}
variable {recipientExists : Address → Except StoreError Bool}

theorem perform_asks {command : Command}
    (h : ∀ address, command = .rcpt address → connection.session.transaction.isNone = false →
      context.config.isLocal address = true → recipientExists address = input.recipientExists address) :
    connection.perform context { input with recipientExists := recipientExists } command
      = connection.perform context input command := by
  unfold perform
  dsimp only
  cases haction : (connection.session.apply command).2 with
  | checkRecipient address =>
      obtain ⟨hcommand, hnone, -⟩ := Session.apply_checkRecipient haction
      have hroute : ∀ connection : Connection,
          connection.route context { input with recipientExists := recipientExists } address
            = connection.route context input address := by
        intro connection
        unfold route
        by_cases hlocal : context.config.isLocal address = true
        · rw [if_pos hlocal, if_pos hlocal]
          exact h address hcommand hnone hlocal
        · rw [if_neg hlocal, if_neg hlocal]
      dsimp only
      unfold checkRecipient
      rw [hroute]
      rfl
  | _ => rfl

theorem guarded_asks {command : Command}
    (h : ∀ address, command = .rcpt address → connection.principal.isNone = false →
      connection.session.transaction.isNone = false → context.config.isLocal address = true →
      recipientExists address = input.recipientExists address) :
    connection.guarded context { input with recipientExists := recipientExists } command
      = connection.guarded context input command := by
  cases command with
  | mail sender size body =>
      have hperform : ∀ connection : Connection,
          connection.perform context { input with recipientExists := recipientExists }
              (.mail sender size body)
            = connection.perform context input (.mail sender size body) :=
        fun connection => perform_asks (by simp)
      unfold guarded authorize
      dsimp only
      rw [hperform]
      rfl
  | rcpt address =>
      unfold guarded
      dsimp only
      by_cases hnone : connection.principal.isNone = true
      · rw [hnone]
        rfl
      · rw [Bool.eq_false_iff.2 hnone]
        exact perform_asks fun other hother => h other hother (Bool.eq_false_iff.2 hnone)
  | _ =>
      unfold guarded
      dsimp only
      rw [perform_asks (by simp)]
      rfl

/-- **A round asks the store about one recipient at most**, the one that is looked up. -/
theorem round_asks {incoming : Incoming}
    (h : ∀ address, connection.looksUp context incoming = some address →
      recipientExists address = input.recipientExists address) :
    connection.round context { input with recipientExists := recipientExists } incoming
      = connection.round context input incoming := by
  cases incoming with
  | line bytes =>
      unfold round line
      dsimp only
      by_cases hlong : context.readLimit < bytes.length + 2
      · rw [if_pos hlong, if_pos hlong]
      rw [if_neg hlong, if_neg hlong]
      by_cases hlimit : bytes.length + 2 > lineLimit context.role (verbOf bytes)
      · rw [if_pos hlimit, if_pos hlimit]
      rw [if_neg hlimit, if_neg hlimit]
      by_cases hauth : eqIgnoreAsciiCase (verbOf bytes) (ascii "AUTH") = true
      · rw [if_pos hauth, if_pos hauth]
        rfl
      rw [if_neg hauth, if_neg hauth]
      unfold looksUp at h
      dsimp only at h
      rw [if_neg (not_or.2 ⟨hlong, hlimit⟩)] at h
      cases hparse : parseCommand bytes with
      | error e => rfl
      | ok command =>
          rw [hparse] at h
          dsimp only at h ⊢
          unfold Connection.command
          by_cases hplain : (context.role.submission && !connection.encrypted
              && !command.plaintext) = true
          · rw [if_pos hplain, if_pos hplain]
            rfl
          rw [if_neg hplain, if_neg hplain]
          have hrcpt : ∀ address, command = .rcpt address →
              ¬ (context.role.submission && !connection.encrypted) = true := by
            rintro address rfl hyes
            rw [hyes] at hplain
            exact hplain rfl
          by_cases hguarded : context.auth = true
          · rw [if_pos hguarded, if_pos hguarded]
            refine guarded_asks fun address hcommand hprincipal hnone hlocal => h address ?_
            subst hcommand
            dsimp only
            rw [if_neg (hrcpt address rfl), hprincipal, hnone, if_pos hlocal, Bool.and_false,
              if_neg Bool.false_ne_true, if_neg Bool.false_ne_true]
          · rw [if_neg hguarded, if_neg hguarded]
            refine perform_asks fun address hcommand hnone hlocal => h address ?_
            subst hcommand
            dsimp only
            rw [if_neg (hrcpt address rfl), Bool.eq_false_iff.2 hguarded, hnone, if_pos hlocal,
              Bool.false_and, if_neg Bool.false_ne_true, if_neg Bool.false_ne_true]
  | _ => rfl

/-- A recipient that is looked up decides the round. -/
theorem looksUp_decides {incoming : Incoming} {address : Address} {e : StoreError}
    (h : connection.looksUp context incoming = some address)
    (hanswer : input.recipientExists address = .error e) :
    connection.round context input incoming
      = connection.reply input 451 "4.3.0 Recipient lookup unavailable" := by
  cases incoming with
  | line bytes =>
      unfold looksUp at h
      dsimp only at h
      by_cases hlong : context.readLimit < bytes.length + 2
          ∨ lineLimit context.role (verbOf bytes) < bytes.length + 2
      · rw [if_pos hlong] at h
        cases h
      rw [if_neg hlong] at h
      obtain ⟨hread, hlimit⟩ := not_or.1 hlong
      cases hparse : parseCommand bytes with
      | error error =>
          rw [hparse] at h
          cases h
      | ok command =>
          rw [hparse] at h
          cases command with
          | rcpt other =>
              dsimp only at h
              split_ifs at h with hplain hprincipal hnone hlocal
              obtain rfl := Option.some.inj h
              have hauth : ¬ eqIgnoreAsciiCase (verbOf bytes) (ascii "AUTH") = true := by
                intro hauth
                cases parseCommand_auth hparse hauth
              have hperform : connection.perform context input (.rcpt other)
                  = connection.reply input 451 "4.3.0 Recipient lookup unavailable" := by
                unfold perform Session.apply
                dsimp only
                rw [if_neg hnone]
                dsimp only
                unfold checkRecipient route
                rw [if_pos hlocal, hanswer]
              unfold round line
              dsimp only
              rw [if_neg hread, if_neg hlimit, if_neg hauth, hparse]
              dsimp only
              unfold Connection.command
              rw [Bool.not_eq_true] at hplain hprincipal
              rw [hplain, Bool.false_and, if_neg Bool.false_ne_true]
              by_cases hguarded : context.auth = true
              · rw [if_pos hguarded]
                rw [hguarded, Bool.true_and] at hprincipal
                unfold guarded
                dsimp only
                rw [hprincipal, Bool.false_and, if_neg Bool.false_ne_true]
                exact hperform
              · rw [if_neg hguarded]
                exact hperform
          | _ => cases h
  | _ => cases h

end Connection


end Rustymail.Server
