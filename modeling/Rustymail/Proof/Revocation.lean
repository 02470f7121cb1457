import Rustymail.Proof.AuthorityLemmas
import Rustymail.Proof.OperationIds

/-!
# Revocation is permanent and decides acceptance

Along every run of the store.
-/

namespace Rustymail

open Checked

variable {db db' : Db} {w : World} {op : Op}

theorem maySend_eq_true {principal : Principal} {address : Address} :
    maySend db principal address = true ↔ principal.scope = .mail ∧ current db principal = true
      ∧ db.SendsAs principal.accountId address := by
  unfold maySend Db.SendsAs
  cases db.address? address.localKey with
  | none => simp
  | some row =>
      simp [and_assoc]

/-- The check inside the accepting transaction. -/
theorem authorizeSubmission_eq_ok {identity : SubmissionIdentity} {sender : Option Address}
    (h : authorizeSubmission db (some identity) sender = .ok ()) :
    ∃ from', sender = some from' ∧ maySend db identity.principal from' = true
      ∧ maySend db identity.principal identity.author = true := by
  unfold authorizeSubmission at h
  simp only [bind_eq_ok, found_eq_ok, require_eq_ok] at h
  obtain ⟨from', hfrom, hsender, hauthor⟩ := h
  exact ⟨from', hfrom, hsender, hauthor⟩

theorem Brings.submits (h : Brings w op db db') {message : Message} {account : Nat}
    (hmessage : message ∈ db'.messages) (haccount : message.authenticatedAccountId = some account) :
    message ∈ db.messages ∨ Submits db op message account := by
  cases h with
  | @acceptance i now hop hvalid hauth hnew htx =>
      rw [(writeAcceptance_adds_message hvalid htx).messages, List.mem_append,
        List.mem_singleton] at hmessage
      rcases hmessage with hold | rfl
      · exact Or.inl hold
      · right
        cases hidentity : i.identity with
        | none =>
            change accountOf i.identity = some account at haccount
            rw [hidentity] at haccount
            cases haccount
        | some identity =>
            rw [hidentity] at hauth
            obtain ⟨sender, hsender, hfrom, hauthor⟩ := authorizeSubmission_eq_ok hauth
            obtain ⟨hscope, hcurrent, hsends⟩ := maySend_eq_true.1 hfrom
            obtain ⟨-, -, hsigns⟩ := maySend_eq_true.1 hauthor
            change accountOf i.identity = some account at haccount
            rw [hidentity] at haccount
            cases haccount
            refine ⟨i, identity, sender, hop, hidentity, hsender, rfl, ?_, rfl, hcurrent, hscope,
              hsends, hsigns⟩
            change reversePathOf i.plan.sender = sender.asStr
            rw [hsender]
            rfl
  | enqueued hop hvalid hnew htx =>
      rw [(writeEnqueue_adds_message hvalid htx).messages, List.mem_append,
        List.mem_singleton] at hmessage
      rcases hmessage with hold | rfl
      · exact Or.inl hold
      · cases haccount
  | report hop hnew heligible htx =>
      rw [writeReport_messages htx, List.mem_append, List.mem_singleton] at hmessage
      rcases hmessage with hold | rfl
      · exact Or.inl hold
      · cases haccount

/-- A message that a commit adds for an account is submitted on current authority. -/
theorem Commits.submits (h : Commits w op db db') {message : Message} {account : Nat}
    (hmessage : message ∈ db'.messages) (haccount : message.authenticatedAccountId = some account) :
    message ∈ db.messages ∨ Submits db op message account := by
  rcases h.cases_content with hcontent | ⟨hmail, -⟩ | hbrings
  · rw [hcontent.messages] at hmessage
    exact Or.inl hmessage
  · rw [hmail.messages] at hmessage
    exact Or.inl hmessage
  · exact hbrings.submits hmessage haccount

/-- A claim submits nothing. -/
theorem Submits.not_claim {message : Message} {account : Nat} (h : Submits db op message account) :
    (op.recovers && op.expires) = false := by
  obtain ⟨i, -, -, hop, -⟩ := h
  cases op with
  | queueClaim policy limit keepLease keepReader input => cases hop
  | _ => rfl

theorem World.next_submits (w : World) (op : Op) {message : Message} {account : Nat}
    (hmessage : message ∈ (w.next op).store.db.messages)
    (haccount : message.authenticatedAccountId = some account) :
    message ∈ w.store.db.messages ∨ Submits w.store.db op message account := by
  cases hclaim : op.recovers && op.expires with
  | false =>
      rcases w.next_once op hclaim with hsame | hcommit
      · rw [hsame] at hmessage
        exact Or.inl hmessage
      · exact hcommit.submits hmessage haccount
  | true =>
      left
      have hall : CommitsAll w op w.store.db (w.next op).store.db := w.next_commits op
      revert hall hmessage
      generalize (w.next op).store.db = db'
      intro hmessage hall
      induction hall with
      | refl => exact hmessage
      | tail _ hlast ih =>
          rcases hlast.submits hmessage haccount with hold | hsubmits
          · exact ih hold
          · rw [hsubmits.not_claim] at hclaim
            cases hclaim

/-- Every message of an account was submitted at some point of the run. -/
theorem World.run_submits (root : Text) (maxMessageBytes : Nat) (ops : List Op) {message : Message}
    {account : Nat}
    (hmessage : message ∈ ((World.init root maxMessageBytes).run ops).store.db.messages)
    (haccount : message.authenticatedAccountId = some account) :
    ∃ before op after, ops = before ++ op :: after
      ∧ message ∉ ((World.init root maxMessageBytes).run before).store.db.messages
      ∧ message ∈ ((World.init root maxMessageBytes).run (before ++ [op])).store.db.messages
      ∧ Submits ((World.init root maxMessageBytes).run before).store.db op message account := by
  induction ops using List.reverseRecOn with
  | nil => cases hmessage
  | append_singleton ops op ih =>
      by_cases hold : message ∈ ((World.init root maxMessageBytes).run ops).store.db.messages
      · obtain ⟨before, earlier, after, rfl, hnew, hdone, hsubmits⟩ := ih hold
        exact ⟨before, earlier, after ++ [op], by simp, hnew, hdone, hsubmits⟩
      · refine ⟨ops, op, [], rfl, hold, hmessage, ?_⟩
        have hlast : (World.init root maxMessageBytes).run (ops ++ [op])
            = ((World.init root maxMessageBytes).run ops).next op := Runs.run_snoc ops op
        rw [hlast] at hmessage
        rcases World.next_submits _ op hmessage haccount with hfound | hsubmits
        · exact absurd hfound hold
        · exact hsubmits

/-! ### Addresses -/

theorem Commits.sends (h : Commits w op db db')
    (halias : ∀ key account, op ≠ .insertAlias key account) {key : Text} {row' : AddressRow}
    (hrow : db'.address? key = some row') (hsends : row'.sendEnabled = true) :
    db.address? key = some row' ∨ Enables db op key row'.accountId := by
  rcases h.cases_identity with hcontent | hidentity | hbrings
  · unfold Db.address? at hrow
    rw [hcontent.addresses] at hrow
    exact Or.inl hrow
  · exact hidentity.sends halias hrow hsends
  · unfold Db.address? at hrow
    rw [hbrings.same.2] at hrow
    exact Or.inl hrow

theorem Enables.not_claim {key : Text} {account : Nat} (h : Enables db op key account) :
    (op.recovers && op.expires) = false := by
  obtain ⟨login, address, faults, owner, rfl, -⟩ := h
  rfl

/-- An alias put in by hand may receive only. -/
theorem insertAlias_sends (store : Store) (address : Text) (accountId : Nat) {key : Text}
    {row' : AddressRow} (hrow : (insertAlias store address accountId).1.db.address? key = some row')
    (hsends : row'.sendEnabled = true) : store.db.address? key = some row' := by
  unfold insertAlias at hrow
  split at hrow
  · exact hrow
  · next db' hinsert =>
      obtain ⟨-, rfl⟩ := Db.insertAddress_eq_ok.1 hinsert
      rcases address?_append hrow with hold | ⟨rfl, -⟩
      · exact hold
      · cases hsends

theorem World.next_sends (w : World) (op : Op) {key : Text} {row' : AddressRow}
    (hrow : (w.next op).store.db.address? key = some row') (hsends : row'.sendEnabled = true) :
    w.store.db.address? key = some row' ∨ Enables w.store.db op key row'.accountId := by
  by_cases halias : ∀ key account, op ≠ .insertAlias key account
  · cases hclaim : op.recovers && op.expires with
    | false =>
        rcases w.next_once op hclaim with hsame | hcommit
        · rw [hsame] at hrow
          exact Or.inl hrow
        · exact hcommit.sends halias hrow hsends
    | true =>
        left
        have hall : CommitsAll w op w.store.db (w.next op).store.db := w.next_commits op
        revert hall hrow
        generalize (w.next op).store.db = db'
        intro hrow hall
        induction hall with
        | refl => exact hrow
        | tail _ hlast ih =>
            rcases hlast.sends halias hrow hsends with hold | henables
            · exact ih hold
            · rw [henables.not_claim] at hclaim
              cases hclaim
  · left
    push Not at halias
    obtain ⟨address, accountId, rfl⟩ := halias
    change (w.call fun s => insertAlias s address accountId).1.store.db.address? key
      = some row' at hrow
    rcases w.call_cases (fun s => insertAlias s address accountId) with hsame | hstore
    · rw [hsame] at hrow
      exact hrow
    · rw [hstore] at hrow
      exact insertAlias_sends w.store address accountId hrow hsends

/-- A principal that is no longer current never is again; every message of an account was committed
while the submitting principal was current and the account could send as its sender and its author;
and an address stays with its account, which alone can enable it for sending. -/
theorem revocation_decides (root : Text) (maxMessageBytes : Nat) (ops : List Op) :
    let reached := fun ops => ((World.init root maxMessageBytes).run ops).store.db
    (∀ principal middle later, current (reached ops) principal = true →
        current (reached (ops ++ middle)) principal = false →
        current (reached (ops ++ middle ++ later)) principal = false)
      ∧ (∀ message ∈ (reached ops).messages, ∀ account,
        message.authenticatedAccountId = some account →
        ∃ before op after, ops = before ++ op :: after ∧ message ∉ (reached before).messages
          ∧ message ∈ (reached (before ++ [op])).messages
          ∧ Submits (reached before) op message account)
      ∧ (∀ later key row, (reached ops).address? key = some row →
        ∃ row', (reached (ops ++ later)).address? key = some row' ∧ row'.accountId = row.accountId)
      ∧ ∀ op key row', (reached (ops ++ [op])).address? key = some row' → row'.sendEnabled = true →
        (reached ops).address? key = some row' ∨ Enables (reached ops) op key row'.accountId := by
  intro reached
  have hlater : ∀ first second, (reached first).Later (reached (first ++ second)) := by
    intro first second
    have hreach := World.reachable_run root maxMessageBytes first
    have hrun : (World.init root maxMessageBytes).run (first ++ second)
        = ((World.init root maxMessageBytes).run first).run second := Runs.run_append first second
    change (reached first).Later ((World.init root maxMessageBytes).run (first ++ second)).store.db
    rw [hrun]
    exact World.run_later hreach second
  refine ⟨?_, ?_, ?_, ?_⟩
  · intro principal middle later hcurrent hrevoked
    rcases (hlater ops middle).current_or_passed hcurrent with hstill | hpassed
    · rw [hrevoked] at hstill
      cases hstill
    · exact ((hlater (ops ++ middle) later).passed hpassed).not_current
  · intro message hmessage account haccount
    obtain ⟨before, op, after, rfl, hnew, hdone, hsubmits⟩ :=
      World.run_submits root maxMessageBytes ops hmessage haccount
    exact ⟨before, op, after, rfl, hnew, hdone, hsubmits⟩
  · intro later key row hrow
    exact (hlater ops later).addresses key row hrow
  · intro op key row' hrow hsends
    have hlast : (World.init root maxMessageBytes).run (ops ++ [op])
        = ((World.init root maxMessageBytes).run ops).next op := Runs.run_snoc ops op
    change ((World.init root maxMessageBytes).run (ops ++ [op])).store.db.address? key = some row'
      at hrow
    rw [hlast] at hrow
    exact World.next_sends _ op hrow hsends

end Rustymail
