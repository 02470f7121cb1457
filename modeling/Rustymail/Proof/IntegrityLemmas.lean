import Rustymail.Attempts
import Rustymail.Proof.Accounting
import Rustymail.Proof.ClaimLemmas

/-!
# The store passes its own checks

Every row the program wrote satisfies what `queue_integrity_mismatches` and the other counts of
`check_integrity` look for, and a claim finds every address it parses well formed.
-/

namespace Rustymail

open Checked Loops

/-! ### A claim meets no malformed row -/

section Claim

variable {bad : StoreError}

theorem later_avoids (hbad : bad ≠ .invalidInput) (now milliseconds : Int) :
    Avoids bad (later now milliseconds) := by
  unfold later
  split_ifs
  · exact .ok _
  · exact .error hbad.symm

theorem claimOne_avoids {ctx : ClaimContext} {c : Delivery} {p : ClaimProgress}
    (hrecipient : ∃ address : Address, c.recipient = address.asStr)
    (hsenders : ∀ m ∈ p.db.messages, ∃ sender, m.reversePath = reversePathOf sender) :
    Avoids .integrity (claimOne ctx c p) := by
  obtain ⟨recipient, hrecipient⟩ := hrecipient
  unfold claimOne
  dsimp only
  split_ifs
  · exact .ok _
  · exact .ok _
  · exact .ok _
  · rw [hrecipient, Address.parse_asStr, found_some, bind_ok]
    split_ifs
    · exact .ok _
    · unfold grantLease
      refine .bind (.found (by decide)) ?_
      rintro ⟨message, queued, blob⟩ hjoin
      have hmessage : message ∈ p.db.messages := by
        rw [found_eq_ok] at hjoin
        unfold claimMessage at hjoin
        simp only [Option.bind_eq_bind, Option.bind_eq_some_iff, Option.some.injEq, Prod.mk.injEq]
          at hjoin
        obtain ⟨message', hfound, queued', -, blob', -, rfl, -⟩ := hjoin
        exact Keyed.mem_of_lookup hfound
      obtain ⟨sender, hsender⟩ := hsenders message hmessage
      dsimp only
      rw [hsender, parseSender_reversePathOf, bind_ok]
      refine .bind (later_avoids (by decide) _ _) fun deadline _ => ?_
      refine .bind ?_ fun db _ => .ok _
      exact .bind (.require (by decide)) fun _ _ => .ok _

theorem claimLoop_avoids {ctx : ClaimContext} {rows : List Delivery} {p : ClaimProgress}
    (hrecipients : ∀ c ∈ rows, ∃ address : Address, c.recipient = address.asStr)
    (hsenders : ∀ m ∈ p.db.messages, ∃ sender, m.reversePath = reversePathOf sender) :
    Avoids .integrity (claimLoop ctx rows p) := by
  induction rows generalizing p with
  | nil => exact .ok _
  | cons c rest ih =>
      unfold claimLoop
      refine .bind (claimOne_avoids (hrecipients c List.mem_cons_self) hsenders) ?_
      intro middle hone
      split_ifs
      · exact .ok _
      · refine ih (fun d hd => hrecipients d (List.mem_cons_of_mem c hd)) ?_
        rw [(claimOne_round hone).content.messages]
        exact hsenders

theorem claimTx_avoids {ctx : ClaimContext} {cursor : Int × Text} {domains : List Text} {db : Db}
    (hrefs : db.Coherent) : Avoids .integrity (claimTx ctx cursor domains db) := by
  unfold claimTx
  refine .bind (claimLoop_avoids ?_ hrefs.sender) fun progress _ => .ok _
  intro c hc
  obtain ⟨hmem, hroute, -⟩ := mem_candidates hc
  exact hrefs.recipient c hmem hroute

theorem recoverTx_avoids {active : List (Text × LeaseGuard)} {now : Int} {limit : Nat} {cursor : Text}
    {db : Db} : Avoids .integrity (recoverTx active now limit cursor db) := by
  unfold recoverTx
  refine .bind ?_ fun result _ => .ok _
  generalize recoverableRows limit cursor db = rows
  generalize (db, 0) = start
  induction rows generalizing start with
  | nil => exact .ok _
  | cons row rest ih =>
      rw [List.foldlM_cons]
      refine .bind ?_ fun middle _ => ih middle
      unfold recoverRow
      split_ifs
      · exact .ok _
      · exact .bind (later_avoids (by decide) _ _) fun next _ => .ok _

theorem transaction_avoids {α β : Type} {s : Store} {body : Db → Except StoreError (Db × α)}
    {commit : Store → Db → α → Store × Except StoreError β} (hbody : Avoids bad (body s.db))
    (hcommit : ∀ db value, Avoids bad (commit s db value).2) :
    Avoids bad (s.transaction body commit).2 := by
  unfold Store.transaction
  cases h : body s.db with
  | error e =>
      rw [h] at hbody
      exact .error fun heq => hbody (congrArg Except.error heq)
  | ok result => exact hcommit result.1 result.2

theorem transaction_error_ne {α β : Type} {s s' : Store} {body : Db → Except StoreError (Db × α)}
    {commit : Store → Db → α → Store × Except StoreError β} {e : StoreError}
    (h : s.transaction body commit = (s', .error e)) (hbody : Avoids bad (body s.db))
    (hcommit : ∀ db value, Avoids bad (commit s db value).2) : e ≠ bad := by
  have hall := transaction_avoids hbody hcommit
  rw [h] at hall
  exact hall.ne

theorem commit_avoids {α : Type} (faults : Faults) (s : Store) (db : Db) (value : α) :
    Avoids .integrity (Store.commit faults s db value).2 := by
  unfold Store.commit
  by_cases hbefore : faults.hit .queueBeforeCommit = true
  · rw [if_pos hbefore]
    exact .error (by decide)
  · rw [if_neg hbefore]
    cases faults.report with
    | failed => exact .error (by decide)
    | failedButApplied => exact .error (by decide)
    | ok =>
        dsimp only
        split_ifs
        · exact .error (by decide)
        · exact .ok value

theorem nowMs_avoids (reading : Reading) : Avoids .integrity reading.nowMs := by
  unfold Reading.nowMs
  cases reading.wall with
  | none => exact .error (by decide)
  | some wall =>
      dsimp only
      split_ifs
      · exact .ok wall
      · exact .error (by decide)

theorem now_avoids (queue : QueueRuntime) (reading : Reading) :
    Avoids .integrity (queue.now reading).2 := by
  unfold QueueRuntime.now
  have hclock := nowMs_avoids reading
  cases h : reading.nowMs with
  | error e =>
      rw [h] at hclock
      exact hclock
  | ok wall =>
      dsimp only
      split_ifs
      · exact .error (by decide)
      · exact .ok wall

theorem commitUnless_avoids {α : Type} (faults : Faults) (s : Store) (nothing : α → Prop)
    [DecidablePred nothing] (db : Db) (value : α) :
    Avoids .integrity
      (if nothing value then (s, .ok value) else Store.commit faults s db value :
        Store × Except StoreError α).2 := by
  split_ifs
  · exact .ok value
  · exact commit_avoids faults s db value

theorem queueRecover_avoids (s : Store) (limit : Nat) (live : LeaseGuard → Bool) (reading : Reading)
    (faults : Faults) : Avoids .integrity (queueRecover s limit live reading faults).2 := by
  unfold queueRecover
  split_ifs
  · dsimp only
    have hclock := nowMs_avoids reading
    cases hnow : reading.nowMs with
    | error e => exact .error (hnow ▸ hclock).ne
    | ok now =>
        dsimp only
        split
        · rename_i hresult
          exact .error (transaction_error_ne hresult recoverTx_avoids
            (commitUnless_avoids faults _ fun result : Nat × List (Text × Bool) => result.1 = 0))
        · exact .ok _
  · exact .error (by decide)

theorem queueExpire_avoids (s : Store) (limit : Nat) (reading : Reading) (faults : Faults) :
    Avoids .integrity (queueExpire s limit reading faults).2 := by
  unfold queueExpire
  split_ifs
  · have hclock := now_avoids s.queue reading
    split
    · rename_i hresult
      exact .error (hresult ▸ hclock).ne
    · exact transaction_avoids (.ok _) (commitUnless_avoids faults _ fun count => count = 0)
  · exact .error (by decide)

theorem claimReady_avoids {s : Store} (hrefs : s.db.Coherent) (policy : QueuePolicy) (limit : Nat)
    (now : Int) (counted : LeaseGuard → Bool) (input : ClaimInput) :
    Avoids .integrity (claimReady s policy limit now counted input).2 := by
  unfold claimReady
  dsimp only
  split_ifs
  · exact .ok _
  · split
    · rename_i hresult
      exact .error (transaction_error_ne hresult (claimTx_avoids hrefs)
        (commit_avoids input.claimFaults s))
    · exact .ok _

/-- Nothing a claim reads from a coherent store is malformed. -/
theorem queueClaim_avoids {s : Store} (hrefs : s.db.Coherent) (policy : QueuePolicy) (limit : Nat)
    (live counted : LeaseGuard → Bool) (input : ClaimInput) :
    Avoids .integrity (queueClaim s policy limit live counted input).2 := by
  unfold queueClaim
  split_ifs
  · have hclock := now_avoids s.queue input.guardReading
    split
    · rename_i hresult
      exact .error (hresult ▸ hclock).ne
    · rename_i queue now hnow
      have hrecover := queueRecover_avoids { s with queue := queue } batch live input.recoverReading
        input.recoverFaults
      obtain ⟨-, hdb⟩ := queueRecover_leaves { s with queue := queue } ⟨by decide, le_rfl⟩ live
        input.recoverReading input.recoverFaults
      split
      · rename_i hresult
        exact .error (hresult ▸ hrecover).ne
      · rename_i recovered count hresult
        rw [hresult] at hdb
        have hcontent : SameContent s.db recovered.db := by
          rcases hdb with hsame | ⟨now, result, htx⟩
          · exact hsame ▸ .refl _
          · exact recoverTx_content htx
        have hexpire := queueExpire_avoids recovered batch input.expireReading input.expireFaults
        obtain ⟨-, hdb'⟩ := queueExpire_leaves recovered batch input.expireReading input.expireFaults
        split
        · rename_i hresult'
          exact .error (hresult' ▸ hexpire).ne
        · rename_i expired count' hresult'
          rw [hresult'] at hdb'
          have hcontent' : SameContent s.db expired.db := by
            rcases hdb' with hsame | ⟨now, count, htx⟩
            · exact hsame ▸ hcontent
            · exact hcontent.trans (expireTx_content htx)
          exact claimReady_avoids (hcontent'.refs.coherent hrefs) policy limit now counted input
  · exact .error (by decide)

end Claim

/-! ### The counts -/

section Counts

variable {w : World} {d : Delivery}

theorem World.Reachable.delivery_wf (h : w.Reachable) (hd : d ∈ w.store.db.deliveries) :
    (d.route = .relay ∧ d.RelayWf ((w.store.db.queueLease? d.id).map QueueLeaseRow.phase)
        (w.store.db.notification? d.id).isSome)
      ∨ (d.route = .localMail ∧ d.LocalWf ((w.store.db.queueLease? d.id).map QueueLeaseRow.phase)
        (w.store.db.notification? d.id).isSome) := by
  have hwf := h.view_wf d.id
  have hrow : (w.store.db.view d.id).row = some d := Keyed.lookup_of_mem h.keys.deliveries hd
  cases hroute : d.route with
  | relay => exact Or.inl ⟨rfl, hwf.relay d hrow hroute⟩
  | localMail => exact Or.inr ⟨rfl, hwf.localMail d hrow hroute⟩
  | direct => exact absurd hroute (hwf.route d hrow)

theorem World.Reachable.queueMismatch (h : w.Reachable) (hd : d ∈ w.store.db.deliveries) :
    d.queueMismatch w.store.db = false := by
  unfold Delivery.queueMismatch
  rcases h.delivery_wf hd with ⟨hroute, hwf⟩ | ⟨hroute, hwf⟩
  · have hqueued := h.coherent.relay_queued d hd hroute
    have hleased := hwf.leased_iff
    rw [Option.isSome_map] at hleased
    rw [if_pos hroute, Option.isNone_eq_false_iff.2 hqueued]
    by_cases hstate : d.state = .leased
    · obtain ⟨token, htoken, hlength⟩ := hwf.token_iff.1 hstate
      simp [hstate, hleased.1 hstate, htoken, hlength]
    · have hnone : (w.store.db.queueLease? d.id).isSome = false :=
        Bool.eq_false_iff.2 fun hsome => hstate (hleased.2 hsome)
      simp [hstate, hnone, hwf.token_none hstate]
  · have hphase := hwf.no_phase
    rw [Option.map_eq_none_iff] at hphase
    rw [if_neg (by simp [hroute]), hphase]
    rfl

theorem World.Reachable.outcomeMismatch (h : w.Reachable) (hd : d ∈ w.store.db.deliveries) :
    d.outcomeMismatch w.store.db = false := by
  unfold Delivery.outcomeMismatch
  rcases h.delivery_wf hd with ⟨hroute, hwf⟩ | ⟨hroute, hwf⟩
  · have hcreated : decide (d.notificationState = .created)
        = (w.store.db.notification? d.id).isSome := by
      rw [Bool.eq_iff_iff, decide_eq_true_eq]
      exact hwf.created_iff
    have hclosed : (d.closedAtMs.isSome && (decide (d.state ≠ .uncertain) || !d.possiblyDelivered))
        = false := by
      cases hc : d.closedAtMs with
      | none => rfl
      | some now =>
          obtain ⟨hstate, hflag⟩ := hwf.closed_unknown (by simp [hc])
          simp [hstate, hflag]
    have hfailed : (decide (d.state = .failed) && d.possiblyDelivered) = false := by
      by_cases hstate : d.state = .failed
      · simp [hwf.certain_flag (Or.inr hstate)]
      · simp [hstate]
    rw [hcreated, hclosed, hfailed]
    simp
  · simp [hwf.notification_pending, hwf.unreported, hwf.open_, hwf.certain]

theorem World.Reachable.queueIntegrityMismatches (h : w.Reachable) :
    queueIntegrityMismatches w.store.db = 0 := by
  have hfirst : w.store.db.deliveries.countP (Delivery.queueMismatch w.store.db) = 0 := by
    rw [List.countP_eq_zero]
    intro d hd
    rw [h.queueMismatch hd]
    exact Bool.false_ne_true
  have hsecond : w.store.db.queueMessages.countP (fun q => !w.store.db.deliveries.any fun d =>
      decide (d.messageId = q.messageId ∧ d.route = .relay)) = 0 := by
    rw [List.countP_eq_zero]
    intro q hq
    obtain ⟨d, hd, hrelay⟩ := h.coherent.queued_relay q hq
    have hany : (w.store.db.deliveries.any fun d =>
        decide (d.messageId = q.messageId ∧ d.route = .relay)) = true :=
      List.any_eq_true.2 ⟨d, hd, decide_eq_true hrelay⟩
    rw [hany]
    exact Bool.false_ne_true
  have hthird : w.store.db.deliveries.countP (Delivery.outcomeMismatch w.store.db) = 0 := by
    rw [List.countP_eq_zero]
    intro d hd
    rw [h.outcomeMismatch hd]
    exact Bool.false_ne_true
  unfold Rustymail.queueIntegrityMismatches
  rw [hfirst, hsecond, hthird]

theorem World.Reachable.quotaMismatches (h : w.Reachable) : w.store.db.quotaMismatches = 0 := by
  unfold Db.quotaMismatches
  rw [List.countP_eq_zero]
  intro a ha
  simpa using h.books.used a ha

theorem World.Reachable.uidMismatches (h : w.Reachable) : w.store.db.uidMismatches = 0 := by
  unfold Db.uidMismatches
  rw [List.countP_eq_zero]
  intro box hbox
  have hseq := h.books.eventSeq box hbox
  have huid : w.store.db.highestUid box.id < box.uidnext :=
    Ledger.highest_lt (h.books.uidnext box hbox).1 fun e he hsame => h.books.ahead box hbox e he hsame
  rw [decide_eq_true_eq]
  omega

theorem World.Reachable.deliveryMismatches (h : w.Reachable) :
    w.store.db.deliveryMismatches = 0 := by
  unfold Db.deliveryMismatches
  rw [List.countP_eq_zero]
  intro e he
  cases hid : e.deliveryId with
  | none => simp
  | some id =>
      obtain ⟨d, hrow, hroute, hstate, hmessage⟩ := h.entry_delivery he hid
      simp [hrow, hroute, hstate, hmessage]

end Counts

/-- The representation invariant of the queue, and what follows from it: the store's own checks
find nothing wrong in the tables, so start-up can fail on the blob directory alone, and a claim never
fails on a malformed row. -/
theorem queue_representation (w : World) (hreach : w.Reachable) :
    (∀ d ∈ w.store.db.deliveries, d.route = .relay →
        (d.state = .leased ↔ (w.store.db.queueLease? d.id).isSome)
          ∧ (d.state = .leased ↔ ∃ token, d.leaseToken = some token ∧ token.length = 32)
          ∧ (d.state ≠ .leased → d.leaseToken = none)
          ∧ (w.store.db.queueMessage? d.messageId).isSome
          ∧ ∃ address, Address.parse d.recipient = some address ∧ address.asStr = d.recipient)
      ∧ (∀ q ∈ w.store.db.queueMessages, ∃ d ∈ w.store.db.deliveries,
        d.messageId = q.messageId ∧ d.route = .relay)
      ∧ (∀ d ∈ w.store.db.deliveries,
        (d.state = .uncertain → d.possiblyDelivered = true)
          ∧ (d.state = .deferred ∨ d.state = .failed → d.possiblyDelivered = false)
          ∧ (d.closedAtMs ≠ none → d.state = .uncertain ∧ d.possiblyDelivered = true)
          ∧ (d.notificationState = .created ↔ (w.store.db.notification? d.id).isSome))
      ∧ (∀ m ∈ w.store.db.messages, m.reversePath ≠ [] →
        ∃ address, Address.parse m.reversePath = some address ∧ address.asStr = m.reversePath)
      ∧ queueIntegrityMismatches w.store.db = 0
      ∧ (∀ policy limit keepLease keepReader input,
        (w.step (.queueClaim policy limit keepLease keepReader input)).2 ≠ .leases (.error .integrity))
      ∧ ∀ findings, (checkIntegrity w.store findings).healthy = true ↔
        findings.missingBlobs = 0 ∧ findings.corruptBlobs = 0 ∧ findings.unexpectedFiles = 0 := by
  refine ⟨?_, hreach.coherent.queued_relay, ?_, ?_, hreach.queueIntegrityMismatches, ?_, ?_⟩
  · intro d hd hroute
    obtain ⟨address, hrecipient⟩ := hreach.coherent.recipient d hd hroute
    rcases hreach.delivery_wf hd with ⟨-, hwf⟩ | ⟨hlocal, -⟩
    · have hleased := hwf.leased_iff
      rw [Option.isSome_map] at hleased
      refine ⟨hleased, hwf.token_iff, hwf.token_none, hreach.coherent.relay_queued d hd hroute,
        address, ?_, hrecipient.symm⟩
      rw [hrecipient]
      exact Address.parse_asStr address
    · rw [hroute] at hlocal
      cases hlocal
  · intro d hd
    rcases hreach.delivery_wf hd with ⟨-, hwf⟩ | ⟨-, hwf⟩
    · exact ⟨hwf.uncertain_flag, hwf.certain_flag, hwf.closed_unknown, hwf.created_iff⟩
    · simp [hwf.state_eq, hwf.open_, hwf.notification_pending, hwf.unreported]
  · intro m hm hpath
    obtain ⟨sender, hsender⟩ := hreach.coherent.sender m hm
    cases sender with
    | none => exact absurd hsender hpath
    | some address =>
        refine ⟨address, ?_, hsender.symm⟩
        rw [hsender]
        exact Address.parse_asStr address
  · intro policy limit keepLease keepReader input hfailed
    have hreply : (w.claim policy limit keepLease keepReader input).2 = .error .integrity :=
      Reply.leases.inj hfailed
    rcases w.claim_cases policy limit keepLease keepReader input with
      hclosed | ⟨e, herror, hclaim⟩ | ⟨leases, hok, hclaim⟩
    · rw [hclosed] at hreply
      cases hreply
    · rw [hclaim] at hreply
      cases hreply
      exact queueClaim_avoids hreach.coherent _ _ _ _ _ herror
    · rw [hclaim] at hreply
      cases hreply
  · intro findings
    unfold IntegrityReport.healthy checkIntegrity
    rw [hreach.quotaMismatches, hreach.uidMismatches, hreach.deliveryMismatches,
      hreach.queueIntegrityMismatches]
    simp [and_assoc]

/-- With a lease out and its body begun, the sample directory is healthy. -/
theorem queue_representation_in_body :
    Sample.inBody.store.db.queueLeases ≠ [] ∧ queueIntegrityMismatches Sample.inBody.store.db = 0
      ∧ (checkIntegrity Sample.inBody.store ⟨0, 0, 0⟩).healthy = true := by
  obtain ⟨-, -, -, -, hcount, -, hhealthy⟩ :=
    queue_representation Sample.inBody (Sample.reachable _)
  exact ⟨by decide, hcount, (hhealthy ⟨0, 0, 0⟩).2 ⟨rfl, rfl, rfl⟩⟩

end Rustymail
