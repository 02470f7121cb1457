import Rustymail.Proof.CommitLemmas

namespace Rustymail

namespace World

variable {α : Type} {w : World} {op : Op}

theorem call_opened (hopen : w.opened = true) (f : Store → Store × Except StoreError α) :
    w.call f = ({ w with store := (f w.store).1 }, (f w.store).2) := by
  unfold call
  rw [if_pos hopen]

theorem call_closed (hclosed : ¬ w.opened = true) (f : Store → Store × Except StoreError α) :
    w.call f = (w, .error .workerUnavailable) := by
  unfold call
  rw [if_neg hclosed]

/-- A call replaces the store and nothing else of the world. -/
theorem call_cases (w : World) (f : Store → Store × Except StoreError α) :
    (w.call f).1 = w ∨ (w.call f).1 = { w with store := (f w.store).1 } := by
  by_cases hopen : w.opened = true
  · exact Or.inr (by rw [call_opened hopen])
  · exact Or.inl (by rw [call_closed hopen])

theorem callWith_cases (w : World) (serial : Nat)
    (f : QueueLease → Store → Store × Except StoreError α) :
    (w.callWith serial f).1 = w
      ∨ ∃ lease, w.lease? serial = some lease
        ∧ (w.callWith serial f).1 = { w with store := (f lease w.store).1 } := by
  unfold callWith
  cases hlease : w.lease? serial with
  | none => exact Or.inl rfl
  | some lease =>
      rcases w.call_cases (f lease) with hsame | hstore
      · exact Or.inl hsame
      · exact Or.inr ⟨lease, rfl, hstore⟩

theorem openBody_cases (w : World) (serial : Nat) (file : Except StoreError Unit) :
    (w.openBody serial file).1 = w
      ∨ ∃ lease reader, w.lease? serial = some lease
        ∧ queueOpenBody w.store lease file = .ok reader
        ∧ (w.openBody serial file).1 = { w with readers := w.readers ++ [reader] } := by
  unfold openBody callWith
  cases hlease : w.lease? serial with
  | none => exact Or.inl rfl
  | some lease =>
      dsimp only
      by_cases hopen : w.opened = true
      · rw [call_opened hopen]
        cases hreader : queueOpenBody w.store lease file with
        | error e => exact Or.inl rfl
        | ok reader => exact Or.inr ⟨lease, reader, rfl, hreader, rfl⟩
      · rw [call_closed hopen]
        exact Or.inl rfl

theorem reopen_cases (w : World) (maxMessageBytes : Nat) :
    (w.reopen maxMessageBytes).1 = w
      ∨ (w.opened = false ∧ w.leases = [] ∧ w.readers = []
        ∧ (w.reopen maxMessageBytes).1 =
          { w with
            opened := true
            store := { w.store with
              maxMessageBytes := maxMessageBytes
              lock := w.store.lock + 1
              queue := {} } }) := by
  unfold reopen
  split_ifs with hheld
  · exact Or.inl rfl
  · simp only [not_or, Bool.not_eq_true, not_not] at hheld
    obtain ⟨hclosed, hleases, hreaders⟩ := hheld
    exact Or.inr ⟨hclosed, hleases, hreaders, rfl⟩

theorem claim_cases (w : World) (policy : QueuePolicy) (limit : Nat) (keepLease : QueueLease → Bool)
    (keepReader : QueuedReader → Bool) (input : ClaimInput) :
    let rest := w.without keepLease keepReader
    let result := queueClaim w.store policy limit w.live rest.live input
    w.claim policy limit keepLease keepReader input = (rest, .error .workerUnavailable)
      ∨ (∃ e, result.2 = .error e ∧ w.claim policy limit keepLease keepReader input
          = ({ rest with store := result.1 }, .error e))
      ∨ ∃ leases, result.2 = .ok leases
          ∧ w.claim policy limit keepLease keepReader input =
            ({ rest with
              store := result.1
              leases := rest.leases ++ leases
              issued := rest.issued ++ leases }, .ok leases) := by
  intro rest result
  by_cases hopen : rest.opened = true
  · have hcall := call_opened hopen fun store =>
      queueClaim store policy limit w.live rest.live input
    change rest.call _ = ({ rest with store := result.1 }, result.2) at hcall
    unfold claim
    dsimp only
    rw [hcall]
    right
    cases hresult : result.2 with
    | error e => exact Or.inl ⟨e, rfl, rfl⟩
    | ok leases => exact Or.inr ⟨leases, rfl, rfl⟩
  · have hcall := call_closed hopen fun store =>
      queueClaim store policy limit w.live rest.live input
    unfold claim
    dsimp only
    rw [hcall]
    exact Or.inl rfl

/-- The operation left at most one transaction behind. -/
def CommitsOnce (w : World) (op : Op) (db db' : Db) : Prop := db' = db ∨ Commits w op db db'

theorem CommitsOnce.of_leaves {tx : Db → Db → Prop} {s : Store} (h : w.store.Leaves tx s)
    (hcommits : ∀ db db', tx db db' → Commits w op db db') : CommitsOnce w op w.store.db s.db :=
  h.2.imp_right (hcommits _ _)

theorem CommitsOnce.call {tx : Db → Db → Prop} {f : Store → Store × Except StoreError α}
    (h : w.store.Leaves tx (f w.store).1)
    (hcommits : ∀ db db', tx db db' → Commits w op db db') :
    CommitsOnce w op w.store.db (w.call f).1.store.db := by
  rcases w.call_cases f with hsame | hstore
  · rw [hsame]
    exact Or.inl rfl
  · rw [hstore]
    exact CommitsOnce.of_leaves h hcommits

theorem CommitsOnce.callWith {tx : QueueLease → Db → Db → Prop} {serial : Nat}
    {f : QueueLease → Store → Store × Except StoreError α}
    (h : ∀ lease, w.store.Leaves (tx lease) (f lease w.store).1)
    (hcommits : ∀ lease db db', w.lease? serial = some lease → tx lease db db' →
      Commits w op db db') :
    CommitsOnce w op w.store.db (w.callWith serial f).1.store.db := by
  rcases w.callWith_cases serial f with hsame | ⟨lease, hlease, hstore⟩
  · rw [hsame]
    exact Or.inl rfl
  · rw [hstore]
    exact CommitsOnce.of_leaves (h lease) fun db db' => hcommits lease db db' hlease

theorem CommitsAll.swept {s : Store} (hrecovers : op.recovers = true)
    (hexpires : op.expires = true) (h : Swept w.store w.live s) :
    CommitsAll w op w.store.db s.db := by
  obtain ⟨middle, hfirst, hsecond⟩ := h.db
  have hrecover : CommitsAll w op w.store.db middle := by
    rcases hfirst with rfl | ⟨now, cursor, result, htx⟩
    · exact Relation.ReflTransGen.refl
    · exact Relation.ReflTransGen.single (Commits.recover hrecovers htx)
  rcases hsecond with heq | ⟨now, count, htx⟩
  · rw [heq]
    exact hrecover
  · exact hrecover.tail (Commits.expire hexpires htx)

theorem claim_commits (w : World) (policy : QueuePolicy) (limit : Nat)
    (keepLease : QueueLease → Bool) (keepReader : QueuedReader → Bool) (input : ClaimInput) :
    CommitsAll w (.queueClaim policy limit keepLease keepReader input) w.store.db
      (w.claim policy limit keepLease keepReader input).1.store.db := by
  have hclaim : CommitsAll w (.queueClaim policy limit keepLease keepReader input) w.store.db
      (queueClaim w.store policy limit w.live (w.without keepLease keepReader).live input).1.db := by
    rcases queueClaim_cases w.store policy limit w.live (w.without keepLease keepReader).live input
      with ⟨e, swept, -, hswept, hend⟩ | ⟨leases, swept, -, -, hswept, -, hend⟩
    · have hfirst : CommitsAll w (.queueClaim policy limit keepLease keepReader input) w.store.db
          swept.db := CommitsAll.swept rfl rfl hswept
      rcases hend with hsame | ⟨-, hsame | ⟨ctx, cursor, domains, result, htx⟩⟩
      · rw [hsame]
        exact hfirst
      · rw [hsame]
        exact hfirst
      · exact hfirst.tail (Commits.claim htx)
    · have hfirst : CommitsAll w (.queueClaim policy limit keepLease keepReader input) w.store.db
          swept.db := CommitsAll.swept rfl rfl hswept
      rcases hend with ⟨-, hsame⟩ | ⟨⟨hclaimed⟩⟩
      · rw [hsame]
        exact hfirst
      · exact hfirst.tail (Commits.claim hclaimed.tx)
  rcases w.claim_cases policy limit keepLease keepReader input with
    hsame | ⟨e, -, hfailed⟩ | ⟨leases, -, hdone⟩
  · rw [hsame]
    exact Relation.ReflTransGen.refl
  · rw [hfailed]
    exact hclaim
  · rw [hdone]
    exact hclaim

/-- Every operation but a claim leaves at most one transaction behind. -/
theorem next_once (w : World) (op : Op)
    (hclaim : (op.recovers && op.expires) = false) :
    CommitsOnce w op w.store.db (w.next op).store.db := by
  cases op with
  | createAccount address quotaBytes reading uidvalidity faults =>
      refine CommitsOnce.call (createAccount_leaves _ address quotaBytes reading uidvalidity faults) ?_
      rintro db db' ⟨hquota, now, htx⟩
      exact .createAccount hquota htx
  | setAccountQuota address bytes =>
      refine CommitsOnce.call (setAccountQuota_leaves _ address bytes) ?_
      rintro db db' ⟨hbytes, account, haccount, hused, rfl⟩
      exact .setAccountQuota hbytes haccount hused
  | finishAuthentication principal reading faults =>
      refine CommitsOnce.call (finishAuthentication_leaves _ principal reading faults) ?_
      rintro db db' ⟨now, htx⟩
      exact .finishAuthentication htx
  | createCredential login selector label scope phc reading =>
      refine CommitsOnce.call (createCredential_leaves _ login selector label scope phc reading) ?_
      rintro db db' ⟨row, -, -, -, htx⟩
      exact .createCredential htx
  | revokeCredential selector reading faults =>
      refine CommitsOnce.call (revokeCredential_leaves _ selector reading faults) ?_
      rintro db db' ⟨now, account, htx⟩
      exact .revokeCredential htx
  | disableAccount login reading faults =>
      refine CommitsOnce.call (disableAccount_leaves _ login reading faults) ?_
      rintro db db' ⟨now, account, htx⟩
      exact .disableAccount htx
  | setSendAs login address enabled faults =>
      refine CommitsOnce.call (setSendAs_leaves _ login address enabled faults) ?_
      rintro db db' ⟨account, htx⟩
      exact .setSendAs htx
  | insertAlias address accountId =>
      refine CommitsOnce.call (insertAlias_leaves _ address accountId) ?_
      rintro db db' ⟨row, htx⟩
      exact .insertAlias htx
  | accept ids message plan reading faults =>
      refine CommitsOnce.call (acceptInner_leaves _ ids message plan none none reading faults) ?_
      rintro db db' ⟨hvalid, hauth, hnew, now, -, htx⟩
      exact .acceptance rfl hvalid hauth hnew htx
  | acceptSubmission ids message plan identity reading faults =>
      refine CommitsOnce.call
        (acceptInner_leaves _ ids message plan (some identity) none reading faults) ?_
      rintro db db' ⟨hvalid, hauth, hnew, now, -, htx⟩
      exact .acceptance rfl hvalid hauth hnew htx
  | acceptRelaySubmission ids message plan identity relay reading faults =>
      refine CommitsOnce.call
        (acceptInner_leaves _ ids message plan (some identity) (some relay) reading faults) ?_
      rintro db db' ⟨hvalid, hauth, hnew, now, -, htx⟩
      exact .acceptance rfl hvalid hauth hnew htx
  | enqueue ids message plan reading faults =>
      refine CommitsOnce.call (enqueue_leaves _ ids message plan reading faults) ?_
      rintro db db' ⟨hvalid, hnew, now, -, htx⟩
      exact .enqueue hvalid hnew htx
  | queueExpire limit reading faults =>
      refine CommitsOnce.call (queueExpire_leaves _ limit reading faults) ?_
      rintro db db' ⟨now, count, htx⟩
      exact .expire rfl htx
  | queueRecover limit reading faults =>
      rcases w.call_cases (fun s => Rustymail.queueRecover s limit w.live reading faults) with
        hsame | hstore
      · change CommitsOnce w _ w.store.db (w.call _).1.store.db
        rw [hsame]
        exact Or.inl rfl
      · change CommitsOnce w _ w.store.db (w.call _).1.store.db
        rw [hstore]
        by_cases hlimit : 1 ≤ limit ∧ limit ≤ batch
        · rcases (queueRecover_leaves w.store hlimit w.live reading faults).2 with
            hdb | ⟨now, result, htx⟩
          · rw [hdb]
            exact Or.inl rfl
          · exact Or.inr (.recover rfl htx)
        · rw [queueRecover_invalid w.store hlimit]
          exact Or.inl rfl
  | queueClaim policy limit keepLease keepReader input =>
      cases hclaim
  | queueRenew serial seconds reading faults =>
      refine CommitsOnce.callWith (fun lease => queueRenew_leaves _ lease seconds reading faults) ?_
      rintro lease db db' hlease ⟨now, htx⟩
      exact .renew hlease htx
  | queueMarkBody serial faults =>
      refine CommitsOnce.callWith (fun lease => queueMarkBody_leaves _ lease faults) ?_
      intro lease db db' hlease htx
      exact .markBody hlease htx
  | queueOpenBody serial file =>
      change CommitsOnce w _ w.store.db (w.openBody serial file).1.store.db
      rcases w.openBody_cases serial file with hsame | ⟨lease, reader, -, -, hstore⟩
      · rw [hsame]
        exact Or.inl rfl
      · rw [hstore]
        exact Or.inl rfl
  | queueFinish serial outcome reading guardReading faults =>
      change CommitsOnce w _ w.store.db (w.callWith serial fun lease s =>
        queueFinish s lease outcome reading guardReading faults).1.store.db
      refine CommitsOnce.callWith
        (fun lease => queueFinish_leaves _ lease outcome reading guardReading faults) ?_
      rintro lease db db' hlease ⟨now, due, htx⟩
      exact .finish hlease htx
  | queueHold id reading faults =>
      refine CommitsOnce.call (queueHold_leaves _ id reading faults) ?_
      rintro db db' ⟨now, htx⟩
      exact .hold htx
  | queueRetry id allowDuplicate extendExpired reading faults =>
      refine CommitsOnce.call
        (queueRetry_leaves _ id allowDuplicate extendExpired reading faults) ?_
      rintro db db' ⟨now, htx⟩
      exact .retry htx
  | queueCloseUnknown id note reading faults =>
      refine CommitsOnce.call (queueCloseUnknown_leaves _ id note reading faults) ?_
      rintro db db' ⟨now, htx⟩
      exact .closeUnknown htx
  | notificationNext policy input =>
      refine CommitsOnce.call (notificationNext_leaves _ policy input) ?_
      rintro db db' (⟨now, failure, reason, hdue, hreason, rfl⟩ | ⟨id, reason, due, rfl⟩)
      · exact .suppress hdue hreason
      · exact .postpone
  | notificationFailed id error reading =>
      refine CommitsOnce.call (notificationFailed_leaves _ id error reading) ?_
      rintro db db' ⟨reason, due, rfl⟩
      exact .postpone
  | notificationCommit prepared delivery reading faults =>
      refine CommitsOnce.call (notificationCommit_leaves _ prepared delivery reading faults) ?_
      rintro db db' ⟨hnew, heligible, now, htx⟩
      exact .report hnew heligible htx
  | dropLease serial => exact Or.inl rfl
  | dropReader index => exact Or.inl rfl
  | close => exact Or.inl rfl
  | crash => exact Or.inl rfl
  | reopen maxMessageBytes =>
      change CommitsOnce w _ w.store.db (w.reopen maxMessageBytes).1.store.db
      rcases w.reopen_cases maxMessageBytes with hsame | ⟨-, -, -, hstore⟩
      · rw [hsame]
        exact Or.inl rfl
      · rw [hstore]
        exact Or.inl rfl

/-- **What one operation leaves behind.** Every change of the database is one of its commits. -/
theorem next_commits (w : World) (op : Op) : CommitsAll w op w.store.db (w.next op).store.db := by
  cases hclaim : op.recovers && op.expires with
  | false =>
      rcases w.next_once op hclaim with hsame | hcommit
      · rw [hsame]
        exact Relation.ReflTransGen.refl
      · exact Relation.ReflTransGen.single hcommit
  | true =>
      cases op with
      | queueClaim policy limit keepLease keepReader input =>
          exact w.claim_commits policy limit keepLease keepReader input
      | _ => cases hclaim

theorem Reachable.next {w : World} (h : w.Reachable) (op : Op) : (w.next op).Reachable := by
  obtain ⟨root, maxMessageBytes, h⟩ := h
  exact ⟨root, maxMessageBytes, h.next op⟩

theorem Reachable.run {w : World} (h : w.Reachable) (ops : List Op) : (w.run ops).Reachable := by
  obtain ⟨root, maxMessageBytes, h⟩ := h
  exact ⟨root, maxMessageBytes, h.run ops⟩

theorem reachable_run (root : Text) (maxMessageBytes : Nat) (ops : List Op) :
    ((init root maxMessageBytes).run ops).Reachable :=
  ⟨root, maxMessageBytes, ops, rfl⟩

/-- An invariant of the worlds may lean on what is known of reachable ones. -/
theorem Reachable.induct {w : World} (h : w.Reachable) (inv : World → Prop)
    (hinit : ∀ root maxMessageBytes, inv (init root maxMessageBytes))
    (hstep : ∀ w op, w.Reachable → inv w → inv (w.next op)) : inv w := by
  obtain ⟨root, maxMessageBytes, h⟩ := h
  refine (h.invariant (fun w => w.Reachable ∧ inv w) ⟨?_, hinit root maxMessageBytes⟩ ?_).2
  · exact reachable_run root maxMessageBytes []
  · intro w op hw
    exact ⟨hw.1.next op, hstep w op hw.1 hw.2⟩

end World

/-- What every commit keeps holds in every world a fresh directory leads to. -/
theorem World.Reachable.of_commits {w : World} (h : w.Reachable) (inv : Db → Prop)
    (hinit : inv {}) (hcommits : ∀ w op db db', Commits w op db db' → inv db → inv db') :
    inv w.store.db := by
  obtain ⟨root, maxMessageBytes, h⟩ := h
  refine h.invariant (fun w => inv w.store.db) hinit ?_
  intro w op hw
  have hall := w.next_commits op
  revert hall
  generalize (w.next op).store.db = db'
  intro hall
  induction hall with
  | refl => exact hw
  | tail _ hlast ih => exact hcommits w op _ _ hlast ih

end Rustymail
