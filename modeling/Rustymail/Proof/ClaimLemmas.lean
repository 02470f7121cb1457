import Rustymail.Proof.Keys

/-!
# What a claim hands out

The leases of one claim are for distinct deliveries, each found ready and free, and leased in the
database under the lease's generation; their guards are new, and neither the number of leases nor
the number of guards of a domain exceeds what the policy leaves room for.
-/

namespace Rustymail

open Checked Loops

/-- A recorded return path is the sender it came from. -/
theorem parseSender_reversePathOf (sender : Option Address) :
    parseSender (reversePathOf sender) = .ok sender := by
  cases sender with
  | none => rfl
  | some address =>
      have hne : reversePathOf (some address) ≠ [] := Address.text_ne_nil address
      unfold parseSender
      rw [if_neg hne]
      rw [show reversePathOf (some address) = address.asStr from rfl, Address.parse_asStr]
      rfl

/-- The lease was granted for this candidate. -/
structure GrantedFor (ctx : ClaimContext) (c : Delivery) (l : QueueLease) : Prop where
  id_eq : l.id = c.id
  generation_eq : l.generation = c.generation + 1
  lock_eq : l.guard.lock = ctx.lock
  domain_eq : l.guard.domain = l.recipient.domain
  free : (ctx.active.any fun entry => entry.1 = c.id) = false

/-- The delivery is leased under this lease. -/
def Db.LeasedUnder (db : Db) (l : QueueLease) : Prop :=
  ∃ row, db.delivery? l.id = some row ∧ row.route = .relay ∧ row.state = .leased
    ∧ row.leaseToken = some l.token ∧ row.generation = l.generation

/-- The lease says what the rows of its message say. -/
def Db.Recorded (db : Db) (l : QueueLease) : Prop :=
  ∃ message queued blob, claimMessage db l.messageId = some (message, queued, blob)
    ∧ parseSender message.reversePath = .ok l.sender ∧ l.body = queued.bodyMode
    ∧ l.blobId = message.blobId ∧ l.storedSize = blob.sizeBytes
    ∧ l.submission = decide (message.source = .submission)

theorem SameContent.claimMessage_eq {db db' : Db} (h : SameContent db db') (id : Text) :
    claimMessage db' id = claimMessage db id := by
  unfold claimMessage Db.message? Db.queueMessage? Db.blob?
  rw [h.messages, h.queueMessages, h.blobs]

theorem SameContent.recorded {db db' : Db} (h : SameContent db db') {l : QueueLease}
    (hl : db.Recorded l) : db'.Recorded l := by
  obtain ⟨message, queued, blob, hjoin, hrest⟩ := hl
  exact ⟨message, queued, blob, (h.claimMessage_eq l.messageId).trans hjoin, hrest⟩

section Loop

variable {ctx : ClaimContext} {rows : List Delivery} {p p' : ClaimProgress}

theorem ClaimRound.delivery_eq {c : Delivery} (h : ClaimRound ctx c p p') {k : Text}
    (hk : k ≠ c.id) : p'.db.delivery? k = p.db.delivery? k :=
  congrArg View.row (h.view_eq hk)

theorem ClaimRound.leases_cases {c : Delivery} (h : ClaimRound ctx c p p')
    (hrow : p.db.delivery? c.id = some c) (hroute : c.route = .relay) :
    (p'.leases = p.leases ∧ p'.domains = p.domains)
      ∨ ∃ l, p'.leases = p.leases ++ [l] ∧ p'.domains = l.guard.domain :: p.domains
        ∧ GrantedFor ctx c l ∧ p'.db.LeasedUnder l
        ∧ l.guard.serial = ctx.nextGuard + p.leases.length
        ∧ p.domains.count l.guard.domain < ctx.policy.perDomain := by
  cases h with
  | skipped => exact Or.inl ⟨rfl, rfl⟩
  | exhausted => exact Or.inl ⟨rfl, rfl⟩
  | @granted recipient message queued blob deadline db lease hfree hparse hdomain hjoin hinsert hid
      htoken hgeneration hrecipient hguard =>
      have hleased : db.delivery? c.id = some (c.lease (ctx.token c.id).text deadline) := by
        obtain ⟨-, rfl⟩ := Db.insertQueueLease_eq_ok.1 hinsert
        change (p.db.updateDelivery c.id _).delivery? c.id = _
        rw [Db.delivery_updateDelivery (f := Delivery.lease _ _) fun _ => rfl, if_pos rfl, hrow]
        rfl
      right
      refine ⟨lease, rfl, by simp [hguard],
        ⟨hid, hgeneration, by simp [hguard], by simp [hguard, hrecipient], hfree⟩, ?_,
        by simp [hguard], by simpa [hguard] using hdomain⟩
      refine ⟨c.lease (ctx.token c.id).text deadline, ?_, hroute, rfl, ?_, ?_⟩
      · rw [hid]
        exact hleased
      · rw [htoken]
        rfl
      · rw [hgeneration]
        rfl

theorem grantLease_lease {c : Delivery} {recipient : Address}
    (h : grantLease ctx c recipient p = .ok p') :
    ∃ l, p'.leases = p.leases ++ [l] ∧ p.db.Recorded l ∧ 0 ≤ l.retryMs := by
  unfold grantLease at h
  simp only [bind_eq_ok, found_eq_ok, pure_eq_ok] at h
  obtain ⟨⟨message, queued, blob⟩, hjoin, sender, hsender, deadline, -, db, -, rfl⟩ := h
  exact ⟨_, rfl, ⟨message, queued, blob, hjoin, hsender, rfl, rfl, rfl, rfl⟩, Int.natCast_nonneg _⟩

/-- A round adds a lease that says what the rows say, or none. -/
theorem claimOne_lease {c : Delivery} (h : claimOne ctx c p = .ok p') :
    p'.leases = p.leases ∨ ∃ l, p'.leases = p.leases ++ [l] ∧ p.db.Recorded l ∧ 0 ≤ l.retryMs := by
  unfold claimOne at h
  dsimp only at h
  split_ifs at h with hactive hexpired hcounter
  · cases h
    exact Or.inl rfl
  · cases h
    exact Or.inl rfl
  · cases h
    exact Or.inl rfl
  · rw [bind_eq_ok] at h
    obtain ⟨recipient, -, h⟩ := h
    split_ifs at h with hdomain
    · cases h
      exact Or.inl rfl
    · obtain ⟨l, hleases, hrecorded, hretry⟩ := grantLease_lease h
      exact Or.inr ⟨l, hleases, hrecorded, hretry⟩

theorem claimOne_recorded {c : Delivery} (h : claimOne ctx c p = .ok p')
    (hleases : ∀ l ∈ p.leases, p.db.Recorded l ∧ 0 ≤ l.retryMs) :
    ∀ l ∈ p'.leases, p'.db.Recorded l ∧ 0 ≤ l.retryMs := by
  intro l hl
  have hsame := (claimOne_round h).content
  rcases claimOne_lease h with hnone | ⟨new, hnew, hrecorded, hretry⟩
  · obtain ⟨hrecorded, hretry⟩ := hleases l (hnone ▸ hl)
    exact ⟨hsame.recorded hrecorded, hretry⟩
  · rw [hnew, List.mem_append, List.mem_singleton] at hl
    rcases hl with hold | rfl
    · obtain ⟨hrecorded, hretry⟩ := hleases l hold
      exact ⟨hsame.recorded hrecorded, hretry⟩
    · exact ⟨hsame.recorded hrecorded, hretry⟩

/-- What the loop has granted so far, and that the rest of its work list is untouched. -/
structure ClaimInvariant (ctx : ClaimContext) (start : List Text) (done todo : List Delivery)
    (p : ClaimProgress) : Prop where
  untouched : ∀ c ∈ todo, p.db.delivery? c.id = some c ∧ c.route = .relay
  granted : ∀ l ∈ p.leases, (∃ c ∈ done, GrantedFor ctx c l) ∧ p.db.LeasedUnder l
  sublist : (p.leases.map QueueLease.id).Sublist (done.map Delivery.id)
  serials : ∀ i, (h : i < p.leases.length) → p.leases[i].guard.serial = ctx.nextGuard + i
  domains_eq : p.domains = (p.leases.map fun l => l.guard.domain).reverse ++ start
  domains : ∀ l ∈ p.leases, p.domains.count l.guard.domain ≤ ctx.policy.perDomain

theorem ClaimInvariant.start (ctx : ClaimContext) (cursor : Int × Text) (domains : List Text)
    {db : Db} (hkeys : db.Keys) :
    ClaimInvariant ctx domains [] (candidates ctx.now cursor db) ⟨db, domains, [], none⟩ := by
  constructor
  · intro c hc
    obtain ⟨hmem, hroute, -⟩ := mem_candidates hc
    exact ⟨Keyed.lookup_of_mem hkeys.deliveries hmem, hroute⟩
  · simp
  · simp
  · simp
  · simp
  · simp

theorem ClaimInvariant.round {start : List Text} {done todo : List Delivery} {c : Delivery}
    (hinv : ClaimInvariant ctx start done (c :: todo) p)
    (hnodup : ((done ++ c :: todo).map Delivery.id).Nodup) (h : ClaimRound ctx c p p') :
    ClaimInvariant ctx start (done ++ [c]) todo p' := by
  obtain ⟨hrow, hroute⟩ := hinv.untouched c List.mem_cons_self
  have huntouched : ∀ d ∈ todo, p'.db.delivery? d.id = some d ∧ d.route = .relay := by
    intro d hd
    have hne : d.id ≠ c.id := by
      intro heq
      rw [List.map_append, List.map_cons, List.nodup_append] at hnodup
      have hlater := (List.nodup_cons.1 hnodup.2.1).1
      exact hlater (heq ▸ List.mem_map_of_mem hd)
    rw [h.delivery_eq hne]
    exact hinv.untouched d (List.mem_cons_of_mem c hd)
  have hold : ∀ l ∈ p.leases, (∃ d ∈ done ++ [c], GrantedFor ctx d l) ∧ p'.db.LeasedUnder l := by
    intro l hl
    obtain ⟨⟨d, hd, hgranted⟩, hleased⟩ := hinv.granted l hl
    refine ⟨⟨d, List.mem_append_left _ hd, hgranted⟩, ?_⟩
    have hne : l.id ≠ c.id := by
      rw [hgranted.id_eq]
      intro heq
      rw [List.map_append, List.map_cons, List.nodup_append] at hnodup
      exact hnodup.2.2 d.id (List.mem_map_of_mem hd) c.id List.mem_cons_self heq
    unfold Db.LeasedUnder
    rw [h.delivery_eq hne]
    exact hleased
  rcases h.leases_cases hrow hroute with
    ⟨hleases, hdomains⟩ | ⟨l, hleases, hdomains, hgranted, hleased, hserial, hcount⟩
  · constructor
    · exact huntouched
    · rw [hleases]
      exact hold
    · rw [hleases, List.map_append]
      exact hinv.sublist.trans (List.sublist_append_left _ _)
    · simp only [hleases]
      exact hinv.serials
    · rw [hleases, hdomains]
      exact hinv.domains_eq
    · rw [hleases, hdomains]
      exact hinv.domains
  · constructor
    · exact huntouched
    · intro l' hl'
      rw [hleases, List.mem_append, List.mem_singleton] at hl'
      rcases hl' with hmem | rfl
      · exact hold l' hmem
      · exact ⟨⟨c, List.mem_append_right _ List.mem_cons_self, hgranted⟩, hleased⟩
    · rw [hleases, List.map_append, List.map_append, List.map_singleton, hgranted.id_eq]
      exact hinv.sublist.append (List.Sublist.refl _)
    · simp only [hleases]
      intro i hi
      rw [List.length_append, List.length_singleton] at hi
      by_cases hlast : i < p.leases.length
      · rw [List.getElem_append_left hlast]
        exact hinv.serials i hlast
      · obtain rfl : i = p.leases.length := by omega
        simp [hserial]
    · rw [hleases, hdomains, hinv.domains_eq]
      simp
    · intro l' hl'
      rw [hleases, List.mem_append, List.mem_singleton] at hl'
      rw [hdomains, List.count_cons]
      rcases hl' with hmem | rfl
      · have hbound := hinv.domains l' hmem
        split_ifs with hsame
        · rw [beq_iff_eq] at hsame
          rw [← hsame]
          omega
        · omega
      · rw [if_pos (beq_self_eq_true _)]
        omega

theorem ClaimInvariant.sweep {start : List Text} {done todo : List Delivery}
    (hsweep : Sweep (fun p c => claimOne ctx c p) p todo p')
    (hinv : ClaimInvariant ctx start done todo p) (hnodup : ((done ++ todo).map Delivery.id).Nodup) :
    ∃ done' todo', done ++ todo = done' ++ todo' ∧ ClaimInvariant ctx start done' todo' p' := by
  induction hsweep generalizing done with
  | stop => exact ⟨done, _, rfl, hinv⟩
  | @next s t u c rest hround hrest ih =>
      have hstep := hinv.round hnodup (claimOne_round hround)
      obtain ⟨done', todo', hsplit, hend⟩ := ih hstep (by simpa using hnodup)
      exact ⟨done', todo', by simpa using hsplit, hend⟩

/-- The loop stops as soon as it has handed out as many leases as are available. -/
theorem claimLoop_length (h : claimLoop ctx rows p = .ok p') (hroom : p.leases.length < ctx.available) :
    p'.leases.length ≤ ctx.available := by
  induction rows generalizing p with
  | nil =>
      cases h
      omega
  | cons c rows ih =>
      unfold claimLoop at h
      rw [bind_eq_ok] at h
      obtain ⟨middle, hone, h⟩ := h
      have hmiddle : middle.leases.length ≤ p.leases.length + 1 := by
        cases claimOne_round hone <;> simp
      split_ifs at h with hfull
      · rw [pure_eq_ok] at h
        subst h
        exact hfull.le
      · exact ih h (by omega)

end Loop

/-- The leases of a claim, seen from the databases before and after it. -/
structure HandsOut (ctx : ClaimContext) (domains : List Text) (db db' : Db)
    (leases : List QueueLease) : Prop where
  granted : ∀ l ∈ leases, ∃ row, db.delivery? l.id = some row ∧ row.Ready ∧ GrantedFor ctx row l
  leased : ∀ l ∈ leases, db'.LeasedUnder l
  distinct : (leases.map QueueLease.id).Nodup
  serials : ∀ i, (h : i < leases.length) → leases[i].guard.serial = ctx.nextGuard + i
  length_le : leases.length ≤ ctx.available
  recorded : ∀ l ∈ leases, db'.Recorded l
  patient : ∀ l ∈ leases, 0 ≤ l.retryMs
  domain_le : ∀ l ∈ leases,
    ((leases.map fun l => l.guard.domain).reverse ++ domains).count l.guard.domain
      ≤ ctx.policy.perDomain

theorem claimTx_handsOut {ctx : ClaimContext} {cursor : Int × Text} {domains : List Text}
    {db db' : Db} {progress : ClaimProgress} {rows : List Delivery} (hkeys : db.Keys)
    (hroom : 0 < ctx.available)
    (h : claimTx ctx cursor domains db = .ok (db', progress, rows)) :
    HandsOut ctx domains db db' progress.leases := by
  have hnodup : ((candidates ctx.now cursor db).map Delivery.id).Nodup :=
    candidates_unique hkeys.deliveries
  have hstart := ClaimInvariant.start ctx cursor domains hkeys
  have hlength : progress.leases.length ≤ ctx.available := by
    unfold claimTx at h
    simp only [bind_eq_ok, pure_eq_ok, Prod.mk.injEq] at h
    obtain ⟨progress', hloop, -, rfl, -⟩ := h
    exact claimLoop_length hloop hroom
  obtain ⟨hsweep, rfl⟩ := claimTx_eq_ok h
  have hrecorded : ∀ l ∈ progress.leases, progress.db.Recorded l ∧ 0 ≤ l.retryMs :=
    hsweep.keeps (fun p => ∀ l ∈ p.leases, p.db.Recorded l ∧ 0 ≤ l.retryMs)
      (fun p c p' _ hone hleases => claimOne_recorded hone hleases) (by simp)
  obtain ⟨done, todo, hsplit, hend⟩ := ClaimInvariant.sweep hsweep hstart (by simpa using hnodup)
  have hdone : (done.map Delivery.id).Nodup := by
    rw [List.nil_append] at hsplit
    rw [hsplit, List.map_append] at hnodup
    exact (List.nodup_append.1 hnodup).1
  constructor
  · intro l hl
    obtain ⟨⟨c, hc, hgranted⟩, -⟩ := hend.granted l hl
    have hcandidate : c ∈ candidates ctx.now cursor db := by
      rw [List.nil_append] at hsplit
      rw [hsplit]
      exact List.mem_append_left _ hc
    obtain ⟨hmem, -, hready, -⟩ := mem_candidates hcandidate
    refine ⟨c, ?_, hready, hgranted⟩
    rw [hgranted.id_eq]
    exact Keyed.lookup_of_mem hkeys.deliveries hmem
  · intro l hl
    exact (hend.granted l hl).2
  · exact hdone.sublist hend.sublist
  · exact hend.serials
  · exact hlength
  · exact fun l hl => (hrecorded l hl).1
  · exact fun l hl => (hrecorded l hl).2
  · rw [← hend.domains_eq]
    exact hend.domains

end Rustymail
