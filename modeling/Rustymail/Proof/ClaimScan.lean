import Rustymail.Lib.Timed
import Rustymail.Proof.ClaimLemmas
import Rustymail.Proof.ClockGuard

/-!
# The scan of a claim

A claim takes up the deliveries that are due beyond its cursor, a batch at a time and in the order of
their times, until the batch is done or no room is left. The cursor moves to the last one taken up,
or back to the start where nothing can be left beyond it. So every delivery that is due beyond the
cursor is taken up or still beyond the new one.
-/

namespace Rustymail

open Checked Loops Timed

/-- Where the index over the due times has the row. -/
def Delivery.readyKey (row : Delivery) : Int × Text := (row.nextAttemptAtMs, row.id)

/-- The candidates the claim loop takes up before it stops. -/
def takenUp (ctx : ClaimContext) : List Delivery → ClaimProgress → List Delivery
  | [], _ => []
  | candidate :: rest, progress =>
      candidate :: match claimOne ctx candidate progress with
        | .error _ => []
        | .ok progress =>
            if progress.leases.length = ctx.available then [] else takenUp ctx rest progress

section Loop

variable {ctx : ClaimContext} {rows : List Delivery} {p p' : ClaimProgress}

theorem takenUp_initial (ctx : ClaimContext) (rows : List Delivery) (p : ClaimProgress) :
    takenUp ctx rows p <+: rows := by
  induction rows generalizing p with
  | nil => exact List.prefix_refl []
  | cons c rest ih =>
      unfold takenUp
      refine (List.prefix_cons_inj c).2 ?_
      cases claimOne ctx c p with
      | error e => exact List.nil_prefix
      | ok middle =>
          dsimp only
          split_ifs
          · exact List.nil_prefix
          · exact ih middle

theorem takenUp_ne_nil (hrows : rows ≠ []) : takenUp ctx rows p ≠ [] := by
  cases rows with
  | nil => exact absurd rfl hrows
  | cons c rest => exact List.cons_ne_nil _ _

/-- A loop that succeeds has had a round for each candidate it took up, and no others. -/
theorem claimLoop_taken (h : claimLoop ctx rows p = .ok p') :
    (takenUp ctx rows p).foldlM (fun p c => claimOne ctx c p) p = .ok p' := by
  induction rows generalizing p with
  | nil => exact h
  | cons c rest ih =>
      unfold claimLoop at h
      rw [bind_eq_ok] at h
      obtain ⟨middle, hone, h⟩ := h
      unfold takenUp
      rw [hone, List.foldlM_cons, bind_eq_ok]
      refine ⟨middle, hone, ?_⟩
      dsimp only
      by_cases hfull : middle.leases.length = ctx.available
      · rw [if_pos hfull] at h ⊢
        exact h
      · rw [if_neg hfull] at h ⊢
        exact ih h

theorem ClaimRound.last_eq {c : Delivery} (h : ClaimRound ctx c p p') :
    p'.last = some c.readyKey := by
  cases h with
  | skipped => rfl
  | exhausted => rfl
  | granted => rfl

theorem fold_last {items : List Delivery}
    (h : items.foldlM (fun p c => claimOne ctx c p) p = .ok p') (hp : p.last = none) :
    p'.last = items.getLast?.map Delivery.readyKey := by
  induction items using List.reverseRecOn generalizing p' with
  | nil =>
      cases h
      exact hp
  | append_singleton items c ih =>
      rw [List.foldlM_append, bind_eq_ok] at h
      obtain ⟨middle, -, h⟩ := h
      rw [List.foldlM_cons, bind_eq_ok] at h
      obtain ⟨last, hone, h⟩ := h
      cases h
      rw [List.getLast?_concat]
      exact (claimOne_round hone).last_eq

/-- Leases are only added. -/
theorem fold_leases {items : List Delivery}
    (h : items.foldlM (fun p c => claimOne ctx c p) p = .ok p') : p.leases <+: p'.leases := by
  refine (sweep_foldlM h).relates (fun p p' => p.leases <+: p'.leases)
    (fun p => List.prefix_refl p.leases) (fun _ _ _ => List.IsPrefix.trans) ?_
  intro q c q' _ hone
  rcases claimOne_lease hone with hsame | ⟨l, hnew, -⟩
  · exact hsame ▸ List.prefix_refl q.leases
  · exact hnew ▸ List.prefix_append q.leases [l]

theorem ClaimInvariant.fold {start : List Text} {done todo items : List Delivery}
    (h : items.foldlM (fun p c => claimOne ctx c p) p = .ok p')
    (hinv : ClaimInvariant ctx start done (items ++ todo) p)
    (hnodup : ((done ++ (items ++ todo)).map Delivery.id).Nodup) :
    ClaimInvariant ctx start (done ++ items) todo p' := by
  induction items generalizing done p with
  | nil =>
      cases h
      rw [List.append_nil]
      exact hinv
  | cons c items ih =>
      rw [List.foldlM_cons, bind_eq_ok] at h
      obtain ⟨middle, hone, h⟩ := h
      have hstep := hinv.round hnodup (claimOne_round hone)
      have hassoc : done ++ c :: items = (done ++ [c]) ++ items := by
        rw [List.append_assoc, List.singleton_append]
      rw [hassoc]
      refine ih h hstep ?_
      rw [List.append_assoc, List.singleton_append]
      exact hnodup

end Loop

/-! ### Where the cursor goes -/

section Cursor

variable {rows taken rest : List Delivery}

/-- The cursor goes back to the start after the last candidate of a batch that is not full, and
otherwise to the last candidate taken up. -/
theorem nextReadyCursor_cases (hrows : rows = taken ++ rest)
    (hnodup : (rows.map Delivery.id).Nodup) (htaken : rows ≠ [] → taken ≠ []) :
    (nextReadyCursor rows (taken.getLast?.map Delivery.readyKey) = none
        ∧ rest = [] ∧ rows.length < batch)
      ∨ ∃ last, taken.getLast? = some last
        ∧ nextReadyCursor rows (taken.getLast?.map Delivery.readyKey) = some last.readyKey
        ∧ (rest = [] → batch ≤ rows.length) := by
  by_cases hempty : rows = []
  · subst hempty
    obtain ⟨rfl, rfl⟩ := List.append_eq_nil_iff.1 hrows.symm
    exact Or.inl ⟨rfl, rfl, by decide⟩
  obtain ⟨last, hlast⟩ := Option.ne_none_iff_exists'.1
    (mt List.getLast?_eq_none_iff.1 (htaken hempty))
  have hmem : last ∈ taken := List.mem_of_getLast? hlast
  unfold nextReadyCursor
  by_cases hend : rows.length < batch
      ∧ taken.getLast?.map Delivery.readyKey = rows.getLast?.map Delivery.readyKey
  · refine Or.inl ⟨if_pos hend, ?_, hend.1⟩
    by_contra hrest
    obtain ⟨final, hfinal⟩ := Option.ne_none_iff_exists'.1 (mt List.getLast?_eq_none_iff.1 hrest)
    have hsame := hend.2
    rw [hrows, List.getLast?_append, hfinal, hlast] at hsame
    have hid : last.id = final.id := congrArg Prod.snd (Option.some.inj hsame)
    rw [hrows, List.map_append, List.nodup_append] at hnodup
    exact hnodup.2.2 last.id (List.mem_map_of_mem hmem) final.id
      (List.mem_map_of_mem (List.mem_of_getLast? hfinal)) hid
  · refine Or.inr ⟨last, hlast, ?_, ?_⟩
    · have hnot : ¬ (rows.length < batch ∧ taken.getLast?.map Delivery.readyKey
          = rows.getLast?.map fun d => (d.nextAttemptAtMs, d.id)) := hend
      rw [if_neg hnot, hlast]
      rfl
    · rintro rfl
      rw [List.append_nil] at hrows
      rw [hrows] at hend ⊢
      by_contra hshort
      exact hend ⟨by omega, rfl⟩

end Cursor

/-! ### One call -/

/-- The claim proper inside a call of `queue_claim`, once recovery and expiry have returned. -/
structure ClaimCall where
  store : Store
  policy : QueuePolicy
  limit : Nat
  now : Int
  counted : LeaseGuard → Bool
  input : ClaimInput

namespace ClaimCall

def run (call : ClaimCall) : Store × Except StoreError (List QueueLease) :=
  claimReady call.store call.policy call.limit call.now call.counted call.input

def available (call : ClaimCall) : Nat :=
  min (call.policy.concurrency - call.store.queue.active.length) call.limit

def context (call : ClaimCall) : ClaimContext :=
  ⟨call.policy, call.now, call.available, call.store.queue.active, call.store.lock,
    call.store.nextGuard, call.input.token, call.input.random⟩

/-- The scan starts just before the first time there is. -/
def cursor (call : ClaimCall) : Int × Text := call.store.queue.readyCursor.getD (-1, [])

def rows (call : ClaimCall) : List Delivery := candidates call.now call.cursor call.store.db

def domains (call : ClaimCall) : List Text := activeDomains call.store.queue.active call.counted

/-- The deliveries the call takes up. -/
def examined (call : ClaimCall) : List Delivery :=
  takenUp call.context call.rows ⟨call.store.db, call.domains, [], none⟩

/-- The call has returned, and it had room for a lease. -/
def Scans (call : ClaimCall) : Prop := 0 < call.available ∧ ∃ leases, call.run.2 = .ok leases

/-- The delivery is due beyond the cursor. -/
structure Ahead (call : ClaimCall) (row : Delivery) : Prop where
  found : call.store.db.delivery? row.id = some row
  relay : row.route = .relay
  ready : row.Ready
  due : row.nextAttemptAtMs ≤ call.now
  beyond : Earlier call.cursor row.readyKey

/-- What a call makes of a delivery that it takes up after those before it. -/
inductive Treats (call : ClaimCall) (leases : List QueueLease) (before : List Delivery)
    (row : Delivery) : Prop
  | leased {l : QueueLease} (hl : l ∈ leases) (hid : l.id = row.id)
      (hleased : call.run.1.db.LeasedUnder l)
  | guarded (hactive : (call.store.queue.active.any fun entry => entry.1 = row.id) = true)
  | expired (hexpired : row.expiresAtMs ≤ call.now)
  | exhausted (hcounter : row.attempts = i64Max ∨ row.generation = i64Max)
      (hheld : call.run.1.db.delivery? row.id = some row.exhaust)
  | saturated {recipient : Address} {earlier : List QueueLease}
      (hparse : Address.parse row.recipient = some recipient) (hearlier : earlier <+: leases)
      (hbefore : ∀ l ∈ earlier, l.id ∈ before.map Delivery.id)
      (hdomain : call.policy.perDomain
        ≤ ((earlier.map fun l => l.guard.domain) ++ call.domains).count recipient.domain)

variable {call : ClaimCall} {leases : List QueueLease} {row : Delivery}

/-- Without room for a lease nothing is looked at. -/
theorem run_full (hfull : call.available = 0) : call.run = (call.store, .ok []) := by
  unfold run claimReady
  exact if_pos hfull

/-- A claim with room fails and leaves the cursor, or scans its batch. -/
theorem run_cases (hroom : 0 < call.available) :
    (∃ e, call.run.2 = .error e
        ∧ call.run.1.queue.readyCursor = call.store.queue.readyCursor)
      ∨ ∃ progress, claimLoop call.context call.rows ⟨call.store.db, call.domains, [], none⟩
          = .ok progress
        ∧ call.run.2 = .ok progress.leases ∧ call.run.1.db = progress.db
        ∧ call.run.1.queue.readyCursor = nextReadyCursor call.rows progress.last := by
  have hfull : ¬ min (call.policy.concurrency - call.store.queue.active.length) call.limit = 0 :=
    Nat.pos_iff_ne_zero.1 hroom
  unfold run claimReady
  dsimp only
  rw [if_neg hfull]
  generalize hctx : (⟨call.policy, call.now,
    min (call.policy.concurrency - call.store.queue.active.length) call.limit,
    call.store.queue.active, call.store.lock, call.store.nextGuard, call.input.token,
    call.input.random⟩ : ClaimContext) = ctx
  obtain rfl : call.context = ctx := hctx
  have hcases := transaction_cases (claimTx call.context (call.store.queue.readyCursor.getD (-1, []))
    (activeDomains call.store.queue.active call.counted))
    (atomic_commit call.input.claimFaults) call.store
  cases hresult : call.store.transaction (claimTx call.context
      (call.store.queue.readyCursor.getD (-1, [])) (activeDomains call.store.queue.active call.counted))
      (Store.commit call.input.claimFaults) with
  | mk store result =>
      rw [hresult] at hcases
      cases result with
      | error e =>
          refine Or.inl ⟨e, rfl, ?_⟩
          dsimp only at hcases ⊢
          rcases hcases with rfl | ⟨db, value, -, rfl⟩
          · rfl
          · rfl
      | ok value =>
          obtain ⟨progress, rows⟩ := value
          obtain ⟨db, htx, rfl⟩ := transaction_commit_ok hresult
          unfold claimTx at htx
          simp only [bind_eq_ok, pure_eq_ok, Prod.mk.injEq] at htx
          obtain ⟨progress', hloop, rfl, rfl, rfl⟩ := htx
          exact Or.inr ⟨progress', hloop, rfl, rfl, rfl⟩

theorem rows_nodup (hkeys : call.store.db.Keys) : (call.rows.map Delivery.id).Nodup :=
  candidates_unique hkeys.deliveries

theorem Scans.cases (h : call.Scans) : ∃ progress,
    call.examined.foldlM (fun p c => claimOne call.context c p)
        ⟨call.store.db, call.domains, [], none⟩ = .ok progress
      ∧ call.run.2 = .ok progress.leases ∧ call.run.1.db = progress.db
      ∧ call.run.1.queue.readyCursor
        = nextReadyCursor call.rows (call.examined.getLast?.map Delivery.readyKey) := by
  obtain ⟨hroom, leases, hok⟩ := h
  rcases run_cases hroom with ⟨e, herror, -⟩ | ⟨progress, hloop, hok, hdb, hcursor⟩
  · rw [hok] at herror
    cases herror
  · have hfold := claimLoop_taken hloop
    have hlast := fold_last hfold rfl
    exact ⟨progress, hfold, hok, hdb, hlast ▸ hcursor⟩

/-- The scan of the batch, split where the call stopped. -/
theorem Scans.cursor_cases (h : call.Scans) (hkeys : call.store.db.Keys) :
    ∃ rest, call.rows = call.examined ++ rest
      ∧ ((call.run.1.queue.readyCursor = none ∧ rest = [] ∧ call.rows.length < batch)
        ∨ ∃ last, call.examined.getLast? = some last
          ∧ call.run.1.queue.readyCursor = some last.readyKey
          ∧ (rest = [] → batch ≤ call.rows.length)) := by
  obtain ⟨rest, hrows⟩ : call.examined <+: call.rows := takenUp_initial _ _ _
  obtain ⟨progress, -, -, -, hcursor⟩ := h.cases
  rw [hcursor]
  exact ⟨rest, hrows.symm, nextReadyCursor_cases hrows.symm (rows_nodup hkeys) takenUp_ne_nil⟩

theorem mem_rows_ahead (hkeys : call.store.db.Keys) (hrow : row ∈ call.rows) : call.Ahead row := by
  obtain ⟨hmem, hmatches⟩ := Keyed.mem_of_mem_scan hrow
  rw [decide_eq_true_eq] at hmatches
  obtain ⟨hroute, hready, hdue, hbeyond⟩ := hmatches
  exact ⟨Keyed.lookup_of_mem hkeys.deliveries hmem, hroute, hready, hdue, hbeyond⟩

theorem rows_sorted : call.rows.Pairwise fun a b => NoLater a.readyKey b.readyKey := by
  have : Std.Total (timeThenId Delivery.nextAttemptAtMs) := total_of Delivery.readyKey
  have : IsTrans Delivery (timeThenId Delivery.nextAttemptAtMs) := isTrans_of Delivery.readyKey
  have hsorted : call.rows.Pairwise (timeThenId Delivery.nextAttemptAtMs) := Keyed.scan_pairwise
  exact hsorted

/-- Every delivery taken up is no later than the last one. -/
theorem noLater_last {last : Delivery} (hlast : call.examined.getLast? = some last)
    (hrow : row ∈ call.examined) : NoLater row.readyKey last.readyKey := by
  have hsorted : call.examined.Pairwise fun a b => NoLater a.readyKey b.readyKey :=
    rows_sorted.sublist (takenUp_initial _ _ _).sublist
  obtain ⟨front, hfront⟩ := List.getLast?_eq_some_iff.1 hlast
  rw [hfront] at hrow hsorted
  rcases List.mem_append.1 hrow with hbefore | hsame
  · exact (List.pairwise_append.1 hsorted).2.2 row hbefore last List.mem_cons_self
  · rw [List.mem_singleton.1 hsame]
    exact NoLater.refl _

/-- **No delivery is skipped.** One that is due beyond the cursor is taken up, or it is still beyond
the cursor. -/
theorem Scans.reaches (h : call.Scans) (hkeys : call.store.db.Keys) (hrow : call.Ahead row) :
    row ∈ call.examined ∨ ∃ key, call.run.1.queue.readyCursor = some key
      ∧ Earlier key row.readyKey := by
  have : Std.Total (timeThenId Delivery.nextAttemptAtMs) := total_of Delivery.readyKey
  have : IsTrans Delivery (timeThenId Delivery.nextAttemptAtMs) := isTrans_of Delivery.readyKey
  obtain ⟨rest, hrows, hcursor⟩ := h.cursor_cases hkeys
  by_cases hin : row ∈ call.examined
  · exact Or.inl hin
  right
  have hbeyond : row ∈ call.rows ∨ (call.rows.length = batch
      ∧ ∀ other ∈ call.rows, NoLater other.readyKey row.readyKey) := by
    refine Keyed.scan_complete (Keyed.mem_of_lookup hrow.found) (decide_eq_true ?_)
    exact ⟨hrow.relay, hrow.ready, hrow.due, hrow.beyond⟩
  -- The rows taken up come first, whether the loop stopped early or the batch was full.
  have hbefore : (rest = [] → call.rows.length = batch)
      ∧ ∀ other ∈ call.examined, NoLater other.readyKey row.readyKey := by
    rcases hbeyond with hmem | ⟨hfull, hfirst⟩
    · rw [hrows] at hmem
      have hlater := (List.mem_append.1 hmem).resolve_left hin
      refine ⟨fun hnil => absurd hlater (hnil ▸ List.not_mem_nil), fun other hother => ?_⟩
      have hsorted := @rows_sorted call
      rw [hrows] at hsorted
      exact (List.pairwise_append.1 hsorted).2.2 other hother row hlater
    · refine ⟨fun _ => hfull, fun other hother => hfirst other ?_⟩
      rw [hrows]
      exact List.mem_append_left rest hother
  rcases hcursor with ⟨-, hnil, hshort⟩ | ⟨last, hlast, hnext, -⟩
  · have hfull := hbefore.1 hnil
    omega
  · refine ⟨last.readyKey, hnext, ?_⟩
    have hmem : last ∈ call.examined := List.mem_of_getLast? hlast
    refine (hbefore.2 last hmem).earlier_or_eq.resolve_right ?_
    intro hsame
    have hlastrow := mem_rows_ahead hkeys (hrows ▸ List.mem_append_left rest hmem)
    have hfound := hlastrow.found
    rw [show last.id = row.id from congrArg Prod.snd hsame, hrow.found] at hfound
    exact hin (Option.some.inj hfound ▸ hmem)

/-- A delivery taken up is not beyond the cursor any more. -/
theorem Scans.leaves_behind (h : call.Scans) (hkeys : call.store.db.Keys)
    (hrow : row ∈ call.examined) : call.run.1.queue.readyCursor = none
      ∨ ∃ key, call.run.1.queue.readyCursor = some key ∧ NoLater row.readyKey key := by
  obtain ⟨rest, -, ⟨hnone, -⟩ | ⟨last, hlast, hnext, -⟩⟩ := h.cursor_cases hkeys
  · exact Or.inl hnone
  · exact Or.inr ⟨last.readyKey, hnext, noLater_last hlast hrow⟩

/-- **The cursor advances.** -/
theorem Scans.advances (h : call.Scans) (hkeys : call.store.db.Keys) {key : Int × Text}
    (hnext : call.run.1.queue.readyCursor = some key) : Earlier call.cursor key := by
  obtain ⟨rest, hrows, ⟨hnone, -⟩ | ⟨last, hlast, hlastnext, -⟩⟩ := h.cursor_cases hkeys
  · rw [hnone] at hnext
    cases hnext
  · obtain rfl := Option.some.inj (hlastnext.symm.trans hnext)
    have hmem : last ∈ call.rows := hrows ▸ List.mem_append_left rest (List.mem_of_getLast? hlast)
    exact (mem_rows_ahead hkeys hmem).beyond

/-- Every delivery taken up is leased, unless one of the four reasons speaks against it. -/
theorem Scans.treats (h : call.Scans) (hkeys : call.store.db.Keys) (hok : call.run.2 = .ok leases)
    {before after : List Delivery} (hexamined : call.examined = before ++ row :: after) :
    call.Treats leases before row := by
  obtain ⟨progress, hfold, hok', hdb, -⟩ := h.cases
  obtain rfl : progress.leases = leases := Except.ok.inj (hok'.symm.trans hok)
  obtain ⟨rest, hrows, -⟩ := h.cursor_cases hkeys
  have hnodup := rows_nodup hkeys
  have hstart : ClaimInvariant call.context call.domains [] call.rows _ :=
    .start call.context call.cursor call.domains hkeys
  rw [hrows] at hnodup hstart
  have hend := ClaimInvariant.fold hfold hstart hnodup
  rw [hexamined, List.append_assoc] at hnodup hstart
  rw [hexamined, List.foldlM_append, bind_eq_ok] at hfold
  obtain ⟨p, hbefore, hfold⟩ := hfold
  rw [List.foldlM_cons, bind_eq_ok] at hfold
  obtain ⟨p', hone, hafter⟩ := hfold
  have hinv := ClaimInvariant.fold hbefore hstart hnodup
  rw [List.nil_append] at hinv hend
  obtain ⟨hrow, hroute⟩ := hinv.untouched row List.mem_cons_self
  have hkept : call.run.1.db.delivery? row.id = p'.db.delivery? row.id := by
    rw [hdb]
    refine (sweep_foldlM hafter).view_eq (fun p k => p.db.delivery? k)
      (fun s c t hround k => (claimOne_round hround).delivery_eq) ?_
    intro other hother hsame
    rw [List.map_append, List.nodup_append] at hnodup
    have hlater := (List.nodup_cons.1 hnodup.2.1).1
    refine hlater (hsame ▸ List.mem_map_of_mem (List.mem_append_left rest hother))
  have hprefix := fold_leases hafter
  have hround := (claimOne_round hone).leases_cases hrow hroute
  unfold claimOne at hone
  dsimp only at hone
  split_ifs at hone with hactive hexpired hcounter
  · exact .guarded hactive
  · exact .expired hexpired
  · cases hone
    refine .exhausted hcounter ?_
    rw [hkept, Db.delivery_updateDelivery (f := Delivery.exhaust) fun _ => rfl, if_pos rfl, hrow]
    rfl
  · rw [bind_eq_ok] at hone
    obtain ⟨recipient, hparse, hone⟩ := hone
    rw [found_eq_ok] at hparse
    split_ifs at hone with hdomain
    · cases hone
      refine .saturated hparse hprefix (fun l hl => ?_) ?_
      · obtain ⟨⟨c, hc, hgranted⟩, -⟩ := hinv.granted l hl
        rw [hgranted.id_eq]
        exact List.mem_map_of_mem hc
      · rw [hinv.domains_eq, List.count_append, List.count_reverse, ← List.count_append] at hdomain
        exact hdomain
    · obtain ⟨new, hnew, -⟩ := grantLease_lease hone
      change p'.leases = p.leases ++ [new] at hnew
      rcases hround with ⟨hsame, -⟩ | ⟨l, hleases, -, hgranted, -⟩
      · have hlonger := congrArg List.length (hnew.symm.trans hsame)
        rw [List.length_append, List.length_singleton] at hlonger
        omega
      · have hl : l ∈ progress.leases := by
          refine hprefix.subset ?_
          rw [hleases]
          exact List.mem_append_right _ List.mem_cons_self
        refine .leased hl hgranted.id_eq ?_
        rw [hdb]
        exact (hend.granted l hl).2

end ClaimCall

end Rustymail
