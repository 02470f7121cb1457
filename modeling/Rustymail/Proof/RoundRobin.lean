import Rustymail.Proof.ClaimScan
import Rustymail.Proof.Recovery
import Rustymail.Proof.Schedule

/-!
# Claims go round the ready queue

The calls of `queue_claim` that have room for a lease go through the due deliveries in the order of
their times, one batch after the other, and start again once they have passed the last one. A
delivery that stays due is taken up exactly once on the way, whatever else happens to the queue.
-/

namespace Rustymail

open Checked Lifecycle Timed

/-- The claim proper inside a call, if the call gets that far. -/
def claimCall? (s : Store) (policy : QueuePolicy) (limit : Nat) (live counted : LeaseGuard → Bool)
    (input : ClaimInput) : Option ClaimCall :=
  if policy.Valid ∧ 1 ≤ limit ∧ limit ≤ batch then
    match s.queue.now input.guardReading with
    | (_, .error _) => none
    | (queue, .ok now) =>
        match queueRecover { s with queue := queue } batch live input.recoverReading
            input.recoverFaults with
        | (_, .error _) => none
        | (recovered, .ok _) =>
            match queueExpire recovered batch input.expireReading input.expireFaults with
            | (_, .error _) => none
            | (expired, .ok _) => some ⟨expired, policy, limit, now, counted, input⟩
  else none

def World.claimCall? (w : World) : Op → Option ClaimCall
  | .queueClaim policy limit keepLease keepReader input =>
      if w.opened then
        Rustymail.claimCall? w.store policy limit w.live (w.without keepLease keepReader).live input
      else none
  | _ => none

/-- The operation is a claim that returns, with room for a lease. -/
def World.Scans (w : World) (op : Op) : Prop := ∃ call, w.claimCall? op = some call ∧ call.Scans

/-- The operation takes up the delivery at this place of the index. -/
def World.Examines (w : World) (key : Int × Text) (op : Op) : Prop :=
  ∃ call row, w.claimCall? op = some call ∧ call.Scans ∧ row ∈ call.examined ∧ row.readyKey = key

/-- The operation ends a sweep. -/
def World.Closes (w : World) (op : Op) : Prop :=
  w.Scans op ∧ (w.next op).store.queue.readyCursor = none

/-- The delivery is due at this place of the index when the operation comes to scan it. -/
def World.Awaits (w : World) (key : Int × Text) (op : Op) : Prop :=
  ∀ call, w.claimCall? op = some call → call.Scans →
    ∃ row, call.store.db.delivery? key.2 = some row ∧ row.route = .relay ∧ row.Ready
      ∧ row.nextAttemptAtMs = key.1 ∧ key.1 ≤ call.now

theorem queueRecover_readyCursor (s : Store) (limit : Nat) (live : LeaseGuard → Bool)
    (reading : Reading) (faults : Faults) :
    (queueRecover s limit live reading faults).1.queue.readyCursor = s.queue.readyCursor := by
  rcases queueRecover_cases s limit live reading faults with
    ⟨-, -, -, hkept⟩ | ⟨-, -, -, -, ⟨-, -, hmoved⟩ | ⟨-, hkept⟩⟩
  · exact congrArg Prod.snd hkept
  · exact congrArg Prod.snd hmoved
  · exact congrArg Prod.snd hkept

/-- A call that does not get to the claim proper fails and leaves the cursor; one that does starts it
from the same cursor, with the guards that are alive. -/
theorem queueClaim_stages {s : Store} (hkeys : s.db.Keys) (policy : QueuePolicy) (limit : Nat)
    (live counted : LeaseGuard → Bool) (input : ClaimInput) :
    (claimCall? s policy limit live counted input = none
        ∧ (∃ e, (queueClaim s policy limit live counted input).2 = .error e)
        ∧ (queueClaim s policy limit live counted input).1.queue.readyCursor = s.queue.readyCursor)
      ∨ ∃ call, claimCall? s policy limit live counted input = some call
        ∧ queueClaim s policy limit live counted input = call.run
        ∧ call.store.queue.readyCursor = s.queue.readyCursor
        ∧ call.store.queue.active = (s.queue.retain live).active ∧ call.store.db.Keys := by
  unfold claimCall? queueClaim
  by_cases hvalid : policy.Valid ∧ 1 ≤ limit ∧ limit ≤ batch
  swap
  · rw [if_neg hvalid, if_neg hvalid]
    exact Or.inl ⟨rfl, ⟨_, rfl⟩, rfl⟩
  rw [if_pos hvalid, if_pos hvalid]
  have hcursors := now_cursors s.queue input.guardReading
  have hactive := now_active s.queue input.guardReading
  cases hnow : s.queue.now input.guardReading with
  | mk queue result =>
      rw [hnow] at hcursors hactive
      have hcursor : queue.readyCursor = s.queue.readyCursor := congrArg Prod.snd hcursors
      cases result with
      | error e => exact Or.inl ⟨rfl, ⟨e, rfl⟩, hcursor⟩
      | ok now =>
          dsimp only
          have hrecover := queueRecover_readyCursor { s with queue := queue } batch live
            input.recoverReading input.recoverFaults
          obtain ⟨-, hretained, hfirst⟩ := Swept.of_recover s hactive live input.recoverReading
            input.recoverFaults
          generalize queueRecover { s with queue := queue } batch live input.recoverReading
            input.recoverFaults = recover at hrecover hretained hfirst
          obtain ⟨recovered, result⟩ := recover
          have hrecovered : recovered.queue.readyCursor = s.queue.readyCursor :=
            Eq.trans hrecover hcursor
          cases result with
          | error e => exact Or.inl ⟨rfl, ⟨e, rfl⟩, hrecovered⟩
          | ok count =>
              dsimp only
              have hexpire := queueExpire_cursors recovered batch input.expireReading
                input.expireFaults
              have hleaves := queueExpire_leaves recovered batch input.expireReading
                input.expireFaults
              generalize queueExpire recovered batch input.expireReading input.expireFaults = expire
                at hexpire hleaves
              obtain ⟨expired, result⟩ := expire
              have hexpired : expired.queue.readyCursor = s.queue.readyCursor :=
                Eq.trans (congrArg Prod.snd hexpire) hrecovered
              cases result with
              | error e => exact Or.inl ⟨rfl, ⟨e, rfl⟩, hexpired⟩
              | ok count' =>
                  refine Or.inr ⟨_, rfl, rfl, hexpired, hleaves.1.active.trans hretained, ?_⟩
                  have hmiddle : recovered.db.Keys := by
                    rcases hfirst with hsame | ⟨_, _, _, htx⟩
                    · rw [hsame]
                      exact hkeys
                    · exact (recoverTx_content htx).keys hkeys
                  rcases hleaves.2 with hsame | ⟨_, _, htx⟩
                  · rw [hsame]
                    exact hmiddle
                  · exact (expireTx_content htx).keys hmiddle

namespace World

variable {w : World} {op : Op} {call : ClaimCall} {key : Int × Text}

theorem claim_reply (w : World) (policy : QueuePolicy) (limit : Nat) (keepLease : QueueLease → Bool)
    (keepReader : QueuedReader → Bool) (input : ClaimInput) (hopen : w.opened = true) :
    (w.claim policy limit keepLease keepReader input).2
      = (queueClaim w.store policy limit w.live (w.without keepLease keepReader).live input).2 := by
  have hopened : (w.without keepLease keepReader).opened = true := hopen
  unfold claim
  dsimp only
  rw [call_opened hopened]
  split
  · rename_i hresult
    exact (congrArg Prod.snd hresult).symm
  · rename_i hresult
    exact (congrArg Prod.snd hresult).symm

/-- An operation that does not come to the claim proper leaves the cursor. -/
theorem claimCall_none (hkeys : w.store.db.Keys) (hopens : ∀ m, op ≠ .reopen m)
    (h : w.claimCall? op = none) :
    (w.next op).store.queue.readyCursor = w.store.queue.readyCursor := by
  cases hrecovers : op.recovers with
  | false => exact congrArg Prod.snd (next_cursors hrecovers hopens)
  | true =>
      cases op with
      | queueRecover limit reading faults =>
          change (w.call _).1.store.queue.readyCursor = _
          rcases w.call_cases fun s => queueRecover s limit w.live reading faults with hsame | hstore
          · rw [hsame]
          · rw [hstore]
            exact queueRecover_readyCursor w.store limit w.live reading faults
      | queueClaim policy limit keepLease keepReader input =>
          change (w.claim policy limit keepLease keepReader input).1.store.queue.readyCursor = _
          rw [claim_store]
          unfold claimCall? at h
          dsimp only at h
          by_cases hopen : w.opened = true
          · rw [if_pos hopen] at h ⊢
            rcases queueClaim_stages hkeys policy limit w.live
                (w.without keepLease keepReader).live input with ⟨-, -, hkept⟩ | ⟨call, hcall, -⟩
            · exact hkept
            · rw [hcall] at h
              cases h
          · rw [if_neg hopen]
      | _ => cases hrecovers

/-- One that does is this call: it answers what the call returns. -/
theorem claimCall_some (hkeys : w.store.db.Keys) (h : w.claimCall? op = some call) :
    (w.next op).store = call.run.1 ∧ (w.step op).2 = .leases call.run.2
      ∧ call.store.queue.readyCursor = w.store.queue.readyCursor
      ∧ call.store.queue.active = (w.store.queue.retain w.live).active ∧ call.store.db.Keys := by
  cases op with
  | queueClaim policy limit keepLease keepReader input =>
      unfold claimCall? at h
      dsimp only at h
      split_ifs at h with hopen
      change (w.claim policy limit keepLease keepReader input).1.store = _
        ∧ Reply.leases (w.claim policy limit keepLease keepReader input).2 = _ ∧ _
      rw [claim_store, if_pos hopen, claim_reply _ _ _ _ _ _ hopen]
      rcases queueClaim_stages hkeys policy limit w.live (w.without keepLease keepReader).live input
        with ⟨hnone, -⟩ | ⟨found, hfound, hrun, hrest⟩
      · rw [hnone] at h
        cases h
      · obtain rfl := Option.some.inj (hfound.symm.trans h)
        rw [hrun]
        exact ⟨rfl, rfl, hrest⟩
  | _ => cases h

/-- Only a claim that returns, with room for a lease, moves the cursor. -/
theorem readyCursor_kept (hkeys : w.store.db.Keys) (hopens : ∀ m, op ≠ .reopen m)
    (h : ¬ w.Scans op) : (w.next op).store.queue.readyCursor = w.store.queue.readyCursor := by
  cases hcall : w.claimCall? op with
  | none => exact claimCall_none hkeys hopens hcall
  | some call =>
      obtain ⟨hnext, -, hcursor, -⟩ := claimCall_some hkeys hcall
      rw [hnext]
      by_cases hroom : 0 < call.available
      · rcases ClaimCall.run_cases hroom with ⟨e, -, hkept⟩ | ⟨progress, -, hok, -⟩
        · exact hkept.trans hcursor
        · exact absurd ⟨call, hcall, hroom, progress.leases, hok⟩ h
      · rw [ClaimCall.run_full (Nat.eq_zero_of_not_pos hroom)]
        exact hcursor

/-! ### One place of the index -/

/-- The scan has not come to this place. -/
def Before (w : World) (key : Int × Text) : Prop :=
  ∀ cursor, w.store.queue.readyCursor = some cursor → Earlier cursor key

/-- The scan is past this place. -/
def Beyond (w : World) (key : Int × Text) : Prop :=
  ∃ cursor, w.store.queue.readyCursor = some cursor ∧ NoLater key cursor

theorem Beyond.not_examines (hkeys : w.store.db.Keys) (h : w.Beyond key) : ¬ w.Examines key op := by
  rintro ⟨call, row, hcall, hscans, hrow, rfl⟩
  obtain ⟨cursor, hcursor, hbehind⟩ := h
  obtain ⟨-, -, hsame, -, hcallkeys⟩ := claimCall_some hkeys hcall
  obtain ⟨rest, hrows, -⟩ := hscans.cursor_cases hcallkeys
  have hahead := ClaimCall.mem_rows_ahead hcallkeys (hrows ▸ List.mem_append_left rest hrow)
  have hbeyond := hahead.beyond
  unfold ClaimCall.cursor at hbeyond
  rw [hsame, hcursor] at hbeyond
  exact earlier_iff_not.1 hbeyond hbehind

theorem Beyond.next (hkeys : w.store.db.Keys) (h : w.Beyond key) (hopens : ∀ m, op ≠ .reopen m)
    (hopen : ¬ w.Closes op) : (w.next op).Beyond key := by
  obtain ⟨cursor, hcursor, hbehind⟩ := h
  by_cases hscans : w.Scans op
  · obtain ⟨next, hnext⟩ := Option.ne_none_iff_exists'.1 fun hnone => hopen ⟨hscans, hnone⟩
    obtain ⟨call, hcall, hscans⟩ := hscans
    obtain ⟨hstore, -, hsame, -, hcallkeys⟩ := claimCall_some hkeys hcall
    have hadvances := hscans.advances hcallkeys (hstore ▸ hnext)
    unfold ClaimCall.cursor at hadvances
    rw [hsame, hcursor] at hadvances
    exact ⟨next, hnext, hbehind.trans hadvances.noLater⟩
  · exact ⟨cursor, (readyCursor_kept hkeys hopens hscans).trans hcursor, hbehind⟩

/-- The delivery that is due at this place when a call scans it. -/
theorem Awaits.ahead (h : w.Awaits key op) (hkeys : w.store.db.Keys) (hbefore : w.Before key)
    (htime : 0 ≤ key.1) (hcall : w.claimCall? op = some call) (hscans : call.Scans) :
    ∃ row, call.Ahead row ∧ row.readyKey = key := by
  obtain ⟨row, hrow, hroute, hready, hdue, hnow⟩ := h call hcall hscans
  obtain ⟨-, -, hsame, -, -⟩ := claimCall_some hkeys hcall
  have hid : row.id = key.2 := Keyed.lookup_some_key hrow
  have hkey : row.readyKey = key := Prod.ext hdue hid
  refine ⟨row, ⟨hid ▸ hrow, hroute, hready, hdue ▸ hnow, ?_⟩, hkey⟩
  rw [hkey]
  unfold ClaimCall.cursor
  rw [hsame]
  cases hcursor : w.store.queue.readyCursor with
  | none =>
      left
      change (-1 : Int) < key.1
      omega
  | some cursor => exact hbefore cursor hcursor

/-- **One operation.** It takes the delivery up and goes past its place, or stays before it. -/
theorem Before.next (h : w.Before key) (hkeys : w.store.db.Keys) (htime : 0 ≤ key.1)
    (hopens : ∀ m, op ≠ .reopen m) (hopen : ¬ w.Closes op) (hawaits : w.Awaits key op) :
    (w.Examines key op ∧ (w.next op).Beyond key)
      ∨ (¬ w.Examines key op ∧ (w.next op).Before key) := by
  by_cases hexamines : w.Examines key op
  · left
    refine ⟨hexamines, ?_⟩
    obtain ⟨call, row, hcall, hscans, hrow, rfl⟩ := hexamines
    obtain ⟨hstore, -, -, -, hcallkeys⟩ := claimCall_some hkeys hcall
    rcases hscans.leaves_behind hcallkeys hrow with hnone | hbehind
    · exact absurd ⟨⟨call, hcall, hscans⟩, hstore ▸ hnone⟩ hopen
    · unfold Beyond
      rw [hstore]
      exact hbehind
  · right
    refine ⟨hexamines, ?_⟩
    by_cases hscans : w.Scans op
    · obtain ⟨call, hcall, hscans⟩ := hscans
      obtain ⟨row, hahead, rfl⟩ := hawaits.ahead hkeys h htime hcall hscans
      obtain ⟨hstore, -, -, -, hcallkeys⟩ := claimCall_some hkeys hcall
      rcases hscans.reaches hcallkeys hahead with hin | ⟨next, hnext, hearlier⟩
      · exact absurd ⟨call, row, hcall, hscans, hin, rfl⟩ hexamines
      · intro cursor hcursor
        rw [hstore, hnext] at hcursor
        exact Option.some.inj hcursor ▸ hearlier
    · intro cursor hcursor
      rw [readyCursor_kept hkeys hopens hscans] at hcursor
      exact h cursor hcursor

/-- The operation that ends a sweep takes up whatever is left. -/
theorem Closes.examines (h : w.Closes op) (hkeys : w.store.db.Keys) (hbefore : w.Before key)
    (htime : 0 ≤ key.1) (hawaits : w.Awaits key op) : w.Examines key op := by
  obtain ⟨⟨call, hcall, hscans⟩, hnone⟩ := h
  obtain ⟨row, hahead, rfl⟩ := hawaits.ahead hkeys hbefore htime hcall hscans
  obtain ⟨hstore, -, -, -, hcallkeys⟩ := claimCall_some hkeys hcall
  rcases hscans.reaches hcallkeys hahead with hin | ⟨next, hnext, -⟩
  · exact ⟨call, row, hcall, hscans, hin, rfl⟩
  · rw [hstore, hnext] at hnone
    cases hnone

/-- Along a sweep the cursor only rises. -/
theorem cursor_rises (hreach : w.Reachable) {first middle rest : List Op}
    (hopens : ∀ m, Op.reopen m ∉ first ++ op :: (middle ++ rest))
    (hopen : ∀ before o after, first ++ op :: (middle ++ rest) = before ++ o :: after →
      ¬ (w.run before).Closes o) (hscans : (w.run first).Scans op)
    (hcursor : (w.run first).store.queue.readyCursor = some key) :
    ∃ next, (w.run (first ++ op :: middle)).store.queue.readyCursor = some next
      ∧ Earlier key next := by
  have hstart : (w.run first).Reachable := hreach.run first
  obtain ⟨call, hcall, hscan⟩ := hscans
  obtain ⟨hstore, -, hsame, -, hcallkeys⟩ := claimCall_some hstart.keys hcall
  obtain ⟨next, hnext⟩ := Option.ne_none_iff_exists'.1 fun hnone =>
    hopen first op (middle ++ rest) rfl ⟨⟨call, hcall, hscan⟩, hnone⟩
  have hadvances := hscan.advances hcallkeys (hstore ▸ hnext)
  unfold ClaimCall.cursor at hadvances
  rw [hsame, hcursor] at hadvances
  have hrun : ∀ later, w.run (first ++ op :: later)
      = Runs.run World.next ((w.run first).next op) later :=
    fun later => Runs.run_append first (op :: later)
  have hmay : Runs.Along World.next (fun u o => (∀ m, o ≠ .reopen m) ∧ ¬ u.Closes o)
      ((w.run first).next op) middle := by
    refine Runs.along_of_splits fun before o after hsplit => ⟨?_, ?_⟩
    · rintro m rfl
      refine hopens m (List.mem_append_right first (List.mem_cons_of_mem op ?_))
      rw [hsplit]
      exact List.mem_append_left rest (List.mem_append_right before List.mem_cons_self)
    · rw [← hrun]
      refine hopen _ o (after ++ rest) ?_
      rw [hsplit]
      simp
  have hend : (w.run (first ++ op :: middle)).Reachable
      ∧ (w.run (first ++ op :: middle)).Beyond next := by
    rw [hrun]
    refine @Runs.Along.keeps World Op World.next _ (fun u => u.Reachable ∧ u.Beyond next)
      ((w.run first).next op) ?_ ?_ middle hmay
    · intro u o hu ho
      exact ⟨hu.1.next o, hu.2.next hu.1.keys ho.1 ho.2⟩
    · exact ⟨hstart.next op, next, hnext, NoLater.refl next⟩
  obtain ⟨last, hlast, hlater⟩ := hend.2
  exact ⟨last, hlast, hadvances.trans_noLater hlater⟩

end World

/-- **Round robin.** Within a sweep, from a claim that finds no cursor to the next one with room that
leaves none, the calls with room take up every delivery that stays due exactly once; each such call
moves the cursor on and skips nothing between the old place and the new one; and what it takes up it
leases, unless a live guard, its expiry, its counters or its domain are in the way. Every other
operation leaves the cursor. -/
theorem claims_go_round :
    (∀ (w : World) (ops : List Op) (op : Op), w.Reachable → w.store.queue.readyCursor = none →
        (∀ m, Op.reopen m ∉ ops) →
        (∀ before o after, ops = before ++ o :: after → ¬ (w.run before).Closes o) →
        (w.run ops).Closes op →
        (∀ first o middle rest old, ops = first ++ o :: (middle ++ rest) → (w.run first).Scans o →
          (w.run first).store.queue.readyCursor = some old →
          ∃ new, (w.run (first ++ o :: middle)).store.queue.readyCursor = some new
            ∧ Earlier old new)
        ∧ ∀ row, w.store.db.delivery? row.id = some row →
          (∀ before o after, ops ++ [op] = before ++ o :: after →
            (∀ earlier, ¬ Runs.VisitsAfter World.next (World.Examines · row.readyKey) w before
              earlier) → (w.run before).Awaits row.readyKey o) →
          ∃! before, Runs.VisitsAfter World.next (World.Examines · row.readyKey) w (ops ++ [op])
            before)
      ∧ (∀ (w : World) (op : Op), w.Reachable → (∀ m, op ≠ .reopen m) → ¬ w.Scans op →
        (w.next op).store.queue.readyCursor = w.store.queue.readyCursor)
      ∧ ∀ (w : World) (op : Op) (call : ClaimCall), w.Reachable → w.claimCall? op = some call →
        (w.step op).2 = .leases call.run.2
          ∧ (∀ id, (call.store.queue.active.any fun entry => entry.1 = id) = true ↔ w.Guarded id)
          ∧ (call.available = 0 → call.run = (call.store, .ok []))
          ∧ (call.Scans →
            (∀ row, call.Ahead row → row ∈ call.examined
                ∨ ∃ cursor, (w.next op).store.queue.readyCursor = some cursor
                  ∧ Earlier cursor row.readyKey)
              ∧ ∀ leases before row after, call.run.2 = .ok leases →
                call.examined = before ++ row :: after → call.Treats leases before row) := by
  refine ⟨?_, fun w op hreach => World.readyCursor_kept hreach.keys, ?_⟩
  · intro w ops op hreach hstart hopens hopen hcloses
    refine ⟨?_, fun row hrow hawaits => ?_⟩
    · rintro first o middle rest old rfl hscans hold
      exact World.cursor_rises hreach hopens hopen hscans hold
    have htime : 0 ≤ row.readyKey.1 := hreach.timely row.id row hrow
    refine @Runs.visited_once World Op World.next
      (fun u o => (∀ m, o ≠ .reopen m) ∧ ¬ u.Closes o) _
      (fun u => u.Reachable ∧ u.Before row.readyKey) (fun u => u.Reachable ∧ u.Beyond row.readyKey)
      w ops ?_ (fun u o => u.Awaits row.readyKey o) ?_ ?_ ?_ op hawaits ?_ ?_
    · rintro u o ⟨hu, hbeyond⟩ ⟨hopens, hopen⟩
      exact ⟨hbeyond.not_examines hu.keys, hu.next o, hbeyond.next hu.keys hopens hopen⟩
    · rintro u o ⟨hu, hbefore⟩ ⟨hopens, hopen⟩ hawaits
      rcases hbefore.next hu.keys htime hopens hopen hawaits with
        ⟨hexamines, hnext⟩ | ⟨hnot, hnext⟩
      · exact Or.inl ⟨hexamines, hu.next o, hnext⟩
      · exact Or.inr ⟨hnot, hu.next o, hnext⟩
    · refine ⟨hreach, fun cursor hcursor => ?_⟩
      rw [hstart] at hcursor
      cases hcursor
    · refine Runs.along_of_splits fun before o after hsplit => ⟨?_, hopen before o after hsplit⟩
      rintro m rfl
      exact hopens m (hsplit ▸ List.mem_append_right before List.mem_cons_self)
    · rintro u ⟨hu, hbeyond⟩
      exact hbeyond.not_examines hu.keys
    · rintro ⟨hu, hbefore⟩ hawaits
      exact hcloses.examines hu.keys hbefore htime hawaits
  · intro w op call hreach hcall
    obtain ⟨hstore, hreply, hcursor, hactive, hkeys⟩ := World.claimCall_some hreach.keys hcall
    refine ⟨hreply, fun id => ?_, ClaimCall.run_full, fun hscans => ⟨?_, ?_⟩⟩
    · rw [hactive, ← not_iff_not, Bool.not_eq_true]
      exact hreach.owned.free_iff.symm
    · intro row hahead
      rw [hstore]
      exact hscans.reaches hkeys hahead
    · intro leases before row after hok hexamined
      exact hscans.treats hkeys hok hexamined

namespace Sample

def neighbour : Address := ⟨ascii "d@b.c", by decide, by decide⟩

def neighbourId : Uuid := uuid 102 (by decide)

def neighbourKey : Int × Text := (1000, neighbourId.text)

/-- One message that two recipients of a domain wait for. -/
def pair : World :=
  fresh.run [.enqueue
    ⟨messageId, fun _ => deliveryId, fun remote =>
      if remote = neighbour.asStr then neighbourId else deliveryId⟩
    prepared ⟨operationId.text, none, [recipient, neighbour], .sevenBit, 3600⟩ reading {}]

/-- A claim under a policy that allows a single delivery at a time. -/
def claimSingle : Op :=
  .queueClaim { concurrency := 1, perDomain := 1 } 1 (fun _ => true) (fun _ => true)
    ⟨reading, reading, reading, {}, {}, {}, fun _ => token, fun _ _ => 0⟩

/-- The only delivery is under way, and another one has come in. -/
def occupied : World :=
  fresh.run [enqueue, claimSingle, .enqueue
    ⟨neighbourId, fun _ => neighbourId, fun _ => neighbourId⟩
    ⟨[], neighbourId, 5, [], small⟩ ⟨neighbourId.text, none, [neighbour], .sevenBit, 3600⟩
    reading {}]

end Sample

/-- Two claims with room for one lease each: the second one leases the second delivery and ends the
sweep. -/
theorem claims_go_round_pair :
    ∃! before, Runs.VisitsAfter World.next (World.Examines · Sample.neighbourKey) Sample.pair
      [Sample.claim, Sample.claim] before := by
  have hrow : (Sample.pair.store.db.delivery? Sample.neighbourId.text).map Delivery.readyKey
      = some Sample.neighbourKey := by decide +kernel
  obtain ⟨row, hrow, hkey⟩ := Option.map_eq_some_iff.1 hrow
  have hid : row.id = Sample.neighbourId.text := Keyed.lookup_some_key hrow
  rw [← hkey]
  refine (claims_go_round.1 Sample.pair [Sample.claim] Sample.claim (Sample.reachable _)
    (by decide +kernel) ?_ ?_ ?_).2 row (hid ▸ hrow) ?_
  · intro m hmem
    simp [Sample.claim] at hmem
  · intro before o after heq hcloses
    have hopen : (Sample.pair.next Sample.claim).store.queue.readyCursor ≠ none := by decide +kernel
    obtain ⟨rfl, hrest⟩ | ⟨rest, rfl, hrest⟩ := List.cons_eq_append_iff.1 heq
    · obtain ⟨rfl, -⟩ := List.cons.inj hrest
      exact hopen hcloses.2
    · cases rest <;> cases hrest
  · have hroom : (((Sample.pair.run [Sample.claim]).claimCall? Sample.claim).map fun call =>
        (call.available, call.run.2.toOption.map List.length)) = some (1, some 1) := by
      decide +kernel
    obtain ⟨call, hcall, hcounts⟩ := Option.map_eq_some_iff.1 hroom
    obtain ⟨havailable, hleases⟩ := Prod.mk.inj hcounts
    obtain ⟨leases, hok, -⟩ := Option.map_eq_some_iff.1 hleases
    refine ⟨⟨call, hcall, by omega, leases, toOption_eq_some.1 hok⟩, ?_⟩
    decide +kernel
  · rw [hkey]
    intro before o after heq _ call hcall _
    have hfirst : ∀ ops ∈ [[], [Sample.claim]],
        ((Sample.pair.run ops).claimCall? Sample.claim).map (fun call =>
          ((call.store.db.delivery? Sample.neighbourId.text).map fun row =>
            (row.route, row.state, row.nextAttemptAtMs), call.now))
          = some (some (.relay, .pending, 1000), 1000) := by
      decide +kernel
    have hsplit : before ∈ [[], [Sample.claim]] ∧ o = Sample.claim := by
      rcases before with _ | ⟨first, _ | ⟨second, rest⟩⟩
      · exact ⟨List.mem_cons_self, (List.cons.inj heq).1.symm⟩
      · obtain ⟨rfl, hrest⟩ := List.cons.inj heq
        exact ⟨by simp, (List.cons.inj hrest).1.symm⟩
      · have hlength := congrArg List.length heq
        simp only [List.length_append, List.length_cons, List.length_nil] at hlength
        omega
    have hfacts := hfirst before hsplit.1
    rw [← hsplit.2, hcall] at hfacts
    obtain ⟨hrow, hnow⟩ := Prod.mk.inj (Option.some.inj hfacts)
    obtain ⟨found, hfound, hcolumns⟩ := Option.map_eq_some_iff.1 hrow
    obtain ⟨hroute, hcolumns⟩ := Prod.mk.inj hcolumns
    obtain ⟨hstate, hdue⟩ := Prod.mk.inj hcolumns
    exact ⟨found, hfound, hroute, Or.inl hstate, hdue, hnow ▸ le_refl _⟩

/-- A claim without room returns nothing and leaves the cursor where the sweep starts and ends, and it
does not look at the delivery that waits. -/
theorem sweep_without_room :
    Sample.occupied.store.queue.readyCursor = none
      ∧ (Sample.occupied.step Sample.claimSingle).2 = .leases (.ok [])
      ∧ (Sample.occupied.next Sample.claimSingle).store.queue.readyCursor = none
      ∧ ((Sample.occupied.store.db.delivery? Sample.neighbourId.text).map
          fun row => (row.route, row.state, row.readyKey))
        = some (.relay, .pending, Sample.neighbourKey)
      ∧ (((Sample.occupied.next Sample.claimSingle).store.db.delivery? Sample.neighbourId.text).map
          fun row => (row.route, row.state, row.readyKey))
        = some (.relay, .pending, Sample.neighbourKey)
      ∧ ¬ ∃ before, Runs.VisitsAfter World.next (World.Examines · Sample.neighbourKey)
        Sample.occupied [Sample.claimSingle] before := by
  refine ⟨by decide +kernel, rfl, by decide +kernel, by decide +kernel, by decide +kernel, ?_⟩
  rintro ⟨before, hvisits⟩
  rcases Runs.visitsAfter_cons.1 hvisits with ⟨-, call, row, hcall, hscans, -⟩ | ⟨later, -, hlater⟩
  · have hfull : (Sample.occupied.claimCall? Sample.claimSingle).map ClaimCall.available
        = some 0 := by decide +kernel
    rw [hcall] at hfull
    have hroom := hscans.1
    rw [Option.some.inj hfull] at hroom
    exact absurd hroom (by decide)
  · exact Runs.visitsAfter_nil hlater

end Rustymail
