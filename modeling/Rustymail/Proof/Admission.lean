import Rustymail.Proof.Startup
import Rustymail.Server.Admission

/-!
# Permits and counts

What `serve_until` believes about its connections is true: a permit is in use, and a connection is
counted, exactly while its session lives. So nothing is refused for a session that has ended.
-/

namespace Rustymail

namespace Core.Config

variable {config : Config} {options : OpenOptions} {slots : Nat}

/-- The ingest permits fit into the space for temporary files. -/
theorem slots_bounds (hslots : config.slots = some slots)
    (hoptions : config.storeOptions = some options) : slots ≤ config.limits.ingestConcurrency
      ∧ slots * options.maxMessageBytes ≤ config.limits.temporaryReservedBytes := by
  unfold Config.slots at hslots
  rw [hoptions] at hslots
  dsimp only [Option.bind_eq_bind, Option.bind_some] at hslots
  split_ifs at hslots with hzero
  · cases hslots
  · obtain rfl := Option.some.inj hslots
    refine ⟨Nat.min_le_right _ _, ?_⟩
    calc
      min (config.limits.temporaryReservedBytes / options.maxMessageBytes)
          config.limits.ingestConcurrency * options.maxMessageBytes
        ≤ config.limits.temporaryReservedBytes / options.maxMessageBytes
          * options.maxMessageBytes := Nat.mul_le_mul_right _ (Nat.min_le_left _ _)
      _ ≤ config.limits.temporaryReservedBytes := Nat.div_mul_le_self _ _

end Core.Config

namespace Server

namespace Reception

/-! ### The table of counts -/

section Counts

variable {counts : List (IpAddr × Nat)} {ip : IpAddr}

/-- The number in a row, zero without one. -/
def tally (counts : List (IpAddr × Nat)) (ip : IpAddr) : Nat :=
  (Keyed.lookup Prod.fst counts ip).elim 0 Prod.snd

/-- No address has two rows, and none counts zero. -/
structure Tidy (counts : List (IpAddr × Nat)) : Prop where
  unique : Keyed.Unique Prod.fst counts
  positive : ∀ row ∈ counts, 0 < row.2

theorem tally_countUp (other : IpAddr) :
    tally (countUp counts ip) other = tally counts other + if other = ip then 1 else 0 := by
  have hkey : ∀ row : IpAddr × Nat, (row.1, row.2 + 1).1 = row.1 := fun _ => rfl
  unfold countUp
  cases hrow : Keyed.lookup Prod.fst counts ip with
  | some row =>
      unfold tally
      dsimp only
      rw [Keyed.lookup_modify hkey]
      by_cases hother : other = ip
      · rw [if_pos hother, if_pos hother, hother, hrow]
        rfl
      · rw [if_neg hother, if_neg hother, Nat.add_zero]
  | none =>
      unfold tally
      dsimp only
      have hfresh : Keyed.lookup Prod.fst counts ((ip, 1) : IpAddr × Nat).1 = none := hrow
      rw [Keyed.lookup_append_singleton hfresh]
      by_cases hother : other = ip
      · rw [if_pos hother, if_pos hother, hother, hrow]
        rfl
      · rw [if_neg hother, if_neg hother, Nat.add_zero]

theorem Tidy.countUp (h : Tidy counts) : Tidy (countUp counts ip) := by
  unfold Reception.countUp
  cases hrow : Keyed.lookup Prod.fst counts ip with
  | some row =>
      refine ⟨Keyed.unique_modify (fun _ => rfl) h.unique, ?_⟩
      intro row hmem
      rcases Keyed.mem_modify.1 hmem with ⟨old, -, -, rfl⟩ | ⟨hold, -⟩
      · exact Nat.succ_pos _
      · exact h.positive row hold
  | none =>
      refine ⟨Keyed.unique_append_singleton h.unique hrow, ?_⟩
      intro row hmem
      rcases List.mem_append.1 hmem with hold | hnew
      · exact h.positive row hold
      · rw [List.mem_singleton.1 hnew]
        exact Nat.one_pos

theorem tally_countDown (counts : List (IpAddr × Nat)) (other : IpAddr) :
    tally (countDown counts ip) other = tally counts other - if other = ip then 1 else 0 := by
  have hkey : ∀ row : IpAddr × Nat, (row.1, row.2 - 1).1 = row.1 := fun _ => rfl
  unfold countDown
  cases hrow : Keyed.lookup Prod.fst counts ip with
  | some row =>
      dsimp only
      split_ifs with hlast hother hother
      · unfold tally
        rw [Keyed.lookup_remove, if_pos hother, hother, hrow]
        exact hlast.symm
      · unfold tally
        rw [Keyed.lookup_remove, if_neg hother]
        exact (Nat.sub_zero _).symm
      · unfold tally
        rw [Keyed.lookup_modify hkey, if_pos hother, hother, hrow]
        rfl
      · unfold tally
        rw [Keyed.lookup_modify hkey, if_neg hother]
        exact (Nat.sub_zero _).symm
  | none =>
      by_cases hother : other = ip
      · unfold tally
        rw [hother, hrow]
        exact (Nat.zero_sub _).symm
      · rw [if_neg hother, Nat.sub_zero]

theorem Tidy.countDown (h : Tidy counts) : Tidy (countDown counts ip) := by
  unfold Reception.countDown
  cases hrow : Keyed.lookup Prod.fst counts ip with
  | some row =>
      dsimp only
      split_ifs with hlast
      · refine ⟨Keyed.unique_remove h.unique, ?_⟩
        intro row hmem
        exact h.positive row (List.mem_of_mem_filter hmem)
      · refine ⟨Keyed.unique_modify (fun _ => rfl) h.unique, ?_⟩
        intro other hmem
        rcases Keyed.mem_modify.1 hmem with ⟨old, hold, hkey, rfl⟩ | ⟨hold, -⟩
        · have hsame : old = row := Option.some.inj
            ((Keyed.lookup_of_mem h.unique hold).symm.trans (hkey ▸ hrow))
          rw [hsame]
          exact Nat.pos_of_ne_zero hlast
        · exact h.positive other hold
  | none => exact h

end Counts

/-! ### Connections -/

/-- The live sessions of an address. -/
def sessionsOf (f : Reception) (ip : IpAddr) : Nat := f.sessions.countP fun session => session.ip = ip

/-- What holds of the server at any moment. -/
structure Sound (limits : Limits) (slots : Nat) (f : Reception) : Prop where
  cap : f.connectionsPerIp = limits.connectionsPerIp
  connections : f.connections.Tried limits.connections
  handshakes : f.handshakes.Tried limits.tlsHandshakes
  management : f.management.Tried 4
  ingest : f.ingest.Tried slots
  leased : f.connections.holders = f.sessions.map LiveSession.id
  handshaking : ∀ id ∈ f.handshakes.holders, id ∈ f.connections.holders
  receiving : ∀ id ∈ f.ingest.holders, id ∈ f.connections.holders
  known : ∀ id ∈ f.connections.holders ++ f.management.holders, id < f.next
  tidy : Tidy f.counts
  counted : ∀ ip, f.count ip = f.sessionsOf ip
  capped : ∀ ip, f.count ip ≤ limits.connectionsPerIp

section Connections

variable {limits : Limits} {slots : Nat} {f : Reception} {ip : IpAddr} {session : LiveSession} {id : Nat}

theorem sound_start (limits : Limits) (slots : Nat) : (start limits slots).Sound limits slots where
  cap := rfl
  connections := Semaphore.Tried.create _
  handshakes := Semaphore.Tried.create _
  management := Semaphore.Tried.create _
  ingest := Semaphore.Tried.create _
  leased := rfl
  handshaking _ hmem := absurd hmem List.not_mem_nil
  receiving _ hmem := absurd hmem List.not_mem_nil
  known _ hmem := absurd hmem List.not_mem_nil
  tidy := ⟨List.nodup_nil, fun _ hmem => absurd hmem List.not_mem_nil⟩
  counted _ := rfl
  capped _ := Nat.zero_le _

namespace Sound

theorem unique (h : f.Sound limits slots) : Keyed.Unique LiveSession.id f.sessions := by
  unfold Keyed.Unique
  rw [← h.leased, ← h.connections.parties_eq]
  exact h.connections.distinct

theorem fresh (h : f.Sound limits slots) : f.next ∉ f.connections.holders := by
  intro hmem
  exact absurd (h.known _ (List.mem_append_left _ hmem)) (Nat.lt_irrefl _)

theorem live (h : f.Sound limits slots) (hlive : f.session? id = some session) :
    id ∈ f.connections.holders := by
  rw [h.leased, ← Keyed.lookup_some_key hlive]
  exact List.mem_map_of_mem (Keyed.mem_of_lookup hlive)

/-- A number is used up without a trace. -/
theorem skip (h : f.Sound limits slots) :
    ({ f with next := f.next + 1 } : Reception).Sound limits slots :=
  { h with known := fun id hmem => Nat.lt_succ_of_lt (h.known id hmem) }

theorem accept (h : f.Sound limits slots) (ip : IpAddr) (role : Role) :
    (f.accept ip role).1.Sound limits slots := by
  unfold Reception.accept
  dsimp only
  cases hpermit : f.connections.tryAcquire f.next with
  | none => exact h.skip
  | some connections =>
      dsimp only
      split_ifs with hfull
      · exact h.skip
      · obtain ⟨hconnections, hholders⟩ := h.connections.tryAcquire h.fresh hpermit
        have hold : ∀ id ∈ f.connections.holders, id ∈ connections.holders := fun id hmem =>
          hholders ▸ List.mem_append_left _ hmem
        have hcount : ∀ other, tally (countUp f.counts ip) other
            = f.count other + if other = ip then 1 else 0 := tally_countUp
        exact {
          cap := h.cap
          connections := hconnections
          handshakes := h.handshakes
          management := h.management
          ingest := h.ingest
          leased := by rw [hholders, h.leased, List.map_append]; rfl
          handshaking := fun id hmem => hold id (h.handshaking id hmem)
          receiving := fun id hmem => hold id (h.receiving id hmem)
          known := by
            intro id hmem
            rw [hholders] at hmem
            have hknown := h.known id
            simp only [List.mem_append, List.mem_singleton] at hmem hknown
            dsimp only
            rcases hmem with (hleft | rfl) | hright
            · exact Nat.lt_succ_of_lt (hknown (Or.inl hleft))
            · exact Nat.lt_succ_self _
            · exact Nat.lt_succ_of_lt (hknown (Or.inr hright))
          tidy := h.tidy.countUp
          counted := by
            intro other
            refine (hcount other).trans ?_
            unfold sessionsOf
            rw [List.countP_append, h.counted other, List.countP_singleton]
            simp only [decide_eq_true_eq, eq_comm (a := ip)]
            rfl
          capped := by
            intro other
            refine (hcount other).trans_le ?_
            have hbefore := h.capped other
            split_ifs with hother
            · rw [hother, ← h.cap]
              omega
            · exact hbefore }

theorem finish (h : f.Sound limits slots) (hlive : f.session? id = some session) :
    (f.finish session).Sound limits slots := by
  have hid : session.id = id := Keyed.lookup_some_key hlive
  subst hid
  obtain ⟨hconnections, hholders⟩ := h.connections.leave session.id
  obtain ⟨hhandshakes, hhandshaking⟩ := h.handshakes.leave session.id
  obtain ⟨hingest, hreceiving⟩ := h.ingest.leave session.id
  have hdistinct : f.connections.holders.Nodup := h.connections.parties_eq ▸ h.connections.distinct
  have hnodup : f.handshakes.holders.Nodup := h.handshakes.parties_eq ▸ h.handshakes.distinct
  have hnodup' : f.ingest.holders.Nodup := h.ingest.parties_eq ▸ h.ingest.distinct
  have hcount : ∀ other, tally (countDown f.counts session.ip) other
      = f.count other - if other = session.ip then 1 else 0 := tally_countDown f.counts
  exact {
    cap := h.cap
    connections := hconnections
    handshakes := hhandshakes
    management := h.management
    ingest := hingest
    leased := by
      change (f.connections.leave session.id).holders
        = (Keyed.remove LiveSession.id f.sessions session.id).map LiveSession.id
      rw [hholders, h.leased, Keyed.map_remove h.unique]
    handshaking := by
      intro id hmem
      change id ∈ (f.handshakes.leave session.id).holders at hmem
      change id ∈ (f.connections.leave session.id).holders
      rw [hhandshaking, hnodup.mem_erase_iff] at hmem
      rw [hholders, hdistinct.mem_erase_iff]
      exact ⟨hmem.1, h.handshaking id hmem.2⟩
    receiving := by
      intro id hmem
      change id ∈ (f.ingest.leave session.id).holders at hmem
      change id ∈ (f.connections.leave session.id).holders
      rw [hreceiving, hnodup'.mem_erase_iff] at hmem
      rw [hholders, hdistinct.mem_erase_iff]
      exact ⟨hmem.1, h.receiving id hmem.2⟩
    known := by
      intro id hmem
      change id ∈ (f.connections.leave session.id).holders ++ f.management.holders at hmem
      rw [hholders] at hmem
      refine h.known id ?_
      rcases List.mem_append.1 hmem with hleft | hright
      · exact List.mem_append_left _ (List.mem_of_mem_erase hleft)
      · exact List.mem_append_right _ hright
    tidy := h.tidy.countDown
    counted := by
      intro other
      refine (hcount other).trans ?_
      have hperm := Keyed.perm_remove h.unique hlive
      have hsplit := hperm.countP_eq fun row => decide (row.ip = other)
      rw [List.countP_cons] at hsplit
      have hbefore := h.counted other
      unfold sessionsOf at hbefore ⊢
      simp only [decide_eq_true_eq, eq_comm (a := session.ip)] at hsplit
      change _ = (Keyed.remove LiveSession.id f.sessions session.id).countP _
      omega
    capped := fun other => (hcount other).trans_le ((Nat.sub_le _ _).trans (h.capped other)) }

theorem handshake (h : f.Sound limits slots) (hlive : f.session? id = some session)
    (hnew : id ∉ f.handshakes.holders) {handshakes : Semaphore Nat}
    (hpermit : f.handshakes.tryAcquire id = some handshakes) :
    ({ f with handshakes := handshakes } : Reception).Sound limits slots := by
  obtain ⟨hhandshakes, hholders⟩ := h.handshakes.tryAcquire hnew hpermit
  refine { h with handshakes := hhandshakes, handshaking := ?_ }
  intro other hmem
  change other ∈ handshakes.holders at hmem
  rw [hholders] at hmem
  rcases List.mem_append.1 hmem with hold | hself
  · exact h.handshaking other hold
  · rw [List.mem_singleton.1 hself]
    exact h.live hlive

theorem data (h : f.Sound limits slots) (hlive : f.session? id = some session)
    (hnew : id ∉ f.ingest.holders) {ingest : Semaphore Nat}
    (hpermit : f.ingest.tryAcquire id = some ingest) :
    ({ f with ingest := ingest } : Reception).Sound limits slots := by
  obtain ⟨hingest, hholders⟩ := h.ingest.tryAcquire hnew hpermit
  refine { h with ingest := hingest, receiving := ?_ }
  intro other hmem
  change other ∈ ingest.holders at hmem
  rw [hholders] at hmem
  rcases List.mem_append.1 hmem with hold | hself
  · exact h.receiving other hold
  · rw [List.mem_singleton.1 hself]
    exact h.live hlive

theorem admin (h : f.Sound limits slots) {management : Semaphore Nat}
    (hpermit : f.management.tryAcquire f.next = some management) :
    ({ f with management := management, next := f.next + 1 } : Reception).Sound limits slots := by
  have hnew : f.next ∉ f.management.holders := fun hmem =>
    absurd (h.known _ (List.mem_append_right _ hmem)) (Nat.lt_irrefl _)
  obtain ⟨hmanagement, hholders⟩ := h.management.tryAcquire hnew hpermit
  refine { h with management := hmanagement, known := ?_ }
  intro other hmem
  change other ∈ f.connections.holders ++ management.holders at hmem
  rw [hholders, ← List.append_assoc] at hmem
  rcases List.mem_append.1 hmem with hold | hself
  · exact Nat.lt_succ_of_lt (h.known other hold)
  · rw [List.mem_singleton.1 hself]
    exact Nat.lt_succ_self _

/-- Every step keeps the permits and the counts right. -/
theorem step (h : f.Sound limits slots) (event : Event) : (f.step event).Sound limits slots := by
  cases event with
  | accept ip role =>
      simp only [Reception.step]
      split_ifs
      · exact h.accept ip role
      · exact h
  | finish id =>
      simp only [Reception.step]
      cases hlive : f.session? id with
      | none => exact h
      | some session => exact h.finish hlive
  | handshake id =>
      simp only [Reception.step]
      cases hlive : f.session? id with
      | none => exact h
      | some session =>
          dsimp only
          by_cases hholds : id ∈ f.handshakes.holders
          · rw [if_pos hholds]
            exact h
          · rw [if_neg hholds]
            cases hpermit : f.handshakes.tryAcquire id with
            | some handshakes => exact h.handshake hlive hholds hpermit
            | none =>
                dsimp only
                split_ifs
                · exact h.finish hlive
                · exact h
  | handshakeEnds id =>
      obtain ⟨hhandshakes, hholders⟩ := h.handshakes.leave id
      refine { h with handshakes := hhandshakes, handshaking := ?_ }
      intro other hmem
      change other ∈ (f.handshakes.leave id).holders at hmem
      rw [hholders] at hmem
      exact h.handshaking other (List.mem_of_mem_erase hmem)
  | data id =>
      simp only [Reception.step]
      cases hlive : f.session? id with
      | none => exact h
      | some session =>
          dsimp only
          split_ifs with hholds
          · exact h
          · cases hpermit : f.ingest.tryAcquire id with
            | some ingest => exact h.data hlive hholds hpermit
            | none => exact h
  | dataEnds id =>
      obtain ⟨hingest, hholders⟩ := h.ingest.leave id
      refine { h with ingest := hingest, receiving := ?_ }
      intro other hmem
      change other ∈ (f.ingest.leave id).holders at hmem
      rw [hholders] at hmem
      exact h.receiving other (List.mem_of_mem_erase hmem)
  | admin =>
      simp only [Reception.step]
      split_ifs
      · cases hpermit : f.management.tryAcquire f.next with
        | some management => exact h.admin hpermit
        | none => exact h
      · exact h
  | adminEnds id =>
      obtain ⟨hmanagement, hholders⟩ := h.management.leave id
      refine { h with management := hmanagement, known := ?_ }
      intro other hmem
      change other ∈ f.connections.holders ++ (f.management.leave id).holders at hmem
      rw [hholders] at hmem
      refine h.known other ?_
      rcases List.mem_append.1 hmem with hleft | hright
      · exact List.mem_append_left _ hleft
      · exact List.mem_append_right _ (List.mem_of_mem_erase hright)
  | stop => exact { h with }

theorem run (limits : Limits) (slots : Nat) (events : List Event) :
    ((start limits slots).run events).Sound limits slots :=
  Runs.invariant (Sound limits slots) (sound_start limits slots) (fun _ event h => h.step event) events

theorem length_holders (h : f.Sound limits slots) :
    f.connections.holders.length = f.sessions.length := by
  rw [h.leased, List.length_map]

theorem length_sessions_le (h : f.Sound limits slots) : f.sessions.length ≤ limits.connections := by
  rw [← h.length_holders]
  exact h.connections.holders_le

theorem sessionsOf_le (h : f.Sound limits slots) (ip : IpAddr) :
    f.sessionsOf ip ≤ limits.connectionsPerIp := by
  rw [← h.counted ip]
  exact h.capped ip

/-- What a connection is told depends on the sessions that live, and on nothing else. -/
theorem accept_told (h : f.Sound limits slots) (ip : IpAddr) (role : Role) :
    (f.accept ip role).2 =
      if f.sessions.length = limits.connections then .limited (role != .implicitSubmission)
      else if f.sessionsOf ip = limits.connectionsPerIp then
        .limitedForIp (role != .implicitSubmission)
      else .served := by
  have hrefused := h.connections.refused_iff (i := f.next)
  rw [h.length_holders] at hrefused
  unfold Reception.accept
  dsimp only
  cases hpermit : f.connections.tryAcquire f.next with
  | none => rw [if_pos (hrefused.1 hpermit)]
  | some connections =>
      have hroom : f.sessions.length ≠ limits.connections := by
        intro hfull
        rw [hrefused.2 hfull] at hpermit
        cases hpermit
      have hcap := h.sessionsOf_le ip
      dsimp only
      rw [if_neg hroom, h.cap, h.counted ip]
      by_cases hfull : f.sessionsOf ip = limits.connectionsPerIp
      · rw [if_pos hfull, if_pos hfull.ge]
      · rw [if_neg hfull, if_neg (by omega)]

/-- Counts without a session would be zero. -/
theorem counts_nil (h : f.Sound limits slots) (hnobody : f.sessions = []) : f.counts = [] := by
  refine List.eq_nil_iff_forall_not_mem.2 fun row hmem => ?_
  have hcount := h.counted row.1
  unfold Reception.count sessionsOf at hcount
  rw [Keyed.lookup_of_mem h.tidy.unique hmem, hnobody] at hcount
  exact absurd hcount (Nat.ne_of_gt (h.tidy.positive row hmem))

/-- Without sessions all permits are there. -/
theorem idle (h : f.Sound limits slots) (hnobody : f.sessions = []) :
    f = { start limits slots with
      management := f.management
      next := f.next
      accepting := f.accepting } := by
  have hleased := h.leased
  rw [hnobody, List.map_nil] at hleased
  have hnoHandshake : f.handshakes.holders = [] :=
    List.eq_nil_iff_forall_not_mem.2 fun id hmem =>
      absurd (hleased ▸ h.handshaking id hmem) List.not_mem_nil
  have hnoIngest : f.ingest.holders = [] :=
    List.eq_nil_iff_forall_not_mem.2 fun id hmem =>
      absurd (hleased ▸ h.receiving id hmem) List.not_mem_nil
  have hconnections := h.connections.idle (h.connections.parties_eq.trans hleased)
  have hhandshakes := h.handshakes.idle (h.handshakes.parties_eq.trans hnoHandshake)
  have hingest := h.ingest.idle (h.ingest.parties_eq.trans hnoIngest)
  have hcounts := h.counts_nil hnobody
  have hcap := h.cap
  clear hleased hnoHandshake hnoIngest h
  obtain ⟨cap, connections, handshakes, management, ingest, counts, sessions, next, accepting⟩ := f
  dsimp only at hnobody hconnections hhandshakes hingest hcounts hcap
  subst hnobody hconnections hhandshakes hingest hcounts hcap
  rfl

end Sound

end Connections

end Reception

/-! ### Logins -/

namespace AuthPermits

/-- What holds of an `AuthService` at any moment. -/
structure Sound (settings : Core.Authentication) (a : AuthPermits) : Prop where
  admission : a.admission.Tried (settings.concurrency + settings.waitingRequests)
  active : a.active.Sound settings.concurrency
  order : a.active.Ordered (· < ·)
  admitted : a.admission.holders = a.calls.map AuthCall.id
  parties : a.active.parties.Perm (a.calls.map AuthCall.id)
  working : ∀ call ∈ a.calls, call.stage ≠ .queued → call.id ∈ a.active.holders
  known : ∀ call ∈ a.calls, call.id < a.next

section Logins

variable {settings : Core.Authentication} {a : AuthPermits} {id : Nat} {call : AuthCall}

theorem sound_start (settings : Core.Authentication) : (start settings).Sound settings where
  admission := Semaphore.Tried.create _
  active := Semaphore.sound_create _
  order := ⟨List.Pairwise.nil, fun _ hmem => absurd hmem List.not_mem_nil⟩
  admitted := rfl
  parties := List.Perm.nil
  working _ hmem := absurd hmem List.not_mem_nil
  known _ hmem := absurd hmem List.not_mem_nil

namespace Sound

theorem unique (h : a.Sound settings) : Keyed.Unique AuthCall.id a.calls :=
  h.parties.nodup_iff.1 h.active.distinct

theorem arrive (h : a.Sound settings) {admission : Semaphore Nat}
    (hpermit : a.admission.tryAcquire a.next = some admission) :
    ({ admission := admission
       active := a.active.acquire a.next
       calls := a.calls ++ [⟨a.next, .queued⟩]
       next := a.next + 1 } : AuthPermits).Sound settings := by
  have hbelow : ∀ id ∈ a.calls.map AuthCall.id, id < a.next := by
    intro id hmem
    obtain ⟨call, hcall, rfl⟩ := List.mem_map.1 hmem
    exact h.known call hcall
  have hnew : a.next ∉ a.calls.map AuthCall.id := fun hmem =>
    absurd (hbelow _ hmem) (Nat.lt_irrefl _)
  have hfresh : a.next ∉ a.active.parties := fun hmem => hnew (h.parties.mem_iff.1 hmem)
  obtain ⟨hadmission, hholders⟩ := h.admission.tryAcquire (h.admitted ▸ hnew) hpermit
  obtain ⟨hactive, hperm⟩ := h.active.acquire hfresh
  exact {
    admission := hadmission
    active := hactive
    order := h.order.acquire (fun j hj => hbelow j (h.parties.mem_iff.1 hj)) h.active.busy
    admitted := by rw [hholders, h.admitted, List.map_append]; rfl
    parties := by
      rw [List.map_append]
      exact hperm.trans ((h.parties.cons a.next).trans
        (List.perm_append_singleton a.next (a.calls.map AuthCall.id)).symm)
    working := by
      intro call hmem hstage
      rcases List.mem_append.1 hmem with hold | hself
      · exact Semaphore.mem_holders_acquire (h.working call hold hstage)
      · rw [List.mem_singleton.1 hself] at hstage
        exact absurd rfl hstage
    known := by
      intro call hmem
      rcases List.mem_append.1 hmem with hold | hself
      · exact Nat.lt_succ_of_lt (h.known call hold)
      · rw [List.mem_singleton.1 hself]
        exact Nat.lt_succ_self _ }

theorem finish (h : a.Sound settings) (id : Nat) : (a.finish id).Sound settings := by
  obtain ⟨hadmission, hholders⟩ := h.admission.leave id
  obtain ⟨hactive, hperm⟩ := h.active.leave id
  exact {
    admission := hadmission
    active := hactive
    order := h.order.leave id
    admitted := by
      change (a.admission.leave id).holders = (Keyed.remove AuthCall.id a.calls id).map AuthCall.id
      rw [hholders, h.admitted, Keyed.map_remove h.unique]
    parties := by
      change (a.active.leave id).parties.Perm ((Keyed.remove AuthCall.id a.calls id).map AuthCall.id)
      rw [Keyed.map_remove h.unique]
      exact hperm.trans (h.parties.erase id)
    working := by
      intro call hmem hstage
      obtain ⟨hold, hne⟩ := List.mem_filter.1 hmem
      exact Semaphore.mem_holders_leave (of_decide_eq_true hne) (h.working call hold hstage)
    known := fun call hmem => h.known call (List.mem_of_mem_filter hmem) }

/-- A call that holds its permit goes on. -/
theorem move (h : a.Sound settings) (hholds : id ∈ a.active.holders) (stage : AuthStage) :
    (a.move id stage).Sound settings := by
  have hids : (Keyed.modify AuthCall.id a.calls id
      fun call => { call with stage := stage }).map AuthCall.id = a.calls.map AuthCall.id :=
    Keyed.map_modify fun _ => rfl
  refine { h with admitted := ?_, parties := ?_, working := ?_, known := ?_ }
  · exact h.admitted.trans hids.symm
  · exact hids ▸ h.parties
  · intro call hmem hstage
    rcases Keyed.mem_modify.1 hmem with ⟨old, -, hkey, rfl⟩ | ⟨hold, -⟩
    · exact hkey ▸ hholds
    · exact h.working call hold hstage
  · intro call hmem
    rcases Keyed.mem_modify.1 hmem with ⟨old, hold, -, rfl⟩ | ⟨hold, -⟩
    · exact h.known old hold
    · exact h.known call hold

theorem holds (h : a.Sound settings) (hcall : a.call? id = some call)
    (hstage : call.stage ≠ .queued) : id ∈ a.active.holders := by
  rw [← Keyed.lookup_some_key hcall]
  exact h.working call (Keyed.mem_of_lookup hcall) hstage

theorem step (h : a.Sound settings) (event : Event) : (a.step event).Sound settings := by
  cases event with
  | arrive rated =>
      cases rated with
      | false => exact h
      | true =>
          simp only [AuthPermits.step, if_true]
          cases hpermit : a.admission.tryAcquire a.next with
          | some admission => exact h.arrive hpermit
          | none => exact { h with known := fun call hmem => Nat.lt_succ_of_lt (h.known call hmem) }
  | granted id lookup =>
      simp only [AuthPermits.step]
      split
      · split_ifs with hholds
        · exact h.move hholds _
        · exact h.move hholds _
        · exact h
      · exact h
  | timeout id =>
      simp only [AuthPermits.step]
      split
      · split_ifs
        · exact h
        · exact h.finish id
      · exact h
  | lookedUp id found =>
      simp only [AuthPermits.step]
      split
      · rename_i hcall
        have hholds := h.holds hcall (fun hstage => AuthStage.noConfusion hstage)
        split_ifs
        · exact h.move hholds _
        · exact h.finish id
      · exact h
  | hashed id =>
      simp only [AuthPermits.step]
      split
      · exact h.finish id
      · exact h
  | drop id =>
      simp only [AuthPermits.step]
      split
      · rename_i hcall
        exact h.move (h.holds hcall fun hstage => AuthStage.noConfusion hstage) _
      · exact h.finish id
      · exact h

theorem run (settings : Core.Authentication) (events : List Event) :
    ((start settings).run events).Sound settings :=
  Runs.invariant (Sound settings) (sound_start settings) (fun _ event h => h.step event) events

theorem length_parties (h : a.Sound settings) :
    a.active.holders.length + a.active.waiters.length = a.calls.length := by
  have hlength := h.parties.length_eq
  rwa [Semaphore.parties, List.length_append, List.length_map] at hlength

theorem length_calls_le (h : a.Sound settings) :
    a.calls.length ≤ settings.concurrency + settings.waitingRequests := by
  have hle := h.admission.holders_le
  rwa [h.admitted, List.length_map] at hle

/-- All but the calls that are served wait, and all permits are in use then. -/
theorem waiting_le (h : a.Sound settings) : a.active.waiters.length ≤ settings.waitingRequests := by
  have hparties := h.length_parties
  have hcalls := h.length_calls_le
  by_cases hwaits : a.active.waiters = []
  · rw [hwaits]
    exact Nat.zero_le _
  · have hfull := h.active.full hwaits
    omega

/-- Every hash has a permit of its own. -/
theorem hashes_le (h : a.Sound settings) : a.hashes ≤ settings.concurrency := by
  have hdistinct : ((a.calls.filter fun call => call.stage.isHashing).map AuthCall.id).Nodup :=
    h.unique.sublist (List.filter_sublist.map AuthCall.id)
  have hsubset : (a.calls.filter fun call => call.stage.isHashing).map AuthCall.id
      ⊆ a.active.holders := by
    intro id hmem
    obtain ⟨call, hcall, rfl⟩ := List.mem_map.1 hmem
    obtain ⟨hcall, hhashing⟩ := List.mem_filter.1 hcall
    refine h.working call hcall fun hqueued => ?_
    rw [hqueued] at hhashing
    exact Bool.noConfusion hhashing
  have hlength := (List.subperm_of_subset hdistinct hsubset).length_le
  rw [List.length_map, ← List.countP_eq_length_filter] at hlength
  exact hlength.trans h.active.holders_le

theorem refused_iff (h : a.Sound settings) : (a.step (.arrive true)).calls = a.calls
    ↔ a.calls.length = settings.concurrency + settings.waitingRequests := by
  have hrefused := h.admission.refused_iff (i := a.next)
  rw [h.admitted, List.length_map] at hrefused
  rw [← hrefused]
  simp only [AuthPermits.step, if_true]
  cases hpermit : a.admission.tryAcquire a.next with
  | some admission => simp
  | none => simp

theorem idle (h : a.Sound settings) (hnobody : a.calls = []) :
    a = { start settings with next := a.next } := by
  have hadmitted := h.admitted
  have hparties := h.parties
  rw [hnobody, List.map_nil] at hadmitted hparties
  have hadmission := h.admission.idle (h.admission.parties_eq.trans hadmitted)
  have hactive := h.active.idle (List.perm_nil.1 hparties)
  clear hadmitted hparties h
  obtain ⟨admission, active, calls, next⟩ := a
  dsimp only at hnobody hadmission hactive
  subst hnobody hadmission hactive
  rfl

end Sound

end Logins

end AuthPermits

/-- **Hashing is bounded and nobody overtakes.** However calls arrive, give up, time out and end under
a valid configuration, hashing takes no more than 256 MiB, and no more calls wait than allowed. Calls
wait only while all permits are in use, and are served in the order of their arrival. A call is turned
away exactly while all places are taken, and with the last call all permits are back, also those of
callers that went away. -/
theorem logins_bounded {config : Core.Config} (hvalid : config.validate = .ok ())
    (events : List AuthPermits.Event) :
    let a := (AuthPermits.start config.authentication).run events
    (a.hashes ≤ config.authentication.concurrency
        ∧ a.hashes * config.authentication.argon2MemoryKib ≤ 256 * 1024)
      ∧ a.active.waiters.length ≤ config.authentication.waitingRequests
      ∧ (a.active.waiters ≠ [] → a.active.holders.length = config.authentication.concurrency)
      ∧ (∀ call ∈ a.calls, call.id ∈ a.active.holders
        ∨ call.id ∈ a.active.waiters ∧ call.stage = .queued)
      ∧ a.active.waiters.Pairwise (· < ·)
      ∧ (∀ served ∈ a.active.holders, ∀ waiting ∈ a.active.waiters, served < waiting)
      ∧ ((a.step (.arrive true)).calls = a.calls ↔ a.calls.length
        = config.authentication.concurrency + config.authentication.waitingRequests)
      ∧ (a.calls = [] → a = { AuthPermits.start config.authentication with next := a.next }) := by
  intro a
  have h : a.Sound config.authentication := AuthPermits.Sound.run config.authentication events
  have hmemory : a.hashes * config.authentication.argon2MemoryKib ≤ 256 * 1024 := by
    calc
      a.hashes * config.authentication.argon2MemoryKib
        ≤ config.authentication.concurrency * config.authentication.argon2MemoryKib :=
          Nat.mul_le_mul_right _ h.hashes_le
      _ = config.authentication.argon2MemoryKib * config.authentication.concurrency :=
          Nat.mul_comm _ _
      _ ≤ 256 * 1024 := (Core.Config.hashing_of_validate hvalid).budget
  refine ⟨⟨h.hashes_le, hmemory⟩, h.waiting_le, h.active.full, ?_, h.order.queue, h.order.served,
    h.refused_iff, h.idle⟩
  intro call hcall
  have hparty : call.id ∈ a.active.parties := h.parties.mem_iff.2 (List.mem_map_of_mem hcall)
  rcases List.mem_append.1 hparty with hholds | hwaits
  · exact Or.inl hholds
  · by_cases hstage : call.stage = .queued
    · exact Or.inr ⟨hwaits, hstage⟩
    · exact Or.inl (h.working call hcall hstage)

end Server

namespace Sample

/-- Eight connections from one host, one of which receives a message. -/
def visits : List Server.Reception.Event :=
  List.replicate 8 (.accept (.v4 loopback) .receiver) ++ [.data 3]

theorem config_valid : config.validate = .ok () := by decide +kernel

/-- Three calls arrive while two hashes may run, and the first goes away. -/
def rush : List Server.AuthPermits.Event :=
  [.arrive true, .arrive true, .arrive true, .granted 0 true, .lookedUp 0 true, .drop 0]

/-- The third call waits, for the hash of the first goes on. -/
theorem third_waits : let a := (Server.AuthPermits.start config.authentication).run rush
    a.active.waiters = [2] ∧ a.active.holders.length = 2 ∧ a.hashes * 65536 ≤ 256 * 1024 := by
  have hbounded := Server.logins_bounded config_valid rush
  have hwaits : ((Server.AuthPermits.start config.authentication).run rush).active.waiters = [2] := by
    decide +kernel
  exact ⟨hwaits, hbounded.2.2.1 (hwaits ▸ List.cons_ne_nil 2 []), hbounded.1.2⟩

end Sample

end Rustymail
