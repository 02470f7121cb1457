import Rustymail.Server.Rates

/-!
# What the rate limit guarantees

A call changes the entries of its two keys as one attempt does, and every other entry at most by
forgetting it when its window is over. From that, a budget for each key is carried along a run; a
limiter that never forgets anything is compared through what still counts.
-/

namespace Rustymail.Server

open Windows

namespace RateTable

variable {κ : Type} [DecidableEq κ] {table : RateTable κ} {key key' : κ} {value : RateEntry}
  {f : RateEntry → RateEntry}

theorem get_modify :
    get (Keyed.modify Prod.fst table key fun row => (row.1, f row.2)) key'
      = if key' = key then (get table key').map f else get table key' := by
  unfold get
  rw [Keyed.lookup_modify (f := fun row : κ × RateEntry => (row.1, f row.2)) fun _ => rfl]
  by_cases hkey : key' = key
  · rw [if_pos hkey, if_pos hkey, Option.map_map, Option.map_map]
    rfl
  · rw [if_neg hkey, if_neg hkey]

theorem get_append (h : get table key = none) :
    get (table ++ [(key, value)]) key' = if key' = key then some value else get table key' := by
  unfold get at h ⊢
  rw [Keyed.lookup_append_singleton (Option.map_eq_none_iff.1 h)]
  by_cases hkey : key' = key
  · rw [if_pos hkey, if_pos hkey]
    rfl
  · rw [if_neg hkey, if_neg hkey]

theorem get_upsert :
    get (upsert table key value f) key'
      = if key' = key then some (f ((get table key).getD value)) else get table key' := by
  unfold upsert
  rw [get_modify]
  cases hget : get table key with
  | some entry =>
      rw [if_pos (Option.isSome_some (a := entry))]
      by_cases hkey : key' = key
      · rw [if_pos hkey, if_pos hkey, hkey, hget]
        rfl
      · rw [if_neg hkey, if_neg hkey]
  | none =>
      rw [Option.isSome_none, if_neg Bool.false_ne_true, get_append hget]
      by_cases hkey : key' = key
      · rw [if_pos hkey, if_pos hkey, if_pos hkey]
        rfl
      · rw [if_neg hkey, if_neg hkey, if_neg hkey]

theorem unique_upsert (hunique : Keyed.Unique Prod.fst table) :
    Keyed.Unique Prod.fst (upsert table key value f) := by
  unfold upsert
  refine Keyed.unique_modify (fun _ => rfl) ?_
  cases hget : get table key with
  | some entry => exact hunique
  | none => exact Keyed.unique_append_singleton hunique (Option.map_eq_none_iff.1 hget)

theorem length_upsert :
    (upsert table key value f).length
      = table.length + if (get table key).isNone = true then 1 else 0 := by
  unfold upsert Keyed.modify
  rw [List.length_map]
  cases get table key with
  | some entry => rfl
  | none => exact List.length_append

/-- A sweep keeps what still counts. -/
theorem get_filter {now : Nat} (hunique : Keyed.Unique Prod.fst table) :
    get (table.filter fun row => now - row.2.started < rateWindow) key
      = live rateWindow now (get table key) := by
  unfold get
  rw [Keyed.lookup_filter hunique]
  cases Keyed.lookup Prod.fst table key with
  | none => rfl
  | some row =>
      by_cases hover : Over rateWindow now row.2
      · rw [Option.map_some, live_over hover]
        refine (congrArg (Option.map Prod.snd) (if_neg fun h => ?_)).trans rfl
        exact (of_decide_eq_true h : _ < _).not_ge hover
      · rw [Option.map_some, live_some hover]
        exact congrArg (Option.map Prod.snd) (if_pos (decide_eq_true (Nat.lt_of_not_ge hover)))

end RateTable

theorem RateKey.limit_pos (key : RateKey) : 0 < key.limit := by
  cases key with
  | ip peer => exact Nat.succ_pos 29
  | account name => exact Nat.succ_pos 9

theorem RateKey.limit_lt (key : RateKey) : key.limit < u32Max := by
  cases key with
  | ip peer => exact (by decide : 30 < u32Max)
  | account name => exact (by decide : 10 < u32Max)

namespace Rates

variable {rates : Rates} {call : RateCall} {key : RateKey} {calls : List RateCall}

/-- The tables, as a run keeps them. -/
structure Bounded (rates : Rates) : Prop where
  uniqueIps : Keyed.Unique Prod.fst rates.ips
  uniqueAccounts : Keyed.Unique Prod.fst rates.accounts
  ips : rates.ips.length ≤ maxRateEntries
  accounts : rates.accounts.length ≤ maxRateEntries

theorem bounded_new (created : Nat) : (new created).Bounded where
  uniqueIps := List.nodup_nil
  uniqueAccounts := List.nodup_nil
  ips := Nat.zero_le _
  accounts := Nat.zero_le _

theorem Bounded.sweep (h : rates.Bounded) (now : Nat) : (rates.sweep now).Bounded := by
  unfold Rates.sweep
  split
  · exact {
      uniqueIps := h.uniqueIps.sublist (List.filter_sublist.map _)
      uniqueAccounts := h.uniqueAccounts.sublist (List.filter_sublist.map _)
      ips := (List.length_filter_le _ _).trans h.ips
      accounts := (List.length_filter_le _ _).trans h.accounts }
  · exact h

theorem Bounded.count (h : rates.Bounded) (hfull : rates.full call = false) :
    (rates.count call).Bounded := by
  rw [full, Bool.or_eq_false_iff, Bool.and_eq_false_iff, Bool.and_eq_false_iff,
    decide_eq_false_iff_not, decide_eq_false_iff_not] at hfull
  obtain ⟨hips, haccounts⟩ := hfull
  refine ⟨RateTable.unique_upsert h.uniqueIps, RateTable.unique_upsert h.uniqueAccounts, ?_, ?_⟩
  · have hlength := h.ips
    unfold Rates.count
    rw [RateTable.length_upsert]
    cases hisNone : (RateTable.get rates.ips call.ip).isNone with
    | false => exact hlength
    | true =>
        rw [hisNone] at hips
        have hplace : ¬ maxRateEntries ≤ rates.ips.length := hips.resolve_left nofun
        rw [if_pos rfl]
        omega
  · have hlength := h.accounts
    unfold Rates.count
    rw [RateTable.length_upsert]
    cases hisNone : (RateTable.get rates.accounts call.account).isNone with
    | false => exact hlength
    | true =>
        rw [hisNone] at haccounts
        have hplace : ¬ maxRateEntries ≤ rates.accounts.length :=
          haccounts.resolve_left nofun
        rw [if_pos rfl]
        omega

theorem check_full (h : (rates.sweep call.now).full call = true) :
    rates.check call = (rates.sweep call.now, .error .busy) := by
  rw [check]
  exact if_pos h

theorem check_fst (h : (rates.sweep call.now).full call = false) :
    (rates.check call).1 = (rates.sweep call.now).count call := by
  rw [check]
  simp only [h, Bool.false_eq_true, if_false]
  split <;> rfl

theorem check_bounded (h : rates.Bounded) : (rates.check call).1.Bounded := by
  cases hfull : (rates.sweep call.now).full call with
  | true =>
      rw [check_full hfull]
      exact h.sweep call.now
  | false =>
      rw [check_fst hfull]
      exact (h.sweep call.now).count hfull

theorem after_bounded (h : rates.Bounded) (calls : List RateCall) : (rates.after calls).Bounded := by
  induction calls generalizing rates with
  | nil => exact h
  | cons call rest ih => exact ih (check_bounded h)

/-! ### One call, key by key -/

theorem sweep_kept (h : rates.Bounded) (now : Nat) (key : RateKey) :
    Kept rateWindow now (rates.entry key) ((rates.sweep now).entry key) := by
  unfold sweep
  split
  · cases key with
    | ip peer =>
        change Kept rateWindow now (RateTable.get rates.ips peer) (RateTable.get _ peer)
        rw [RateTable.get_filter h.uniqueIps]
        exact kept_live
    | account name =>
        change Kept rateWindow now (RateTable.get rates.accounts name) (RateTable.get _ name)
        rw [RateTable.get_filter h.uniqueAccounts]
        exact kept_live
  · exact Or.inl rfl

theorem entry_count :
    (rates.count call).entry key
      = if key.concerns call then some (attempted rateWindow u32Max call.now (rates.entry key))
        else rates.entry key := by
  cases key with
  | ip peer =>
      change RateTable.get (RateTable.upsert _ _ _ _) peer = if call.ip = peer then _ else _
      rw [RateTable.get_upsert]
      by_cases hkey : call.ip = peer
      · rw [if_pos hkey, if_pos hkey.symm, hkey]
        rfl
      · rw [if_neg hkey, if_neg fun h => hkey h.symm]
        rfl
  | account name =>
      change RateTable.get (RateTable.upsert _ _ _ _) name = if call.account = name then _ else _
      rw [RateTable.get_upsert]
      by_cases hkey : call.account = name
      · rw [if_pos hkey, if_pos hkey.symm, hkey]
        rfl
      · rw [if_neg hkey, if_neg fun h => hkey h.symm]
        rfl

theorem attempted_sweep (h : rates.Bounded) :
    attempted rateWindow u32Max call.now ((rates.sweep call.now).entry key)
      = attempted rateWindow u32Max call.now (rates.entry key) := by
  rw [← attempted_live, (sweep_kept h call.now key).live le_rfl, attempted_live]

/-- A call that counts makes one attempt. -/
theorem check_counts (h : rates.Bounded) (hcounts : rates.Counts call key) :
    (rates.check call).1.entry key
      = some (attempted rateWindow u32Max call.now (rates.entry key)) := by
  rw [check_fst hcounts.2, entry_count, if_pos hcounts.1, attempted_sweep h]

/-- Any other call at most forgets a window that is over. -/
theorem check_kept (h : rates.Bounded) (hcounts : ¬ rates.Counts call key) :
    Kept rateWindow call.now (rates.entry key) ((rates.check call).1.entry key) := by
  cases hfull : (rates.sweep call.now).full call with
  | true =>
      rw [check_full hfull]
      exact sweep_kept h call.now key
  | false =>
      rw [check_fst hfull, entry_count, if_neg fun hkey => hcounts ⟨hkey, hfull⟩]
      exact sweep_kept h call.now key

theorem opens_iff : rates.Opens call key ↔
    rates.Counts call key ∧ Windows.Opens rateWindow call.now (rates.entry key) :=
  and_congr_right fun _ => Windows.opens_iff.symm

/-- A window that a call opens starts with that call. -/
theorem check_opens (h : rates.Bounded) (hopens : rates.Opens call key) :
    (rates.check call).1.entry key = some ⟨call.now, 1⟩ := by
  rw [opens_iff] at hopens
  rw [check_counts h hopens.1, attempted_opens (by decide) hopens.2]

theorem check_snd (h : rates.Bounded) (hfull : (rates.sweep call.now).full call = false) :
    (rates.check call).2
      = if 30 < (attempted rateWindow u32Max call.now (rates.entry (.ip call.ip))).attempts
            ∨ 10 < (attempted rateWindow u32Max call.now (rates.entry (.account call.account))).attempts
          then .error .busy else .ok () := by
  have hip : (rates.check call).1.entry (.ip call.ip) = some _ := check_counts h ⟨rfl, hfull⟩
  have haccount : (rates.check call).1.entry (.account call.account) = some _ :=
    check_counts h ⟨rfl, hfull⟩
  rw [check_fst hfull] at hip haccount
  change RateTable.get _ call.ip = _ at hip
  change RateTable.get _ call.account = _ at haccount
  rw [check]
  simp only [hfull, Bool.false_eq_true, if_false, hip, haccount, Option.elim_some]
  split <;> rfl

/-- Only a call that counts, within the limits of both keys, is granted. -/
theorem check_ok (h : rates.Bounded) (hok : (rates.check call).2 = .ok ())
    (hkey : key.concerns call) :
    rates.Counts call key
      ∧ (attempted rateWindow u32Max call.now (rates.entry key)).attempts ≤ key.limit := by
  cases hfull : (rates.sweep call.now).full call with
  | true =>
      rw [check_full hfull] at hok
      cases hok
  | false =>
      refine ⟨⟨hkey, hfull⟩, ?_⟩
      rw [check_snd h hfull] at hok
      split at hok
      · cases hok
      · next hlimits =>
          rw [not_or, not_lt, not_lt] at hlimits
          cases key with
          | ip peer =>
              cases hkey
              exact hlimits.1
          | account name =>
              cases hkey
              exact hlimits.2

/-! ### The budget of a key -/

/-- **A call takes room.** It is granted out of what the window of each of its keys still has. -/
theorem granted_room (h : rates.Bounded) (hopens : ¬ rates.Opens call key) :
    room key.limit ((rates.check call).1.entry key)
        + (if key.concerns call ∧ (rates.check call).2 = .ok () then 1 else 0)
      ≤ room key.limit (rates.entry key) := by
  by_cases hcounts : rates.Counts call key
  · have hlimit : key.limit < u32Max := key.limit_lt
    have hroom := room_attempted hlimit fun hopen => hopens (opens_iff.2 ⟨hcounts, hopen⟩)
    rw [check_counts h hcounts]
    refine le_trans (Nat.add_le_add_left ?_ _) hroom
    by_cases hgranted : key.concerns call ∧ (rates.check call).2 = .ok ()
    · rw [if_pos hgranted, if_pos (check_ok h hgranted.2 hgranted.1).2]
    · rw [if_neg hgranted]
      exact Nat.zero_le _
  · rw [if_neg fun hgranted => hcounts (check_ok h hgranted.2 hgranted.1).1]
    exact (check_kept h hcounts).room_le

theorem NoneOpens.head (h : NoneOpens key rates (call :: calls)) : ¬ rates.Opens call key :=
  h [] call calls rfl

theorem NoneOpens.tail (h : NoneOpens key rates (call :: calls)) :
    NoneOpens key (rates.check call).1 calls := by
  intro before next rest heq
  exact h (call :: before) next rest (by rw [heq]; rfl)

/-- Until a window opens, no more is granted than the last one has room for. -/
theorem granted_le_room (h : rates.Bounded) (hnone : NoneOpens key rates calls) :
    granted key rates calls ≤ room key.limit (rates.entry key) := by
  induction calls generalizing rates with
  | nil => exact Nat.zero_le _
  | cons call rest ih =>
      have hfirst := granted_room h hnone.head
      have hrest := ih (check_bounded h) hnone.tail
      rw [granted]
      omega

/-- From one opening to the next at most the limit is granted. -/
theorem granted_le_limit (h : rates.Bounded) (hnone : NoneOpens key (rates.check call).1 calls) :
    granted key rates (call :: calls) ≤ key.limit := by
  have hrest := granted_le_room (check_bounded h) hnone
  by_cases hopens : rates.Opens call key
  · have hroom : room key.limit ((rates.check call).1.entry key) = key.limit - 1 := by
      rw [check_opens h hopens]
      rfl
    have hlimit := key.limit_pos
    have hone : (if key.concerns call ∧ (rates.check call).2 = .ok () then 1 else 0) ≤ 1 := by
      split <;> omega
    rw [granted]
    omega
  · have hfirst := granted_room h hopens
    have hroom : room key.limit (rates.entry key) ≤ key.limit := room_le
    rw [granted]
    omega

/-! ### The clock of a window -/

theorem check_recent {entry : RateEntry} (h : rates.Bounded) (hentry : rates.entry key = some entry)
    (hrecent : call.now - entry.started < rateWindow) :
    ∃ next, (rates.check call).1.entry key = some next ∧ next.started = entry.started := by
  have hover : ¬ Over rateWindow call.now entry := Nat.not_le_of_lt hrecent
  by_cases hcounts : rates.Counts call key
  · refine ⟨_, check_counts h hcounts, ?_⟩
    rw [hentry, attempted_some hover]
  · obtain hsame | ⟨-, hopens⟩ := check_kept h hcounts
    · exact ⟨entry, hsame.trans hentry, rfl⟩
    · rw [hentry, opens_some] at hopens
      exact absurd hopens hover

/-- While its time has not passed, a window stays and no other opens. -/
theorem noneOpens_of_recent {entry : RateEntry} (h : rates.Bounded)
    (hentry : rates.entry key = some entry)
    (hrecent : ∀ call ∈ calls, call.now - entry.started < rateWindow) :
    NoneOpens key rates calls := by
  intro before call rest heq hopens
  subst heq
  induction before generalizing rates entry with
  | nil =>
      have hnow := hrecent call List.mem_cons_self
      have hover := hopens.2 entry hentry
      omega
  | cons first before ih =>
      obtain ⟨next, hnext, hstarted⟩ := check_recent h hentry (hrecent first List.mem_cons_self)
      refine ih (check_bounded h) hnext hopens fun call hcall => ?_
      rw [hstarted]
      exact hrecent call (List.mem_cons_of_mem _ hcall)

/-- Calls that lie within one span see at most one opening, and two windows. -/
theorem granted_le_twice (h : rates.Bounded)
    (hclose : ∀ first ∈ calls, ∀ last ∈ calls, last.now < first.now + rateWindow) :
    granted key rates calls ≤ room key.limit (rates.entry key) + key.limit := by
  induction calls generalizing rates with
  | nil => exact Nat.zero_le _
  | cons call rest ih =>
      by_cases hopens : rates.Opens call key
      · have hrecent : ∀ next ∈ rest, next.now - call.now < rateWindow := by
          intro next hnext
          have hnow := hclose call List.mem_cons_self next (List.mem_cons_of_mem _ hnext)
          have hwindow : 0 < rateWindow := by decide
          omega
        have hnone := noneOpens_of_recent (check_bounded h) (check_opens h hopens) hrecent
        exact (granted_le_limit h hnone).trans (Nat.le_add_left _ _)
      · have hfirst := granted_room h hopens
        have hnext : (rates.check call).1.Bounded := check_bounded h
        have hrest := ih hnext fun first hmem last hmem' =>
          hclose first (List.mem_cons_of_mem _ hmem) last (List.mem_cons_of_mem _ hmem')
        rw [granted]
        omega

/-- The last window of a key opened at `started`: it is there, or its time has passed. -/
def Standing (started now : Nat) (entry : Option RateEntry) : Prop :=
  (∃ window, entry = some window ∧ window.started = started)
    ∨ entry = none ∧ started + rateWindow ≤ now

theorem check_standing {started now : Nat} (h : rates.Bounded)
    (hstanding : Standing started now (rates.entry key)) (hnow : call.now ≤ now)
    (hopens : ¬ rates.Opens call key) :
    Standing started now ((rates.check call).1.entry key) := by
  by_cases hcounts : rates.Counts call key
  · rw [check_counts h hcounts]
    obtain ⟨window, hentry, hstarted⟩ | ⟨hentry, -⟩ := hstanding
    · refine Or.inl ⟨_, rfl, ?_⟩
      have hopen : ¬ Windows.Opens rateWindow call.now (some window) := by
        rw [← hentry]
        exact fun hopen => hopens (opens_iff.2 ⟨hcounts, hopen⟩)
      rw [hentry, attempted_started hopen, hstarted]
    · exact absurd (opens_iff.2 ⟨hcounts, by rw [hentry]; rfl⟩) hopens
  · obtain hsame | ⟨hnone, hover⟩ := check_kept h hcounts
    · rwa [hsame]
    · obtain ⟨window, hentry, hstarted⟩ | ⟨-, hpassed⟩ := hstanding
      · rw [hentry, opens_some] at hover
        have hspan : rateWindow ≤ call.now - window.started := hover
        have hwindow : 0 < rateWindow := by decide
        exact Or.inr ⟨hnone, by omega⟩
      · exact Or.inr ⟨hnone, hpassed⟩

theorem after_standing {started now : Nat} (h : rates.Bounded)
    (hstanding : Standing started now (rates.entry key)) (hnow : ∀ call ∈ calls, call.now ≤ now)
    (hnone : NoneOpens key rates calls) :
    Standing started now ((rates.after calls).entry key) := by
  induction calls generalizing rates with
  | nil => exact hstanding
  | cons call rest ih =>
      have hnext := check_standing h hstanding (hnow call List.mem_cons_self) hnone.head
      exact ih (check_bounded h) hnext (fun call hcall => hnow call (List.mem_cons_of_mem _ hcall))
        hnone.tail

/-- After its last window opened, a call for the key opens the next one as soon as that is over. -/
theorem opens_iff_passed {started : Nat} (hstanding : Standing started call.now (rates.entry key))
    (hcounts : rates.Counts call key) :
    rates.Opens call key ↔ started + rateWindow ≤ call.now := by
  have hwindow : 0 < rateWindow := by decide
  rw [Rates.Opens, and_iff_right hcounts]
  obtain ⟨window, hentry, rfl⟩ | ⟨hentry, hpassed⟩ := hstanding
  · constructor
    · intro h
      have hover := h window hentry
      omega
    · intro h entry hentry'
      rw [hentry] at hentry'
      cases hentry'
      omega
  · refine iff_of_true (fun entry hentry' => ?_) hpassed
    rw [hentry] at hentry'
    cases hentry'

/-! ### The limiter that never sweeps -/

theorem unswept_check_snd {unswept : UnsweptRates} :
    (unswept.check call).2
      = if 30 < (attempted rateWindow u32Max call.now (unswept.entry (.ip call.ip))).attempts
            ∨ 10 < (attempted rateWindow u32Max call.now (unswept.entry (.account call.account))).attempts
          then .error .busy else .ok () := by
  rw [UnsweptRates.check]
  split
  · next h => exact (if_pos h).symm
  · next h => exact (if_neg h).symm

theorem unswept_check_entry {unswept : UnsweptRates} :
    (unswept.check call).1.entry key
      = if key.concerns call then some (attempted rateWindow u32Max call.now (unswept.entry key))
        else unswept.entry key := by
  have hfst : (unswept.check call).1.entry key
      = if key = .ip call.ip then
          some (attempted rateWindow u32Max call.now (unswept.entry (.ip call.ip)))
        else if key = .account call.account then
          some (attempted rateWindow u32Max call.now (unswept.entry (.account call.account)))
        else unswept.entry key := by
    rw [UnsweptRates.check]
    split <;> rfl
  rw [hfst]
  cases key with
  | ip peer =>
      change _ = if call.ip = peer then _ else _
      by_cases hkey : call.ip = peer
      · rw [if_pos hkey, hkey, if_pos rfl]
      · rw [if_neg hkey, if_neg fun h => hkey (RateKey.ip.inj h).symm, if_neg nofun]
  | account name =>
      change _ = if call.account = name then _ else _
      rw [if_neg nofun]
      by_cases hkey : call.account = name
      · rw [if_pos hkey, hkey, if_pos rfl]
      · rw [if_neg hkey, if_neg fun h => hkey (RateKey.account.inj h).symm]

/-- The two limiters agree on what still counts. -/
def Agree (now : Nat) (rates : Rates) (unswept : UnsweptRates) : Prop :=
  ∀ key, live rateWindow now (rates.entry key) = live rateWindow now (unswept.entry key)

variable {unswept : UnsweptRates} {now : Nat}

theorem Agree.persists {next : Nat} (h : Agree now rates unswept) (hle : now ≤ next) :
    Agree next rates unswept := by
  intro key
  rw [← live_live hle, h key, live_live hle]

theorem Agree.attempted (h : Agree now rates unswept) (key : RateKey) :
    attempted rateWindow u32Max now (rates.entry key)
      = attempted rateWindow u32Max now (unswept.entry key) := by
  rw [← attempted_live, h key, attempted_live]

theorem Agree.check (h : rates.Bounded) (hagree : Agree call.now rates unswept)
    (hfull : (rates.sweep call.now).full call = false) :
    Agree call.now (rates.check call).1 (unswept.check call).1
      ∧ (rates.check call).2 = (unswept.check call).2 := by
  constructor
  · intro key
    rw [unswept_check_entry]
    by_cases hkey : key.concerns call
    · rw [if_pos hkey, check_counts h ⟨hkey, hfull⟩, hagree.attempted]
    · rw [if_neg hkey, ← hagree key]
      exact (check_kept h fun hcounts => hkey hcounts.1).live le_rfl
  · rw [check_snd h hfull, unswept_check_snd, hagree.attempted, hagree.attempted]

theorem agree_new (created : Nat) : Agree 0 (new created) UnsweptRates.new := by
  intro key
  cases key with
  | ip peer => rfl
  | account name => rfl

theorem answers_agree (h : rates.Bounded) (hagree : Agree now rates unswept)
    (hordered : (calls ++ [call]).Pairwise fun first next => first.now ≤ next.now)
    (hnow : ∀ next ∈ calls ++ [call], now ≤ next.now)
    (hplace : ∀ before next rest, calls ++ [call] = before ++ next :: rest →
      ((rates.after before).sweep next.now).full next = false) :
    ((rates.after calls).check call).2 = ((unswept.after calls).check call).2 := by
  induction calls generalizing rates unswept now with
  | nil =>
      have hcall := hagree.persists (hnow call List.mem_cons_self)
      exact (hcall.check h (hplace [] call [] rfl)).2
  | cons first rest ih =>
      have hfirst := hagree.persists (hnow first List.mem_cons_self)
      have hnext := (hfirst.check h (hplace [] first (rest ++ [call]) rfl)).1
      rw [List.cons_append, List.pairwise_cons] at hordered
      refine ih (check_bounded h) hnext hordered.2 hordered.1 ?_
      intro before next last heq
      exact hplace (first :: before) next last (by rw [List.cons_append, heq]; rfl)

/-- **The rate limit.** The tables stay within their bounds. From one opening of a window to the
next, a key is granted at most its limit, and at most twice that within any span; the next window
opens with the first call after the last one is over, whenever the last sweep was. As long as no
call is refused for want of a place, every answer is that of the limiter that never sweeps, and a
call that is refused so changes no counter. -/
theorem check_limits (created : Nat) (calls : List RateCall) (call : RateCall)
    (hordered : (calls ++ [call]).Pairwise fun first next => first.now ≤ next.now) :
    ((new created).after calls).ips.length ≤ 4096
      ∧ ((new created).after calls).accounts.length ≤ 4096
      ∧ (∀ key before first rest, calls = before ++ first :: rest →
          NoneOpens key (((new created).after before).check first).1 rest →
          granted key ((new created).after before) (first :: rest) ≤ key.limit)
      ∧ (∀ key before within, calls = before ++ within →
          (∀ first ∈ within, ∀ last ∈ within, last.now < first.now + seconds 60) →
          granted key ((new created).after before) within ≤ 2 * key.limit)
      ∧ (∀ key before first rest, calls = before ++ first :: rest →
          ((new created).after before).Opens first key →
          NoneOpens key (((new created).after before).check first).1 rest →
          ((new created).after calls).Counts call key →
          (((new created).after calls).Opens call key ↔ first.now + seconds 60 ≤ call.now)
            ∧ (first.now + seconds 60 ≤ call.now →
              (((new created).after calls).check call).1.entry key = some ⟨call.now, 1⟩))
      ∧ ((∀ before next rest, calls ++ [call] = before ++ next :: rest →
            (((new created).after before).sweep next.now).full next = false) →
          (((new created).after calls).check call).2
            = ((UnsweptRates.new.after calls).check call).2)
      ∧ ((((new created).after calls).sweep call.now).full call = true →
          (((new created).after calls).check call).2 = .error .busy
            ∧ ∀ key, Kept (seconds 60) call.now (((new created).after calls).entry key)
              ((((new created).after calls).check call).1.entry key)) := by
  have hbounded := after_bounded (bounded_new created)
  refine ⟨(hbounded calls).ips, (hbounded calls).accounts, ?_, ?_, ?_, ?_, ?_⟩
  · intro key before first rest _ hnone
    exact granted_le_limit (hbounded before) hnone
  · intro key before within _ hclose
    have hroom : room key.limit (((new created).after before).entry key) ≤ key.limit := room_le
    calc
      granted key ((new created).after before) within
        ≤ room key.limit (((new created).after before).entry key) + key.limit :=
          granted_le_twice (hbounded before) hclose
      _ ≤ 2 * key.limit := by omega
  · intro key before first rest heq hopens hnone hcounts
    have hsplit : (new created).after calls = (((new created).after before).check first).1.after rest := by
      rw [heq, after, after, List.foldl_append]
      rfl
    have hbefore : ∀ next ∈ rest, next.now ≤ call.now := by
      intro next hnext
      refine (List.pairwise_append.1 hordered).2.2 next ?_ call List.mem_cons_self
      rw [heq]
      exact List.mem_append_right _ (List.mem_cons_of_mem _ hnext)
    have hfirst : Standing first.now call.now
        ((((new created).after before).check first).1.entry key) :=
      Or.inl ⟨_, check_opens (hbounded before) hopens, rfl⟩
    have hstanding := after_standing (check_bounded (hbounded before)) hfirst hbefore hnone
    rw [← hsplit] at hstanding
    have hiff := opens_iff_passed hstanding hcounts
    exact ⟨hiff, fun hpassed => check_opens (hbounded calls) (hiff.2 hpassed)⟩
  · intro hplace
    exact answers_agree (bounded_new created) (agree_new created) hordered (fun _ _ => Nat.zero_le _)
      hplace
  · intro hfull
    refine ⟨congrArg Prod.snd (check_full hfull), fun key => ?_⟩
    rw [check_full hfull]
    exact sweep_kept (hbounded calls) call.now key

end Rates

namespace Sample

def guess (now : Nat) : RateCall := ⟨.v4 #v[127, 0, 0, 1], ascii "alice@example.com", now⟩

def guesses : List RateCall := List.replicate 12 (guess 0) ++ [guess (seconds 60 - 1)]

theorem check_limits_guesses :
    Rates.granted (.account (ascii "alice@example.com")) (Rates.new 0) guesses ≤ 20 :=
  (Rates.check_limits 0 guesses (guess (seconds 60)) (by decide +kernel)).2.2.2.1
    (.account (ascii "alice@example.com")) [] guesses rfl (by decide +kernel)

example : Rates.granted (.account (ascii "alice@example.com")) (Rates.new 0) guesses = 10 := by
  decide +kernel

end Sample

end Rustymail.Server
