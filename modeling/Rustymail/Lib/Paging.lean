import Mathlib.Data.List.Sort
import Mathlib.Order.Defs.Unbundled
import Rustymail.Lib.Runs

/-!
# Reading a table in pages

A listing returns the rows behind a cursor in the order of their keys, up to a limit, and the next
page starts behind the last key of the one before. Between two pages the table changes. The rules
say what the pages amount to when rows are never removed, and when new rows come behind all others.
-/

namespace Paging

variable {σ β ρ κ ε : Type} [LE κ] [LT κ] [DecidableLE κ] [DecidableLT κ]

/-- The rows behind a cursor, by their keys. -/
def behind (key : ρ → κ) (table : List ρ) (cursor : κ) : List ρ :=
  (table.filter fun row => decide (cursor < key row)).insertionSort fun a b => key a ≤ key b

def page (key : ρ → κ) (table : List ρ) (cursor : κ) (limit : Nat) : List ρ :=
  (behind key table cursor).take limit

/-- The last key of a page is the next cursor. -/
def cursorAfter (key : ρ → κ) (cursor : κ) (rows : List ρ) : κ := (rows.getLast?.map key).getD cursor

/-! ### One page -/

section Page

variable [Std.IsLinearOrder κ] [Std.LawfulOrderLT κ] {key : ρ → κ} {table rows : List ρ}
  {cursor : κ} {limit : Nat} {row : ρ}

omit [Std.IsLinearOrder κ] [Std.LawfulOrderLT κ] in
theorem mem_behind : row ∈ behind key table cursor ↔ row ∈ table ∧ cursor < key row := by
  unfold behind
  rw [List.mem_insertionSort, List.mem_filter, decide_eq_true_eq]

theorem behind_ascending (hunique : (table.map key).Nodup) :
    (behind key table cursor).Pairwise fun a b => key a < key b := by
  have htotal : Std.Total fun a b : ρ => key a ≤ key b := ⟨fun _ _ => Std.le_total⟩
  have htrans : IsTrans ρ fun a b => key a ≤ key b := ⟨fun _ _ _ => Std.le_trans⟩
  have hsorted : (behind key table cursor).Pairwise fun a b => key a ≤ key b :=
    List.pairwise_insertionSort _ _
  have hdistinct : (behind key table cursor).Pairwise fun a b => key a ≠ key b := by
    have hperm := List.perm_insertionSort (fun a b => key a ≤ key b)
      (table.filter fun row => decide (cursor < key row))
    refine List.pairwise_map.1 ((hperm.map key).nodup_iff.2 ?_)
    exact hunique.sublist (List.filter_sublist.map key)
  exact hsorted.imp₂ (fun _ _ hle hne => Std.lt_of_le_of_ne hle hne) hdistinct

omit [Std.IsLinearOrder κ] [Std.LawfulOrderLT κ] in
theorem mem_page (h : row ∈ page key table cursor limit) : row ∈ table ∧ cursor < key row :=
  mem_behind.1 (List.mem_of_mem_take h)

theorem page_ascending (hunique : (table.map key).Nodup) :
    (page key table cursor limit).Pairwise fun a b => key a < key b :=
  (behind_ascending hunique).sublist (List.take_sublist _ _)

omit [Std.IsLinearOrder κ] [Std.LawfulOrderLT κ] in
/-- A page that is shorter than its limit is the last one. -/
theorem page_short (h : (page key table cursor limit).length < limit) :
    page key table cursor limit = behind key table cursor := by
  unfold page at h ⊢
  rw [List.length_take] at h
  exact List.take_of_length_le (by omega)

omit [LE κ] [LT κ] [DecidableLE κ] [DecidableLT κ] [Std.IsLinearOrder κ] [Std.LawfulOrderLT κ] in
theorem cursorAfter_cases (key : ρ → κ) (cursor : κ) (rows : List ρ) :
    (rows = [] ∧ cursorAfter key cursor rows = cursor)
      ∨ ∃ first last, rows = first ++ [last] ∧ cursorAfter key cursor rows = key last := by
  rcases List.eq_nil_or_concat rows with rfl | ⟨first, last, rfl⟩
  · exact Or.inl ⟨rfl, rfl⟩
  · refine Or.inr ⟨first, last, List.concat_eq_append, ?_⟩
    unfold cursorAfter
    rw [List.concat_eq_append, List.getLast?_append]
    rfl

theorem cursor_le_cursorAfter (cursor : κ) :
    cursor ≤ cursorAfter key cursor (page key table cursor limit) := by
  rcases cursorAfter_cases key cursor (page key table cursor limit)
    with ⟨-, h⟩ | ⟨first, last, hrows, h⟩
  · rw [h]
    exact Std.le_refl cursor
  · have hmem : last ∈ page key table cursor limit := by
      rw [hrows]
      exact List.mem_append_right _ (List.mem_singleton_self last)
    rw [h]
    exact Std.le_of_lt (mem_page hmem).2

/-- No row of a page is behind the next cursor. -/
theorem le_cursorAfter (hunique : (table.map key).Nodup) (h : row ∈ page key table cursor limit) :
    key row ≤ cursorAfter key cursor (page key table cursor limit) := by
  rcases cursorAfter_cases key cursor (page key table cursor limit)
    with ⟨hrows, -⟩ | ⟨first, last, hrows, hlast⟩
  · rw [hrows] at h
    cases h
  · rw [hlast]
    have hascending := @page_ascending ρ κ _ _ _ _ _ _ key table cursor limit hunique
    rw [hrows] at h hascending
    rcases List.mem_append.1 h with hfirst | hsame
    · exact Std.le_of_lt
        ((List.pairwise_append.1 hascending).2.2 row hfirst last (List.mem_singleton_self last))
    · rw [List.mem_singleton.1 hsame]
      exact Std.le_refl _

/-- A row that lies between the two cursors is on the page. -/
theorem mem_page_of_le (hunique : (table.map key).Nodup) (hmem : row ∈ table)
    (hbehind : cursor < key row)
    (hle : key row ≤ cursorAfter key cursor (page key table cursor limit)) :
    row ∈ page key table cursor limit := by
  rcases cursorAfter_cases key cursor (page key table cursor limit)
    with ⟨-, hcursor⟩ | ⟨first, last, hrows, hlast⟩
  · rw [hcursor] at hle
    exact absurd hle (Std.not_le_of_gt hbehind)
  · have hall : row ∈ behind key table cursor := mem_behind.2 ⟨hmem, hbehind⟩
    have hascending := @behind_ascending ρ κ _ _ _ _ _ _ key table cursor hunique
    rw [← List.take_append_drop limit (behind key table cursor)] at hall hascending
    rcases List.mem_append.1 hall with hpage | hrest
    · exact hpage
    · rw [hlast] at hle
      refine absurd ((List.pairwise_append.1 hascending).2.2 last ?_ row hrest) (Std.not_lt_of_ge hle)
      change last ∈ page key table cursor limit
      rw [hrows]
      exact List.mem_append_right _ (List.mem_singleton_self last)

end Page

omit [LE κ] [LT κ] [DecidableLE κ] [DecidableLT κ] in
/-- Rows of a table are told apart by their keys. -/
theorem eq_of_map_key {key : ρ → κ} {table first second : List ρ}
    (hunique : (table.map key).Nodup) (hfirst : first ⊆ table) (hsecond : second ⊆ table)
    (h : first.map key = second.map key) : first = second := by
  induction first generalizing second with
  | nil => exact (List.map_eq_nil_iff.1 h.symm).symm
  | cons a first ih =>
      cases second with
      | nil => cases h
      | cons b second =>
          obtain ⟨hkey, hrest⟩ := List.cons.inj h
          obtain ⟨ha, hfirst⟩ := List.cons_subset.1 hfirst
          obtain ⟨hb, hsecond⟩ := List.cons_subset.1 hsecond
          rw [List.inj_on_of_nodup_map hunique ha hb hkey, ih hfirst hsecond hrest]

/-! ### A reader among other actions -/

/-- What a reader has seen of a machine that goes on working. -/
structure Session (σ ρ κ : Type) where
  state : σ
  cursor : κ
  seen : List ρ := []
  /-- The last page was shorter than its limit, and nothing has happened since. -/
  complete : Bool := false

inductive Turn (β : Type) where
  | act (action : β)
  | ask (limit : Nat)

/-- A page that is refused leaves the reader where it is. -/
def Session.ask (query : σ → κ → Nat → Except ε (List ρ)) (key : ρ → κ) (s : Session σ ρ κ)
    (limit : Nat) : Session σ ρ κ :=
  match query s.state s.cursor limit with
  | .error _ => s
  | .ok rows =>
      { s with
        cursor := cursorAfter key s.cursor rows
        seen := s.seen ++ rows
        complete := decide (rows.length < limit) }

def Session.turn (step : σ → β → σ) (query : σ → κ → Nat → Except ε (List ρ)) (key : ρ → κ)
    (s : Session σ ρ κ) : Turn β → Session σ ρ κ
  | .act action => { s with state := step s.state action, complete := false }
  | .ask limit => s.ask query key limit

/-- The answers are pages of a table that loses no row. -/
structure Lists (step : σ → β → σ) (query : σ → κ → Nat → Except ε (List ρ)) (key : ρ → κ)
    (inv : σ → Prop) (table : σ → List ρ) : Prop where
  stable : ∀ s action, inv s → inv (step s action)
  pages : ∀ s cursor limit rows, inv s → query s cursor limit = .ok rows →
    rows = page key (table s) cursor limit
  unique : ∀ s, inv s → ((table s).map key).Nodup
  lasting : ∀ s action, inv s → (table s).map key ⊆ (table (step s action)).map key

/-- New rows come behind all others. -/
def Grows (step : σ → β → σ) (key : ρ → κ) (inv : σ → Prop) (table : σ → List ρ) : Prop :=
  ∀ s action, inv s → ∀ new ∈ (table (step s action)).map key, new ∉ (table s).map key →
    ∀ old ∈ (table s).map key, old < new

/-- The reader has seen rows in the order of their keys, none of them behind the cursor. -/
structure Session.Ordered (key : ρ → κ) (start : κ) (s : Session σ ρ κ) : Prop where
  ascending : s.seen.Pairwise fun a b => key a < key b
  within : ∀ row ∈ s.seen, start < key row ∧ key row ≤ s.cursor
  cursor : s.cursor = start ∨ s.cursor ∈ s.seen.map key

/-- All wanted keys up to the cursor have been seen, and all wanted ones once that is all. -/
def Session.Covers (key : ρ → κ) (start : κ) (s : Session σ ρ κ) (wanted : List κ) : Prop :=
  ∀ k ∈ wanted, start < k → k ≤ s.cursor ∨ s.complete = true → k ∈ s.seen.map key

section Reader

variable [Std.IsLinearOrder κ] [Std.LawfulOrderLT κ] {step : σ → β → σ}
  {query : σ → κ → Nat → Except ε (List ρ)} {key : ρ → κ} {inv : σ → Prop} {table : σ → List ρ}
  {s : Session σ ρ κ} {start : κ} {wanted : List κ}

omit [LE κ] [LT κ] [DecidableLE κ] [DecidableLT κ] [Std.IsLinearOrder κ] [Std.LawfulOrderLT κ] in
theorem Session.ask_state (limit : Nat) : (s.ask query key limit).state = s.state := by
  unfold ask
  cases query s.state s.cursor limit with
  | error e => rfl
  | ok rows => rfl

omit [DecidableLE κ] [DecidableLT κ] in
/-- The cursor has come to a row that was seen, or it has not moved. -/
theorem Session.Ordered.start_le (h : s.Ordered key start) : start ≤ s.cursor := by
  rcases h.cursor with hsame | hseen
  · rw [hsame]
    exact Std.le_refl start
  · obtain ⟨row, hrow, hkey⟩ := List.mem_map.1 hseen
    rw [← hkey]
    exact Std.le_of_lt (h.within row hrow).1

theorem Session.Ordered.ask (h : s.Ordered key start) (hlists : Lists step query key inv table)
    (hs : inv s.state) (limit : Nat) : (s.ask query key limit).Ordered key start := by
  unfold Session.ask
  cases hquery : query s.state s.cursor limit with
  | error e => exact h
  | ok rows =>
      obtain rfl := hlists.pages s.state s.cursor limit rows hs hquery
      have hunique := hlists.unique s.state hs
      refine ⟨?_, ?_, ?_⟩
      · refine List.pairwise_append.2 ⟨h.ascending, page_ascending hunique, ?_⟩
        intro old hold new hnew
        exact Std.lt_of_le_of_lt (h.within old hold).2 (mem_page hnew).2
      · intro row hrow
        rcases List.mem_append.1 hrow with hold | hnew
        · obtain ⟨hlow, hhigh⟩ := h.within row hold
          exact ⟨hlow, Std.le_trans hhigh (cursor_le_cursorAfter s.cursor)⟩
        · exact ⟨Std.lt_of_le_of_lt h.start_le (mem_page hnew).2, le_cursorAfter hunique hnew⟩
      · change cursorAfter key s.cursor (page key (table s.state) s.cursor limit) = start
          ∨ cursorAfter key s.cursor (page key (table s.state) s.cursor limit) ∈ _
        rcases cursorAfter_cases key s.cursor (page key (table s.state) s.cursor limit)
          with ⟨hrows, hsame⟩ | ⟨first, last, hrows, hlast⟩
        · dsimp only
          rw [hsame, hrows, List.append_nil]
          exact h.cursor
        · rw [hlast, hrows]
          exact Or.inr (List.mem_map_of_mem
            (List.mem_append_right _ (List.mem_append_right _ (List.mem_singleton_self last))))

/-- A page covers the wanted keys as far as it reaches. -/
theorem Session.Covers.ask (h : s.Covers key start wanted) (hlists : Lists step query key inv table)
    (hs : inv s.state) (hwanted : wanted ⊆ (table s.state).map key) (limit : Nat) :
    (s.ask query key limit).Covers key start wanted := by
  unfold Session.ask
  cases hquery : query s.state s.cursor limit with
  | error e => exact h
  | ok rows =>
      obtain rfl := hlists.pages s.state s.cursor limit rows hs hquery
      intro k hk hstart hreached
      rw [List.map_append]
      by_cases hold : k ≤ s.cursor
      · exact List.mem_append_left _ (h k hk hstart (Or.inl hold))
      · obtain ⟨row, hrow, rfl⟩ := List.mem_map.1 (hwanted hk)
        have hbehind : s.cursor < key row := Std.not_le.1 hold
        refine List.mem_append_right _ (List.mem_map_of_mem ?_)
        rcases hreached with hle | hcomplete
        · exact mem_page_of_le (hlists.unique s.state hs) hrow hbehind hle
        · rw [page_short (of_decide_eq_true hcomplete)]
          exact mem_behind.2 ⟨hrow, hbehind⟩

/-- What a reader keeps that knows a list of keys, all of which stay in the table. -/
structure Session.Sound (key : ρ → κ) (inv : σ → Prop) (table : σ → List ρ) (start : κ)
    (s : Session σ ρ κ) : Prop where
  state : inv s.state
  ordered : s.Ordered key start
  present : s.seen.map key ⊆ (table s.state).map key

theorem Session.Sound.turn (h : s.Sound key inv table start) (hlists : Lists step query key inv table)
    (next : Turn β) : (s.turn step query key next).Sound key inv table start := by
  cases next with
  | act action =>
      exact ⟨hlists.stable s.state action h.state, ⟨h.ordered.ascending, h.ordered.within, h.ordered.cursor⟩,
        List.Subset.trans h.present (hlists.lasting s.state action h.state)⟩
  | ask limit =>
      change (s.ask query key limit).Sound key inv table start
      refine ⟨by rw [ask_state]; exact h.state, h.ordered.ask hlists h.state limit, ?_⟩
      rw [ask_state]
      unfold Session.ask
      cases hquery : query s.state s.cursor limit with
      | error e => exact h.present
      | ok rows =>
          obtain rfl := hlists.pages s.state s.cursor limit rows h.state hquery
          rw [List.map_append]
          refine List.append_subset.2 ⟨h.present, ?_⟩
          intro k hk
          obtain ⟨row, hrow, rfl⟩ := List.mem_map.1 hk
          exact List.mem_map_of_mem (mem_page hrow).1

/-- **Rows that stay are seen once.** -/
theorem Lists.read_lasting (hlists : Lists step query key inv table) {state : σ} (hs : inv state)
    (start : κ) (turns : List (Turn β)) :
    let last := Runs.run (Session.turn step query key) ⟨state, start, [], false⟩ turns
    last.Sound key inv table start ∧ last.Covers key start ((table state).map key) := by
  have hrun := @Runs.invariant (Session σ ρ κ) (Turn β) (Session.turn step query key)
    ⟨state, start, [], false⟩ (fun s => s.Sound key inv table start ∧ (table state).map key ⊆ (table s.state).map key
      ∧ s.Covers key start ((table state).map key)) ?_ ?_ turns
  · exact ⟨hrun.1, hrun.2.2⟩
  · refine ⟨⟨hs, ⟨List.Pairwise.nil, ?_, Or.inl rfl⟩, List.nil_subset _⟩, List.Subset.refl _, ?_⟩
    · intro row hrow
      cases hrow
    · intro k _ hstart hreached
      rcases hreached with hle | hcomplete
      · exact absurd hle (Std.not_le_of_gt hstart)
      · cases hcomplete
  · rintro s next ⟨hsound, hwanted, hcovers⟩
    refine ⟨hsound.turn hlists next, ?_⟩
    cases next with
    | act action =>
        refine ⟨List.Subset.trans hwanted (hlists.lasting s.state action hsound.state), ?_⟩
        intro k hk hstart hreached
        rcases hreached with hle | hcomplete
        · exact hcovers k hk hstart (Or.inl hle)
        · cases hcomplete
    | ask limit =>
        change (table state).map key ⊆ (table (s.ask query key limit).state).map key ∧ _
        rw [Session.ask_state]
        exact ⟨hwanted, hcovers.ask hlists hsound.state hwanted limit⟩

/-- Where new rows come last, the reader keeps up with the table. -/
theorem Lists.read_covers (hlists : Lists step query key inv table)
    (hgrows : Grows step key inv table) {state : σ} (hs : inv state) (start : κ)
    (turns : List (Turn β)) :
    let last := Runs.run (Session.turn step query key) ⟨state, start, [], false⟩ turns
    last.Sound key inv table start ∧ last.Covers key start ((table last.state).map key) := by
  refine @Runs.invariant (Session σ ρ κ) (Turn β) (Session.turn step query key)
    ⟨state, start, [], false⟩
    (fun s => s.Sound key inv table start ∧ s.Covers key start ((table s.state).map key)) ?_ ?_ turns
  · refine ⟨⟨hs, ⟨List.Pairwise.nil, ?_, Or.inl rfl⟩, List.nil_subset _⟩, ?_⟩
    · intro row hrow
      cases hrow
    · intro k _ hstart hreached
      rcases hreached with hle | hcomplete
      · exact absurd hle (Std.not_le_of_gt hstart)
      · cases hcomplete
  · rintro s next ⟨hsound, hcovers⟩
    refine ⟨hsound.turn hlists next, ?_⟩
    cases next with
    | act action =>
        intro k hk hstart hreached
        rcases hreached with hle | hcomplete
        · by_cases hold : k ∈ (table s.state).map key
          · exact hcovers k hold hstart (Or.inl hle)
          · -- A new row is behind every row that was seen, and so behind the cursor.
            rcases hsound.ordered.cursor with hsame | hseen
            · change k ≤ s.cursor at hle
              rw [hsame] at hle
              exact absurd hle (Std.not_le_of_gt hstart)
            · have hlater := hgrows s.state action hsound.state k hk hold s.cursor (hsound.present hseen)
              exact absurd hle (Std.not_le_of_gt hlater)
        · cases hcomplete
    | ask limit =>
        change (s.ask query key limit).Covers key start
          ((table (s.ask query key limit).state).map key)
        rw [Session.ask_state]
        exact hcovers.ask hlists hsound.state (List.Subset.refl _) limit

/-- **A reader at the end has seen everything.** -/
theorem Lists.read_growing (hlists : Lists step query key inv table)
    (hgrows : Grows step key inv table) {state : σ} (hs : inv state) (start : κ)
    (turns : List (Turn β)) :
    let last := Runs.run (Session.turn step query key) ⟨state, start, [], false⟩ turns
    last.complete = true → last.seen.map key = (behind key (table last.state) start).map key := by
  intro last hcomplete
  obtain ⟨hsound, hcovers⟩ := hlists.read_covers hgrows hs start turns
  change last.Sound key inv table start at hsound
  change last.Covers key start ((table last.state).map key) at hcovers
  have hascending := List.pairwise_map.2 hsound.ordered.ascending
  have hbehind := List.pairwise_map.2
    (@behind_ascending ρ κ _ _ _ _ _ _ key _ start (hlists.unique last.state hsound.state))
  refine List.Perm.eq_of_pairwise ?_ hascending hbehind ?_
  · intro first second _ _ hlt hgt
    exact absurd (Std.lt_trans hlt hgt) (Std.lt_irrefl)
  · refine (List.perm_ext_iff_of_nodup (hascending.imp Std.ne_of_lt) (hbehind.imp Std.ne_of_lt)).2 ?_
    intro k
    constructor
    · intro hk
      obtain ⟨row, hrow, rfl⟩ := List.mem_map.1 hk
      obtain ⟨other, hother, hkey⟩ := List.mem_map.1 (hsound.present hk)
      rw [← hkey]
      refine List.mem_map_of_mem (mem_behind.2 ⟨hother, ?_⟩)
      rw [hkey]
      exact (hsound.ordered.within row hrow).1
    · intro hk
      obtain ⟨row, hrow, rfl⟩ := List.mem_map.1 hk
      obtain ⟨hmem, hstart⟩ := mem_behind.1 hrow
      exact hcovers _ (List.mem_map_of_mem hmem) hstart (Or.inr hcomplete)

/-- Where rows do not change either, the reader has the table itself. -/
theorem Lists.read_all (hlists : Lists step query key inv table)
    (hgrows : Grows step key inv table)
    (hkeeps : ∀ s action, inv s → table s ⊆ table (step s action)) {state : σ} (hs : inv state)
    (start : κ) (turns : List (Turn β)) :
    let last := Runs.run (Session.turn step query key) ⟨state, start, [], false⟩ turns
    last.seen ⊆ table last.state
      ∧ (last.complete = true → last.seen = behind key (table last.state) start) := by
  intro last
  have hsubset : last.Sound key inv table start ∧ last.seen ⊆ table last.state := by
    refine @Runs.invariant (Session σ ρ κ) (Turn β) (Session.turn step query key)
      ⟨state, start, [], false⟩
      (fun s => s.Sound key inv table start ∧ s.seen ⊆ table s.state) ?_ ?_ turns
    · exact ⟨(hlists.read_lasting hs start []).1, List.nil_subset _⟩
    · rintro s next ⟨hsound, hseen⟩
      refine ⟨hsound.turn hlists next, ?_⟩
      cases next with
      | act action => exact List.Subset.trans hseen (hkeeps s.state action hsound.state)
      | ask limit =>
          change (s.ask query key limit).seen ⊆ table (s.ask query key limit).state
          rw [Session.ask_state]
          unfold Session.ask
          cases hquery : query s.state s.cursor limit with
          | error e => exact hseen
          | ok rows =>
              obtain rfl := hlists.pages s.state s.cursor limit rows hsound.state hquery
              exact List.append_subset.2 ⟨hseen, fun row hrow => (mem_page hrow).1⟩
  refine ⟨hsubset.2, fun hcomplete => ?_⟩
  have hkeys := hlists.read_growing hgrows hs start turns hcomplete
  have hunique := hlists.unique last.state hsubset.1.state
  refine eq_of_map_key hunique hsubset.2 ?_ hkeys
  exact fun row hrow => (mem_behind.1 hrow).1

end Reader

end Paging
