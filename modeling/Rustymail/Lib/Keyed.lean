import Mathlib.Algebra.GroupWithZero.Nat
import Mathlib.Data.List.Basic
import Mathlib.Data.List.Nodup
import Mathlib.Data.List.Sort
import Mathlib.Tactic.Common

/-!
# Keyed tables

A table is a list of rows read through a key. Reading takes the first row under the key, a rewrite
touches the rows under one key and no other, and an insertion is refused when the key is taken. The
rows under a fixed key therefore evolve independently of all other rows, which is what the lemmas
below say.
-/

namespace Keyed

variable {α κ : Type} [DecidableEq κ] (key : α → κ)

/-- The row stored under a key. -/
def lookup (table : List α) (k : κ) : Option α :=
  table.find? fun row => key row = k

/-- Rewrite the row stored under a key. -/
def modify (table : List α) (k : κ) (f : α → α) : List α :=
  table.map fun row => if key row = k then f row else row

/-- Drop the row stored under a key. -/
def remove (table : List α) (k : κ) : List α :=
  table.filter fun row => key row ≠ k

/-- No two rows share a key. -/
def Unique (table : List α) : Prop := (table.map key).Nodup

variable {key} {table : List α} {k k' : κ} {row : α} {f : α → α}

@[simp]
theorem lookup_nil : lookup key ([] : List α) k = none := rfl

theorem lookup_some_key (h : lookup key table k = some row) : key row = k := by
  simpa using List.find?_some h

theorem mem_of_lookup (h : lookup key table k = some row) : row ∈ table :=
  List.mem_of_find?_eq_some h

theorem lookup_none_iff : lookup key table k = none ↔ ∀ row ∈ table, key row ≠ k := by
  simp [lookup]

theorem lookup_isSome_iff : (lookup key table k).isSome ↔ ∃ row ∈ table, key row = k := by
  simp [lookup]

theorem lookup_of_mem (hunique : Unique key table) (hmem : row ∈ table) :
    lookup key table (key row) = some row := by
  induction table with
  | nil => simp at hmem
  | cons first rest ih =>
      simp only [Unique, List.map_cons, List.nodup_cons] at hunique
      rcases List.mem_cons.1 hmem with rfl | hrest
      · simp [lookup]
      · have hne : key first ≠ key row := by
          intro heq
          exact hunique.1 (heq ▸ List.mem_map_of_mem hrest)
        have hlookup := ih hunique.2 hrest
        simpa [lookup, hne] using hlookup

theorem lookup_eq_some_iff (hunique : Unique key table) :
    lookup key table k = some row ↔ row ∈ table ∧ key row = k := by
  constructor
  · intro h
    exact ⟨mem_of_lookup h, lookup_some_key h⟩
  · rintro ⟨hmem, rfl⟩
    exact lookup_of_mem hunique hmem

theorem lookup_append (first second : List α) :
    lookup key (first ++ second) k = (lookup key first k).or (lookup key second k) := by
  simp [lookup, List.find?_append]

theorem lookup_append_singleton (hfresh : lookup key table (key row) = none) :
    lookup key (table ++ [row]) k = if k = key row then some row else lookup key table k := by
  rw [lookup_append]
  by_cases hk : k = key row
  · subst hk
    rw [hfresh]
    simp [lookup]
  · have hne : ¬ key row = k := fun heq => hk heq.symm
    simp [lookup, hk, hne]

theorem lookup_append_of_some (h : lookup key table k = some row) (more : List α) :
    lookup key (table ++ more) k = some row := by
  simp [lookup_append, h]

theorem lookup_modify (hkey : ∀ row, key (f row) = key row) :
    lookup key (modify key table k f) k' =
      if k' = k then (lookup key table k').map f else lookup key table k' := by
  induction table with
  | nil => simp [modify]
  | cons first rest ih =>
      simp only [modify, lookup, List.map_cons, List.find?_cons] at ih ⊢
      by_cases hfirst : key first = k
      · by_cases hk : k' = k
        · subst hk
          simp [hfirst, hkey]
        · have hne : ¬ k = k' := fun heq => hk heq.symm
          simpa [hfirst, hkey, hk, hne] using ih
      · by_cases hfirst' : key first = k'
        · have hk : ¬ k' = k := fun heq => hfirst (hfirst'.trans heq)
          simp [hfirst', hk]
        · simpa [hfirst, hfirst'] using ih

theorem lookup_map {g : α → α} (hkey : ∀ row, key (g row) = key row) :
    lookup key (table.map g) k = (lookup key table k).map g := by
  unfold lookup
  rw [List.find?_map]
  congr 2
  funext row
  simp [hkey]

theorem lookup_remove :
    lookup key (remove key table k) k' = if k' = k then none else lookup key table k' := by
  induction table with
  | nil => simp [remove]
  | cons first rest ih =>
      simp only [remove, lookup, List.filter_cons, List.find?_cons] at ih ⊢
      by_cases hfirst : key first = k
      · by_cases hk : k' = k
        · simp [hfirst, hk]
        · have hne : ¬ k = k' := fun heq => hk heq.symm
          simpa [hfirst, hk, hne] using ih
      · by_cases hfirst' : key first = k'
        · have hk : ¬ k' = k := fun heq => hfirst (hfirst'.trans heq)
          simp [hfirst', hk]
        · simpa [hfirst, hfirst'] using ih

theorem lookup_filter {p : α → Bool} (hunique : Unique key table) :
    lookup key (table.filter p) k = (lookup key table k).filter p := by
  induction table with
  | nil => rfl
  | cons first rest ih =>
      simp only [Unique, List.map_cons, List.nodup_cons] at hunique
      have hrest := ih hunique.2
      by_cases hfirst : key first = k
      · have hnone : lookup key rest k = none := by
          rw [lookup_none_iff]
          intro row hrow heq
          exact hunique.1 (hfirst ▸ heq ▸ List.mem_map_of_mem hrow)
        have hfound : lookup key (first :: rest) k = some first := by
          simp [lookup, hfirst]
        rw [hfound, Option.filter]
        by_cases hp : p first = true
        · rw [List.filter_cons_of_pos hp, if_pos hp]
          simp [lookup, hfirst]
        · rw [List.filter_cons_of_neg hp, if_neg hp, hrest, hnone]
          rfl
      · have hskip : lookup key (first :: rest) k = lookup key rest k := by
          simp [lookup, hfirst]
        rw [hskip]
        by_cases hp : p first = true
        · rw [List.filter_cons_of_pos hp, ← hrest]
          simp [lookup, hfirst]
        · rw [List.filter_cons_of_neg hp, hrest]

theorem map_modify {β : Type} {g : α → β} (hg : ∀ row, g (f row) = g row) :
    (modify key table k f).map g = table.map g := by
  simp only [modify, List.map_map]
  refine List.map_congr_left fun row _ => ?_
  simp only [Function.comp_apply]
  split_ifs <;> simp [hg]

theorem unique_modify {κ' : Type} {other : α → κ'} (hkey : ∀ row, other (f row) = other row)
    (hunique : Unique other table) : Unique other (modify key table k f) := by
  unfold Unique
  rwa [map_modify hkey]

theorem unique_append_singleton (hunique : Unique key table)
    (hfresh : lookup key table (key row) = none) : Unique key (table ++ [row]) := by
  unfold Unique
  rw [List.map_append, List.nodup_append]
  refine ⟨hunique, by simp, ?_⟩
  intro a ha b hb
  simp only [List.map_cons, List.map_nil, List.mem_singleton] at hb
  obtain ⟨other, hother, rfl⟩ := List.mem_map.1 ha
  rw [hb]
  exact lookup_none_iff.1 hfresh other hother

theorem mem_modify : row ∈ modify key table k f ↔
    (∃ old ∈ table, key old = k ∧ row = f old) ∨ (row ∈ table ∧ key row ≠ k) := by
  simp only [modify, List.mem_map]
  constructor
  · rintro ⟨old, hold, rfl⟩
    by_cases hk : key old = k
    · exact Or.inl ⟨old, hold, hk, by simp [hk]⟩
    · exact Or.inr (by simpa [hk] using hold)
  · rintro (⟨old, hold, hk, rfl⟩ | ⟨hold, hk⟩)
    · exact ⟨old, hold, by simp [hk]⟩
    · exact ⟨row, hold, by simp [hk]⟩

theorem unique_remove (hunique : Unique key table) : Unique key (remove key table k) :=
  hunique.sublist (List.filter_sublist.map key)

/-- Removing takes one row away. -/
theorem perm_remove (hunique : Unique key table) (h : lookup key table k = some row) :
    table.Perm (row :: remove key table k) := by
  induction table with
  | nil => cases h
  | cons first rest ih =>
      simp only [Unique, List.map_cons, List.nodup_cons] at hunique
      by_cases hfirst : key first = k
      · have hfound : lookup key (first :: rest) k = some first := by
          simp [lookup, hfirst]
        have hothers : remove key (first :: rest) k = rest := by
          unfold remove
          rw [List.filter_cons_of_neg (by simp [hfirst]), List.filter_eq_self]
          intro other hother
          refine decide_eq_true fun heq => hunique.1 ?_
          rw [hfirst, ← heq]
          exact List.mem_map_of_mem hother
        obtain rfl := Option.some.inj (hfound.symm.trans h)
        rw [hothers]
      · have hskip : lookup key (first :: rest) k = lookup key rest k := by
          simp [lookup, hfirst]
        have hothers : remove key (first :: rest) k = first :: remove key rest k := by
          unfold remove
          rw [List.filter_cons_of_pos (by simp [hfirst])]
        rw [hskip] at h
        rw [hothers]
        exact ((ih hunique.2 h).cons first).trans (List.Perm.swap row first _)

/-- What a row adds to a sum is gone with it. -/
theorem sum_remove {size : α → Nat} (hunique : Unique key table)
    (h : lookup key table k = some row) :
    (table.map size).sum = size row + ((remove key table k).map size).sum :=
  ((perm_remove hunique h).map size).sum_nat

theorem map_remove (hunique : Unique key table) :
    (remove key table k).map key = (table.map key).erase k := by
  have htest : (fun row => decide (key row ≠ k)) = (fun x => x != k) ∘ key := by
    funext row
    by_cases hrow : key row = k <;> simp [hrow]
  rw [List.Nodup.erase_eq_filter hunique k, List.filter_map, ← htest]
  rfl

/-- A unique key is in the table at most once. -/
theorem countP_le_one (hunique : Unique key table) (k : κ) :
    table.countP (fun row => decide (key row = k)) ≤ 1 := by
  have hcount := List.nodup_iff_count_le_one.1 hunique k
  rw [List.count, List.countP_map] at hcount
  exact hcount

/-! ### Bounded scans in some order -/

section Scan

variable {p : α → Bool} {r : α → α → Prop} [DecidableRel r] {limit : Nat}

theorem mem_of_mem_scan (h : row ∈ ((table.filter p).insertionSort r).take limit) :
    row ∈ table ∧ p row = true := by
  have hsorted := List.mem_of_mem_take h
  rw [List.mem_insertionSort, List.mem_filter] at hsorted
  exact hsorted

omit [DecidableEq κ] in
theorem unique_scan (hunique : Unique key table) :
    Unique key (((table.filter p).insertionSort r).take limit) := by
  have hfiltered : ((table.filter p).map key).Nodup := hunique.sublist (List.filter_sublist.map key)
  have hsorted : (((table.filter p).insertionSort r).map key).Nodup :=
    ((List.perm_insertionSort r _).map key).nodup_iff.2 hfiltered
  exact hsorted.sublist ((List.take_sublist limit _).map key)

section Ordered

variable [Std.Total r] [IsTrans α r]

theorem scan_pairwise : (((table.filter p).insertionSort r).take limit).Pairwise r :=
  (List.pairwise_insertionSort r _).take

/-- A scan leaves a matching row out only when it is full of rows that come first. -/
theorem scan_complete (hrow : row ∈ table) (hp : p row = true) :
    row ∈ ((table.filter p).insertionSort r).take limit
      ∨ ((((table.filter p).insertionSort r).take limit).length = limit
        ∧ ∀ other ∈ ((table.filter p).insertionSort r).take limit, r other row) := by
  have hmem : row ∈ (table.filter p).insertionSort r := by
    rw [List.mem_insertionSort, List.mem_filter]
    exact ⟨hrow, hp⟩
  have hsorted := List.pairwise_insertionSort r (table.filter p)
  rw [← List.take_append_drop limit ((table.filter p).insertionSort r)] at hmem hsorted
  rcases List.mem_append.1 hmem with hin | hout
  · exact Or.inl hin
  · refine Or.inr ⟨?_, fun other hother => (List.pairwise_append.1 hsorted).2.2 other hother row hout⟩
    have hlong : limit < ((table.filter p).insertionSort r).length := by
      have hpos := List.length_pos_of_mem hout
      rw [List.length_drop] at hpos
      omega
    rw [List.length_take]
    omega

/-- The first row of a scan comes before every matching row. -/
theorem scan_head {first : α} (hfirst : ((table.filter p).insertionSort r).head? = some first)
    (hrow : row ∈ table) (hp : p row = true) : r first row := by
  have hmem : row ∈ (table.filter p).insertionSort r := by
    rw [List.mem_insertionSort, List.mem_filter]
    exact ⟨hrow, hp⟩
  obtain ⟨rest, hrest⟩ := List.head?_eq_some_iff.1 hfirst
  have hsorted := List.pairwise_insertionSort r (table.filter p)
  rw [hrest] at hmem hsorted
  rcases List.mem_cons.1 hmem with rfl | hlater
  · exact (Std.Total.total row row).elim id id
  · exact (List.pairwise_cons.1 hsorted).1 row hlater

end Ordered

end Scan

end Keyed
