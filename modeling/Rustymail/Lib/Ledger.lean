import Mathlib.Algebra.BigOperators.Group.List.Basic
import Mathlib.Algebra.GroupWithZero.Nat
import Mathlib.Data.List.Induction

/-!
# Append-only ledgers

A list of postings, each with an owner, an amount and a number. The total of an owner, the highest
number in a group, and numbers that ascend within each group in the order of posting.
-/

namespace Ledger

variable {β κ : Type} [DecidableEq κ]

/-- The sum of the amounts posted for an owner. -/
def total (owner : β → κ) (amount : β → Nat) (postings : List β) (k : κ) : Nat :=
  ((postings.filter fun b => decide (owner b = k)).map amount).sum

/-- The highest number in a group, zero when the group is empty. -/
def highest (group : β → κ) (number : β → Nat) (postings : List β) (k : κ) : Nat :=
  ((postings.filter fun b => decide (group b = k)).map number).foldl max 0

/-- Within each group the numbers ascend in the order of posting. -/
def Ascending (group : β → κ) (number : β → Nat) (postings : List β) : Prop :=
  postings.Pairwise fun earlier later => group earlier = group later → number earlier < number later

section Totals

variable {owner owner' : β → κ} {amount amount' : β → Nat} {postings : List β} {k : κ}

theorem total_snoc (b : β) : total owner amount (postings ++ [b]) k
    = total owner amount postings k + if owner b = k then amount b else 0 := by
  unfold total
  rw [List.filter_append, List.map_append, List.sum_append]
  split_ifs with h <;> simp [h]

theorem total_congr (howner : ∀ b ∈ postings, owner' b = owner b)
    (hamount : ∀ b ∈ postings, amount' b = amount b) :
    total owner' amount' postings k = total owner amount postings k := by
  unfold total
  have hfilter : (postings.filter fun b => decide (owner' b = k))
      = postings.filter fun b => decide (owner b = k) := by
    apply List.filter_congr
    intro b hb
    rw [howner b hb]
  rw [hfilter]
  congr 1
  apply List.map_congr_left
  intro b hb
  exact hamount b (List.mem_of_mem_filter hb)

theorem total_eq_zero (h : ∀ b ∈ postings, owner b ≠ k) : total owner amount postings k = 0 := by
  unfold total
  have hnone : (postings.filter fun b => decide (owner b = k)) = [] := by
    rw [List.filter_eq_nil_iff]
    intro b hb
    simpa using h b hb
  rw [hnone]
  rfl

end Totals

section Numbers

variable {group : β → κ} {number : β → Nat} {postings : List β} {k : κ}

theorem highest_snoc (b : β) : highest group number (postings ++ [b]) k
    = if group b = k then max (highest group number postings k) (number b)
      else highest group number postings k := by
  unfold highest
  rw [List.filter_append, List.map_append, List.foldl_append]
  split_ifs with h <;> simp [h]

theorem highest_eq_zero (h : ∀ b ∈ postings, group b ≠ k) : highest group number postings k = 0 := by
  unfold highest
  have hnone : (postings.filter fun b => decide (group b = k)) = [] := by
    rw [List.filter_eq_nil_iff]
    intro b hb
    simpa using h b hb
  rw [hnone]
  rfl

theorem highest_lt {bound : Nat} (hbound : 0 < bound)
    (h : ∀ b ∈ postings, group b = k → number b < bound) :
    highest group number postings k < bound := by
  induction postings using List.reverseRecOn with
  | nil => exact hbound
  | append_singleton rest b ih =>
      have hrest := ih fun c hc => h c (List.mem_append_left _ hc)
      rw [highest_snoc]
      split_ifs with hk
      · have := h b (List.mem_append_right _ List.mem_cons_self) hk
        omega
      · exact hrest

omit [DecidableEq κ] in
theorem Ascending.snoc (h : Ascending group number postings) {b : β}
    (hlast : ∀ c ∈ postings, group c = group b → number c < number b) :
    Ascending group number (postings ++ [b]) := by
  unfold Ascending
  rw [List.pairwise_append]
  refine ⟨h, List.pairwise_singleton _ _, ?_⟩
  intro c hc b' hb'
  obtain rfl := List.mem_singleton.1 hb'
  exact hlast c hc

/-- The numbers of one group, in the order of posting. -/
theorem Ascending.numbers (h : Ascending group number postings) (k : κ) :
    ((postings.filter fun b => decide (group b = k)).map number).Pairwise (· < ·) := by
  rw [List.pairwise_map]
  refine (h.filter _).imp_of_mem ?_
  intro earlier later hearlier hlater hlt
  have hfirst := of_decide_eq_true (List.mem_filter.1 hearlier).2
  have hsecond := of_decide_eq_true (List.mem_filter.1 hlater).2
  exact hlt (hfirst.trans hsecond.symm)

end Numbers

end Ledger
