import Mathlib.Data.List.Basic
import Mathlib.Tactic.Common

/-!
# First occurrences

The elements of a list that no earlier element is the same as, for a sameness that need not be
equality.
-/

namespace Distinct

variable {α : Type} (same : α → α → Bool)

/-- The first occurrences, in order. -/
def firsts : List α → List α
  | [] => []
  | a :: rest => a :: (firsts rest).filter fun b => !same a b

variable {same}

theorem firsts_sublist (xs : List α) : (firsts same xs).Sublist xs := by
  induction xs with
  | nil => exact List.Sublist.refl []
  | cons a rest ih => exact (List.filter_sublist.trans ih).cons_cons a

@[simp]
theorem firsts_eq_nil_iff {xs : List α} : firsts same xs = [] ↔ xs = [] := by
  cases xs with
  | nil => simp [firsts]
  | cons a rest => simp [firsts]

/-- One more element is kept unless it has occurred. -/
theorem firsts_append_singleton (xs : List α) (b : α) :
    firsts same (xs ++ [b]) =
      if xs.any (same · b) then firsts same xs else firsts same xs ++ [b] := by
  induction xs with
  | nil => rfl
  | cons a rest ih =>
      rw [List.cons_append, firsts, ih, List.any_cons, firsts]
      cases hrest : rest.any (same · b) with
      | true => simp
      | false =>
          cases ha : same a b with
          | true => simp [ha]
          | false => simp [ha]

/-- What has occurred is the same as some first occurrence. -/
theorem any_firsts (htrans : ∀ a b c, same a b → same b c → same a c) (xs : List α) (b : α) :
    (firsts same xs).any (same · b) = xs.any (same · b) := by
  rw [Bool.eq_iff_iff]
  constructor
  · intro h
    obtain ⟨x, hx, hsame⟩ := List.any_eq_true.1 h
    exact List.any_eq_true.2 ⟨x, (firsts_sublist xs).subset hx, hsame⟩
  · induction xs with
    | nil => exact id
    | cons a rest ih =>
        intro h
        rw [List.any_cons, Bool.or_eq_true] at h
        rw [firsts, List.any_cons, Bool.or_eq_true]
        rcases h with ha | hrest
        · exact Or.inl ha
        · obtain ⟨x, hx, hsame⟩ := List.any_eq_true.1 (ih hrest)
          -- an occurrence dropped for `a` leaves `a` in its place
          by_cases hdropped : same a x
          · exact Or.inl (htrans a x b hdropped hsame)
          · exact Or.inr (List.any_eq_true.2 ⟨x, List.mem_filter.2 ⟨hx, by simpa using hdropped⟩, hsame⟩)

/-- No first occurrence is the same as an earlier one. -/
theorem firsts_pairwise (xs : List α) :
    (firsts same xs).Pairwise fun a b => same a b = false := by
  induction xs with
  | nil => exact List.Pairwise.nil
  | cons a rest ih =>
      refine List.Pairwise.cons ?_ (ih.filter _)
      intro b hb
      simpa using (List.mem_filter.1 hb).2

end Distinct
