import Mathlib.Data.Int.Order.Basic
import Mathlib.Order.Defs.Unbundled
import Mathlib.Tactic.Common

/-!
# Times with a tie-breaker

Entries ordered by a time and, where the times agree, by a second component: the order of an index
over a time column and an identifier.
-/

namespace Timed

variable {κ : Type}

/-- Not after: an earlier time, or the same one and no later identifier. -/
abbrev NoLater [LE κ] (a b : Int × κ) : Prop := a.1 < b.1 ∨ (a.1 = b.1 ∧ a.2 ≤ b.2)

/-- Strictly before. -/
abbrev Earlier [LT κ] (a b : Int × κ) : Prop := a.1 < b.1 ∨ (a.1 = b.1 ∧ a.2 < b.2)

variable [LE κ] [Std.IsLinearOrder κ] {a b c : Int × κ}

theorem NoLater.refl (a : Int × κ) : NoLater a a :=
  Or.inr ⟨rfl, Std.le_refl a.2⟩

theorem NoLater.total (a b : Int × κ) : NoLater a b ∨ NoLater b a := by
  rcases lt_trichotomy a.1 b.1 with hlt | heq | hgt
  · exact Or.inl (Or.inl hlt)
  · exact (@Std.le_total _ _ _ a.2 b.2).imp (fun h => Or.inr ⟨heq, h⟩) fun h => Or.inr ⟨heq.symm, h⟩
  · exact Or.inr (Or.inl hgt)

theorem NoLater.trans (hab : NoLater a b) (hbc : NoLater b c) : NoLater a c := by
  rcases hab with hab | ⟨hab, hab'⟩
  · rcases hbc with hbc | ⟨hbc, -⟩
    · exact Or.inl (lt_trans hab hbc)
    · exact Or.inl (hbc ▸ hab)
  · rcases hbc with hbc | ⟨hbc, hbc'⟩
    · exact Or.inl (hab ▸ hbc)
    · exact Or.inr ⟨hab.trans hbc, Std.le_trans hab' hbc'⟩

theorem NoLater.antisymm (hab : NoLater a b) (hba : NoLater b a) : a = b := by
  rcases hab with hab | ⟨hab, hab'⟩
  · rcases hba with hba | ⟨hba, -⟩
    · omega
    · omega
  · rcases hba with hba | ⟨-, hba'⟩
    · omega
    · exact Prod.ext hab (Std.le_antisymm hab' hba')

/-- Rows are ordered through their keys. -/
theorem total_of {α : Type} (key : α → Int × κ) :
    Std.Total fun first second : α => NoLater (key first) (key second) :=
  ⟨fun first second => NoLater.total (key first) (key second)⟩

theorem isTrans_of {α : Type} (key : α → Int × κ) :
    IsTrans α fun first second => NoLater (key first) (key second) :=
  ⟨fun _ _ _ => NoLater.trans⟩

variable [LT κ] [Std.LawfulOrderLT κ]

theorem earlier_iff_not : Earlier a b ↔ ¬ NoLater b a := by
  unfold Earlier NoLater
  constructor
  · rintro (hab | ⟨hab, hab'⟩) (hba | ⟨hba, hba'⟩)
    · omega
    · omega
    · omega
    · exact Std.not_le.2 hab' hba'
  · intro hnot
    rw [not_or, not_and] at hnot
    rcases lt_or_eq_of_le (not_lt.1 hnot.1) with hlt | heq
    · exact Or.inl hlt
    · exact Or.inr ⟨heq, Std.not_le.1 (hnot.2 heq.symm)⟩

theorem Earlier.noLater (h : Earlier a b) : NoLater a b :=
  (NoLater.total a b).resolve_right (earlier_iff_not.1 h)

theorem NoLater.earlier_or_eq (h : NoLater a b) : Earlier a b ∨ a = b := by
  by_cases hba : NoLater b a
  · exact Or.inr (h.antisymm hba)
  · exact Or.inl (earlier_iff_not.2 hba)

theorem Earlier.trans_noLater (hab : Earlier a b) (hbc : NoLater b c) : Earlier a c :=
  earlier_iff_not.2 fun hca => earlier_iff_not.1 hab (hbc.trans hca)

end Timed
