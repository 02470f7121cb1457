import Rustymail.Lib.Checked
import Mathlib.Data.List.Nodup

/-!
# Loops over work lists

A loop takes the items of a list in order, may fail at any of them and may stop early. `Sweep` is
the trace of its successful end. When the items have distinct keys and one round touches nothing but
the part of the state under its item's key, each key sees at most one round, and sees it from the
state in which the loop started.
-/

namespace Loops

open Checked

variable {σ α ε : Type}

/-- The loop went from one state to another, over some of the items. -/
inductive Sweep (round : σ → α → Except ε σ) : σ → List α → σ → Prop
  | stop {s : σ} {items : List α} : Sweep round s items s
  | next {s t u : σ} {item : α} {items : List α} (hround : round s item = .ok t)
      (hrest : Sweep round t items u) : Sweep round s (item :: items) u

variable {round : σ → α → Except ε σ} {s t : σ} {items : List α}

theorem sweep_foldlM (h : items.foldlM round s = .ok t) : Sweep round s items t := by
  induction items generalizing s with
  | nil =>
      rw [List.foldlM_nil, pure_eq_ok] at h
      subst h
      exact Sweep.stop
  | cons item items ih =>
      rw [List.foldlM_cons, bind_eq_ok] at h
      obtain ⟨middle, hround, hrest⟩ := h
      exact Sweep.next hround (ih hrest)

theorem sweep_foldl (f : σ → α → σ) (s : σ) (items : List α) :
    Sweep (fun s item => (Except.ok (f s item) : Except ε σ)) s items (items.foldl f s) := by
  induction items generalizing s with
  | nil => exact Sweep.stop
  | cons item items ih => exact Sweep.next rfl (ih (f s item))

/-- What every round keeps, the loop keeps. -/
theorem Sweep.keeps (fact : σ → Prop) (h : Sweep round s items t)
    (hround : ∀ s item t, item ∈ items → round s item = .ok t → fact s → fact t) (hs : fact s) :
    fact t := by
  induction h with
  | stop => exact hs
  | @next s t u item items hfirst hrest ih =>
      refine ih ?_ (hround s item t List.mem_cons_self hfirst hs)
      intro s' item' t' hmem
      exact hround s' item' t' (List.mem_cons_of_mem _ hmem)

/-- Relations between the ends that are reflexive and transitive follow from single rounds. -/
theorem Sweep.relates (rel : σ → σ → Prop) (h : Sweep round s items t)
    (hrefl : ∀ s, rel s s) (htrans : ∀ s t u, rel s t → rel t u → rel s u)
    (hround : ∀ s item t, item ∈ items → round s item = .ok t → rel s t) : rel s t := by
  refine h.keeps (rel s) ?_ (hrefl s)
  intro s' item t' hmem hone hprefix
  exact htrans s s' t' hprefix (hround s' item t' hmem hone)

section Keys

variable {κ ν : Type} {key : α → κ} (view : σ → κ → ν)

/-- A key that no item has is left alone. -/
theorem Sweep.view_eq (h : Sweep round s items t)
    (hframe : ∀ s item t, round s item = .ok t → ∀ k, k ≠ key item → view t k = view s k)
    {k : κ} (hk : ∀ item ∈ items, key item ≠ k) : view t k = view s k := by
  refine h.relates (fun s t => view t k = view s k) (fun _ => rfl) ?_ ?_
  · intro s t u hfirst hsecond
    exact hsecond.trans hfirst
  · intro s item t hmem hround
    exact hframe s item t hround k (hk item hmem).symm

/-- Each key sees at most one round, and sees it from the initial state. -/
theorem Sweep.view_cases (h : Sweep round s items t) (hnodup : (items.map key).Nodup)
    (hframe : ∀ s item t, round s item = .ok t → ∀ k, k ≠ key item → view t k = view s k) (k : κ) :
    view t k = view s k ∨ ∃ item ∈ items, key item = k ∧ ∃ before after,
      round before item = .ok after ∧ view before k = view s k ∧ view t k = view after k := by
  induction h with
  | stop => exact Or.inl rfl
  | @next s t u item items hround hrest ih =>
      rw [List.map_cons, List.nodup_cons] at hnodup
      by_cases hk : key item = k
      · have hlater : view u k = view t k := by
          refine hrest.view_eq view hframe ?_
          intro other hother heq
          exact hnodup.1 (List.mem_map.2 ⟨other, hother, heq.trans hk.symm⟩)
        exact Or.inr ⟨item, List.mem_cons_self, hk, s, t, hround, rfl, hlater⟩
      · have hfirst : view t k = view s k := hframe s item t hround k (fun heq => hk heq.symm)
        rcases ih hnodup.2 with hsame | ⟨other, hother, hkey, before, after, hone, hbefore, hafter⟩
        · exact Or.inl (hsame.trans hfirst)
        · exact Or.inr ⟨other, List.mem_cons_of_mem _ hother, hkey, before, after, hone,
            hbefore.trans hfirst, hafter⟩

/-- In a loop that does not stop early every item has its round. -/
theorem foldlM_view (h : items.foldlM round s = .ok t) (hnodup : (items.map key).Nodup)
    (hframe : ∀ s item t, round s item = .ok t → ∀ k, k ≠ key item → view t k = view s k)
    {item : α} (hitem : item ∈ items) : ∃ before after, round before item = .ok after
      ∧ view before (key item) = view s (key item) ∧ view t (key item) = view after (key item) := by
  induction items generalizing s with
  | nil => cases hitem
  | cons first rest ih =>
      rw [List.foldlM_cons, bind_eq_ok] at h
      obtain ⟨middle, hround, hrest⟩ := h
      rw [List.map_cons, List.nodup_cons] at hnodup
      rcases List.mem_cons.1 hitem with rfl | hmem
      · refine ⟨s, middle, hround, rfl, (sweep_foldlM hrest).view_eq view hframe ?_⟩
        intro other hother heq
        exact hnodup.1 (heq ▸ List.mem_map_of_mem hother)
      · obtain ⟨before, after, hone, hbefore, hafter⟩ := ih hrest hnodup.2 hmem
        refine ⟨before, after, hone, hbefore.trans (hframe s first middle hround _ ?_), hafter⟩
        intro heq
        exact hnodup.1 (heq ▸ List.mem_map_of_mem hmem)

end Keys

end Loops
