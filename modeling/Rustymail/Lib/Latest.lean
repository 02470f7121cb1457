import Mathlib.Data.List.Basic
import Mathlib.Tactic.Common

/-!
# Registers that the last assignment decides

A list of events is read from the left, and some of them assign a value to a register. What the
register holds in the end is free of the order of the events just if all assignments agree.
-/

namespace Latest

variable {α β : Type} (value : α → Option β)

/-- The register after these events. -/
def latest (held : β) (events : List α) : β :=
  events.foldl (fun held event => (value event).getD held) held

/-- All events that assign anything assign the same. -/
def Agree (events : List α) : Prop :=
  ∀ x ∈ events, ∀ y ∈ events, ∀ v w, value x = some v → value y = some w → v = w

variable {value} {held v : β} {events after : List α} {x : α}

theorem latest_cons (held : β) (x : α) (events : List α) :
    latest value held (x :: events) = latest value ((value x).getD held) events := rfl

theorem latest_append (held : β) (first second : List α) :
    latest value held (first ++ second) = latest value (latest value held first) second :=
  List.foldl_append

theorem latest_of_none (h : ∀ x ∈ events, value x = none) : latest value held events = held := by
  induction events generalizing held with
  | nil => rfl
  | cons x events ih =>
      rw [latest_cons, h x List.mem_cons_self, Option.getD_none]
      exact ih fun y hy => h y (List.mem_cons_of_mem x hy)

/-- The last assignment decides. -/
theorem latest_of_last (before : List α) (hx : value x = some v) (hafter : ∀ y ∈ after, value y = none) :
    latest value held (before ++ x :: after) = v := by
  rw [latest_append, latest_cons, hx, Option.getD_some]
  exact latest_of_none hafter

/-- Where something is assigned there is a last assignment. -/
theorem exists_last (hx : x ∈ events) (hsome : (value x).isSome) :
    ∃ before y after, events = before ++ y :: after ∧ (value y).isSome
      ∧ ∀ z ∈ after, value z = none := by
  induction events generalizing x with
  | nil => cases hx
  | cons first events ih =>
      by_cases hlater : ∃ y ∈ events, (value y).isSome
      · obtain ⟨y, hy, hyvalue⟩ := hlater
        obtain ⟨before, z, after, rfl, hz, hafter⟩ := ih hy hyvalue
        exact ⟨first :: before, z, after, rfl, hz, hafter⟩
      · have hnone : ∀ z ∈ events, value z = none := by
          intro z hz
          by_contra hassigns
          exact hlater ⟨z, hz, Option.isSome_iff_ne_none.2 hassigns⟩
        rcases List.mem_cons.1 hx with rfl | hmem
        · exact ⟨[], x, events, rfl, hsome, hnone⟩
        · rw [hnone x hmem] at hsome
          cases hsome

theorem Agree.latest_eq (h : Agree value events) (hx : x ∈ events) (hv : value x = some v) :
    latest value held events = v := by
  obtain ⟨before, y, after, heq, hy, hafter⟩ := exists_last hx (Option.isSome_of_eq_some hv)
  obtain ⟨w, hw⟩ := Option.isSome_iff_exists.1 hy
  have hmem : y ∈ events := by
    rw [heq]
    exact List.mem_append_right _ List.mem_cons_self
  rw [h x hx y hmem v w hv hw, heq]
  exact latest_of_last before hw hafter

/-- Where all agree, only the set of the events counts. -/
theorem Agree.congr (h : Agree value events) {others : List α} (hsame : ∀ x, x ∈ others ↔ x ∈ events) :
    latest value held others = latest value held events := by
  have hothers : Agree value others := by
    intro x hx y hy
    exact h x ((hsame x).1 hx) y ((hsame y).1 hy)
  by_cases hassigned : ∃ x ∈ events, (value x).isSome
  · obtain ⟨x, hx, hsome⟩ := hassigned
    obtain ⟨v, hv⟩ := Option.isSome_iff_exists.1 hsome
    rw [h.latest_eq hx hv, hothers.latest_eq ((hsame x).2 hx) hv]
  · have hnone : ∀ x ∈ events, value x = none := by
      intro x hx
      by_contra hassigns
      exact hassigned ⟨x, hx, Option.isSome_iff_ne_none.2 hassigns⟩
    rw [latest_of_none hnone, latest_of_none fun x hx => hnone x ((hsame x).1 hx)]

/-- **Where no exchange of two events changes the register, all assignments agree.** -/
theorem agree_of_exchange (held : β)
    (h : ∀ first x middle y last, events = first ++ x :: (middle ++ y :: last) →
      (value x).isSome → (value y).isSome →
      latest value held (first ++ y :: (middle ++ x :: last)) = latest value held events) :
    Agree value events := by
  have hlatest : ∀ x ∈ events, ∀ v, value x = some v → v = latest value held events := by
    intro x hx v hv
    obtain ⟨before, y, after, heq, hy, hafter⟩ := exists_last hx (Option.isSome_of_eq_some hv)
    obtain ⟨w, hw⟩ := Option.isSome_iff_exists.1 hy
    have hheld : latest value held events = w := by
      rw [heq]
      exact latest_of_last before hw hafter
    rw [heq] at hx
    rcases List.mem_append.1 hx with hbefore | hrest
    · -- Exchanged with the last assignment, this one decides.
      obtain ⟨first, middle, rfl⟩ := List.append_of_mem hbefore
      have hexchange := h first x middle y after (by rw [heq]; simp) (Option.isSome_of_eq_some hv) hy
      rw [← hexchange, ← List.cons_append, ← List.append_assoc]
      exact (latest_of_last _ hv hafter).symm
    · rcases List.mem_cons.1 hrest with rfl | hlater
      · rw [hheld]
        exact Option.some.inj (hv.symm.trans hw)
      · rw [hafter x hlater] at hv
        cases hv
  intro x hx y hy v w hv hw
  rw [hlatest x hx v hv, hlatest y hy w hw]

end Latest
