import Mathlib.Tactic.Common

/-!
# Groups with continuations

A list in which some items continue the one before them falls into groups, each an item that does not
and the items that continue it. A scan that remembers of every beginning whether its group is wanted
keeps exactly the wanted groups, and keeps them all when it runs over them again.
-/

namespace Groups

variable {α : Type} (continues : α → Bool)

/-- What continues something from before the list, and the groups. -/
def cut : List α → List α × List (List α)
  | [] => ([], [])
  | x :: rest =>
      if continues x then (x :: (cut rest).1, (cut rest).2)
      else ([], (x :: (cut rest).1) :: (cut rest).2)

def groups (l : List α) : List (List α) := (cut continues l).2

/-- A beginning and what continues it. -/
def IsGroup (group : List α) : Prop :=
  ∃ x rest, group = x :: rest ∧ continues x = false ∧ ∀ y ∈ rest, continues y = true

/-- The scan. `kept` tells whether the group at hand is wanted. -/
def sift (wanted : α → Bool) : (kept : Bool) → List α → List α
  | _, [] => []
  | kept, x :: rest =>
      let kept := if continues x then kept else wanted x
      if kept then x :: sift wanted kept rest else sift wanted kept rest

variable {continues} {wanted : α → Bool} {x : α} {l : List α}

theorem cut_continuing (h : continues x = true) :
    cut continues (x :: l) = (x :: (cut continues l).1, (cut continues l).2) := by
  rw [cut, if_pos h]

theorem cut_beginning (h : continues x = false) :
    cut continues (x :: l) = ([], (x :: (cut continues l).1) :: (cut continues l).2) := by
  rw [cut, if_neg (by rw [h]; exact Bool.false_ne_true)]

theorem sift_continuing (kept : Bool) (h : continues x = true) :
    sift continues wanted kept (x :: l)
      = if kept then x :: sift continues wanted kept l else sift continues wanted kept l := by
  rw [sift, h, if_pos rfl]

theorem sift_beginning (kept : Bool) (h : continues x = false) :
    sift continues wanted kept (x :: l)
      = if wanted x then x :: sift continues wanted (wanted x) l
        else sift continues wanted (wanted x) l := by
  rw [sift, h, if_neg Bool.false_ne_true]

theorem cut_flatten (l : List α) : (cut continues l).1 ++ (cut continues l).2.flatten = l := by
  induction l with
  | nil => rfl
  | cons x rest ih =>
      cases hx : continues x with
      | true =>
          rw [cut_continuing hx, List.cons_append, ih]
      | false =>
          rw [cut_beginning hx, List.nil_append, List.flatten_cons, List.cons_append, ih]

theorem cut_fst_continues (l : List α) : ∀ y ∈ (cut continues l).1, continues y = true := by
  induction l with
  | nil =>
      intro y hy
      cases hy
  | cons x rest ih =>
      intro y hy
      cases hx : continues x with
      | true =>
          rw [cut_continuing hx] at hy
          rcases List.mem_cons.1 hy with rfl | hy
          · exact hx
          · exact ih y hy
      | false =>
          rw [cut_beginning hx] at hy
          cases hy

theorem isGroup_of_mem {group : List α} (h : group ∈ groups continues l) : IsGroup continues group := by
  unfold groups at h
  induction l with
  | nil => cases h
  | cons x rest ih =>
      cases hx : continues x with
      | true =>
          rw [cut_continuing hx] at h
          exact ih h
      | false =>
          rw [cut_beginning hx] at h
          rcases List.mem_cons.1 h with rfl | h
          · exact ⟨x, _, rfl, hx, cut_fst_continues rest⟩
          · exact ih h

/-- What continues in front of a list. -/
theorem cut_append {more : List α} (h : ∀ y ∈ more, continues y = true) (l : List α) :
    cut continues (more ++ l) = (more ++ (cut continues l).1, (cut continues l).2) := by
  induction more with
  | nil => rfl
  | cons y more ih =>
      rw [List.cons_append, cut_continuing (h y List.mem_cons_self),
        ih fun z hz => h z (List.mem_cons_of_mem y hz)]
      rfl

/-- Groups put together fall into the same groups. -/
theorem cut_of_groups {parts : List (List α)} (h : ∀ group ∈ parts, IsGroup continues group) :
    cut continues parts.flatten = ([], parts) := by
  induction parts with
  | nil => rfl
  | cons group parts ih =>
      obtain ⟨x, rest, rfl, hx, hrest⟩ := h group List.mem_cons_self
      rw [List.flatten_cons, List.cons_append, cut_beginning hx, cut_append hrest,
        ih fun g hg => h g (List.mem_cons_of_mem _ hg), List.append_nil]

/-- **The scan keeps the wanted groups.** -/
theorem sift_eq (kept : Bool) (l : List α) :
    sift continues wanted kept l = (if kept then (cut continues l).1 else [])
      ++ ((groups continues l).filter fun group => group.head?.any wanted).flatten := by
  unfold groups
  induction l generalizing kept with
  | nil => cases kept <;> rfl
  | cons x rest ih =>
      cases hx : continues x with
      | true =>
          rw [cut_continuing hx, sift_continuing kept hx, ih kept]
          cases kept with
          | true => rfl
          | false => rfl
      | false =>
          have hhead : (x :: (cut continues rest).1).head?.any wanted = wanted x := rfl
          rw [cut_beginning hx, sift_beginning kept hx, ih (wanted x), List.filter_cons, ite_self,
            List.nil_append, hhead]
          cases wanted x with
          | true => rfl
          | false => rfl

theorem mem_of_mem_sift {kept : Bool} (h : x ∈ sift continues wanted kept l) : x ∈ l := by
  have hcut := @cut_flatten _ continues l
  rw [sift_eq] at h
  rw [← hcut]
  rcases List.mem_append.1 h with hfirst | hlater
  · split_ifs at hfirst
    · exact List.mem_append_left _ hfirst
    · cases hfirst
  · obtain ⟨group, hgroup, hx⟩ := List.mem_flatten.1 hlater
    exact List.mem_append_right _ (List.mem_flatten.2 ⟨group, (List.mem_filter.1 hgroup).1, hx⟩)

theorem cut_fst_eq_nil (h : ∀ x ∈ l.head?, continues x = false) : (cut continues l).1 = [] := by
  cases l with
  | nil => rfl
  | cons x rest => rw [cut_beginning (h x rfl)]

/-- Of a list of groups the scan keeps a list of groups. -/
theorem sift_groups (kept : Bool) (h : ∀ x ∈ l.head?, continues x = false) :
    sift continues wanted kept l
      = ((groups continues l).filter fun group => group.head?.any wanted).flatten := by
  rw [sift_eq, cut_fst_eq_nil h, ite_self, List.nil_append]

theorem sift_starts {kept : Bool} (h : ∀ x ∈ l.head?, continues x = false) :
    ∀ x ∈ (sift continues wanted kept l).head?, continues x = false := by
  intro x hx
  rw [sift_groups kept h] at hx
  cases hparts : (groups continues l).filter fun group => group.head?.any wanted with
  | nil =>
      rw [hparts] at hx
      cases hx
  | cons group parts =>
      have hmem : group ∈ (groups continues l).filter fun group => group.head?.any wanted := by
        rw [hparts]
        exact List.mem_cons_self
      obtain ⟨y, rest, rfl, hy, -⟩ := isGroup_of_mem (List.mem_filter.1 hmem).1
      rw [hparts] at hx
      cases hx
      exact hy

/-- The scan over what it has kept keeps all of it. -/
theorem sift_sift (kept kept' : Bool) (h : ∀ x ∈ l.head?, continues x = false) :
    sift continues wanted kept' (sift continues wanted kept l) = sift continues wanted kept l := by
  have hgroups : ∀ group ∈ (groups continues l).filter (fun group => group.head?.any wanted),
      IsGroup continues group := fun group hgroup => isGroup_of_mem ((List.mem_filter.1 hgroup).1)
  rw [sift_groups kept h, sift_eq]
  unfold groups at hgroups ⊢
  rw [cut_of_groups hgroups, ite_self, List.nil_append, List.filter_filter]
  simp only [Bool.and_self]

end Groups
