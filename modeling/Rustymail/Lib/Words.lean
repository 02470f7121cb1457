import Mathlib.Data.List.TakeWhile
import Mathlib.Tactic.Common

/-!
# Words between separators

Trimming a list at both ends, and cutting it into the words between runs of separators. `Separated`
is the grammar `*( 1*separator word ) *separator`, and the cutting finds exactly its words.
-/

namespace Words

variable {α : Type}

def trim (p : α → Bool) (l : List α) : List α := ((l.dropWhile p).reverse.dropWhile p).reverse

/-- The nonempty parts between separators. -/
def split (p : α → Bool) (l : List α) : List (List α) := (l.splitOnP p).filter fun word => !word.isEmpty

variable {p q : α → Bool} {l gap word : List α} {words : List (List α)}

/-- There is one way to cut a list at the first separator. -/
theorem cut_unique {x : α} {before before' after after' : List α} (hbefore : x ∉ before)
    (hbefore' : x ∉ before') (h : before ++ x :: after = before' ++ x :: after') :
    before = before' ∧ after = after' := by
  induction before generalizing before' with
  | nil =>
      cases before' with
      | nil => exact ⟨rfl, (List.cons.inj h).2⟩
      | cons y rest =>
          rw [List.nil_append, List.cons_append] at h
          exact absurd ((List.cons.inj h).1 ▸ List.mem_cons_self) hbefore'
  | cons y rest ih =>
      cases before' with
      | nil =>
          rw [List.nil_append, List.cons_append] at h
          exact absurd ((List.cons.inj h).1 ▸ List.mem_cons_self) hbefore
      | cons z rest' =>
          rw [List.cons_append, List.cons_append] at h
          obtain ⟨rfl, htail⟩ := List.cons.inj h
          obtain ⟨rfl, hafter⟩ := ih (fun hmem => hbefore (List.mem_cons_of_mem y hmem))
            (fun hmem => hbefore' (List.mem_cons_of_mem y hmem)) htail
          exact ⟨rfl, hafter⟩

section Fields

variable [BEq α] [LawfulBEq α] {x : α}

/-- No field contains the separator. -/
theorem notMem_of_mem_splitOn {field : List α} (h : field ∈ l.splitOn x) : x ∉ field := by
  induction l generalizing field with
  | nil =>
      rw [List.splitOn_nil, List.mem_singleton] at h
      rw [h]
      exact List.not_mem_nil
  | cons y rest ih =>
      rw [List.splitOn_cons_eq_if_modifyHead] at h
      by_cases hy : (y == x) = true
      · rw [if_pos hy] at h
        rcases List.mem_cons.1 h with rfl | hlater
        · exact List.not_mem_nil
        · exact ih hlater
      · rw [if_neg hy] at h
        cases hrest : rest.splitOn x with
        | nil =>
            rw [hrest] at h
            cases h
        | cons first fields =>
            rw [hrest] at h ih
            rcases List.mem_cons.1 h with rfl | hlater
            · rw [List.mem_cons, not_or]
              exact ⟨fun hxy => hy (beq_iff_eq.2 hxy.symm), ih List.mem_cons_self⟩
            · exact ih (List.mem_cons_of_mem first hlater)

/-- Three fields between two separators. -/
theorem splitOn_eq_three_iff {a b c : List α} :
    l.splitOn x = [a, b, c] ↔ l = a ++ x :: (b ++ x :: c) ∧ x ∉ a ∧ x ∉ b ∧ x ∉ c := by
  constructor
  · intro h
    have hfields : ∀ field ∈ [a, b, c], x ∉ field := by
      intro field hfield
      rw [← h] at hfield
      exact notMem_of_mem_splitOn hfield
    have hl : [x].intercalate (l.splitOn x) = l := List.intercalate_splitOn x
    rw [h] at hl
    refine ⟨?_, hfields a (by simp), hfields b (by simp), hfields c (by simp)⟩
    rw [← hl]
    simp [List.intercalate_cons_cons]
  · rintro ⟨rfl, ha, hb, hc⟩
    rw [List.splitOn_append_cons_self_of_not_mem ha, List.splitOn_append_cons_self_of_not_mem hb,
      List.splitOn_eq_singleton hc]

end Fields

/-! ### Trimming -/

theorem dropWhile_append_of_all (hgap : ∀ x ∈ gap, p x = true) (l : List α) :
    (gap ++ l).dropWhile p = l.dropWhile p := by
  induction gap with
  | nil => rfl
  | cons x rest ih =>
      rw [List.cons_append, List.dropWhile_cons_of_pos (hgap x List.mem_cons_self)]
      exact ih fun y hy => hgap y (List.mem_cons_of_mem x hy)

theorem dropWhile_of_head (h : ∀ x ∈ l.head?, p x = false) : l.dropWhile p = l := by
  cases l with
  | nil => rfl
  | cons x rest =>
      apply List.dropWhile_cons_of_neg
      rw [h x rfl]
      exact Bool.false_ne_true

/-- What stands between two gaps and begins and ends with something else. -/
theorem trim_eq {before middle after : List α} (hbefore : ∀ x ∈ before, p x = true)
    (hafter : ∀ x ∈ after, p x = true) (hhead : ∀ x ∈ middle.head?, p x = false)
    (hlast : ∀ x ∈ middle.getLast?, p x = false) : trim p (before ++ middle ++ after) = middle := by
  unfold trim
  rw [List.append_assoc, dropWhile_append_of_all hbefore]
  have hreverse : ∀ x ∈ after.reverse, p x = true := fun x hx => hafter x (List.mem_reverse.1 hx)
  cases hmiddle : middle with
  | nil =>
      have hnone : after.dropWhile p = [] := by
        rw [← List.append_nil after, dropWhile_append_of_all hafter]
        rfl
      rw [List.nil_append, hnone]
      rfl
  | cons x rest =>
      rw [hmiddle] at hhead hlast
      have hkept : (x :: rest ++ after).dropWhile p = x :: rest ++ after := by
        refine dropWhile_of_head ?_
        intro y hy
        exact hhead y hy
      have hend : (x :: rest).reverse.dropWhile p = (x :: rest).reverse := by
        refine dropWhile_of_head ?_
        intro y hy
        rw [List.head?_reverse] at hy
        exact hlast y hy
      rw [hkept, List.reverse_append, dropWhile_append_of_all hreverse, hend, List.reverse_reverse]

theorem exists_dropWhile (p : α → Bool) (l : List α) :
    ∃ gap, (∀ x ∈ gap, p x = true) ∧ l = gap ++ l.dropWhile p :=
  ⟨l.takeWhile p, fun _ hx => List.mem_takeWhile_imp hx, List.takeWhile_append_dropWhile.symm⟩

theorem dropWhile_head (p : α → Bool) (l : List α) : ∀ x ∈ (l.dropWhile p).head?, p x = false := by
  induction l with
  | nil =>
      intro x hx
      cases hx
  | cons y rest ih =>
      cases hy : p y with
      | true =>
          rw [List.dropWhile_cons_of_pos hy]
          exact ih
      | false =>
          rw [List.dropWhile_cons_of_neg (by rw [hy]; exact Bool.false_ne_true)]
          intro x hx
          cases hx
          exact hy

/-- A list is its trimmed part between two gaps. -/
theorem exists_trim (p : α → Bool) (l : List α) :
    ∃ before after, (∀ x ∈ before, p x = true) ∧ (∀ x ∈ after, p x = true)
      ∧ l = before ++ trim p l ++ after := by
  obtain ⟨before, hbefore, hfirst⟩ := exists_dropWhile p l
  obtain ⟨after, hafter, hsecond⟩ := exists_dropWhile p (l.dropWhile p).reverse
  refine ⟨before, after.reverse, hbefore, fun x hx => hafter x (List.mem_reverse.1 hx), ?_⟩
  have hback := congrArg List.reverse hsecond
  rw [List.reverse_reverse, List.reverse_append] at hback
  unfold trim
  rw [List.append_assoc, ← hback]
  exact hfirst

theorem trim_head (p : α → Bool) (l : List α) : ∀ x ∈ (trim p l).head?, p x = false := by
  intro x hx
  obtain ⟨after, hafter, hsecond⟩ := exists_dropWhile p (l.dropWhile p).reverse
  have hback := congrArg List.reverse hsecond
  rw [List.reverse_reverse, List.reverse_append] at hback
  refine dropWhile_head p l x ?_
  unfold trim at hx
  rw [hback, List.head?_append, hx]
  rfl

theorem trim_last (p : α → Bool) (l : List α) : ∀ x ∈ (trim p l).getLast?, p x = false := by
  intro x hx
  unfold trim at hx
  rw [List.getLast?_reverse] at hx
  exact dropWhile_head p _ x hx

theorem trim_append_gap (hgap : ∀ x ∈ gap, p x = true) (l : List α) : trim p (l ++ gap) = trim p l := by
  obtain ⟨before, after, hbefore, hafter, hl⟩ := exists_trim p l
  have hwhole : l ++ gap = before ++ trim p l ++ (after ++ gap) := by
    rw [← List.append_assoc, ← hl]
  rw [hwhole]
  refine trim_eq hbefore ?_ (trim_head p l) (trim_last p l)
  intro x hx
  rcases List.mem_append.1 hx with hx | hx
  · exact hafter x hx
  · exact hgap x hx

theorem mem_of_mem_trim {x : α} (h : x ∈ trim p l) : x ∈ l := by
  obtain ⟨before, after, -, -, hl⟩ := exists_trim p l
  rw [hl]
  exact List.mem_append_left _ (List.mem_append_right _ h)

theorem trim_congr (h : ∀ x ∈ l, p x = q x) : trim p l = trim q l := by
  obtain ⟨before, after, hbefore, hafter, hl⟩ := exists_trim q l
  have hwhole := congrArg (trim p) hl
  rw [hwhole]
  refine trim_eq ?_ ?_ ?_ ?_
  · intro x hx
    rw [h x (hl ▸ List.mem_append_left _ (List.mem_append_left _ hx))]
    exact hbefore x hx
  · intro x hx
    rw [h x (hl ▸ List.mem_append_right _ hx)]
    exact hafter x hx
  · intro x hx
    rw [h x (mem_of_mem_trim (List.mem_of_mem_head? hx))]
    exact trim_head q l x hx
  · intro x hx
    rw [h x (mem_of_mem_trim (List.mem_of_getLast? hx))]
    exact trim_last q l x hx

/-! ### Cutting -/

theorem split_append_cons (before after : List α) {x : α} (hx : p x = true) :
    split p (before ++ x :: after) = split p before ++ split p after := by
  unfold split
  rw [List.splitOnP_append_cons before after hx, List.filter_append]

@[simp]
theorem split_nil : split p [] = [] := rfl

theorem split_word (hne : word ≠ []) (hword : ∀ x ∈ word, p x = false) : split p word = [word] := by
  unfold split
  rw [List.splitOnP_eq_singleton hword]
  simp [hne]

theorem split_gap_append (hgap : ∀ x ∈ gap, p x = true) (l : List α) :
    split p (gap ++ l) = split p l := by
  induction gap with
  | nil => rfl
  | cons x rest ih =>
      have hhead := split_append_cons (p := p) [] (rest ++ l) (hgap x List.mem_cons_self)
      rw [List.nil_append, split_nil, List.nil_append] at hhead
      rw [List.cons_append, hhead]
      exact ih fun y hy => hgap y (List.mem_cons_of_mem x hy)

theorem split_gap (hgap : ∀ x ∈ gap, p x = true) : split p gap = [] := by
  have h := split_gap_append hgap []
  rw [List.append_nil] at h
  exact h

theorem split_append_gap (hgap : ∀ x ∈ gap, p x = true) (l : List α) :
    split p (l ++ gap) = split p l := by
  cases gap with
  | nil => rw [List.append_nil]
  | cons x rest =>
      rw [split_append_cons l rest (hgap x List.mem_cons_self),
        split_gap fun y hy => hgap y (List.mem_cons_of_mem x hy), List.append_nil]

theorem split_trim (p : α → Bool) (l : List α) : split p (trim p l) = split p l := by
  obtain ⟨before, after, hbefore, hafter, hl⟩ := exists_trim p l
  have hwhole := congrArg (split p) hl
  rw [hwhole, List.append_assoc, split_gap_append hbefore, split_append_gap hafter]

theorem split_congr (h : ∀ x ∈ l, p x = q x) : split p l = split q l := by
  have hparts : l.splitOnP p = l.splitOnP q := by
    induction l with
    | nil => rfl
    | cons x rest ih =>
        rw [List.splitOnP_cons_eq_if_modifyHead, List.splitOnP_cons_eq_if_modifyHead,
          ih fun y hy => h y (List.mem_cons_of_mem x hy), h x List.mem_cons_self]
  unfold split
  rw [hparts]

/-- `*( 1*separator word ) *separator`, and its words. -/
inductive Separated (p : α → Bool) : List α → List (List α) → Prop
  | gap {gap : List α} (hgap : ∀ x ∈ gap, p x = true) : Separated p gap []
  | word {gap word rest : List α} {words : List (List α)} (hne : gap ≠ [])
      (hgap : ∀ x ∈ gap, p x = true) (hnonempty : word ≠ []) (hword : ∀ x ∈ word, p x = false)
      (hrest : Separated p rest words) : Separated p (gap ++ word ++ rest) (word :: words)

theorem Separated.begins (h : Separated p l words) : l = [] ∨ ∃ x rest, l = x :: rest ∧ p x = true := by
  cases h with
  | gap hgap =>
      cases l with
      | nil => exact Or.inl rfl
      | cons x rest => exact Or.inr ⟨x, rest, rfl, hgap x List.mem_cons_self⟩
  | @word gap word rest words hne hgap hnonempty hword hrest =>
      cases gap with
      | nil => exact absurd rfl hne
      | cons x more => exact Or.inr ⟨x, _, rfl, hgap x List.mem_cons_self⟩

theorem split_word_append (hne : word ≠ []) (hword : ∀ x ∈ word, p x = false)
    (hbegins : l = [] ∨ ∃ x rest, l = x :: rest ∧ p x = true) :
    split p (word ++ l) = word :: split p l := by
  rcases hbegins with rfl | ⟨x, rest, rfl, hx⟩
  · rw [List.append_nil, split_word hne hword]
    rfl
  · have hrest := split_append_cons [] rest hx
    rw [List.nil_append, split_nil, List.nil_append] at hrest
    rw [split_append_cons word rest hx, split_word hne hword, hrest]
    rfl

/-- The cutting finds the words of the grammar. -/
theorem Separated.split_eq (h : Separated p l words) : split p l = words := by
  induction h with
  | gap hgap => exact split_gap hgap
  | word hne hgap hnonempty hword hrest ih =>
      rw [List.append_assoc, split_gap_append hgap,
        split_word_append hnonempty hword hrest.begins, ih]

/-- A list that is empty or begins with a separator fits the grammar. -/
theorem separated_split (hbegins : l = [] ∨ ∃ x rest, l = x :: rest ∧ p x = true) :
    Separated p l (split p l) := by
  induction hlength : l.length using Nat.strongRecOn generalizing l with
  | ind n ih =>
      obtain ⟨gap, hgap, hl⟩ := exists_dropWhile p l
      cases hafter : l.dropWhile p with
      | nil =>
          rw [hafter, List.append_nil] at hl
          have hall : ∀ x ∈ l, p x = true := hl ▸ hgap
          rw [split_gap hall]
          exact .gap hall
      | cons first more =>
          have hgapne : gap ≠ [] := by
            rintro rfl
            rw [List.nil_append] at hl
            rcases hbegins with rfl | ⟨x, rest, rfl, hx⟩
            · cases hafter
            · have hhead := dropWhile_head p (x :: rest) x (by rw [← hl]; rfl)
              rw [hx] at hhead
              cases hhead
          -- the next word, and what is left behind it
          have hcut := List.takeWhile_append_dropWhile (p := fun x => !p x) (l := first :: more)
          have hfirst : p first = false := dropWhile_head p l first (by rw [hafter]; rfl)
          have hnonempty : (first :: more).takeWhile (fun x => !p x) ≠ [] := by
            rw [List.takeWhile_cons_of_pos (by rw [hfirst]; rfl)]
            exact List.cons_ne_nil _ _
          have hword : ∀ x ∈ (first :: more).takeWhile (fun x => !p x), p x = false := by
            intro x hx
            have hnot := List.mem_takeWhile_imp hx
            simpa using hnot
          have hrest : (first :: more).dropWhile (fun x => !p x) = []
              ∨ ∃ x rest, (first :: more).dropWhile (fun x => !p x) = x :: rest ∧ p x = true := by
            cases hleft : (first :: more).dropWhile (fun x => !p x) with
            | nil => exact Or.inl rfl
            | cons x rest =>
                have hx := dropWhile_head (fun x => !p x) (first :: more) x (by rw [hleft]; rfl)
                exact Or.inr ⟨x, rest, rfl, by simpa using hx⟩
          generalize (first :: more).takeWhile (fun x => !p x) = word at hcut hnonempty hword
          generalize (first :: more).dropWhile (fun x => !p x) = rest at hcut hrest
          rw [hafter, ← hcut, ← List.append_assoc] at hl
          have hlater : rest.length < n := by
            have hsum := congrArg List.length hl
            have hpositive := List.length_pos_iff.2 hgapne
            simp only [List.length_append] at hsum
            omega
          have hseparated := ih rest.length hlater hrest rfl
          rw [hl, List.append_assoc, split_gap_append hgap,
            split_word_append hnonempty hword hrest, ← List.append_assoc]
          exact .word hgapne hgap hnonempty hword hseparated

end Words
