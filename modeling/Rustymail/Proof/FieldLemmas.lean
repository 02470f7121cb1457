import Rustymail.Proof.CommandLemmas
import Rustymail.Proof.Transparency
import Rustymail.Protocol.Fields

/-!
# The header filter on fields

The filter remembers three booleans; what it keeps is a matter of whole fields.
-/

namespace Rustymail

open Server

/-! ### Lines -/

theorem stripCrlf_line (line : Text) : stripCrlf (line ++ crlf) = some line := by
  unfold stripCrlf
  rw [if_pos (isSuffixOf_crlf line), List.length_append]
  congr 1
  exact List.take_left

theorem splitColon_eq_some {line name value : Text} (h : splitColon line = some (name, value)) :
    line = name ++ 58 :: value ∧ 58 ∉ name := by
  induction line generalizing name with
  | nil => cases h
  | cons b rest ih =>
      rw [splitColon] at h
      split_ifs at h with hcolon
      · cases h
        rw [hcolon]
        exact ⟨rfl, List.not_mem_nil⟩
      · obtain ⟨⟨before, after⟩, hcut, heq⟩ := Option.map_eq_some_iff.1 h
        cases heq
        obtain ⟨hrest, hclean⟩ := ih hcut
        refine ⟨by rw [hrest]; rfl, ?_⟩
        intro hmem
        rcases List.mem_cons.1 hmem with heq | hmem
        · exact hcolon heq.symm
        · exact hclean hmem

theorem splitColon_append {name : Text} (hclean : 58 ∉ name) (value : Text) :
    splitColon (name ++ 58 :: value) = some (name, value) := by
  induction name with
  | nil => rfl
  | cons b rest ih =>
      rw [List.mem_cons, not_or] at hclean
      rw [List.cons_append, splitColon, if_neg (Ne.symm hclean.1), ih hclean.2]
      rfl

/-- The name and the value of a line, as they are cut at the first colon. -/
theorem fieldName_append {name : Text} (hclean : 58 ∉ name) (value : Text) :
    fieldName (name ++ 58 :: value) = name ∧ fieldValue (name ++ 58 :: value) = value := by
  have hall : ∀ b ∈ name, (b != 58) = true := by
    intro b hb
    rw [bne_iff_ne]
    rintro rfl
    exact hclean hb
  have hstop : ∀ x ∈ (58 :: value : Text).head?, (x != 58) = false := by
    rintro x ⟨⟩
    rfl
  unfold fieldName fieldValue
  rw [List.takeWhile_append_of_pos hall, List.takeWhile_cons_of_neg (by decide), List.append_nil,
    Words.dropWhile_append_of_all hall, Words.dropWhile_of_head hstop]
  exact ⟨rfl, rfl⟩

theorem headerBytes_iff {line : Text} :
    (∀ b ∈ line, (32 ≤ b ∧ b ≤ 126) ∨ b = 9)
      ↔ ¬ (isAscii line = false ∨ (line.any fun b => isAsciiControl b && b != 9) = true) := by
  have hbyte : ∀ b : UInt8,
      ((32 ≤ b ∧ b ≤ 126) ∨ b = 9) ↔ (b < 128 ∧ (isAsciiControl b && b != 9) = false) := by
    intro b
    unfold isAsciiControl
    simp only [Bool.and_eq_false_iff, Bool.or_eq_false_iff, decide_eq_false_iff_not,
      beq_eq_false_iff_ne, bne_eq_false_iff_eq]
    simp only [UInt8.le_iff_toNat_le, UInt8.lt_iff_toNat_lt, ne_eq, ← UInt8.toNat_inj]
    simp only [UInt8.reduceToNat]
    omega
  unfold isAscii
  rw [not_or, Bool.not_eq_false, Bool.not_eq_true, List.all_eq_true, List.any_eq_false]
  constructor
  · intro h
    refine ⟨fun b hb => decide_eq_true ((hbyte b).1 (h b hb)).1, fun b hb => ?_⟩
    rw [((hbyte b).1 (h b hb)).2]
    exact Bool.false_ne_true
  · rintro ⟨hascii, hcontrol⟩ b hb
    exact (hbyte b).2 ⟨of_decide_eq_true (hascii b hb), Bool.eq_false_iff.2 (hcontrol b hb)⟩

theorem continuation_iff {line : Text} :
    continuation line = true ↔ (line.head? = some 32 ∨ line.head? = some 9) := by
  unfold continuation
  rw [Bool.or_eq_true, beq_iff_eq, beq_iff_eq]

/-- What a line that does not continue a field must be. -/
theorem beginsField_iff {line : Text} :
    BeginsField line ↔ ∃ name value, splitColon line = some (name, value)
      ∧ ¬ (name = [] ∨ (name.all fun b => 33 ≤ b && b ≤ 126) = false) := by
  have hname : ∀ name : Text, (name ≠ [] ∧ ∀ b ∈ name, 33 ≤ b ∧ b ≤ 126)
      ↔ ¬ (name = [] ∨ (name.all fun b => 33 ≤ b && b ≤ 126) = false) := by
    intro name
    rw [not_or, Bool.not_eq_false, List.all_eq_true]
    simp only [Bool.and_eq_true, decide_eq_true_eq]
  constructor
  · rintro ⟨name, rest, rfl, hne, hclean, hbytes⟩
    exact ⟨name, rest, splitColon_append hclean rest, (hname name).1 ⟨hne, hbytes⟩⟩
  · rintro ⟨name, value, hcut, hgood⟩
    obtain ⟨rfl, hclean⟩ := splitColon_eq_some hcut
    obtain ⟨hne, hbytes⟩ := (hname name).2 hgood
    exact ⟨name, value, rfl, hne, hclean, hbytes⟩

/-! ### One line -/

namespace HeaderFilter

variable {filter filter' : HeaderFilter} {line : Text} {lines : List Text} {kept : List Text}

/-- A line that `retain` lets through after others of this kind. -/
structure Fits (seen : Bool) (line : Text) : Prop where
  printable : ∀ b ∈ line, (32 ≤ b ∧ b ≤ 126) ∨ b = 9
  starts : continuation line = true → seen = true
  begins : continuation line = false → BeginsField line

/-- The filter behind a line. -/
def behind (filter : HeaderFilter) (line : Text) : HeaderFilter :=
  if continuation line then filter
  else { filter with fieldSeen := true, removing := !keeps filter.removeBcc line }

/-- **One line through the filter.** -/
theorem retain_eq_some_iff {kept : Bool} :
    filter.retain (line ++ crlf) = some (filter', kept) ↔ Fits filter.fieldSeen line
      ∧ filter' = filter.behind line ∧ kept = !(filter.behind line).removing := by
  unfold retain
  rw [stripCrlf_line]
  dsimp only
  by_cases hbytes : isAscii line = false ∨ (line.any fun b => isAsciiControl b && b != 9) = true
  · rw [if_pos hbytes]
    constructor
    · intro h
      cases h
    · rintro ⟨hfits, -⟩
      exact absurd hbytes (headerBytes_iff.1 hfits.printable)
  rw [if_neg hbytes]
  have hprintable := headerBytes_iff.2 hbytes
  by_cases hcontinues : line.head? = some 32 ∨ line.head? = some 9
  · have hmore : continuation line = true := continuation_iff.2 hcontinues
    have hbehind : filter.behind line = filter := by
      unfold behind
      rw [if_pos hmore]
    rw [if_pos hcontinues, hbehind]
    cases hseen : filter.fieldSeen with
    | false =>
        constructor
        · intro h
          cases h
        · rintro ⟨hfits, -⟩
          cases hfits.starts hmore
    | true =>
        rw [if_pos rfl, Option.some.injEq, Prod.mk.injEq]
        constructor
        · rintro ⟨rfl, rfl⟩
          refine ⟨⟨hprintable, fun _ => rfl, ?_⟩, rfl, rfl⟩
          intro hbegins
          rw [hmore] at hbegins
          cases hbegins
        · rintro ⟨-, rfl, rfl⟩
          exact ⟨rfl, rfl⟩
  · have hbegins : continuation line = false := by
      rw [← Bool.not_eq_true, continuation_iff]
      exact hcontinues
    rw [if_neg hcontinues]
    cases hcut : splitColon line with
    | none =>
        constructor
        · intro h
          cases h
        · rintro ⟨hfits, -⟩
          obtain ⟨name, value, hfound, -⟩ := beginsField_iff.1 (hfits.begins hbegins)
          rw [hcut] at hfound
          cases hfound
    | some cut =>
        obtain ⟨name, value⟩ := cut
        dsimp only
        by_cases hname : name = [] ∨ (name.all fun b => 33 ≤ b && b ≤ 126) = false
        · rw [if_pos hname]
          constructor
          · intro h
            cases h
          · rintro ⟨hfits, -⟩
            obtain ⟨other, rest, hfound, hgood⟩ := beginsField_iff.1 (hfits.begins hbegins)
            rw [hcut] at hfound
            cases hfound
            exact absurd hname hgood
        · obtain ⟨hline, hclean⟩ := splitColon_eq_some hcut
          have hfield : fieldName line = name := by
            rw [hline]
            exact (fieldName_append hclean value).1
          have hkeeps : keeps filter.removeBcc line
              = !(eqIgnoreAsciiCase name (ascii "Return-Path")
                || (filter.removeBcc && (eqIgnoreAsciiCase name (ascii "Bcc")
                  || eqIgnoreAsciiCase name (ascii "Resent-Bcc")))) := by
            unfold keeps named
            rw [hfield]
          have hbehind : filter.behind line
              = { filter with fieldSeen := true, removing := !keeps filter.removeBcc line } := by
            unfold behind
            rw [if_neg (by rw [hbegins]; exact Bool.false_ne_true)]
          rw [if_neg hname, hbehind, hkeeps, Bool.not_not, Option.some.injEq, Prod.mk.injEq]
          constructor
          · rintro ⟨rfl, rfl⟩
            refine ⟨⟨hprintable, ?_, fun _ => beginsField_iff.2 ⟨name, value, hcut, hname⟩⟩, rfl, rfl⟩
            intro hmore
            rw [hbegins] at hmore
            cases hmore
          · rintro ⟨-, rfl, rfl⟩
            exact ⟨rfl, rfl⟩

theorem behind_removeBcc (filter : HeaderFilter) (line : Text) :
    (filter.behind line).removeBcc = filter.removeBcc := by
  unfold behind
  split_ifs
  · rfl
  · rfl

theorem Fits.seen (h : Fits filter.fieldSeen line) : (filter.behind line).fieldSeen = true := by
  unfold behind
  split_ifs with hcontinues
  · exact h.starts hcontinues
  · rfl

/-! ### All lines -/

/-- Every line fits behind the ones before it. -/
def AllFit : (seen : Bool) → List Text → Prop
  | _, [] => True
  | seen, line :: rest => Fits seen line ∧ AllFit true rest

theorem allFit_true_iff : AllFit true lines ↔ ∀ line ∈ lines, Fits true line := by
  induction lines with
  | nil => exact ⟨fun _ _ h => (List.not_mem_nil h).elim, fun _ => trivial⟩
  | cons line rest ih =>
      unfold AllFit
      rw [ih, List.forall_mem_cons]

theorem wellFormedHeader_iff : WellFormedHeader lines ↔ AllFit false lines := by
  cases lines with
  | nil =>
      refine ⟨fun _ => trivial, fun _ => ⟨?_, ?_, ?_⟩⟩
      · intro line hmem
        cases hmem
      · intro line hmem
        cases hmem
      · intro line hmem
        cases hmem
  | cons line rest =>
      unfold AllFit
      rw [allFit_true_iff]
      constructor
      · intro h
        refine ⟨⟨h.printable line List.mem_cons_self, ?_, h.begins line List.mem_cons_self⟩, ?_⟩
        · intro hcontinues
          rw [h.starts line rfl] at hcontinues
          cases hcontinues
        · intro other hother
          have hmem := List.mem_cons_of_mem line hother
          exact ⟨h.printable other hmem, fun _ => rfl, h.begins other hmem⟩
      · rintro ⟨hfirst, hrest⟩
        refine ⟨?_, ?_, ?_⟩
        · intro other hother
          rcases List.mem_cons.1 hother with rfl | hother
          · exact hfirst.printable
          · exact (hrest other hother).printable
        · rintro other ⟨⟩
          rw [← Bool.not_eq_true]
          intro hcontinues
          cases hfirst.starts hcontinues
        · intro other hother
          rcases List.mem_cons.1 hother with rfl | hother
          · exact hfirst.begins
          · exact (hrest other hother).begins

theorem retainAll_cons {filter' : HeaderFilter} {kept : List Text} :
    filter.retainAll (line :: lines) = some (filter', kept) ↔
      ∃ middle keep later, filter.retain line = some (middle, keep)
        ∧ middle.retainAll lines = some (filter', later)
        ∧ kept = if keep then line :: later else later := by
  rw [retainAll]
  constructor
  · intro h
    obtain ⟨⟨middle, keep⟩, hretain, h⟩ := Option.bind_eq_some_iff.1 h
    obtain ⟨⟨last, later⟩, hlater, h⟩ := Option.bind_eq_some_iff.1 h
    cases h
    exact ⟨middle, keep, later, hretain, hlater, rfl⟩
  · rintro ⟨middle, keep, later, hretain, hlater, rfl⟩
    exact Option.bind_eq_some_iff.2 ⟨(middle, keep), hretain,
      Option.bind_eq_some_iff.2 ⟨(filter', later), hlater, rfl⟩⟩

/-- One more line. -/
theorem retainAll_snoc {middle : HeaderFilter} {keep : Bool}
    (h : filter.retainAll lines = some (middle, kept)) (hretain : middle.retain line = some (filter', keep)) :
    filter.retainAll (lines ++ [line]) = some (filter', kept ++ if keep then [line] else []) := by
  induction lines generalizing filter kept with
  | nil =>
      cases h
      exact retainAll_cons.2 ⟨filter', keep, [], hretain, rfl, rfl⟩
  | cons first rest ih =>
      obtain ⟨next, keepFirst, later, hfirst, hlater, rfl⟩ := retainAll_cons.1 h
      refine retainAll_cons.2 ⟨next, keepFirst, _, hfirst, ih hlater, ?_⟩
      cases keepFirst with
      | true => rfl
      | false => rfl

/-- **All lines through the filter.** -/
theorem retainAll_eq_some_iff :
    filter.retainAll (lines.map (· ++ crlf)) = some (filter', kept) ↔
      AllFit filter.fieldSeen lines ∧ filter' = lines.foldl behind filter
        ∧ kept = (Groups.sift continuation (keeps filter.removeBcc) (!filter.removing) lines).map
          (· ++ crlf) := by
  induction lines generalizing filter kept with
  | nil =>
      rw [List.map_nil, retainAll, Option.some.injEq, Prod.mk.injEq]
      constructor
      · rintro ⟨rfl, rfl⟩
        exact ⟨trivial, rfl, rfl⟩
      · rintro ⟨-, rfl, rfl⟩
        exact ⟨rfl, rfl⟩
  | cons line rest ih =>
      have hsift : Groups.sift continuation (keeps filter.removeBcc) (!filter.removing) (line :: rest)
          = if !(filter.behind line).removing then
              line :: Groups.sift continuation (keeps filter.removeBcc)
                (!(filter.behind line).removing) rest
            else Groups.sift continuation (keeps filter.removeBcc)
              (!(filter.behind line).removing) rest := by
        unfold behind
        cases hcontinues : continuation line with
        | true => rw [Groups.sift_continuing _ hcontinues, if_pos rfl]
        | false =>
            rw [Groups.sift_beginning _ hcontinues, if_neg Bool.false_ne_true]
            dsimp only
            rw [Bool.not_not]
      rw [List.map_cons, retainAll_cons, hsift]
      constructor
      · rintro ⟨middle, keep, later, hretain, hlater, rfl⟩
        obtain ⟨hfits, rfl, rfl⟩ := retain_eq_some_iff.1 hretain
        obtain ⟨hall, rfl, rfl⟩ := ih.1 hlater
        rw [hfits.seen] at hall
        rw [behind_removeBcc]
        refine ⟨⟨hfits, hall⟩, rfl, ?_⟩
        split_ifs
        · rfl
        · rfl
      · rintro ⟨⟨hfits, hall⟩, rfl, rfl⟩
        refine ⟨_, _, _, retain_eq_some_iff.2 ⟨hfits, rfl, rfl⟩, ih.2 ⟨?_, rfl, rfl⟩, ?_⟩
        · rw [hfits.seen]
          exact hall
        · rw [behind_removeBcc]
          split_ifs
          · rfl
          · rfl

/-- The lines that the filter of a mode keeps: those of the fields to be kept. -/
theorem retainAll_initial {submission : Bool}
    (h : (initial submission).retainAll (lines.map (· ++ crlf)) = some (filter', kept)) :
    WellFormedHeader lines
      ∧ kept = ((fields lines).filter fun field => field.head?.any (keeps submission)).flatten.map
        (· ++ crlf) := by
  obtain ⟨hall, -, hkept⟩ := retainAll_eq_some_iff.1 h
  have hwell := wellFormedHeader_iff.2 hall
  refine ⟨hwell, ?_⟩
  rw [hkept, Groups.sift_groups _ hwell.starts]
  rfl

theorem retainAll_wellFormed {submission : Bool} (h : WellFormedHeader lines) :
    ∃ filter', (initial submission).retainAll (lines.map (· ++ crlf)) = some (filter',
      (Groups.sift continuation (keeps submission) true lines).map (· ++ crlf)) :=
  ⟨_, retainAll_eq_some_iff.2 ⟨wellFormedHeader_iff.1 h, rfl, rfl⟩⟩

/-- What is kept of a header is a header. -/
theorem wellFormed_kept {submission : Bool} (h : WellFormedHeader lines) :
    WellFormedHeader (Groups.sift continuation (keeps submission) true lines) := by
  have hmem : ∀ line ∈ Groups.sift continuation (keeps submission) true lines, line ∈ lines :=
    fun line hline => Groups.mem_of_mem_sift hline
  refine ⟨fun line hline => h.printable line (hmem line hline), ?_,
    fun line hline => h.begins line (hmem line hline)⟩
  exact Groups.sift_starts h.starts

/-- **The filter keeps what it has kept.** -/
theorem retainAll_kept {submission : Bool}
    (h : (initial submission).retainAll (lines.map (· ++ crlf)) = some (filter', kept)) :
    ∃ filter'', (initial submission).retainAll kept = some (filter'', kept) := by
  obtain ⟨hall, -, rfl⟩ := retainAll_eq_some_iff.1 h
  have hwell := wellFormedHeader_iff.2 hall
  obtain ⟨filter'', hagain⟩ := retainAll_wellFormed (wellFormed_kept hwell)
  rw [Groups.sift_sift true true hwell.starts] at hagain
  exact ⟨filter'', hagain⟩

end HeaderFilter

end Rustymail
