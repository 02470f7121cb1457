import Rustymail.Proof.EnvelopeCommands
import Rustymail.Proof.FieldLemmas

/-!
# The author check on fields

The check of a submission's identity fields remembers an author and whether the field at hand is the
From field; what it demands is a matter of whole fields.
-/

namespace Rustymail.Server

variable {line : Text} {author : Address}

/-! ### Values -/

theorem ascii_of_header {text : Text} (h : ∀ b ∈ text, (32 ≤ b ∧ b ≤ 126) ∨ b = 9) :
    isAscii text = true := by
  have hgood := headerBytes_iff.1 h
  rw [not_or, Bool.not_eq_false] at hgood
  exact hgood.1

/-- The mailbox of a value: an address, or what the brackets at its end hold. -/
theorem fromMailbox_trimmed {value : Text} (hbytes : ∀ b ∈ value, (32 ≤ b ∧ b ≤ 126) ∨ b = 9) :
    ((match rsplitOnce 60 value with
      | none => some value
      | some (display, mailbox) =>
          if (display.any fun b => (ascii "<>,;:()").contains b) = true ∨ isAscii display = false then
            none
          else if mailbox.getLast? = some 62 then some mailbox.dropLast
          else none).bind Address.parse) = some author ↔ AuthorValue value author := by
  have hdisplay : ∀ display : Text, ¬ (display.any fun b => (ascii "<>,;:()").contains b) = true
      ↔ ∀ b ∈ display, b ∉ ascii "<>,;:()" := by
    intro display
    rw [Bool.not_eq_true, List.any_eq_false]
    simp only [List.contains_iff_mem]
  constructor
  · intro h
    cases hcut : rsplitOnce 60 value with
    | none =>
        rw [hcut] at h
        exact Or.inl h
    | some cut =>
        obtain ⟨display, mailbox⟩ := cut
        rw [hcut] at h
        dsimp only at h
        split_ifs at h with hbad hlast
        · cases h
        · rw [not_or] at hbad
          obtain ⟨text, rfl⟩ := List.getLast?_eq_some_iff.1 hlast
          rw [List.dropLast_concat] at h
          exact Or.inr ⟨display, text, (rsplitOnce_eq_some hcut).1, (hdisplay display).1 hbad.1, h⟩
        · cases h
  · rintro (hparse | ⟨display, text, rfl, hclean, hparse⟩)
    · have hnone : rsplitOnce 60 value = none := by
        rw [rsplitOnce_eq_none_iff]
        intro hmem
        exact (accepted_bytes (accepts_of_parse hparse) hmem).2.1 rfl
      rw [hnone]
      exact hparse
    · have hnot : 60 ∉ text ++ [62] := by
        intro hmem
        rcases List.mem_append.1 hmem with htext | hlast
        · exact (accepted_bytes (accepts_of_parse hparse) htext).2.1 rfl
        · exact absurd (List.mem_singleton.1 hlast) (by decide)
      have hgood : ¬ ((display.any fun b => (ascii "<>,;:()").contains b) = true
          ∨ isAscii display = false) := by
        rw [not_or, Bool.not_eq_false]
        exact ⟨(hdisplay display).2 hclean,
          ascii_of_header fun b hb => hbytes b (List.mem_append_left _ hb)⟩
      rw [rsplitOnce_append hnot]
      dsimp only
      rw [if_neg hgood, if_pos List.getLast?_concat, List.dropLast_concat]
      exact hparse

/-- The value of a From field, as it is cut from its line with the CRLF. -/
theorem fromMailbox_iff {value : Text} (hbytes : ∀ b ∈ value, (32 ≤ b ∧ b ≤ 126) ∨ b = 9) :
    (fromMailbox (value ++ crlf)).bind Address.parse = some author
      ↔ AuthorValue (Words.trim (fun b => b == 32 || b == 9) value) author := by
  have htrim : trim (value ++ crlf) = Words.trim (fun b => b == 32 || b == 9) value := by
    change Words.trim isTrimmed (value ++ crlf) = _
    rw [Words.trim_append_gap (by decide +kernel)]
    refine Words.trim_congr fun b hb => ?_
    have hb := hbytes b hb
    unfold isTrimmed
    rw [Bool.eq_iff_iff]
    simp only [Bool.or_eq_true, Bool.and_eq_true, decide_eq_true_eq, beq_iff_eq]
    simp only [UInt8.le_iff_toNat_le, ← UInt8.toNat_inj] at hb ⊢
    simp only [UInt8.reduceToNat] at hb ⊢
    omega
  unfold fromMailbox
  rw [htrim]
  exact fromMailbox_trimmed fun b hb => hbytes b (Words.mem_of_mem_trim hb)

/-! ### One line -/

namespace SubmissionHeaders

variable {identities after : SubmissionHeaders}

/-- A field line that the check lets through, apart from the author. -/
def Allowed (line : Text) : Prop :=
  (∀ b ∈ fieldName line, isAsciiAlphanumeric b = true ∨ b = 45) ∧ namesSender line = false

theorem head_whitespace (hbytes : ∀ b ∈ line, (32 ≤ b ∧ b ≤ 126) ∨ b = 9) (hne : line ≠ []) :
    (line ++ crlf).head?.any isAsciiWhitespace = continuation line := by
  cases line with
  | nil => exact absurd rfl hne
  | cons b rest =>
      have hb := hbytes b List.mem_cons_self
      change isAsciiWhitespace b = (some b == some 32 || some b == some 9)
      rw [Bool.eq_iff_iff]
      unfold isAsciiWhitespace
      simp only [Bool.or_eq_true, beq_iff_eq, Option.some.injEq]
      simp only [UInt8.le_iff_toNat_le, ← UInt8.toNat_inj] at hb ⊢
      simp only [UInt8.reduceToNat] at hb ⊢
      omega

/-- A continuation is allowed anywhere but in the From field. -/
theorem line_continuing (hbytes : ∀ b ∈ line, (32 ≤ b ∧ b ≤ 126) ∨ b = 9)
    (hcontinues : continuation line = true) :
    identities.line (line ++ crlf) = some after ↔ identities.identityField = false ∧ after = identities := by
  have hne : line ≠ [] := by
    rintro rfl
    cases hcontinues
  unfold SubmissionHeaders.line
  rw [if_pos ((head_whitespace hbytes hne).trans hcontinues)]
  cases identities.identityField with
  | true =>
      constructor
      · intro h
        cases h
      · rintro ⟨h, -⟩
        cases h
  | false =>
      constructor
      · intro h
        cases h
        exact ⟨rfl, rfl⟩
      · rintro ⟨-, rfl⟩
        rfl

/-- **A line that begins a field.** -/
theorem line_beginning (hbytes : ∀ b ∈ line, (32 ≤ b ∧ b ≤ 126) ∨ b = 9)
    (hstarts : continuation line = false) (hbegins : BeginsField line) :
    identities.line (line ++ crlf) = some after ↔ Allowed line
      ∧ if named "From" line then identities.author = none
          ∧ ∃ author, AuthorValue (trimmedValue line) author ∧ after = ⟨some author, true⟩
        else after = { identities with identityField := false } := by
  obtain ⟨name, value, rfl, hne, hclean, -⟩ := hbegins
  obtain ⟨hname, hvalue⟩ := fieldName_append hclean value
  have hhead : ¬ ((name ++ 58 :: value ++ crlf).head?.any isAsciiWhitespace) = true := by
    rw [head_whitespace hbytes (by simp), hstarts]
    exact Bool.false_ne_true
  have hcut : splitColon (name ++ 58 :: value ++ crlf) = some (name, value ++ crlf) := by
    rw [List.append_assoc]
    exact splitColon_append hclean (value ++ crlf)
  have hletters : ¬ (name = [] ∨ (name.any fun b => !isAsciiAlphanumeric b && b != 45) = true)
      ↔ ∀ b ∈ name, isAsciiAlphanumeric b = true ∨ b = 45 := by
    rw [not_or, Bool.not_eq_true, List.any_eq_false]
    simp only [Bool.and_eq_true, Bool.not_eq_true', bne_iff_ne, not_and_or, Bool.not_eq_false,
      not_not]
    exact ⟨fun h => h.2, fun h => ⟨hne, h⟩⟩
  unfold SubmissionHeaders.line Allowed namesSender named trimmedValue
  rw [if_neg hhead, hcut, hname, hvalue]
  dsimp only
  by_cases hbad : name = [] ∨ (name.any fun b => !isAsciiAlphanumeric b && b != 45) = true
  · rw [if_pos hbad]
    constructor
    · intro h
      cases h
    · rintro ⟨⟨hgood, -⟩, -⟩
      exact absurd hbad (hletters.2 hgood)
  rw [if_neg hbad]
  have hgood := hletters.1 hbad
  by_cases hsender : eqIgnoreAsciiCase name (ascii "Sender") = true
      ∨ eqIgnoreAsciiCase (name.take 7) (ascii "Resent-") = true
  · rw [if_pos hsender]
    constructor
    · intro h
      cases h
    · rintro ⟨⟨-, hnone⟩, -⟩
      rw [← Bool.or_eq_true, hnone] at hsender
      cases hsender
  rw [if_neg hsender]
  rw [← Bool.or_eq_true, Bool.not_eq_true] at hsender
  by_cases hfrom : eqIgnoreAsciiCase name (ascii "From") = true
  · rw [if_pos hfrom, if_pos hfrom]
    have hvalues : ∀ author, (fromMailbox (value ++ crlf)).bind Address.parse = some author
        ↔ AuthorValue (Words.trim (fun b => b == 32 || b == 9) value) author := fun author =>
      fromMailbox_iff fun b hb => hbytes b (List.mem_append_right _ (List.mem_cons_of_mem _ hb))
    cases hauthor : identities.author with
    | some author =>
        rw [Option.isSome_some, if_pos rfl]
        constructor
        · intro h
          cases h
        · rintro ⟨-, h, -⟩
          cases h
    | none =>
        rw [Option.isSome_none, if_neg Bool.false_ne_true]
        cases hparse : (fromMailbox (value ++ crlf)).bind Address.parse with
        | none =>
            constructor
            · intro h
              cases h
            · rintro ⟨-, -, author, hfound, -⟩
              rw [← hvalues, hparse] at hfound
              cases hfound
        | some author =>
            constructor
            · intro h
              cases h
              exact ⟨⟨hgood, hsender⟩, rfl, author, (hvalues author).1 hparse, rfl⟩
            · rintro ⟨-, -, other, hfound, rfl⟩
              rw [← hvalues, hparse] at hfound
              cases hfound
              rfl
  · rw [if_neg hfrom, if_neg hfrom, Option.some.injEq]
    constructor
    · rintro rfl
      exact ⟨⟨hgood, hsender⟩, rfl⟩
    · rintro ⟨-, rfl⟩
      rfl

/-! ### All lines -/

/-- All lines of a header through `line`. -/
def lines (identities : SubmissionHeaders) : List Text → Option SubmissionHeaders
  | [] => some identities
  | line :: rest => (identities.line line).bind fun identities => identities.lines rest

/-- One more line. -/
theorem lines_snoc {lines : List Text} {middle : SubmissionHeaders}
    (h : identities.lines lines = some middle) (hline : middle.line line = some after) :
    identities.lines (lines ++ [line]) = some after := by
  induction lines generalizing identities with
  | nil =>
      cases h
      rw [List.nil_append, SubmissionHeaders.lines, hline]
      rfl
  | cons first rest ih =>
      rw [SubmissionHeaders.lines] at h
      obtain ⟨next, hfirst, hrest⟩ := Option.bind_eq_some_iff.1 h
      rw [List.cons_append, SubmissionHeaders.lines, hfirst]
      exact ih hrest

/-- What the From fields make of the author before them. -/
def Froms (before : Option Address) (froms : List (List Text)) (after : Option Address) : Prop :=
  (froms = [] ∧ after = before)
    ∨ (before = none ∧ ∃ line author, froms = [[line]] ∧ AuthorValue (trimmedValue line) author
      ∧ after = some author)

abbrev fromFields (lines : List Text) : List (List Text) :=
  (fields lines).filter fun field => field.head?.any (named "From")

theorem fromFields_beginning {line : Text} (lines : List Text) (hstarts : continuation line = false) :
    fromFields (line :: lines) = if named "From" line then
        (line :: (Groups.cut continuation lines).1) :: fromFields lines
      else fromFields lines := by
  unfold fromFields fields Groups.groups
  rw [Groups.cut_beginning hstarts, List.filter_cons]
  rfl

/-- **All lines through the check**: no continuation of a From field, every field allowed, and one
author at most. -/
theorem lines_iff {result : Option Address} {lines : List Text}
    (hfit : ∀ line ∈ lines, HeaderFilter.Fits true line) :
    (∃ after : SubmissionHeaders, identities.lines (lines.map (· ++ crlf)) = some after ∧ after.author = result) ↔
      (identities.identityField = true → (Groups.cut continuation lines).1 = [])
        ∧ (∀ field ∈ fields lines, ∀ line ∈ field.head?, Allowed line)
        ∧ Froms identities.author (fromFields lines) result := by
  induction lines generalizing identities with
  | nil =>
      constructor
      · rintro ⟨after, h, rfl⟩
        cases h
        exact ⟨fun _ => rfl, fun field hfield => (List.not_mem_nil hfield).elim, Or.inl ⟨rfl, rfl⟩⟩
      · rintro ⟨-, -, ⟨-, rfl⟩ | ⟨-, line, author, hfroms, -⟩⟩
        · exact ⟨identities, rfl, rfl⟩
        · cases hfroms
  | cons line rest ih =>
      have hline := hfit line List.mem_cons_self
      have hrest := fun other hother => hfit other (List.mem_cons_of_mem line hother)
      have hcons : (∃ after : SubmissionHeaders, identities.lines ((line :: rest).map (· ++ crlf)) = some after
            ∧ after.author = result)
          ↔ ∃ middle, identities.line (line ++ crlf) = some middle
            ∧ ∃ after : SubmissionHeaders, middle.lines (rest.map (· ++ crlf)) = some after ∧ after.author = result := by
        rw [List.map_cons, SubmissionHeaders.lines]
        constructor
        · rintro ⟨after, h, hauthor⟩
          obtain ⟨middle, hmiddle, h⟩ := Option.bind_eq_some_iff.1 h
          exact ⟨middle, hmiddle, after, h, hauthor⟩
        · rintro ⟨middle, hmiddle, after, h, hauthor⟩
          exact ⟨after, Option.bind_eq_some_iff.2 ⟨middle, hmiddle, h⟩, hauthor⟩
      rw [hcons]
      cases hcontinues : continuation line with
      | true =>
          have hfields : fields (line :: rest) = fields rest := by
            unfold fields Groups.groups
            rw [Groups.cut_continuing hcontinues]
          unfold fromFields
          rw [Groups.cut_continuing hcontinues, hfields]
          constructor
          · rintro ⟨middle, hmiddle, hlater⟩
            obtain ⟨hnone, rfl⟩ := (line_continuing hline.printable hcontinues).1 hmiddle
            obtain ⟨-, hallowed, hfroms⟩ := (ih hrest).1 hlater
            refine ⟨?_, hallowed, hfroms⟩
            intro hfield
            rw [hnone] at hfield
            cases hfield
          · rintro ⟨hnone, hallowed, hfroms⟩
            have hfield : identities.identityField = false := by
              rw [← Bool.not_eq_true]
              intro hfield
              cases hnone hfield
            refine ⟨identities, (line_continuing hline.printable hcontinues).2 ⟨hfield, rfl⟩,
              (ih hrest).2 ⟨?_, hallowed, hfroms⟩⟩
            intro htrue
            rw [hfield] at htrue
            cases htrue
      | false =>
          have hfields : fields (line :: rest)
              = (line :: (Groups.cut continuation rest).1) :: fields rest := by
            unfold fields Groups.groups
            rw [Groups.cut_beginning hcontinues]
          have hall : (∀ field ∈ fields (line :: rest), ∀ first ∈ field.head?, Allowed first)
              ↔ Allowed line ∧ ∀ field ∈ fields rest, ∀ first ∈ field.head?, Allowed first := by
            rw [hfields, List.forall_mem_cons]
            refine and_congr_left fun _ => ⟨fun h => h line rfl, ?_⟩
            rintro h first ⟨⟩
            exact h
          have hstep := fun after => @line_beginning line identities after hline.printable hcontinues
            (hline.begins hcontinues)
          rw [hall, Groups.cut_beginning hcontinues, fromFields_beginning rest hcontinues]
          cases hfrom : named "From" line with
          | true =>
              simp only [hfrom, if_true] at hstep
              rw [if_pos rfl]
              constructor
              · rintro ⟨middle, hmiddle, hlater⟩
                obtain ⟨hallowed, hnone, author, hvalue, rfl⟩ := (hstep middle).1 hmiddle
                obtain ⟨hcut, hothers, hfroms⟩ := (ih hrest).1 hlater
                obtain ⟨hempty, hauthor⟩ := hfroms.resolve_right (by rintro ⟨h, -⟩; cases h)
                refine ⟨fun _ => rfl, ⟨hallowed, hothers⟩,
                  Or.inr ⟨hnone, line, author, ?_, hvalue, hauthor⟩⟩
                rw [hcut rfl, hempty]
              · rintro ⟨-, ⟨hallowed, hothers⟩, hfroms⟩
                obtain ⟨hnone, first, author, hone, hvalue, hauthor⟩ :=
                  hfroms.resolve_left (by rintro ⟨h, -⟩; cases h)
                obtain ⟨hfirst, hempty⟩ := List.cons.inj hone
                obtain ⟨rfl, hcut⟩ := List.cons.inj hfirst
                exact ⟨⟨some author, true⟩, (hstep _).2 ⟨hallowed, hnone, author, hvalue, rfl⟩,
                  (ih hrest).2 ⟨fun _ => hcut, hothers, Or.inl ⟨hempty, hauthor⟩⟩⟩
          | false =>
              simp only [hfrom, Bool.false_eq_true, if_false] at hstep
              rw [if_neg Bool.false_ne_true]
              constructor
              · rintro ⟨middle, hmiddle, hlater⟩
                obtain ⟨hallowed, rfl⟩ := (hstep middle).1 hmiddle
                obtain ⟨-, hothers, hfroms⟩ := (ih hrest).1 hlater
                exact ⟨fun _ => rfl, ⟨hallowed, hothers⟩, hfroms⟩
              · rintro ⟨-, ⟨hallowed, hothers⟩, hfroms⟩
                refine ⟨_, (hstep _).2 ⟨hallowed, rfl⟩, (ih hrest).2 ⟨?_, hothers, hfroms⟩⟩
                intro hfield
                cases hfield

end SubmissionHeaders

end Rustymail.Server
