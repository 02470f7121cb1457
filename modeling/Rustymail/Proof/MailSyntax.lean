import Rustymail.Proof.CommandLemmas

/-!
# Which lines are MAIL

`parse_command` and the grammar of MAIL agree on every line, and a session compares a SIZE as an
unbounded number.
-/

namespace Rustymail.Server

open Checked

variable {line : Text} {sender : Option Address} {size : Option Nat} {body : Option Body}

/-- A line of the grammar, cut at its last byte that is not a blank. -/
theorem mailLine_parts {verb gap keyword tail : Text} {words : List Text} (path : Text)
    (hverb : lowercase verb = lowercase (ascii "MAIL")) (hgap : gap ≠ []) (hblank : ∀ b ∈ gap, b = 32)
    (hkeyword : lowercase keyword = lowercase (ascii "FROM:"))
    (htail : Words.Separated (· == 32) tail words) :
    ∃ suffix, verbOf (verb ++ gap ++ keyword ++ 60 :: path ++ 62 :: tail) = verb
      ∧ trimSpaces (restOf (verb ++ gap ++ keyword ++ 60 :: path ++ 62 :: tail))
        = keyword ++ 60 :: path ++ 62 :: suffix
      ∧ (suffix = [] ∨ suffix.head? = some 32) ∧ Words.split (· == 32) suffix = words
      ∧ ∀ b ∈ suffix, b ∈ tail := by
  obtain ⟨suffix, after, rfl, hafter, hlast⟩ := exists_trailing tail
  cases gap with
  | nil => exact absurd rfl hgap
  | cons blank more =>
      obtain rfl := hblank blank List.mem_cons_self
      have hclean : (32 : UInt8) ∉ verb := notMem_of_lowercase hverb (by decide) (by decide)
      have hword : (32 : UInt8) ∉ keyword := notMem_of_lowercase hkeyword (by decide) (by decide)
      have hmore : ∀ b ∈ more, (b == 32) = true := by
        intro b hb
        rw [beq_iff_eq]
        exact hblank b (List.mem_cons_of_mem _ hb)
      have hline : verb ++ 32 :: more ++ keyword ++ 60 :: path ++ 62 :: (suffix ++ after)
          = verb ++ 32 :: (more ++ (keyword ++ 60 :: path ++ 62 :: suffix) ++ after) := by
        simp only [List.append_assoc, List.cons_append]
      obtain ⟨hfirst, hrest⟩ :=
        verbOf_append hclean (more ++ (keyword ++ 60 :: path ++ 62 :: suffix) ++ after)
      refine ⟨suffix, ?_, ?_, ?_, ?_, fun b hb => List.mem_append_left _ hb⟩
      · rw [hline, hfirst]
      · rw [hline, hrest]
        refine Words.trim_eq hmore hafter ?_ ?_
        · intro b hb
          cases keyword with
          | nil => cases hkeyword
          | cons k ks =>
              cases hb
              rw [beq_eq_false_iff_ne]
              rintro rfl
              exact hword List.mem_cons_self
        · intro b hb
          rw [List.getLast?_append] at hb
          cases hsuffix : suffix with
          | nil =>
              rw [hsuffix] at hb
              cases hb
              rfl
          | cons s ss =>
              rw [hsuffix, List.getLast?_cons_cons] at hb
              refine hlast b ?_
              rw [hsuffix]
              rw [List.getLast?_eq_some_getLast (List.cons_ne_nil s ss)] at hb ⊢
              exact hb
      · rcases htail.begins with hnone | ⟨x, rest, hx, hblank⟩
        · exact Or.inl (List.append_eq_nil_iff.1 hnone).1
        · cases suffix with
          | nil => exact Or.inl rfl
          | cons s ss =>
              cases hx
              rw [beq_iff_eq] at hblank
              rw [hblank]
              exact Or.inr rfl
      · rw [← htail.split_eq, Words.split_append_gap hafter]

theorem parseCommand_of_mailLine {digits : Option Text} (hprintable : Printable line)
    (h : MailLine line sender digits body) :
    parseCommand line = .ok (.mail sender (digits.map boundedNumber) body) := by
  obtain ⟨verb, gap, keyword, path, tail, words, rfl, hverb, hgap, hblank, hkeyword, hclean, hpath,
    htail, hwords⟩ := h
  obtain ⟨suffix, hfirst, hargs, hbegins, hsplit, hmem⟩ :=
    mailLine_parts path hverb hgap hblank hkeyword htail
  have hsuffix : Printable (trimSpaces suffix) := by
    intro b hb
    refine hprintable b (List.mem_append_right _ (List.mem_cons_of_mem _ (hmem b ?_)))
    obtain ⟨before, after, -, -, hparts⟩ := Words.exists_trim (· == 32) suffix
    rw [hparts]
    exact List.mem_append_left _ (List.mem_append_right _ hb)
  rw [parseCommand_mail_iff, hfirst, hargs]
  refine ⟨hprintable, hverb, parseMail_eq_ok_iff.2 ⟨path, trimSpaces suffix, ?_, hpath, ?_⟩⟩
  · exact parsePath_eq_ok_iff.2 ⟨keyword, suffix, rfl, hkeyword, hclean, hbegins, rfl⟩
  · rw [splitAsciiWhitespace_eq hsuffix]
    change (Words.split (· == 32) (Words.trim (· == 32) suffix)).foldlM _ _ = _
    rw [Words.split_trim, hsplit]
    exact parameters_iff.2 ⟨digits, hwords, rfl⟩

theorem mailLine_of_parseCommand (h : parseCommand line = .ok (.mail sender size body)) :
    Printable line ∧ ∃ digits, MailLine line sender digits body ∧ size = digits.map boundedNumber := by
  obtain ⟨hprintable, hverb, hmail⟩ := parseCommand_mail_iff.1 h
  obtain ⟨path, parameters, hpath, hsender, hadded⟩ := parseMail_eq_ok_iff.1 hmail
  obtain ⟨keyword, suffix, hargs, hkeyword, hclean, hbegins, rfl⟩ := parsePath_eq_ok_iff.1 hpath
  obtain ⟨before, after, hbefore, hafter, hrest⟩ := Words.exists_trim (· == 32) (restOf line)
  change restOf line = before ++ trimSpaces (restOf line) ++ after at hrest
  have hne : restOf line ≠ [] := by
    intro hnil
    rw [hnil] at hargs
    have hlength := congrArg List.length hargs
    simp [trimSpaces] at hlength
  have hline : line = verbOf line ++ 32 :: before ++ keyword ++ 60 :: path ++ 62 :: (suffix ++ after) := by
    calc
      line = verbOf line ++ 32 :: restOf line := verbOf_append_restOf hne
      _ = verbOf line ++ 32 :: (before ++ (keyword ++ 60 :: path ++ 62 :: suffix) ++ after) := by
        rw [hrest, hargs]
      _ = _ := by
        simp only [List.append_assoc, List.cons_append]
  have hmem : ∀ b ∈ trimSpaces suffix, b ∈ line := by
    intro b hb
    obtain ⟨front, back, -, -, hparts⟩ := Words.exists_trim (· == 32) suffix
    rw [hline]
    refine List.mem_append_right _ (List.mem_cons_of_mem _ (List.mem_append_left _ ?_))
    rw [hparts]
    exact List.mem_append_left _ (List.mem_append_right _ hb)
  rw [splitAsciiWhitespace_eq fun b hb => hprintable b (hmem b hb)] at hadded
  change (Words.split (· == 32) (Words.trim (· == 32) suffix)).foldlM _ _ = _ at hadded
  rw [Words.split_trim, ← Words.split_append_gap hafter] at hadded
  obtain ⟨digits, hwords, hsize⟩ := parameters_iff.1 hadded
  refine ⟨hprintable, digits, ⟨verbOf line, 32 :: before, keyword, path, suffix ++ after, _, hline,
    hverb, List.cons_ne_nil _ _, ?_, hkeyword, hclean, hsender, Words.separated_split ?_, hwords⟩, hsize⟩
  · intro b hb
    rcases List.mem_cons.1 hb with rfl | hb
    · rfl
    · exact beq_iff_eq.1 (hbefore b hb)
  · rcases hbegins with rfl | hhead
    · cases after with
      | nil => exact Or.inl rfl
      | cons x rest => exact Or.inr ⟨x, rest, rfl, hafter x List.mem_cons_self⟩
    · cases suffix with
      | nil => cases hhead
      | cons x rest =>
          cases hhead
          exact Or.inr ⟨32, rest ++ after, rfl, rfl⟩

/-- A session of EHLO refuses a SIZE for being too large when its number is above the limit. -/
theorem apply_mail_too_large {session : Session} {digits : Text} (hgreeting : session.greeting.isSome)
    (hextended : session.extended = true) (hlimit : session.maxMessageBytes < 2 ^ 64 - 1) :
    (∃ text, (session.apply (.mail sender (some (boundedNumber digits)) body)).2 = .reply ⟨552, text⟩)
      ↔ session.maxMessageBytes < decimalNumber digits := by
  have hnone : ¬ session.greeting.isNone = true := by
    rw [Bool.not_eq_true, Option.isNone_eq_false_iff]
    exact hgreeting
  have hnumber : session.maxMessageBytes < boundedNumber digits ↔
      session.maxMessageBytes < decimalNumber digits := by
    change session.maxMessageBytes < min (decimalNumber digits) (2 ^ 64 - 1) ↔ _
    omega
  unfold Session.apply Session.mail
  dsimp only
  rw [if_neg hnone, if_neg (by simp [hextended])]
  rw [← hnumber]
  constructor
  · rintro ⟨text, h⟩
    split_ifs at h with hlarge
    · simpa using hlarge
    · cases h
  · intro hlarge
    rw [if_pos (by simpa using hlarge)]
    exact ⟨_, rfl⟩

/-- **MAIL is parsed by its grammar.** `parse_command` makes a MAIL of exactly the printable lines
of the grammar, with the sender, the number and the encoding they name; and a session after EHLO
refuses the SIZE of such a line for being too large when, as an unbounded number, it is above the
limit. -/
theorem mail_grammar :
    (∀ (line : Text) (sender : Option Address) (size : Option Nat) (body : Option Body),
      parseCommand line = .ok (.mail sender size body) ↔
        Printable line ∧ ∃ digits, MailLine line sender digits body
          ∧ size = digits.map fun digits => min (decimalNumber digits) (2 ^ 64 - 1))
      ∧ ∀ (session : Session) (line digits : Text) (sender : Option Address) (body : Option Body),
        session.greeting.isSome → session.extended = true → session.maxMessageBytes < 2 ^ 64 - 1 →
        Printable line → MailLine line sender (some digits) body →
        ∃ command, parseCommand line = .ok command
          ∧ ((∃ text, (session.apply command).2 = .reply ⟨552, text⟩) ↔
            session.maxMessageBytes < decimalNumber digits) := by
  refine ⟨fun line sender size body => ⟨mailLine_of_parseCommand, ?_⟩, ?_⟩
  · rintro ⟨hprintable, digits, hline, rfl⟩
    exact parseCommand_of_mailLine hprintable hline
  · intro session line digits sender body hgreeting hextended hlimit hprintable hline
    exact ⟨_, parseCommand_of_mailLine hprintable hline,
      apply_mail_too_large hgreeting hextended hlimit⟩

/-- A limit of a thousand bytes and a SIZE of twenty digits that no `u64` holds. -/
theorem mail_grammar_oversized :
    ∃ command, parseCommand (ascii "mail  from:<> SIZE=99999999999999999999 ") = .ok command
      ∧ ((∃ text, ((⟨some (ascii "client"), true, none, 1000, 10⟩ : Session).apply command).2
          = .reply ⟨552, text⟩) ↔ 1000 < decimalNumber (ascii "99999999999999999999")) := by
  refine mail_grammar.2 ⟨some (ascii "client"), true, none, 1000, 10⟩ _ _ none none rfl rfl
    (by decide) (printable_iff.2 (by decide +kernel)) ?_
  refine ⟨ascii "mail", ascii "  ", ascii "from:", [], ascii " SIZE=99999999999999999999 ",
    [ascii "SIZE=99999999999999999999"], by decide, by decide, by decide, by decide +kernel,
    by decide +kernel, by decide +kernel, rfl, ?_, [ascii "SIZE=99999999999999999999"], [], .refl _, ?_, rfl⟩
  · exact @Words.Separated.word _ (· == 32) (ascii " ") (ascii "SIZE=99999999999999999999")
      (ascii " ") [] (by decide) (by decide +kernel) (by decide +kernel) (by decide +kernel)
      (.gap (by decide +kernel))
  · exact ⟨_, rfl, ascii "SIZE", by decide +kernel, by decide +kernel, by decide +kernel,
      by decide +kernel, by decide +kernel⟩

end Rustymail.Server
