import Rustymail.Protocol.MailGrammar
import Rustymail.Proof.ConnectionLemmas

/-!
# The parser and the grammar of MAIL

`parse_command` makes a MAIL of exactly the lines of the grammar.
-/

namespace Rustymail.Server

open Checked

/-! ### Bytes -/

theorem printable_iff {line : Text} :
    Printable line ↔ ¬ (isAscii line = false ∨ line.any isAsciiControl = true) := by
  have hbyte : ∀ b : UInt8, (32 ≤ b ∧ b ≤ 126) ↔ (b < 128 ∧ isAsciiControl b = false) := by
    intro b
    unfold isAsciiControl
    simp only [Bool.or_eq_false_iff, decide_eq_false_iff_not, beq_eq_false_iff_ne]
    simp only [UInt8.le_iff_toNat_le, UInt8.lt_iff_toNat_lt, ne_eq, ← UInt8.toNat_inj]
    simp only [UInt8.reduceToNat]
    omega
  unfold Printable isAscii
  rw [not_or, Bool.not_eq_false, Bool.not_eq_true, List.all_eq_true, List.any_eq_false]
  constructor
  · intro h
    refine ⟨fun b hb => decide_eq_true ((hbyte b).1 (h b hb)).1, fun b hb => ?_⟩
    rw [((hbyte b).1 (h b hb)).2]
    exact Bool.false_ne_true
  · rintro ⟨hascii, hcontrol⟩ b hb
    exact (hbyte b).2 ⟨of_decide_eq_true (hascii b hb), Bool.eq_false_iff.2 (hcontrol b hb)⟩

/-- A byte without case that is not in a word is not in the word in another case. -/
theorem notMem_of_lowercase {key name : Text} {b : UInt8} (h : lowercase key = lowercase name)
    (hcase : lowercaseByte b = b) (hname : b ∉ lowercase name) : b ∉ key := by
  intro hmem
  refine hname ?_
  rw [← h, ← hcase]
  exact List.mem_map_of_mem hmem

theorem lowercase_length_eq {key name : Text} (h : lowercase key = lowercase name) :
    key.length = name.length := by
  rw [← lowercase_length key, h, lowercase_length]

theorem splitOnce_eq_some_iff {separator : UInt8} {text before after : Text} :
    splitOnce separator text = some (before, after) ↔
      text = before ++ separator :: after ∧ separator ∉ before := by
  have hcut := List.takeWhile_append_dropWhile (p := (· != separator)) (l := text)
  unfold splitOnce
  constructor
  · intro h
    split_ifs at h with hmem
    obtain ⟨hbefore, hafter⟩ := Prod.mk.inj (Option.some.inj h)
    have hclean : separator ∉ before := by
      rw [← hbefore]
      intro hin
      have hne := List.mem_takeWhile_imp hin
      simp at hne
    refine ⟨?_, hclean⟩
    cases hdrop : text.dropWhile (· != separator) with
    | nil =>
        rw [hdrop, List.append_nil, hbefore] at hcut
        exact absurd hmem (hcut ▸ hclean)
    | cons b rest =>
        have hb := Words.dropWhile_head (· != separator) text b (by rw [hdrop]; rfl)
        rw [bne_eq_false_iff_eq] at hb
        rw [hdrop] at hafter hcut
        rw [← hbefore, ← hafter]
        calc
          text = text.takeWhile (· != separator) ++ b :: rest := hcut.symm
          _ = text.takeWhile (· != separator) ++ separator :: (b :: rest).tail := by
            rw [List.tail_cons, hb]
  · rintro ⟨rfl, hclean⟩
    have hall : ∀ b ∈ before, (b != separator) = true := by
      intro b hb
      rw [bne_iff_ne]
      rintro rfl
      exact hclean hb
    have hstop : ∀ x ∈ (separator :: after).head?, (x != separator) = false := by
      rintro x ⟨⟩
      exact bne_self_eq_false separator
    rw [if_pos (List.mem_append_right _ List.mem_cons_self),
      Words.dropWhile_append_of_all hall, Words.dropWhile_of_head hstop,
      List.takeWhile_append_of_pos hall, List.takeWhile_cons_of_neg (by simp), List.append_nil]
    rfl

/-! ### Paths -/

theorem parsePath_eq_ok_iff {args keyword path parameters : Text} :
    parsePath args keyword = .ok (path, parameters) ↔
      ∃ key suffix, args = key ++ 60 :: path ++ 62 :: suffix ∧ lowercase key = lowercase keyword
        ∧ 62 ∉ path ∧ (suffix = [] ∨ suffix.head? = some 32) ∧ parameters = trimSpaces suffix := by
  unfold parsePath
  constructor
  · intro h
    split_ifs at h with hkeyword
    rw [Bool.not_eq_false, eqIgnoreAsciiCase_iff] at hkeyword
    have hargs := List.take_append_drop keyword.length args
    split at h
    · next rest hdrop =>
      cases hsplit : splitOnce 62 rest with
      | none =>
          rw [hsplit] at h
          cases h
      | some cut =>
          obtain ⟨before, suffix⟩ := cut
          rw [hsplit] at h
          dsimp only at h
          split_ifs at h with hsuffix
          cases h
          obtain ⟨hrest, hclean⟩ := splitOnce_eq_some_iff.1 hsplit
          refine ⟨args.take keyword.length, suffix, ?_, hkeyword, hclean, ?_, rfl⟩
          · calc
              args = args.take keyword.length ++ args.drop keyword.length := hargs.symm
              _ = args.take keyword.length ++ (60 :: path ++ 62 :: suffix) := by
                rw [hdrop, hrest]
                rfl
              _ = args.take keyword.length ++ 60 :: path ++ 62 :: suffix := by
                rw [List.append_assoc]
          · rw [not_and_or, not_not, not_not] at hsuffix
            exact hsuffix
    · cases h
  · rintro ⟨key, suffix, rfl, hkey, hclean, hsuffix, rfl⟩
    have hlength := lowercase_length_eq hkey
    have htake : (key ++ 60 :: path ++ 62 :: suffix).take keyword.length = key := by
      rw [← hlength, List.append_assoc, List.take_left]
    have hdrop : (key ++ 60 :: path ++ 62 :: suffix).drop keyword.length
        = 60 :: (path ++ 62 :: suffix) := by
      rw [← hlength, List.append_assoc, List.drop_left]
      rfl
    rw [htake, hdrop]
    have hequal : ¬ eqIgnoreAsciiCase key keyword = false := by
      rw [Bool.not_eq_false]
      exact eqIgnoreAsciiCase_iff.2 hkey
    rw [if_neg hequal]
    have hfits : ¬ (suffix ≠ [] ∧ suffix.head? ≠ some 32) := by
      rw [not_and_or, not_not, not_not]
      exact hsuffix
    split
    · next rest hrest =>
        obtain ⟨-, rfl⟩ := List.cons.inj hrest
        rw [splitOnce_eq_some_iff.2 ⟨rfl, hclean⟩]
        dsimp only
        rw [if_neg hfits]
    · next hother => exact absurd rfl (hother _)

theorem parseReversePath_eq_ok_iff {path : Text} {sender : Option Address} :
    parseReversePath path = .ok sender ↔ ReversePath path sender := by
  unfold parseReversePath
  by_cases hpath : path = []
  · rw [if_pos hpath]
    cases sender with
    | none => exact ⟨fun _ => hpath, fun _ => rfl⟩
    | some address =>
        constructor
        · intro h
          cases h
        · rintro ⟨hne, -⟩
          exact absurd hpath hne
  · rw [if_neg hpath]
    cases hparse : Address.parse path with
    | none =>
        cases sender with
        | none => exact ⟨fun h => (by cases h), fun h => absurd h hpath⟩
        | some address =>
            constructor
            · intro h
              cases h
            · rintro ⟨-, h⟩
              rw [hparse] at h
              cases h
    | some found =>
        cases sender with
        | none => exact ⟨fun h => (by cases h), fun h => absurd h hpath⟩
        | some address =>
            constructor
            · intro h
              cases h
              exact ⟨hpath, hparse⟩
            · rintro ⟨-, h⟩
              rw [hparse] at h
              cases h
              rfl

/-! ### Parameters -/

/-- One parameter: a SIZE or a BODY that was not there before. -/
theorem add_eq_ok_iff {before after : MailParameters} {word : Text} :
    before.add word = .ok after ↔
      (∃ digits, SizeParameter word digits ∧ before.size = none
          ∧ after = { before with size := some (boundedNumber digits) })
        ∨ ∃ body, BodyParameter word body ∧ before.body = none
          ∧ after = { before with body := some body } := by
  have hkeys : lowercase (ascii "SIZE") ≠ lowercase (ascii "BODY") := by decide
  have hequals : ∀ {key : Text} {name : String}, lowercase key = lowercase (ascii name) →
      61 ∉ lowercase (ascii name) → 61 ∉ key :=
    fun h hname => notMem_of_lowercase h (by decide) hname
  unfold MailParameters.add
  constructor
  · intro h
    cases hsplit : splitOnce 61 word with
    | none =>
        rw [hsplit] at h
        cases h
    | some cut =>
        obtain ⟨key, value⟩ := cut
        obtain ⟨hword, -⟩ := splitOnce_eq_some_iff.1 hsplit
        rw [hsplit] at h
        dsimp only at h
        by_cases hsize : eqIgnoreAsciiCase key (ascii "SIZE") = true
        · rw [if_pos hsize] at h
          split_ifs at h with hbad
          cases h
          simp only [not_or, Bool.not_eq_true, Option.isSome_eq_false_iff, Option.isNone_iff_eq_none,
            Bool.not_eq_false, List.all_eq_true, not_lt] at hbad
          obtain ⟨hnone, hne, hlong, hdigits⟩ := hbad
          refine Or.inl ⟨value, ⟨key, eqIgnoreAsciiCase_iff.1 hsize, hword, ?_, hlong, ?_⟩, hnone, rfl⟩
          · exact List.length_pos_iff.2 hne
          · intro b hb
            have hdigit := hdigits b hb
            unfold isAsciiDigit at hdigit
            simpa using hdigit
        · rw [if_neg hsize] at h
          split_ifs at h with hbody hold hseven height
          · cases h
            rw [Bool.not_eq_true, Option.isSome_eq_false_iff, Option.isNone_iff_eq_none] at hold
            exact Or.inr ⟨.sevenBit, ⟨key, value, eqIgnoreAsciiCase_iff.1 hbody, hword,
              eqIgnoreAsciiCase_iff.1 hseven⟩, hold, rfl⟩
          · cases h
            rw [Bool.not_eq_true, Option.isSome_eq_false_iff, Option.isNone_iff_eq_none] at hold
            exact Or.inr ⟨.eightBitMime, ⟨key, value, eqIgnoreAsciiCase_iff.1 hbody, hword,
              eqIgnoreAsciiCase_iff.1 height⟩, hold, rfl⟩
  · rintro (⟨digits, ⟨key, hkey, rfl, hpositive, hlong, hdigits⟩, hnone, rfl⟩
      | ⟨body, ⟨key, value, hkey, rfl, hvalue⟩, hnone, rfl⟩)
    · rw [splitOnce_eq_some_iff.2 ⟨rfl, hequals hkey (by decide)⟩]
      dsimp only
      rw [if_pos (eqIgnoreAsciiCase_iff.2 hkey)]
      have hgood : ¬ (before.size.isSome ∨ digits = [] ∨ 20 < digits.length
          ∨ digits.all isAsciiDigit = false) := by
        simp only [not_or, not_lt, Bool.not_eq_false, List.all_eq_true, hnone]
        refine ⟨Bool.false_ne_true, List.length_pos_iff.1 hpositive, hlong, fun b hb => ?_⟩
        unfold isAsciiDigit
        simpa using hdigits b hb
      rw [if_neg hgood]
    · rw [splitOnce_eq_some_iff.2 ⟨rfl, hequals hkey (by decide)⟩]
      dsimp only
      have hsize : ¬ eqIgnoreAsciiCase key (ascii "SIZE") = true := by
        rw [eqIgnoreAsciiCase_iff, hkey]
        exact hkeys.symm
      have hfree : ¬ before.body.isSome = true := by
        rw [hnone]
        exact Bool.false_ne_true
      rw [if_neg hsize, if_pos (eqIgnoreAsciiCase_iff.2 hkey), if_neg hfree]
      cases body with
      | sevenBit =>
          change lowercase value = lowercase (ascii "7BIT") at hvalue
          rw [if_pos (eqIgnoreAsciiCase_iff.2 hvalue)]
      | eightBitMime =>
          change lowercase value = lowercase (ascii "8BITMIME") at hvalue
          have hseven : ¬ eqIgnoreAsciiCase value (ascii "7BIT") = true := by
            rw [eqIgnoreAsciiCase_iff, hvalue]
            decide
          rw [if_neg hseven, if_pos (eqIgnoreAsciiCase_iff.2 hvalue)]

/-- The words that set one kind of parameter, which may have been set before. -/
def Sets {α : Type} (parameter : Text → α → Prop) (before after : Option α) (words : List Text) :
    Prop :=
  (words = [] ∧ after = before)
    ∨ ∃ word value, words = [word] ∧ before = none ∧ parameter word value ∧ after = some value

/-- A SIZE with the number it comes to. -/
def SizeValue (word : Text) (size : Nat) : Prop :=
  ∃ digits, SizeParameter word digits ∧ size = boundedNumber digits

/-- **The loop over the parameters**: whatever their order, each kind is set once at most. -/
theorem foldlM_add_iff {words : List Text} {before after : MailParameters} :
    words.foldlM MailParameters.add before = .ok after ↔
      ∃ sizes bodies, words.Perm (sizes ++ bodies)
        ∧ Sets SizeValue before.size after.size sizes
        ∧ Sets BodyParameter before.body after.body bodies := by
  induction words generalizing before with
  | nil =>
      rw [List.foldlM_nil, pure_eq_ok]
      constructor
      · rintro rfl
        exact ⟨[], [], .nil, Or.inl ⟨rfl, rfl⟩, Or.inl ⟨rfl, rfl⟩⟩
      · rintro ⟨sizes, bodies, hperm, hsizes, hbodies⟩
        obtain ⟨rfl, rfl⟩ := List.append_eq_nil_iff.1 hperm.nil_eq.symm
        obtain ⟨-, hsize⟩ := hsizes.resolve_right (by rintro ⟨w, v, hw, -⟩; cases hw)
        obtain ⟨-, hbody⟩ := hbodies.resolve_right (by rintro ⟨w, v, hw, -⟩; cases hw)
        obtain ⟨size, body⟩ := before
        obtain ⟨size', body'⟩ := after
        dsimp only at hsize hbody
        rw [hsize, hbody]
  | cons word rest ih =>
      rw [List.foldlM_cons, bind_eq_ok]
      constructor
      · rintro ⟨middle, hadd, hrest⟩
        obtain ⟨sizes, bodies, hperm, hsizes, hbodies⟩ := ih.1 hrest
        rcases add_eq_ok_iff.1 hadd with
          ⟨digits, hsize, hnone, rfl⟩ | ⟨body, hbody, hnone, rfl⟩
        · rcases hsizes with ⟨rfl, hafter⟩ | ⟨w, v, -, hfree, -⟩
          · exact ⟨[word], bodies, hperm.cons word,
              Or.inr ⟨word, _, rfl, hnone, ⟨digits, hsize, rfl⟩, hafter⟩, hbodies⟩
          · cases hfree
        · rcases hbodies with ⟨rfl, hafter⟩ | ⟨w, v, -, hfree, -⟩
          · refine ⟨sizes, [word], ?_, hsizes, Or.inr ⟨word, body, rfl, hnone, hbody, hafter⟩⟩
            rw [List.append_nil] at hperm
            exact (hperm.cons word).trans (List.perm_append_singleton word sizes).symm
          · cases hfree
      · rintro ⟨sizes, bodies, hperm, hsizes, hbodies⟩
        rcases List.mem_append.1 (hperm.mem_iff.1 List.mem_cons_self) with hword | hword
        · obtain ⟨w, value, rfl, hnone, ⟨digits, hsize, rfl⟩, hafter⟩ :=
            hsizes.resolve_left (by rintro ⟨rfl, -⟩; cases hword)
          obtain rfl := List.mem_singleton.1 hword
          refine ⟨_, add_eq_ok_iff.2 (Or.inl ⟨digits, hsize, hnone, rfl⟩),
            ih.2 ⟨[], bodies, hperm.cons_inv, Or.inl ⟨rfl, hafter⟩, hbodies⟩⟩
        · obtain ⟨w, value, rfl, hnone, hbody, hafter⟩ :=
            hbodies.resolve_left (by rintro ⟨rfl, -⟩; cases hword)
          obtain rfl := List.mem_singleton.1 hword
          refine ⟨_, add_eq_ok_iff.2 (Or.inr ⟨value, hbody, hnone, rfl⟩),
            ih.2 ⟨sizes, [], ?_, hsizes, Or.inl ⟨rfl, hafter⟩⟩⟩
          rw [List.append_nil]
          exact (hperm.trans (List.perm_append_singleton word sizes)).cons_inv

theorem sets_none_iff {α : Type} {parameter : Text → α → Prop} {after : Option α}
    {words : List Text} :
    Sets parameter none after words ↔ AtMostOne parameter words after := by
  unfold Sets
  cases after with
  | none =>
      constructor
      · rintro (⟨hnone, -⟩ | ⟨word, value, -, -, -, hafter⟩)
        · exact hnone
        · cases hafter
      · intro hnone
        exact Or.inl ⟨hnone, rfl⟩
  | some value =>
      constructor
      · rintro (⟨-, hafter⟩ | ⟨word, found, hone, -, hfound, hafter⟩)
        · cases hafter
        · cases hafter
          exact ⟨word, hone, hfound⟩
      · rintro ⟨word, hone, hword⟩
        exact Or.inr ⟨word, value, hone, rfl, hword, rfl⟩

theorem parameters_iff {words : List Text} {size : Option Nat} {body : Option Body} :
    words.foldlM MailParameters.add {} = .ok ⟨size, body⟩ ↔
      ∃ digits, Parameters words digits body ∧ size = digits.map boundedNumber := by
  rw [foldlM_add_iff]
  constructor
  · rintro ⟨sizes, bodies, hperm, hsizes, hbodies⟩
    have hbody := sets_none_iff.1 hbodies
    have hsize := sets_none_iff.1 hsizes
    cases size with
    | none => exact ⟨none, ⟨sizes, bodies, hperm, hsize, hbody⟩, rfl⟩
    | some value =>
        obtain ⟨word, hone, digits, hdigits, rfl⟩ := hsize
        exact ⟨some digits, ⟨sizes, bodies, hperm, ⟨word, hone, hdigits⟩, hbody⟩, rfl⟩
  · rintro ⟨digits, ⟨sizes, bodies, hperm, hsizes, hbodies⟩, rfl⟩
    refine ⟨sizes, bodies, hperm, sets_none_iff.2 ?_, sets_none_iff.2 hbodies⟩
    cases digits with
    | none => exact hsizes
    | some digits =>
        obtain ⟨word, hone, hword⟩ := hsizes
        exact ⟨word, hone, digits, hword, rfl⟩

/-! ### The line -/

theorem parseMail_eq_ok_iff {args : Text} {sender : Option Address} {size : Option Nat}
    {body : Option Body} :
    parseMail args = .ok (.mail sender size body) ↔
      ∃ path parameters, parsePath args (ascii "FROM:") = .ok (path, parameters)
        ∧ ReversePath path sender
        ∧ (splitAsciiWhitespace parameters).foldlM MailParameters.add {} = .ok ⟨size, body⟩ := by
  unfold parseMail
  rw [bind_eq_ok]
  constructor
  · rintro ⟨⟨path, parameters⟩, hpath, h⟩
    obtain ⟨found, hfound, h⟩ := bind_eq_ok.1 h
    obtain ⟨⟨size', body'⟩, hadded, h⟩ := bind_eq_ok.1 h
    cases h
    exact ⟨path, parameters, hpath, parseReversePath_eq_ok_iff.1 hfound, hadded⟩
  · rintro ⟨path, parameters, hpath, hsender, hadded⟩
    refine ⟨(path, parameters), hpath, bind_eq_ok.2 ⟨sender, parseReversePath_eq_ok_iff.2 hsender, ?_⟩⟩
    exact bind_eq_ok.2 ⟨⟨size, body⟩, hadded, rfl⟩

theorem parseCommand_mail_iff {line : Text} {sender : Option Address} {size : Option Nat}
    {body : Option Body} :
    parseCommand line = .ok (.mail sender size body) ↔
      Printable line ∧ lowercase (verbOf line) = lowercase (ascii "MAIL")
        ∧ parseMail (trimSpaces (restOf line)) = .ok (.mail sender size body) := by
  rw [printable_iff, ← eqIgnoreAsciiCase_iff]
  constructor
  · intro h
    have hverb := (parseCommand_mail h).2 ⟨sender, size, body, rfl⟩
    unfold parseCommand at h
    by_cases hbad : isAscii line = false ∨ line.any isAsciiControl = true
    · rw [if_pos hbad] at h
      cases h
    refine ⟨hbad, hverb, ?_⟩
    have hehlo : ¬ eqIgnoreAsciiCase (verbOf line) (ascii "EHLO") = true := by
      rw [isVerb_congr hverb]
      decide
    have hhelo : ¬ eqIgnoreAsciiCase (verbOf line) (ascii "HELO") = true := by
      rw [isVerb_congr hverb]
      decide
    rw [if_neg hbad] at h
    dsimp only at h
    rw [if_neg hehlo, if_neg hhelo, if_pos hverb] at h
    exact h
  · rintro ⟨hgood, hverb, hmail⟩
    have hehlo : ¬ eqIgnoreAsciiCase (verbOf line) (ascii "EHLO") = true := by
      rw [isVerb_congr hverb]
      decide
    have hhelo : ¬ eqIgnoreAsciiCase (verbOf line) (ascii "HELO") = true := by
      rw [isVerb_congr hverb]
      decide
    unfold parseCommand
    rw [if_neg hgood]
    dsimp only
    rw [if_neg hehlo, if_neg hhelo, if_pos hverb]
    exact hmail

/-- A verb and what the first space cuts off from it. -/
theorem verbOf_append {verb : Text} (hverb : 32 ∉ verb) (rest : Text) :
    verbOf (verb ++ 32 :: rest) = verb ∧ restOf (verb ++ 32 :: rest) = rest := by
  have hall : ∀ b ∈ verb, (b != 32) = true := by
    intro b hb
    rw [bne_iff_ne]
    rintro rfl
    exact hverb hb
  have hstop : ∀ x ∈ (32 :: rest : Text).head?, (x != 32) = false := by
    rintro x ⟨⟩
    rfl
  unfold verbOf restOf
  rw [List.takeWhile_append_of_pos hall, List.takeWhile_cons_of_neg (by decide), List.append_nil,
    Words.dropWhile_append_of_all hall, Words.dropWhile_of_head hstop]
  exact ⟨rfl, rfl⟩

theorem verbOf_append_restOf {line : Text} (h : restOf line ≠ []) :
    line = verbOf line ++ 32 :: restOf line := by
  have hcut := List.takeWhile_append_dropWhile (p := fun b : UInt8 => b != 32) (l := line)
  unfold restOf at h ⊢
  unfold verbOf
  cases hdrop : line.dropWhile (· != 32) with
  | nil =>
      rw [hdrop] at h
      exact absurd rfl h
  | cons b rest =>
      have hb := Words.dropWhile_head (· != 32) line b (by rw [hdrop]; rfl)
      rw [bne_eq_false_iff_eq] at hb
      rw [hdrop, hb] at hcut
      exact hcut.symm

/-- The blanks at the end of a text apart. -/
theorem exists_trailing (text : Text) :
    ∃ body gap, text = body ++ gap ∧ (∀ b ∈ gap, (b == 32) = true)
      ∧ ∀ b ∈ body.getLast?, (b == 32) = false := by
  obtain ⟨gap, hgap, hreverse⟩ := Words.exists_dropWhile (· == 32) text.reverse
  have hback := congrArg List.reverse hreverse
  rw [List.reverse_reverse, List.reverse_append] at hback
  refine ⟨_, _, hback, fun b hb => hgap b (List.mem_reverse.1 hb), fun b hb => ?_⟩
  rw [List.getLast?_reverse] at hb
  exact Words.dropWhile_head _ _ b hb

/-- Printable bytes know one kind of blank. -/
theorem splitAsciiWhitespace_eq {text : Text} (h : Printable text) :
    splitAsciiWhitespace text = Words.split (· == 32) text := by
  refine Words.split_congr fun b hb => ?_
  have hlow := (h b hb).1
  have hhigh := (h b hb).2
  unfold isAsciiWhitespace
  rw [Bool.eq_iff_iff]
  simp only [Bool.or_eq_true, beq_iff_eq]
  simp only [UInt8.le_iff_toNat_le, ← UInt8.toNat_inj] at hlow hhigh ⊢
  simp only [UInt8.reduceToNat] at hlow hhigh ⊢
  omega

end Rustymail.Server
