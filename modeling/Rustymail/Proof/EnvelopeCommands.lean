import Rustymail.Client.Smtp
import Rustymail.Proof.MailSyntax
import Rustymail.Proof.PlainText

/-!
# The client's envelope on this server

What `try_attempt` renders is what `parse_command` reads: the same sender, recipient, number and
encoding, in lines that the server takes.
-/

namespace Rustymail

open Checked

/-! ### Numbers -/

theorem decimal_bytes (n : Nat) : ∀ b ∈ decimal n, 48 ≤ b ∧ b ≤ 57 := by
  intro b hb
  obtain ⟨c, hc, rfl⟩ := List.mem_map.1 hb
  obtain ⟨d, hless, rfl⟩ := mem_toDigits (by decide) hc
  have hall : ∀ d < 10, 48 ≤ (Nat.digitChar d).toNat.toUInt8
      ∧ (Nat.digitChar d).toNat.toUInt8 ≤ 57 := by decide
  exact hall d hless

theorem decimal_length_pos (n : Nat) : 1 ≤ (decimal n).length := by
  unfold decimal
  rw [List.length_map]
  exact Nat.length_toDigits_pos

/-- The server reads the number that was written. -/
theorem decimalNumber_decimal (n : Nat) : Server.decimalNumber (decimal n) = n := by
  have hdigits : ∀ (chars : List Char), (∀ c ∈ chars, ∃ d < 10, c = Nat.digitChar d) →
      ∀ start : Nat, (chars.map fun c => c.toNat.toUInt8).foldl
          (fun n b => 10 * n + (b.toNat - 48)) start = Nat.ofDigitChars 10 chars start := by
    intro chars hchars
    induction chars with
    | nil => exact fun start => rfl
    | cons c rest ih =>
        intro start
        obtain ⟨d, hless, rfl⟩ := hchars c List.mem_cons_self
        have hvalue : ∀ d < 10, (Nat.digitChar d).toNat.toUInt8.toNat - 48
            = (Nat.digitChar d).toNat - '0'.toNat := by decide
        rw [List.map_cons, List.foldl_cons, Nat.ofDigitChars_cons, hvalue d hless]
        exact ih (fun c hc => hchars c (List.mem_cons_of_mem _ hc)) _
  unfold Server.decimalNumber decimal
  rw [hdigits _ (fun c hc => mem_toDigits (by decide) hc), Nat.ofDigitChars_ten_toDigits]

/-! ### Bytes -/

theorem address_bytes {address : Address} {b : UInt8} (h : b ∈ address.asStr) :
    (32 ≤ b ∧ b ≤ 126) ∧ b ≠ 62 := by
  obtain ⟨⟨hlow, hhigh⟩, -, hbracket⟩ := accepted_bytes address.accepted h
  exact ⟨⟨UInt8.le_trans (by decide) hlow, hhigh⟩, hbracket⟩

/-- The sender between the brackets. -/
theorem sender_bytes {sender : Option Address} {b : UInt8}
    (h : b ∈ sender.elim [] Address.asStr) : (32 ≤ b ∧ b ≤ 126) ∧ b ≠ 62 := by
  cases sender with
  | none => cases h
  | some address => exact address_bytes h

theorem sender_length (sender : Option Address) : (sender.elim [] Address.asStr).length ≤ 254 := by
  cases sender with
  | none => exact Nat.zero_le _
  | some address => exact address_length address

namespace Server

theorem Printable.append {first second : Text} (hfirst : Printable first)
    (hsecond : Printable second) : Printable (first ++ second) := by
  intro b hb
  rcases List.mem_append.1 hb with h | h
  · exact hfirst b h
  · exact hsecond b h

theorem Printable.clean {text : Text} (h : Printable text) : Framing.Clean text := by
  refine ⟨fun hmem => ?_, fun hmem => ?_, fun hmem => ?_⟩
  · exact absurd (h 0 hmem).1 (by decide)
  · exact absurd (h cr hmem).1 (by decide)
  · exact absurd (h lf hmem).1 (by decide)

theorem printable_decimal (n : Nat) : Printable (decimal n) := by
  intro b hb
  have hlow := (decimal_bytes n b hb).1
  have hhigh := (decimal_bytes n b hb).2
  constructor
  · exact UInt8.le_trans (by decide) hlow
  · exact UInt8.le_trans hhigh (by decide)

theorem reversePath_asStr (sender : Option Address) :
    ReversePath (sender.elim [] Address.asStr) sender := by
  cases sender with
  | none => rfl
  | some address => exact ⟨address.text_ne_nil, address.parse_asStr⟩

/-- A sequence of words, each after a blank. -/
theorem separated_words {words : List Text} (hwords : ∀ word ∈ words, word ≠ [] ∧ 32 ∉ word) :
    Words.Separated (· == 32) (words.flatMap ([32] ++ ·)) words := by
  induction words with
  | nil => exact .gap (fun b hb => by cases hb)
  | cons word rest ih =>
      obtain ⟨hne, hclean⟩ := hwords word List.mem_cons_self
      have hword : ∀ b ∈ word, (b == 32) = false := by
        intro b hb
        rw [beq_eq_false_iff_ne]
        rintro rfl
        exact hclean hb
      rw [List.flatMap_cons]
      refine .word (List.cons_ne_nil _ _) ?_ hne hword (ih fun w hw => hwords w (List.mem_cons_of_mem _ hw))
      intro b hb
      rw [List.mem_singleton.1 hb]
      rfl

end Server

namespace Client

open Server

variable (message : Message) (capabilities : Capabilities) (size : Nat)

/-! ### The MAIL line -/

namespace Message

/-- The parameters of the MAIL line. -/
def sizeWords : List Text :=
  if capabilities.size.isSome then [ascii "SIZE=" ++ decimal size] else []

def bodyWords : List Text :=
  if capabilities.eightBit then [ascii "BODY=" ++ bodyName message.body] else []

/-- The MAIL line without its CRLF. -/
def mailText : Text :=
  ascii "MAIL FROM:<" ++ message.sender.elim [] Address.asStr ++ ascii ">"
    ++ (sizeWords capabilities size ++ message.bodyWords capabilities).flatMap ([32] ++ ·)

/-- The RCPT line without its CRLF. -/
def rcptText : Text := ascii "RCPT TO:<" ++ message.recipient.asStr ++ ascii ">"

theorem mailCommand_eq :
    message.mailCommand capabilities size = message.mailText capabilities size ++ crlf := by
  have hsize : (if capabilities.size.isSome then ascii " SIZE=" ++ decimal size else [])
      = (sizeWords capabilities size).flatMap ([32] ++ ·) := by
    unfold sizeWords
    split_ifs
    · rw [List.flatMap_singleton, ← List.append_assoc]
      rfl
    · rfl
  have hbody : (if capabilities.eightBit then
        (if message.body = .eightBitMime then ascii " BODY=8BITMIME" else ascii " BODY=7BIT")
      else []) = (message.bodyWords capabilities).flatMap ([32] ++ ·) := by
    unfold bodyWords
    split_ifs with height hbody
    · rw [hbody]
      rfl
    · have hseven : message.body = .sevenBit := by
        cases hcase : message.body with
        | sevenBit => rfl
        | eightBitMime => exact absurd hcase hbody
      rw [hseven]
      rfl
    · rfl
  unfold mailCommand mailText
  rw [hsize, hbody, List.flatMap_append]
  simp only [List.append_assoc]

theorem rcptCommand_eq : message.rcptCommand = message.rcptText ++ crlf := rfl

theorem sizeWords_clean : ∀ word ∈ sizeWords capabilities size,
    word ≠ [] ∧ 32 ∉ word ∧ Printable word := by
  intro word hword
  unfold sizeWords at hword
  split_ifs at hword
  · obtain rfl := List.mem_singleton.1 hword
    refine ⟨by simp [ascii], ?_, .append (printable_iff.2 (by decide)) (printable_decimal size)⟩
    intro hmem
    rcases List.mem_append.1 hmem with hkey | hdigits
    · revert hkey
      decide
    · exact absurd (decimal_bytes size 32 hdigits).1 (by decide)
  · cases hword

theorem bodyWords_clean : ∀ word ∈ message.bodyWords capabilities,
    word ≠ [] ∧ 32 ∉ word ∧ Printable word := by
  intro word hword
  unfold bodyWords at hword
  split_ifs at hword
  · obtain rfl := List.mem_singleton.1 hword
    cases message.body with
    | sevenBit => exact ⟨by decide, by decide, printable_iff.2 (by decide)⟩
    | eightBitMime => exact ⟨by decide, by decide, printable_iff.2 (by decide)⟩
  · cases hword

theorem words_clean : ∀ word ∈ sizeWords capabilities size ++ message.bodyWords capabilities,
    word ≠ [] ∧ 32 ∉ word ∧ Printable word := by
  intro word hword
  rcases List.mem_append.1 hword with hsize | hbody
  · exact sizeWords_clean capabilities size word hsize
  · exact bodyWords_clean message capabilities word hbody

theorem printable_mailText : Printable (message.mailText capabilities size) := by
  refine .append (.append (.append (printable_iff.2 (by decide)) fun b hb => (sender_bytes hb).1)
    (printable_iff.2 (by decide))) ?_
  intro b hb
  obtain ⟨word, hword, hmem⟩ := List.mem_flatMap.1 hb
  rcases List.mem_append.1 hmem with hblank | hb
  · rw [List.mem_singleton.1 hblank]
    decide
  · exact (words_clean message capabilities size word hword).2.2 b hb

theorem printable_rcptText : Printable message.rcptText :=
  .append (.append (printable_iff.2 (by decide)) fun _ hb => (address_bytes hb).1)
    (printable_iff.2 (by decide))

/-- The parameters name the advertised ones of the number and the encoding. -/
theorem parameters_words (hsize : size < 2 ^ 64) :
    Parameters (sizeWords capabilities size ++ message.bodyWords capabilities)
      (if capabilities.size.isSome then some (decimal size) else none)
      (if capabilities.eightBit then some message.body else none) := by
  refine ⟨_, _, .refl _, ?_, ?_⟩
  · unfold sizeWords
    split_ifs
    · have hshort : (decimal size).length ≤ 20 :=
        decimal_length_le (by decide) (Nat.lt_trans hsize (by decide))
      exact ⟨_, rfl, ascii "SIZE", rfl, rfl, decimal_length_pos size, hshort, decimal_bytes size⟩
    · rfl
  · unfold bodyWords
    split_ifs
    · exact ⟨_, rfl, ascii "BODY", _, rfl, rfl, rfl⟩
    · rfl

theorem parse_mailText (hsize : size < 2 ^ 64) :
    parseCommand (message.mailText capabilities size)
      = .ok (.mail message.sender (if capabilities.size.isSome then some size else none)
          (if capabilities.eightBit then some message.body else none)) := by
  have hline : MailLine (message.mailText capabilities size) message.sender
      (if capabilities.size.isSome then some (decimal size) else none)
      (if capabilities.eightBit then some message.body else none) := by
    refine ⟨ascii "MAIL", [32], ascii "FROM:", message.sender.elim [] Address.asStr, _, _, ?_, rfl,
      List.cons_ne_nil _ _, fun b hb => List.mem_singleton.1 hb, rfl, ?_,
      reversePath_asStr message.sender, separated_words ?_,
      parameters_words message capabilities size hsize⟩
    · unfold mailText
      have hfirst : ascii "MAIL FROM:<" = ascii "MAIL" ++ [32] ++ ascii "FROM:" ++ [60] := by decide
      rw [hfirst]
      simp only [List.append_assoc, List.cons_append, List.nil_append]
      rfl
    · intro hmem
      exact (sender_bytes hmem).2 rfl
    · intro word hword
      have hclean := words_clean message capabilities size word hword
      exact ⟨hclean.1, hclean.2.1⟩
  rw [parseCommand_of_mailLine (message.printable_mailText capabilities size) hline]
  have hnumber : (if capabilities.size.isSome then some (decimal size) else none).map boundedNumber
      = if capabilities.size.isSome then some size else none := by
    split_ifs
    · have hbounded : boundedNumber (decimal size) = min (decimalNumber (decimal size)) (2 ^ 64 - 1) :=
        rfl
      rw [Option.map_some, hbounded, decimalNumber_decimal]
      congr 1
      omega
    · rfl
  rw [hnumber]

theorem rcptText_eq : message.rcptText
    = ascii "RCPT" ++ 32 :: (ascii "TO:" ++ 60 :: message.recipient.asStr ++ 62 :: []) := by
  have hfirst : ascii "RCPT TO:<" = ascii "RCPT" ++ 32 :: (ascii "TO:" ++ [60]) := by decide
  unfold rcptText
  rw [hfirst]
  simp only [List.append_assoc, List.cons_append, List.nil_append]
  rfl

theorem verbOf_rcptText : verbOf message.rcptText = ascii "RCPT" := by
  rw [rcptText_eq]
  exact (verbOf_append (by decide) _).1

theorem verbOf_mailText : verbOf (message.mailText capabilities size) = ascii "MAIL" := by
  have hfirst : ascii "MAIL FROM:<" = ascii "MAIL" ++ 32 :: ascii "FROM:<" := by decide
  unfold mailText
  rw [hfirst]
  simp only [List.append_assoc, List.cons_append]
  exact (verbOf_append (by decide) _).1

theorem parse_rcptText : parseCommand message.rcptText = .ok (.rcpt message.recipient) := by
  have hline := message.rcptText_eq
  have hcut := verbOf_append (by decide : 32 ∉ ascii "RCPT")
    (ascii "TO:" ++ 60 :: message.recipient.asStr ++ 62 :: [])
  have htrim : trimSpaces (ascii "TO:" ++ 60 :: message.recipient.asStr ++ 62 :: [])
      = ascii "TO:" ++ 60 :: message.recipient.asStr ++ 62 :: [] := by
    have h := @Words.trim_eq UInt8 (· == 32) []
      (ascii "TO:" ++ 60 :: message.recipient.asStr ++ 62 :: []) []
      (fun b hb => by cases hb) (fun b hb => by cases hb)
      (fun b hb => by cases hb; rfl) ?_
    · rw [List.nil_append, List.append_nil] at h
      exact h
    · intro b hb
      rw [List.getLast?_append] at hb
      cases hb
      rfl
  have hpath : parsePath (ascii "TO:" ++ 60 :: message.recipient.asStr ++ 62 :: []) (ascii "TO:")
      = .ok (message.recipient.asStr, []) :=
    parsePath_eq_ok_iff.2 ⟨ascii "TO:", [], rfl, rfl, fun hmem => (address_bytes hmem).2 rfl,
      Or.inl rfl, rfl⟩
  have hgood := printable_iff.1 message.printable_rcptText
  rw [hline] at hgood ⊢
  unfold parseCommand
  rw [if_neg hgood]
  dsimp only
  rw [hcut.1, hcut.2, htrim, if_neg (by decide), if_neg (by decide), if_neg (by decide),
    if_pos (by decide)]
  unfold parseRcpt
  rw [hpath]
  dsimp only [bind, Except.bind]
  rw [message.recipient.parse_asStr]
  rfl

/-! ### Lengths -/

theorem mailText_length (hsize : size < 2 ^ 64) :
    (message.mailText capabilities size).length ≤ 306 := by
  have hsender := sender_length message.sender
  have hshort : (decimal size).length ≤ 20 :=
    decimal_length_le (by decide) (Nat.lt_trans hsize (by decide))
  have hsizes : ((sizeWords capabilities size).flatMap ([32] ++ ·)).length ≤ 26 := by
    unfold sizeWords
    split_ifs
    · rw [List.flatMap_singleton, List.length_append, List.length_append]
      change 1 + (5 + (decimal size).length) ≤ 26
      omega
    · exact Nat.zero_le _
  have hbodies : ((message.bodyWords capabilities).flatMap ([32] ++ ·)).length ≤ 14 := by
    unfold bodyWords
    split_ifs
    · cases message.body with
      | sevenBit => decide
      | eightBitMime => decide
    · exact Nat.zero_le _
  unfold mailText
  rw [List.flatMap_append]
  simp only [List.length_append]
  change 11 + _ + 1 + _ ≤ 306
  omega

theorem rcptText_length : message.rcptText.length ≤ 264 := by
  have hrecipient := address_length message.recipient
  unfold rcptText
  simp only [List.length_append]
  change 9 + _ + 1 ≤ 264
  omega

end Message

/-! ### The envelope in one piece -/

theorem chunked_fed (framing : Framing) (chunks : List Text) :
    Framing.chunked Framing.fed framing chunks = Framing.chunked Framing.buffered framing chunks := by
  have hdrive : Framing.fed = Framing.buffered := by
    funext framing bytes
    exact framing.fed_eq_buffered bytes
  rw [hdrive]

/-- Lines that fit are read as they are, in pieces of any kind. -/
theorem chunked_lines {limit : Nat} {lines : List Text}
    (hlines : ∀ line ∈ lines, Framing.Clean line ∧ line.length + 2 ≤ limit) {chunks : List Text}
    (hchunks : chunks.flatten = lines.flatMap (· ++ crlf)) :
    Framing.chunked Framing.buffered (.start limit) chunks = ⟨lines, .new limit, none⟩ := by
  rw [Framing.chunked_eq_foldl ⟨rfl, rfl⟩, hchunks]
  clear hchunks
  have hfold : ∀ before : List Text,
      (lines.flatMap (· ++ crlf)).foldl Framing.byte ⟨before, .new limit, none⟩
        = ⟨before ++ lines, .new limit, none⟩ := by
    induction lines with
    | nil =>
        intro before
        rw [List.append_nil]
        rfl
    | cons line rest ih =>
        intro before
        obtain ⟨hclean, hroom⟩ := hlines line List.mem_cons_self
        have hfirst : (line ++ crlf).foldl Framing.byte ⟨before, .new limit, none⟩
            = ⟨before ++ [line], .new limit, none⟩ :=
          Framing.foldl_line ⟨rfl, rfl⟩ rfl hclean hroom
        have hrest := ih fun l hl => hlines l (List.mem_cons_of_mem _ hl)
        rw [List.flatMap_cons, List.foldl_append, hfirst, hrest, List.append_assoc]
        rfl
  exact hfold []

/-- **The client's envelope means the same to this server.** For every message, capabilities and
64-bit size, the lines that the client renders are read as MAIL and RCPT with exactly its values,
are within the limits for their verbs and without a line ending inside; and the pipelined envelope
is cut into these lines, however it arrives. -/
theorem envelope_commands_round_trip (message : Message) (capabilities : Capabilities) (size : Nat)
    (hsize : size < 2 ^ 64) :
    ∃ mail rcpt, message.mailCommand capabilities size = mail ++ crlf
      ∧ message.rcptCommand = rcpt ++ crlf
      ∧ parseCommand mail
        = .ok (.mail message.sender (if capabilities.size.isSome then some size else none)
          (if capabilities.eightBit then some message.body else none))
      ∧ parseCommand rcpt = .ok (.rcpt message.recipient)
      ∧ (∀ role, mail.length + 2 ≤ 538 ∧ lineLimit role (verbOf mail) = 538)
      ∧ (∀ role, rcpt.length + 2 ≤ 512 ∧ lineLimit role (verbOf rcpt) = 512)
      ∧ cr ∉ mail ∧ lf ∉ mail ∧ cr ∉ rcpt ∧ lf ∉ rcpt
      ∧ ∀ limit, 538 ≤ limit → ∀ chunks : List Text,
        chunks.flatten = message.mailCommand capabilities size ++ message.rcptCommand
          ++ ascii "DATA" ++ crlf →
        Framing.chunked Framing.fed (.start limit) chunks
          = ⟨[mail, rcpt, ascii "DATA"], .new limit, none⟩ := by
  have hmail := (message.printable_mailText capabilities size).clean
  have hrcpt := message.printable_rcptText.clean
  have hmailLength := message.mailText_length capabilities size hsize
  have hrcptLength := message.rcptText_length
  refine ⟨message.mailText capabilities size, message.rcptText,
    message.mailCommand_eq capabilities size, message.rcptCommand_eq,
    message.parse_mailText capabilities size hsize, message.parse_rcptText,
    fun role => ⟨by omega, ?_⟩, fun role => ⟨by omega, ?_⟩, hmail.2.1, hmail.2.2, hrcpt.2.1,
    hrcpt.2.2, ?_⟩
  · rw [message.verbOf_mailText capabilities size]
    cases role <;> rfl
  · rw [message.verbOf_rcptText]
    cases role <;> rfl
  · intro limit hlimit chunks hchunks
    rw [chunked_fed, chunked_lines ?_ ?_]
    · intro line hline
      simp only [List.mem_cons, List.not_mem_nil, or_false] at hline
      rcases hline with rfl | rfl | rfl
      · exact ⟨hmail, by omega⟩
      · exact ⟨hrcpt, by omega⟩
      · refine ⟨(printable_iff.2 (by decide) : Printable (ascii "DATA")).clean, ?_⟩
        change 4 + 2 ≤ limit
        omega
    · rw [hchunks, message.mailCommand_eq, message.rcptCommand_eq]
      simp [List.append_assoc]

/-- The null sender with the largest size, for a peer that takes everything. -/
theorem envelope_commands_round_trip_largest :
    ∃ mail, (⟨none, ⟨ascii "a@b", by decide, by decide⟩, .eightBitMime, 0, []⟩ : Message).mailCommand
        ⟨true, false, true, false, some none⟩ (2 ^ 64 - 1) = mail ++ crlf
      ∧ parseCommand mail = .ok (.mail none (some (2 ^ 64 - 1)) (some .eightBitMime)) := by
  obtain ⟨mail, rcpt, hmail, -, hparse, -⟩ := envelope_commands_round_trip
    ⟨none, ⟨ascii "a@b", by decide, by decide⟩, .eightBitMime, 0, []⟩
    ⟨true, false, true, false, some none⟩ (2 ^ 64 - 1) (by decide)
  exact ⟨mail, hmail, hparse⟩

end Client

end Rustymail
