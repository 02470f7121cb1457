import Rustymail.Proof.FramingLemmas
import Rustymail.Server.Receive

/-!
# Plain text

ASCII text that stays within a line. Everything the program puts into the messages it writes itself
is of this kind: addresses, domain names, identifiers, numbers and network addresses.
-/

namespace Rustymail

/-- A byte of a line of ASCII text. -/
def plainByte (b : UInt8) : Bool := b < 128 && b != 0 && b != cr && b != lf

def plain (text : Text) : Bool := text.all plainByte

theorem plain_append (first second : Text) :
    plain (first ++ second) = (plain first && plain second) :=
  List.all_append

theorem plain_clean {text : Text} (h : plain text = true) : Framing.Clean text := by
  unfold plain at h
  rw [List.all_eq_true] at h
  refine ⟨fun hmem => ?_, fun hmem => ?_, fun hmem => ?_⟩
  · exact absurd (h 0 hmem) (by decide)
  · exact absurd (h cr hmem) (by decide)
  · exact absurd (h lf hmem) (by decide)

theorem plain_ascii {text : Text} (h : plain text = true) : isAscii text = true := by
  unfold plain at h
  unfold isAscii
  rw [List.all_eq_true] at h ⊢
  intro b hmem
  have hb := h b hmem
  simp only [plainByte, Bool.and_eq_true] at hb
  exact hb.1.1.1

/-- A byte that can be seen, or a blank. -/
def printableByte (b : UInt8) : Bool := 32 ≤ b && b ≤ 126

def printable (text : Text) : Bool := text.all printableByte

theorem printable_append (first second : Text) :
    printable (first ++ second) = (printable first && printable second) :=
  List.all_append

theorem plain_of_printable {text : Text} (h : printable text = true) : plain text = true := by
  unfold printable at h
  unfold plain
  rw [List.all_eq_true] at h ⊢
  intro b hmem
  have hb := h b hmem
  simp only [printableByte, Bool.and_eq_true, decide_eq_true_eq] at hb
  simp only [plainByte, cr, lf, Bool.and_eq_true, decide_eq_true_eq, bne_iff_ne]
  grind

/-- The bytes of a local part can be seen, and none is an angle bracket. -/
theorem localByte_bytes {b : UInt8} (h : localByte b = true) :
    (33 ≤ b ∧ b ≤ 126) ∧ b ≠ 60 ∧ b ≠ 62 := by
  unfold localByte at h
  rw [Bool.or_eq_true] at h
  rcases h with halphanumeric | hother
  · simp only [isAsciiAlphanumeric, isAsciiDigit, isAsciiUppercase, isAsciiLowercase,
      Bool.or_eq_true, Bool.and_eq_true, decide_eq_true_eq] at halphanumeric
    grind
  · have hall : ∀ c ∈ ascii "!#$%&'*+-/=?^_`\x7b|\x7d~.", (33 ≤ c ∧ c ≤ 126) ∧ c ≠ 60 ∧ c ≠ 62 := by
      decide +kernel
    exact hall b (List.contains_iff_mem.1 hother)

theorem printableByte_local {b : UInt8} (h : localByte b = true) : printableByte b = true := by
  have hbytes := (localByte_bytes h).1
  simp only [printableByte, Bool.and_eq_true, decide_eq_true_eq]
  exact ⟨UInt8.le_trans (by decide) hbytes.1, hbytes.2⟩

/-! ### Names and addresses -/

theorem mem_splitOn (separator : UInt8) {b : UInt8} {text : Text} (h : b ∈ text) :
    b = separator ∨ ∃ part ∈ text.splitOn separator, b ∈ part := by
  induction text with
  | nil => cases h
  | cons c rest ih =>
      rw [List.splitOn_cons_eq_if_modifyHead]
      by_cases hc : (c == separator) = true
      · rw [if_pos hc]
        rcases List.mem_cons.1 h with rfl | hrest
        · exact Or.inl (beq_iff_eq.1 hc)
        · rcases ih hrest with heq | ⟨part, hpart, hb⟩
          · exact Or.inl heq
          · exact Or.inr ⟨part, List.mem_cons_of_mem _ hpart, hb⟩
      · rw [if_neg hc]
        cases hsplit : rest.splitOn separator with
        | nil => exact absurd hsplit (List.splitOn_ne_nil _ _)
        | cons first others =>
            rw [List.modifyHead_cons]
            rcases List.mem_cons.1 h with rfl | hrest
            · exact Or.inr ⟨_, List.mem_cons_self, List.mem_cons_self⟩
            · rw [hsplit] at ih
              rcases ih hrest with heq | ⟨part, hpart, hb⟩
              · exact Or.inl heq
              · rcases List.mem_cons.1 hpart with rfl | hlater
                · exact Or.inr ⟨_, List.mem_cons_self, List.mem_cons_of_mem _ hb⟩
                · exact Or.inr ⟨part, List.mem_cons_of_mem _ hlater, hb⟩

theorem localByte_of_domain {domain : Text} (h : validDomain domain = true) :
    ∀ b ∈ domain, localByte b = true := by
  intro b hmem
  unfold localByte
  simp only [validDomain, Bool.and_eq_true] at h
  rcases mem_splitOn 46 hmem with rfl | ⟨label, hlabel, hb⟩
  · decide
  · have hvalid := List.all_eq_true.1 h.2 label hlabel
    simp only [validLabel, Bool.and_eq_true] at hvalid
    have hbyte := List.all_eq_true.1 hvalid.2 b hb
    rw [Bool.or_eq_true, beq_iff_eq] at hbyte
    rcases hbyte with halphanumeric | rfl
    · rw [halphanumeric, Bool.true_or]
    · decide

theorem printable_domain {domain : Text} (h : validDomain domain = true) :
    printable domain = true := by
  unfold printable
  rw [List.all_eq_true]
  exact fun b hmem => printableByte_local (localByte_of_domain h b hmem)

/-- Besides the at sign an address has the bytes of a local part only. -/
theorem mem_accepted {text : Text} (haccepted : Address.accepts text = true) {b : UInt8}
    (h : b ∈ text) : localByte b = true ∨ b = 64 := by
  cases hcut : rsplitOnce 64 text with
  | none => simp [Address.accepts, hcut] at haccepted
  | some cut =>
      obtain ⟨localPart, domain⟩ := cut
      simp only [Address.accepts, hcut, validLocalPart, Bool.and_eq_true] at haccepted
      rw [(rsplitOnce_eq_some hcut).1] at h
      rcases List.mem_append.1 h with hlocal | hrest
      · exact Or.inl (List.all_eq_true.1 haccepted.1.2.2 b hlocal)
      · rcases List.mem_cons.1 hrest with rfl | hdomain
        · exact Or.inr rfl
        · exact Or.inl (localByte_of_domain haccepted.2 b hdomain)

theorem mem_address {address : Address} {b : UInt8} (h : b ∈ address.asStr) :
    localByte b = true ∨ b = 64 :=
  mem_accepted address.accepted h

theorem accepted_bytes {text : Text} (haccepted : Address.accepts text = true) {b : UInt8}
    (h : b ∈ text) : (33 ≤ b ∧ b ≤ 126) ∧ b ≠ 60 ∧ b ≠ 62 := by
  rcases mem_accepted haccepted h with hlocal | rfl
  · exact localByte_bytes hlocal
  · decide

theorem accepts_of_parse {text : Text} {address : Address} (h : Address.parse text = some address) :
    Address.accepts text = true := by
  unfold Address.parse at h
  split_ifs at h with haccepted
  exact haccepted

theorem printable_address (address : Address) : printable address.asStr = true := by
  unfold printable
  rw [List.all_eq_true]
  intro b hmem
  rcases mem_address hmem with hlocal | rfl
  · exact printableByte_local hlocal
  · decide

theorem address_length (address : Address) : address.asStr.length ≤ 254 := by
  obtain ⟨text, haccepted, -⟩ := address
  change text.length ≤ 254
  cases hcut : rsplitOnce 64 text with
  | none => simp [Address.accepts, hcut] at haccepted
  | some cut =>
      simp only [Address.accepts, hcut, Bool.and_eq_true, decide_eq_true_eq] at haccepted
      exact haccepted.1.1

theorem domain_length {domain : Text} (h : validDomain domain = true) : domain.length ≤ 253 := by
  simp only [validDomain, Bool.and_eq_true, decide_eq_true_eq] at h
  exact h.1.1

theorem printable_id {id : Text} (h : validId id = true) : printable id = true := by
  unfold printable
  rw [List.all_eq_true]
  intro b hmem
  simp only [validId, Bool.and_eq_true] at h
  have hb := List.all_eq_true.1 h.2 b hmem
  simp only [isAsciiDigit, Bool.or_eq_true, Bool.and_eq_true, decide_eq_true_eq] at hb
  clear h hmem
  simp only [printableByte, Bool.and_eq_true, decide_eq_true_eq]
  grind

/-! ### Numbers -/

theorem mem_toDigits {base n : Nat} (hbase : 1 < base) {c : Char} (h : c ∈ Nat.toDigits base n) :
    ∃ d < base, c = d.digitChar := by
  induction n using Nat.strong_induction_on with
  | _ n ih =>
      rw [Nat.toDigits_eq_if hbase] at h
      split_ifs at h with hless
      · exact ⟨n, hless, List.mem_singleton.1 h⟩
      · rcases List.mem_append.1 h with hearlier | hlast
        · exact ih (n / base) (Nat.div_lt_self (by omega) hbase) hearlier
        · exact ⟨n % base, Nat.mod_lt n (by omega), List.mem_singleton.1 hlast⟩

theorem printable_digits {base : Nat} (hbase : 1 < base) (hsmall : base ≤ 16) (n : Nat) :
    printable ((Nat.toDigits base n).map fun c => c.toNat.toUInt8) = true := by
  unfold printable
  rw [List.all_map, List.all_eq_true]
  intro c hmem
  obtain ⟨d, hless, rfl⟩ := mem_toDigits hbase hmem
  have hall : ∀ d < 16, printableByte (Nat.digitChar d).toNat.toUInt8 = true := by decide
  exact hall d (by omega)

theorem decimal_length_le {n k : Nat} (hk : 0 < k) (h : n < 10 ^ k) : (decimal n).length ≤ k := by
  unfold decimal
  rw [List.length_map]
  exact (Nat.length_toDigits_le_iff (by decide) hk).2 h

theorem hexadecimal_length (n : UInt16) : (Server.hexadecimal n.toNat).length ≤ 4 := by
  unfold Server.hexadecimal
  rw [List.length_map]
  exact (Nat.length_toDigits_le_iff (by decide) (by decide)).2 n.toNat_lt

theorem intercalate_cons_cons (separator part next : Text) (rest : List Text) :
    separator.intercalate (part :: next :: rest)
      = part ++ (separator ++ separator.intercalate (next :: rest)) := by
  simp [List.intercalate]

theorem printable_intercalate {separator : Text} (hseparator : printable separator = true)
    {parts : List Text} (hparts : ∀ part ∈ parts, printable part = true) :
    printable (separator.intercalate parts) = true := by
  induction parts with
  | nil => rfl
  | cons part rest ih =>
      have hpart := hparts part List.mem_cons_self
      have hrest := ih fun part hmem => hparts part (List.mem_cons_of_mem _ hmem)
      cases rest with
      | nil => simpa [List.intercalate] using hpart
      | cons next rest =>
          rw [intercalate_cons_cons, printable_append, printable_append, hpart, hseparator, hrest]
          rfl

/-- Parts of bounded length behind separators. -/
theorem intercalate_length {separator : Text} {parts : List Text} {k : Nat}
    (hparts : ∀ part ∈ parts, part.length ≤ k) :
    (separator.intercalate parts).length ≤ parts.length * (k + separator.length) := by
  induction parts with
  | nil => exact Nat.zero_le _
  | cons part rest ih =>
      have hpart := hparts part List.mem_cons_self
      have hrest := ih fun part hmem => hparts part (List.mem_cons_of_mem _ hmem)
      cases rest with
      | nil =>
          have hone : (separator.intercalate [part]).length = part.length := by
            simp [List.intercalate]
          rw [hone, List.length_singleton]
          omega
      | cons next rest =>
          rw [intercalate_cons_cons, List.length_append, List.length_append]
          calc
            part.length + (separator.length + (separator.intercalate (next :: rest)).length)
              ≤ k + (separator.length + (next :: rest).length * (k + separator.length)) := by omega
            _ = (part :: next :: rest).length * (k + separator.length) := by
              simp only [List.length_cons, Nat.succ_mul]
              omega

theorem printable_colonSeparated (segments : List UInt16) :
    printable (Server.colonSeparated segments) = true := by
  refine printable_intercalate (by decide) ?_
  intro part hmem
  obtain ⟨segment, -, rfl⟩ := List.mem_map.1 hmem
  exact printable_digits (by decide) (by decide) _

theorem colonSeparated_length (segments : List UInt16) :
    (Server.colonSeparated segments).length ≤ segments.length * 5 := by
  have hlength : ∀ part ∈ segments.map fun segment => Server.hexadecimal segment.toNat,
      part.length ≤ 4 := by
    intro part hmem
    obtain ⟨segment, -, rfl⟩ := List.mem_map.1 hmem
    exact hexadecimal_length segment
  calc
    (Server.colonSeparated segments).length
      ≤ (segments.map fun segment => Server.hexadecimal segment.toNat).length * 5 :=
        intercalate_length hlength
    _ = segments.length * 5 := by rw [List.length_map]

theorem printable_dotted (numbers : List Nat) :
    printable ([46].intercalate (numbers.map decimal)) = true := by
  refine printable_intercalate (by decide) ?_
  intro part hmem
  obtain ⟨n, -, rfl⟩ := List.mem_map.1 hmem
  exact printable_digits (by decide) (by decide) _

theorem dotted_length {numbers : List Nat} (h : ∀ n ∈ numbers, n < 1000) :
    (([46] : Text).intercalate (numbers.map decimal)).length ≤ numbers.length * 4 := by
  have hlength : ∀ part ∈ numbers.map decimal, part.length ≤ 3 := by
    intro part hmem
    obtain ⟨n, hn, rfl⟩ := List.mem_map.1 hmem
    exact decimal_length_le (by decide) (h n hn)
  calc
    (([46] : Text).intercalate (numbers.map decimal)).length ≤ (numbers.map decimal).length * 4 :=
      intercalate_length hlength
    _ = numbers.length * 4 := by rw [List.length_map]

theorem printable_display (peer : Server.IpAddr) : printable peer.display = true := by
  cases peer with
  | v4 octets =>
      have hdotted := printable_dotted (octets.toList.map UInt8.toNat)
      rwa [List.map_map] at hdotted
  | v6 segments =>
      unfold Server.IpAddr.display
      dsimp only
      split
      · rw [printable_append, printable_dotted]
        decide
      · split_ifs
        · rw [printable_append, printable_append, printable_colonSeparated, printable_colonSeparated]
          decide
        · exact printable_colonSeparated _

/-- Far from exact, and enough for a line. -/
theorem display_length (peer : Server.IpAddr) : peer.display.length ≤ 42 := by
  cases peer with
  | v4 octets =>
      have hsmall : ∀ n ∈ octets.toList.map UInt8.toNat, n < 1000 := by
        intro n hmem
        obtain ⟨octet, -, rfl⟩ := List.mem_map.1 hmem
        exact lt_trans octet.toNat_lt (by decide)
      have hdotted := dotted_length hsmall
      rw [List.map_map, List.length_map, Vector.length_toList] at hdotted
      exact hdotted.trans (by decide)
  | v6 segments =>
      have hcount : segments.toList.length = 8 := Vector.length_toList
      unfold Server.IpAddr.display
      dsimp only
      split
      · next a b _ =>
          have ha := a.toNat_lt
          have hb := b.toNat_lt
          have hdotted : (([46] : Text).intercalate
              ([a.toNat / 256, a.toNat % 256, b.toNat / 256, b.toNat % 256].map decimal)).length ≤ 16 := by
            refine dotted_length ?_
            simp only [List.forall_mem_cons]
            refine ⟨by omega, by omega, by omega, by omega, ?_⟩
            exact fun _ h => by cases h
          rw [List.length_append]
          exact Nat.add_le_add (by decide : (ascii "::ffff:").length ≤ 7) hdotted |>.trans (by decide)
      · split_ifs
        · have hfirst := colonSeparated_length (segments.toList.take (Server.zeroRun segments.toList).1)
          have hlast := colonSeparated_length (segments.toList.drop
            ((Server.zeroRun segments.toList).1 + (Server.zeroRun segments.toList).2))
          have hcolons : (ascii "::").length = 2 := by decide
          rw [List.length_take] at hfirst
          rw [List.length_drop] at hlast
          rw [List.length_append, List.length_append, hcolons]
          omega
        · have hall := colonSeparated_length segments.toList
          omega

/-! ### The trace -/

namespace Server.Trace

/-- The lines of the trace. -/
def lines (trace : Trace) (sender : Option Address) (operation : Uuid) (date : Text) : List Text :=
  [ascii "Return-Path: <" ++ sender.elim [] Address.asStr ++ ascii ">",
    ascii "Received: from " ++ trace.sentFrom,
    ascii "\tby " ++ trace.hostname ++ ascii " with " ++ trace.protocol,
    ascii "\tid " ++ operation.text ++ ascii "; " ++ date]

theorem text_eq (trace : Trace) (sender : Option Address) (operation : Uuid) (date : Text) :
    trace.text sender operation date = (trace.lines sender operation date).flatMap (· ++ crlf) := by
  simp [text, lines]

theorem printable_sentFrom (trace : Trace) : printable trace.sentFrom = true := by
  have hliteral : printable trace.literal = true := by
    unfold literal
    split
    · rw [printable_append, printable_append, printable_display]
      decide
    · rw [printable_append, printable_append, printable_display]
      decide
  unfold sentFrom
  split
  · next name hname =>
      obtain ⟨-, hvalid⟩ := Option.filter_eq_some_iff.1 hname
      rw [printable_append, printable_append, printable_append, printable_domain hvalid, hliteral]
      decide
  · exact hliteral

theorem printable_sender (sender : Option Address) :
    printable (sender.elim [] Address.asStr) = true := by
  cases sender with
  | none => rfl
  | some address => exact printable_address address

theorem printable_protocol (trace : Trace) : printable trace.protocol = true := by
  unfold protocol
  split <;> decide

theorem plain_lines {trace : Trace} {sender : Option Address} {operation : Uuid} {date : Text}
    (hhostname : validDomain trace.hostname = true) (hdate : plain date = true) :
    ∀ line ∈ trace.lines sender operation date, plain line = true := by
  simp only [lines, List.forall_mem_cons, plain_append, plain_of_printable (printable_sender sender),
    plain_of_printable trace.printable_sentFrom, plain_of_printable (printable_domain hhostname),
    plain_of_printable trace.printable_protocol, plain_of_printable (printable_id operation.valid), hdate]
  decide

theorem splitCrlf_line {line : Text} (hclean : Framing.Clean line) (rest : Text) :
    splitCrlf (line ++ crlf ++ rest) = line :: splitCrlf rest := by
  induction line with
  | nil =>
      rw [splitCrlf.eq_def]
      simp [crlf]
  | cons b line ih =>
      obtain ⟨hzero, hcr, hlf⟩ := hclean
      simp only [List.mem_cons, not_or] at hzero hcr hlf
      rw [List.cons_append, List.cons_append, splitCrlf, if_neg, ih ⟨hzero.2, hcr.2, hlf.2⟩]
      · rfl
      · rintro ⟨rfl, -⟩
        exact hcr.1 rfl

theorem splitCrlf_lines {lines : List Text} (hclean : ∀ line ∈ lines, Framing.Clean line) :
    splitCrlf (lines.flatMap (· ++ crlf)) = lines ++ [[]] := by
  induction lines with
  | nil => simp [splitCrlf]
  | cons line rest ih =>
      rw [List.flatMap_cons, splitCrlf_line (hclean line List.mem_cons_self),
        ih fun line hmem => hclean line (List.mem_cons_of_mem _ hmem)]
      rfl

/-- **The trace.** It is four short lines of plain text, and the first one is the return path. -/
theorem prefixText_lines {trace : Trace} {sender : Option Address} {operation : Uuid}
    {date : Option Text} {traced : Text} (hdate : ∀ text ∈ date, plain text = true)
    (h : trace.prefixText sender operation date = some traced) :
    ∃ rest : List Text,
      traced = (ascii "Return-Path: <" ++ sender.elim [] Address.asStr ++ ascii ">" ++ crlf)
          ++ rest.flatMap (· ++ crlf)
        ∧ ∀ line ∈ (ascii "Return-Path: <" ++ sender.elim [] Address.asStr ++ ascii ">") :: rest,
          plain line = true ∧ line.length ≤ 998 ∧ line ≠ [] := by
  unfold prefixText at h
  split_ifs at h with hhostname
  cases date with
  | none => cases h
  | some date =>
      have hplain : ∀ line ∈ trace.lines sender operation date, plain line = true :=
        plain_lines hhostname (hdate date rfl)
      dsimp only at h
      split_ifs at h with hlong
      cases h
      rw [not_or, text_eq, splitCrlf_lines fun line hmem => plain_clean (hplain line hmem)] at hlong
      have hshort : ∀ line ∈ trace.lines sender operation date, line.length ≤ 998 := by
        intro line hmem
        by_contra hlength
        refine hlong.2 (List.any_eq_true.2 ⟨line, List.mem_append_left _ hmem, ?_⟩)
        exact decide_eq_true (by omega)
      refine ⟨(trace.lines sender operation date).tail, ?_, ?_⟩
      · rw [text_eq]
        rfl
      · intro line hmem
        refine ⟨hplain line hmem, hshort line hmem, ?_⟩
        rintro rfl
        revert hmem
        change [] ∉ trace.lines sender operation date
        simp [lines, ascii]

end Server.Trace

end Rustymail
