import Rustymail.Attempts
import Rustymail.Proof.PlainText

/-!
# The trace always fits

Whatever a client says in its greeting and wherever it connects from, the trace of its message is
made, and its size is bounded by what addresses and domain names may have at most.
-/

namespace Rustymail.Server.Trace

variable {trace : Trace} {sender : Option Address} {operation : Uuid} {date : Text}

/-- A byte of the trace: a printable one, or the tab of a folded line. -/
def traceByte (b : UInt8) : Bool := printableByte b || b == 9

theorem traceByte_of_printable {text : Text} (h : printable text = true) :
    text.all traceByte = true := by
  unfold printable at h
  rw [List.all_eq_true] at h ⊢
  intro b hmem
  rw [traceByte, h b hmem, Bool.true_or]

theorem traceByte_lines (hhostname : validDomain trace.hostname = true)
    (hdate : printable date = true) :
    ∀ line ∈ trace.lines sender operation date, line.all traceByte = true := by
  simp only [lines, List.forall_mem_cons, List.all_append,
    traceByte_of_printable (printable_sender sender),
    traceByte_of_printable trace.printable_sentFrom,
    traceByte_of_printable (printable_domain hhostname),
    traceByte_of_printable trace.printable_protocol,
    traceByte_of_printable (printable_id operation.valid), traceByte_of_printable hdate]
  decide

theorem sentFrom_length (trace : Trace) : trace.sentFrom.length ≤ 305 := by
  have hliteral : trace.literal.length ≤ 49 := by
    have hdisplay := display_length trace.peer
    unfold literal
    split
    · next octets hpeer =>
        rw [hpeer] at hdisplay
        have hopen : (ascii "[").length = 1 := by decide
        have hclose : (ascii "]").length = 1 := by decide
        rw [List.length_append, List.length_append, hopen, hclose]
        omega
    · next segments hpeer =>
        rw [hpeer] at hdisplay
        have hopen : (ascii "[IPv6:").length = 6 := by decide
        have hclose : (ascii "]").length = 1 := by decide
        rw [List.length_append, List.length_append, hopen, hclose]
        omega
  unfold sentFrom
  split
  · next name hname =>
      obtain ⟨-, hvalid⟩ := Option.filter_eq_some_iff.1 hname
      have hdomain := domain_length hvalid
      have hopen : (ascii " (").length = 2 := by decide
      have hclose : (ascii ")").length = 1 := by decide
      rw [List.length_append, List.length_append, List.length_append, hopen, hclose]
      omega
  · omega

theorem protocol_length (trace : Trace) : trace.protocol.length ≤ 7 := by
  unfold protocol
  split <;> decide

/-- The lengths of the four lines. -/
theorem lines_length (hdate : date.length = 31) :
    (trace.lines sender operation date).map List.length
      = [15 + (sender.elim [] Address.asStr).length, 15 + trace.sentFrom.length,
        10 + trace.hostname.length + trace.protocol.length, 69] := by
  have hid := operation.length
  have hreturn : (ascii "Return-Path: <").length = 14 := by decide
  have hclose : (ascii ">").length = 1 := by decide
  have hreceived : (ascii "Received: from ").length = 15 := by decide
  have hby : (ascii "\tby ").length = 4 := by decide
  have hwith : (ascii " with ").length = 6 := by decide
  have hidMark : (ascii "\tid ").length = 4 := by decide
  have hdateMark : (ascii "; ").length = 2 := by decide
  simp only [lines, List.map_cons, List.map_nil, List.length_append, hreturn, hclose, hreceived, hby,
    hwith, hidMark, hdateMark, hid, hdate]
  refine congrArg₂ List.cons ?_ (congrArg₂ List.cons rfl (congrArg₂ List.cons ?_ rfl))
  · omega
  · omega

theorem lines_bounds (hhostname : validDomain trace.hostname = true) (hdate : date.length = 31) :
    (∀ line ∈ trace.lines sender operation date, line.length ≤ 320)
      ∧ ((trace.lines sender operation date).flatMap (· ++ crlf)).length ≤ 1100 := by
  have hlengths := @lines_length trace sender operation date hdate
  have hsender : (sender.elim [] Address.asStr).length ≤ 254 := by
    cases sender with
    | none => exact Nat.zero_le _
    | some address => exact address_length address
  have hfrom := trace.sentFrom_length
  have hprotocol := trace.protocol_length
  have hdomain := domain_length hhostname
  constructor
  · intro line hmem
    have hlength : line.length ∈ (trace.lines sender operation date).map List.length :=
      List.mem_map_of_mem hmem
    rw [hlengths] at hlength
    simp only [List.mem_cons, List.not_mem_nil, or_false] at hlength
    omega
  · have htotal : ((trace.lines sender operation date).flatMap (· ++ crlf)).length
        = (((trace.lines sender operation date).map List.length).map (· + 2)).sum := by
      rw [List.length_flatMap, List.map_map]
      congr 2
      funext line
      exact List.length_append
    rw [htotal, hlengths]
    simp only [List.map_cons, List.map_nil, List.sum_cons, List.sum_nil]
    omega

/-- A greeting that is no domain name is as good as none. -/
theorem sentFrom_invalid (h : ∀ name ∈ trace.greeting, validDomain name = false) :
    trace.sentFrom = trace.literal := by
  unfold sentFrom
  have hnone : (trace.greeting.filter fun name => validDomain name) = none := by
    rw [Option.filter_eq_none_iff]
    intro name hname
    rw [h name hname]
    exact Bool.false_ne_true
  rw [hnone]

theorem text_invalid (h : ∀ name ∈ trace.greeting, validDomain name = false) :
    trace.text sender operation date = { trace with greeting := none }.text sender operation date := by
  have hfrom : trace.sentFrom = { trace with greeting := none }.sentFrom :=
    (sentFrom_invalid h).trans (@sentFrom_invalid { trace with greeting := none } nofun).symm
  unfold text
  rw [hfrom]
  rfl

/-- **The trace is total and injection-free.** With any greeting, peer and sender it is made: four
lines of bounded size, of printable bytes but for the tabs that fold it, and a greeting that is no
domain name leaves no mark on it. -/
theorem prefixText_total (trace : Trace) (sender : Option Address) (operation : Uuid) (date : Text)
    (hhostname : validDomain trace.hostname = true) (hdate : printable date = true)
    (hlength : date.length = 31) :
    ∃ first second third fourth,
      trace.prefixText sender operation (some date)
          = some ([first, second, third, fourth].flatMap (· ++ crlf))
        ∧ first = ascii "Return-Path: <" ++ sender.elim [] Address.asStr ++ ascii ">"
        ∧ ascii "Received: from " <+: second
        ∧ ascii "\t" <+: third
        ∧ ascii "\t" <+: fourth
        ∧ (∀ line ∈ [first, second, third, fourth], line.length ≤ 998
          ∧ ∀ b ∈ line, (32 ≤ b ∧ b ≤ 126) ∨ b = 9)
        ∧ ([first, second, third, fourth].flatMap (· ++ crlf)).length + 2 ≤ 2048
        ∧ ∀ name ∈ trace.greeting, validDomain name = false →
          trace.prefixText sender operation (some date)
            = { trace with greeting := none }.prefixText sender operation (some date) := by
  obtain ⟨hline, htotal⟩ := @lines_bounds trace sender operation date hhostname hlength
  have hplain : ∀ line ∈ trace.lines sender operation date, plain line = true :=
    plain_lines hhostname (plain_of_printable hdate)
  have hsplit : splitCrlf (trace.text sender operation date)
      = trace.lines sender operation date ++ [[]] := by
    rw [text_eq, splitCrlf_lines fun line hmem => plain_clean (hplain line hmem)]
  have hmade : trace.prefixText sender operation (some date)
      = some ((trace.lines sender operation date).flatMap (· ++ crlf)) := by
    unfold prefixText
    rw [if_pos hhostname]
    dsimp only
    rw [hsplit, if_neg, text_eq]
    rw [not_or, text_eq, Nat.not_lt, List.any_eq_true]
    refine ⟨by omega, ?_⟩
    rintro ⟨line, hmem, hlong⟩
    rw [decide_eq_true_eq] at hlong
    rcases List.mem_append.1 hmem with hmem | hmem
    · have hshort := hline line hmem
      omega
    · rw [List.mem_singleton.1 hmem] at hlong
      exact absurd hlong (by decide)
  refine ⟨_, _, _, _, hmade, rfl, List.prefix_append _ _, ?_, ?_, ?_, ?_, ?_⟩
  · have htab : ascii "\t" <+: ascii "\tby " := ⟨ascii "by ", by decide⟩
    rw [List.append_assoc, List.append_assoc]
    exact htab.trans (List.prefix_append _ _)
  · have htab : ascii "\t" <+: ascii "\tid " := ⟨ascii "id ", by decide⟩
    rw [List.append_assoc, List.append_assoc]
    exact htab.trans (List.prefix_append _ _)
  · intro line hmem
    have hshort := hline line hmem
    refine ⟨by omega, fun b hb => ?_⟩
    have hbyte := List.all_eq_true.1 (traceByte_lines hhostname hdate line hmem) b hb
    rw [traceByte, Bool.or_eq_true, beq_iff_eq] at hbyte
    refine hbyte.imp_left fun h => ?_
    simpa only [printableByte, Bool.and_eq_true, decide_eq_true_eq] using h
  · have hbound := Nat.add_le_add_right htotal 2
    exact hbound.trans (by decide)
  · intro name hname hinvalid
    unfold prefixText
    dsimp only
    rw [text_invalid fun other hother => by rwa [Option.mem_unique hother hname]]

/-- A greeting that tries to add a clause of its own. -/
def sample : Trace where
  hostname := ascii "mail.example.test"
  greeting := some (ascii "evil);for<x>")
  peer := .v6 #v[0, 0, 0, 0, 0, 0, 0, 1]
  extended := true
  encrypted := true
  authenticated := true

theorem prefixText_total_sample :
    sample.prefixText none Sample.operationId (some (ascii "Thu, 01 Jan 1970 00:00:00 +0000"))
      = { sample with greeting := none }.prefixText none Sample.operationId
        (some (ascii "Thu, 01 Jan 1970 00:00:00 +0000")) := by
  obtain ⟨_, _, _, _, -, -, -, -, -, -, -, hgreeting⟩ :=
    prefixText_total sample none Sample.operationId (ascii "Thu, 01 Jan 1970 00:00:00 +0000")
      (by decide +kernel) (by decide +kernel) (by decide +kernel)
  exact hgreeting _ rfl (by decide +kernel)

example : sample.sentFrom = ascii "[IPv6:::1]" := by decide +kernel

end Rustymail.Server.Trace
