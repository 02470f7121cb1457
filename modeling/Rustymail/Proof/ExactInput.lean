import Rustymail.Proof.Received

/-!
# A message is stored as it came

What `receive_message` stores is the trace and the filtered input; only the limits of the input can
make the message too large.
-/

namespace Rustymail

open Framing

variable {submission : Bool} {lines : List Text}

theorem isAscii_lines (h : ∀ line ∈ lines, isAscii line = true) :
    isAscii (lines.flatMap (· ++ crlf)) = true := by
  unfold isAscii
  rw [List.all_flatMap, List.all_eq_true]
  exact fun line hmem => isAscii_line (h line hmem)

theorem mem_of_mem_retained {line : Text} (hstarts : ∀ line ∈ (headerLines lines).head?, continuation line = false)
    (h : line ∈ retainedLines submission lines) : line ∈ headerLines lines := by
  unfold retainedLines at h
  rw [← Groups.sift_groups true hstarts] at h
  exact Groups.mem_of_mem_sift h

/-- What is stored is ASCII if every line is. -/
theorem isAscii_storedText (hstarts : ∀ line ∈ (headerLines lines).head?, continuation line = false)
    (h : ∀ line ∈ lines, isAscii line = true) : isAscii (storedText submission lines) = true := by
  have hheader : ∀ line ∈ headerLines lines, line ∈ lines := fun line hmem =>
    (List.takeWhile_prefix _).subset hmem
  have hbody : ∀ line ∈ bodyLines lines, line ∈ lines := fun line hmem =>
    (List.dropWhile_suffix _).subset (List.mem_of_mem_tail hmem)
  unfold storedText
  rw [isAscii_append, isAscii_append, isAscii_lines fun line hmem => h line (hbody line hmem),
    isAscii_lines fun line hmem => h line (hheader line (mem_of_mem_retained hstarts hmem))]
  rfl

/-- The trace is short and ASCII. -/
theorem Server.Trace.prefixText_fits {trace : Server.Trace} {sender : Option Address} {operation : Uuid}
    {date : Option Text} {traced : Text} (hdate : ∀ text ∈ date, plain text = true)
    (h : trace.prefixText sender operation date = some traced) :
    traced.length + 2 ≤ 2048 ∧ isAscii traced = true := by
  constructor
  · unfold prefixText at h
    split_ifs at h
    cases date with
    | none => cases h
    | some date =>
        dsimp only at h
        split_ifs at h with hlong
        cases h
        rw [not_or, Nat.not_lt] at hlong
        exact hlong.1
  · obtain ⟨rest, rfl, hlines⟩ := prefixText_lines hdate h
    exact isAscii_lines fun line hmem => plain_ascii (hlines line hmem).1

namespace Server

/-- **`receive_message` stores exactly the filtered input.** If it succeeds it has taken the lines up
to the terminator and no byte more; it has stored the prefix, the header lines of the retained fields,
one empty line and the lines of the body, in no more than 2048 bytes above the limit of the message.
The header is ASCII, and with a 7-bit body everything behind the prefix is, and all of it with a prefix
that is; so is every trace, which is short enough, too. It fails with `SizeLimit`, which neither disk
nor clock makes, only where the decoded input or its header section exceeds its own limit. -/
theorem receive_stores_filtered_input (limits : ReceiveLimits) (faults : ReceiveFaults)
    (submission : Bool) (body : Body) (tracePrefix root : Text) (id : Uuid) (bufferLimit : Nat)
    (limited : limits.messageBytes + 2048 ≤ maxStoredBytes) (pieces : List Text)
    (hshort : tracePrefix.length + 2 ≤ 2048) :
    (∀ stage author rest, receiveMessage limits faults submission body tracePrefix
        (.new root id bufferLimit (limits.messageBytes + 2048) limited) pieces
          = .ok (stage, author, rest) →
      ∃ frames, DataFrames frames
        ∧ pieces.flatten = frames.flatMap (· ++ crlf) ++ Client.terminator ++ rest.flatten
        ∧ stage.hashed = tracePrefix ++ storedText submission (frames.map unstuffed)
        ∧ stage.size = stage.hashed.length ∧ stage.size ≤ limits.messageBytes + 2048
        ∧ (∀ line ∈ headerLines (frames.map unstuffed), isAscii line = true)
        ∧ (body = .sevenBit → isAscii (storedText submission (frames.map unstuffed)) = true
          ∧ (isAscii tracePrefix = true → isAscii stage.hashed = true)))
      ∧ ((∀ n, faults.append n ≠ some .sizeLimit) → faults.prepare ≠ some .sizeLimit →
        receiveMessage limits faults submission body tracePrefix
          (.new root id bufferLimit (limits.messageBytes + 2048) limited) pieces
            = .error (.storage .sizeLimit) →
        ∃ frames more, DataFrames frames ∧ pieces.flatten = frames.flatMap (· ++ crlf) ++ more
          ∧ (limits.messageBytes < octets (frames.map unstuffed)
            ∨ limits.headerBytes < octets (sectionLines (frames.map unstuffed))))
      ∧ ∀ (trace : Trace) (sender : Option Address) (operation : Uuid) (date : Option Text)
          (traced : Text), (∀ text ∈ date, plain text = true) →
        trace.prefixText sender operation date = some traced →
        traced.length + 2 ≤ 2048 ∧ isAscii traced = true := by
  refine ⟨?_, ?_, fun _ _ _ _ _ hdate h => Trace.prefixText_fits hdate h⟩
  · intro stage author rest h
    rcases @receiveMessage_cases limits faults submission body tracePrefix root id bufferLimit limited
      hshort pieces with ⟨e, herror, -⟩ | ⟨stage', author', rest', frames, hok, hframes, hbytes, hstored⟩
    · rw [h] at herror
      cases herror
    · rw [h] at hok
      cases hok
      obtain ⟨filter, kept, hfiltered⟩ := hstored.filtered
      have hwell := (HeaderFilter.retainAll_initial hfiltered).1
      have htext : body = .sevenBit → isAscii (storedText submission (frames.map unstuffed)) = true :=
        fun hbody => isAscii_storedText hwell.starts (hstored.ascii hbody)
      refine ⟨frames, hframes, hbytes, hstored.stored, hstored.size_eq, hstored.size_le, ?_, ?_⟩
      · exact fun line hmem => ascii_of_header (hwell.printable line hmem)
      · refine fun hbody => ⟨htext hbody, fun htraced => ?_⟩
        rw [hstored.stored, isAscii_append, htraced, htext hbody]
        rfl
  · intro happend hprepare h
    rcases @receiveMessage_cases limits faults submission body tracePrefix root id bufferLimit limited
      hshort pieces with ⟨e, herror, hsize⟩ | ⟨stage', author', rest', frames, hok, -⟩
    · rw [h] at herror
      cases herror
      rcases hsize rfl with (hfault | ⟨n, hfault⟩) | hexceeds
      · exact absurd hfault hprepare
      · exact absurd hfault (happend n)
      · exact hexceeds
    · rw [h] at hok
      cases hok

/-- A trace, and a stage of the least size in front of an empty message. -/
def Sample.received : Text := ascii "Received: from [192.0.2.1]\x0d\x0a"

def Sample.blankStage : StagedMessage :=
  .new [] ⟨ascii "0123456789abcdef0123456789abcdef", by decide⟩ 4096 (0 + 2048) (by decide)

def Sample.begun : Receiving :=
  ⟨1, { Sample.blankStage with
    buffer := Sample.received
    hashed := Sample.received
    size := 28
    bounded := by decide }, true, 0, 0, {}, {}⟩

/-- The limits of 0 are not exceeded by an empty message. -/
theorem receive_blank : ∃ stage rest, receiveMessage ⟨0, 0⟩ {} false .sevenBit Sample.received
    Sample.blankStage [Client.terminator] = .ok (stage, none, rest) := by
  have hdot : Framing.Clean [46] := ⟨by decide, by decide, by decide⟩
  have hfirst : Receiving.append {} ⟨0, Sample.blankStage, true, 0, 0, {}, {}⟩ Sample.received
      = .ok Sample.begun := rfl
  unfold receiveMessage
  dsimp only
  rw [if_neg Bool.false_ne_true, hfirst]
  dsimp only
  obtain ⟨rest, -, hloop⟩ := @dataLoop_line _
    (fun state : Receiving => (({} : ReceiveFaults).read state.round).map ServerError.io)
    (Receiving.line ⟨0, 0⟩ {} false .sevenBit) Sample.begun rfl [46] [] hdot (by decide)
    [Client.terminator] rfl
  rw [hloop]
  exact ⟨_, _, rfl⟩

theorem receive_stores_filtered_input_blank : ∃ stage rest,
    receiveMessage ⟨0, 0⟩ {} false .sevenBit Sample.received Sample.blankStage [Client.terminator]
        = .ok (stage, none, rest)
      ∧ stage.hashed = Sample.received ++ crlf ∧ rest.flatten = [] := by
  obtain ⟨stage, rest, hok⟩ := receive_blank
  obtain ⟨hstored, -, -⟩ := receive_stores_filtered_input ⟨0, 0⟩ {} false .sevenBit Sample.received []
    ⟨ascii "0123456789abcdef0123456789abcdef", by decide⟩ 4096 (by decide) [Client.terminator] (by decide)
  obtain ⟨frames, -, hbytes, hhashed, -⟩ := hstored stage none rest hok
  have hlength := congrArg List.length hbytes
  simp only [List.length_append, length_flatMap_crlf, Client.terminator, List.flatten_cons,
    List.flatten_nil, List.length_cons, List.length_nil] at hlength
  have hrest : rest.flatten = [] := List.eq_nil_of_length_eq_zero (by omega)
  have hframes : frames = [] := by
    cases frames with
    | nil => rfl
    | cons frame frames =>
        rw [octets_cons] at hlength
        omega
  subst hframes
  exact ⟨stage, rest, hok, hhashed, hrest⟩

end Server

end Rustymail
