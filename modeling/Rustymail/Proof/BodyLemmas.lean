import Rustymail.Client.Transfer
import Rustymail.Proof.FramingLemmas

/-!
# What `send_body` makes of a message

The loop over the chunks comes to this: the bytes read are cut into lines, every line must be fit to
be sent, and what is written are the lines as they go on the wire. Where the chunks are cut does not
matter.
-/

namespace Rustymail.Client

variable {message : Message} {first headers : Bool}

/-- Lines without their CRLF, all of them fit to be sent. -/
def fitLines (message : Message) : (first headers : Bool) → List Text → Bool
  | _, _, [] => true
  | first, headers, line :: rest =>
      fitToSend message first headers (line ++ crlf)
        && fitLines message false (headers && decide (line ≠ [])) rest

/-- What goes on the wire for them. -/
def wireLines (message : Message) : (first : Bool) → List Text → Text
  | _, [] => []
  | first, line :: rest => onWire message first (line ++ crlf) ++ wireLines message false rest

/-- The headers go on as long as no line is empty. -/
theorem headers_cons (line : Text) (rest : List Text) :
    (headers && decide (line ≠ []) && decide ([] ∉ rest))
      = (headers && decide ([] ∉ line :: rest)) := by
  cases line with
  | nil => simp
  | cons byte line => simp

theorem fitLines_append (before after : List Text) :
    fitLines message first headers (before ++ after) =
      (fitLines message first headers before
        && fitLines message (first && before.isEmpty) (headers && decide ([] ∉ before)) after) := by
  induction before generalizing first headers with
  | nil => simp [fitLines]
  | cons line rest ih =>
      rw [List.cons_append, fitLines, fitLines, ih, headers_cons, ← Bool.and_assoc]
      simp

theorem wireLines_append (before after : List Text) :
    wireLines message first (before ++ after) =
      wireLines message first before ++ wireLines message (first && before.isEmpty) after := by
  induction before generalizing first with
  | nil => simp [wireLines]
  | cons line rest ih =>
      rw [List.cons_append, wireLines, wireLines, ih, List.append_assoc]
      simp

/-! ### One chunk -/

/-- A frame that is complete after a byte ends in CRLF. -/
theorem push_frame {decoder decoder' : LineDecoder} {byte : UInt8} {frame : Text}
    (hpush : decoder.push byte = .ok decoder') (hframe : decoder'.frame = some frame) :
    frame = frame.take (frame.length - 2) ++ crlf := by
  unfold LineDecoder.push at hpush
  split_ifs at hpush with hfull hstops
  cases hpush
  unfold LineDecoder.frame at hframe
  split_ifs at hframe with hcomplete
  cases hframe
  have hbyte : byte = lf := of_decide_eq_true hcomplete
  have hlast : decoder.buffer.getLast? = some cr := by
    by_contra hlast
    exact hstops (Or.inr (Or.inl ⟨hbyte, hlast⟩))
  obtain ⟨line, hbuffer⟩ := List.getLast?_eq_some_iff.1 hlast
  rw [hbyte, hbuffer]
  simp [crlf]

/-- What becomes of a chunk whose bytes, from the decoder on, frame to this. -/
def framed (message : Message) (progress : BodyProgress) (output : Text) (framing : Framing) :
    Option (BodyProgress × Text) :=
  if framing.error.isNone && fitLines message progress.first progress.headers framing.lines then
    some (⟨framing.decoder, progress.total, progress.first && framing.lines.isEmpty,
      progress.headers && decide ([] ∉ framing.lines)⟩,
      output ++ wireLines message progress.first framing.lines)
  else none

/-- **A chunk.** It is sent exactly if its bytes continue the framing without an error and complete
only fit lines. -/
theorem sendChunk_eq (chunk : Text) (progress : BodyProgress) (output : Text)
    (hopen : progress.decoder.complete = false) :
    sendChunk message chunk progress output =
      framed message progress output (chunk.foldl Framing.byte ⟨[], progress.decoder, none⟩) := by
  induction chunk generalizing progress output with
  | nil => simp [sendChunk, framed, fitLines, wireLines]
  | cons byte rest ih =>
      have hstart : Framing.Open ⟨[], progress.decoder, none⟩ := ⟨hopen, rfl⟩
      rw [sendChunk, List.foldl_cons, Framing.byte_of_open hstart byte]
      dsimp only
      cases hpush : progress.decoder.push byte with
      | error e =>
          dsimp only
          rw [Framing.foldl_byte_of_error rfl]
          rfl
      | ok decoder =>
          dsimp only
          cases hframe : decoder.frame with
          | none =>
              dsimp only
              refine ih { progress with decoder := decoder } output ?_
              by_contra hcomplete
              simp [LineDecoder.frame, hcomplete] at hframe
          | some frame =>
              have hline := push_frame hpush hframe
              dsimp only
              generalize hcut : frame.take (frame.length - 2) = line at hline ⊢
              subst hline
              -- the line comes before whatever the rest completes
              have hafter := Framing.foldl_after [line] ⟨[], decoder.clear, none⟩ rest
              simp only [List.append_nil] at hafter
              rw [List.nil_append, hafter]
              unfold sendFrame
              by_cases hfit : fitToSend message progress.first progress.headers (line ++ crlf) = true
              · have hempty : (line ++ crlf ≠ crlf) ↔ line ≠ [] := by
                  simp
                dsimp only
                rw [if_pos hfit]
                dsimp only
                rw [ih _ _ rfl]
                generalize rest.foldl Framing.byte ⟨[], decoder.clear, none⟩ = framing
                simp only [framed, hempty, List.singleton_append, fitLines, wireLines, hfit, Bool.true_and,
                  Bool.false_and, List.isEmpty_cons, Bool.and_false, List.append_assoc,
                  headers_cons]
              · dsimp only
                rw [if_neg hfit]
                dsimp only [framed]
                rw [if_neg]
                intro hlines
                rw [List.singleton_append, fitLines, Bool.and_eq_true, Bool.and_eq_true] at hlines
                exact hfit hlines.2.1

/-! ### The whole body -/

/-- The bytes of a message as they have been cut into lines so far. -/
def cut (read : Text) : Framing := read.foldl Framing.byte (.start 1000)

/-- What has been written for the bytes read so far. -/
def written (message : Message) (read : Text) : Text := wireLines message true (cut read).lines

/-- `send_body` after the bytes read so far. -/
structure Progressed (message : Message) (read : Text) (progress : BodyProgress) : Prop where
  framed : (cut read).error = none
  fit : fitLines message true true (cut read).lines = true
  at_read : progress = ⟨(cut read).decoder, read.length, (cut read).lines.isEmpty,
    decide ([] ∉ (cut read).lines)⟩

theorem Progressed.start (message : Message) : Progressed message [] .start := ⟨rfl, rfl, rfl⟩

/-- More bytes continue the lines. -/
theorem cut_append {read : Text} (herror : (cut read).error = none) (chunk : Text) :
    cut (read ++ chunk) =
      { chunk.foldl Framing.byte ⟨[], (cut read).decoder, none⟩ with
        lines := (cut read).lines
          ++ (chunk.foldl Framing.byte ⟨[], (cut read).decoder, none⟩).lines } := by
  have hafter := Framing.foldl_after (cut read).lines ⟨[], (cut read).decoder, none⟩ chunk
  rw [← hafter, cut, List.foldl_append]
  congr 1
  rw [List.append_nil, ← herror]
  rfl

theorem written_append (message : Message) {read : Text} (herror : (cut read).error = none)
    (chunk : Text) : ∃ output, written message (read ++ chunk) = written message read ++ output := by
  refine ⟨wireLines message (true && (cut read).lines.isEmpty)
    (chunk.foldl Framing.byte ⟨[], (cut read).decoder, none⟩).lines, ?_⟩
  rw [written, cut_append herror, wireLines_append]
  rfl

theorem Progressed.decoder_open {read : Text} {progress : BodyProgress}
    (h : Progressed message read progress) : progress.decoder.complete = false := by
  rw [h.at_read]
  exact (Framing.exact_foldl 1000 read).pending

/-- **One round of `send_body`.** A chunk is sent exactly if the bytes read with it still are cut into
fit lines, and then what it writes continues what was written. -/
theorem Progressed.sendChunk {read chunk output : Text} {progress progress' : BodyProgress}
    (h : Progressed message read progress) :
    sendChunk message chunk { progress with total := progress.total + chunk.length } []
        = some (progress', output) ↔
      Progressed message (read ++ chunk) progress'
        ∧ written message (read ++ chunk) = written message read ++ output := by
  have hcut := cut_append h.framed chunk
  rw [sendChunk_eq _ _ _ (by exact h.decoder_open)]
  obtain rfl := h.at_read
  dsimp only
  generalize hframing : chunk.foldl Framing.byte ⟨[], (cut read).decoder, none⟩ = framing at hcut
  have hlines : (cut (read ++ chunk)).lines = (cut read).lines ++ framing.lines := by rw [hcut]
  have herror : (cut (read ++ chunk)).error = framing.error := by rw [hcut]
  have hdecoder : (cut (read ++ chunk)).decoder = framing.decoder := by rw [hcut]
  have hfit : fitLines message true true (cut (read ++ chunk)).lines
      = fitLines message (cut read).lines.isEmpty (decide ([] ∉ (cut read).lines)) framing.lines := by
    rw [hlines, fitLines_append, h.fit]
    simp
  have hwritten : written message (read ++ chunk)
      = written message read ++ wireLines message (cut read).lines.isEmpty framing.lines := by
    rw [written, hlines, wireLines_append, Bool.true_and]
    rfl
  have hfirst : ((cut read).lines ++ framing.lines).isEmpty
      = ((cut read).lines.isEmpty && framing.lines.isEmpty) := by
    cases (cut read).lines with
    | nil => simp
    | cons line rest => simp
  unfold Client.framed
  dsimp only
  constructor
  · intro hsent
    split_ifs at hsent with hfits
    rw [Bool.and_eq_true, Option.isNone_iff_eq_none] at hfits
    cases hsent
    refine ⟨⟨herror.trans hfits.1, hfit.trans hfits.2, ?_⟩, ?_⟩
    · rw [hlines, hdecoder, hfirst]
      simp
    · rw [hwritten, List.nil_append]
  · rintro ⟨⟨hnone, hlinesFit, rfl⟩, hout⟩
    rw [hwritten] at hout
    rw [← List.append_cancel_left hout, hlines, hdecoder, hfirst]
    rw [if_pos]
    · simp
    · rw [Bool.and_eq_true, Option.isNone_iff_eq_none]
      exact ⟨herror.symm.trans hnone, hfit.symm.trans hlinesFit⟩

/-- A body that is read to the end consists of its lines. -/
theorem Progressed.complete {read : Text} {progress : BodyProgress}
    (h : Progressed message read progress) (hempty : progress.decoder.bufferedBytes = 0) :
    read = (cut read).lines.flatMap (· ++ crlf) := by
  have heq := (Framing.exact_foldl 1000 read).eq_stream h.framed
  rw [h.at_read] at hempty
  have hbuffer : (cut read).decoder.buffer = [] := List.eq_nil_of_length_eq_zero hempty
  change (cut read).lines.flatMap (· ++ crlf) ++ (cut read).decoder.buffer = read at heq
  rw [hbuffer, List.append_nil] at heq
  exact heq.symm

/-! ### A reader of stored bytes -/

/-- What `send_body` takes: the size is right, and the bytes are lines fit to be sent, one of them the
separator behind the headers. -/
structure Sendable (message : Message) (stored : Text) : Prop where
  size : stored.length = message.storedSize
  framed : (cut stored).error = none
  lines : (cut stored).decoder.buffer = []
  fit : fitLines message true true (cut stored).lines = true
  separated : [] ∈ (cut stored).lines

theorem Sendable.eq_lines {stored : Text} (h : Sendable message stored) :
    stored = (cut stored).lines.flatMap (· ++ crlf) := by
  have heq := (Framing.exact_foldl 1000 stored).eq_stream h.framed
  change (cut stored).lines.flatMap (· ++ crlf) ++ (cut stored).decoder.buffer = stored at heq
  rw [h.lines, List.append_nil] at heq
  exact heq.symm

/-- The beginning of such a message raises no objection. -/
theorem Sendable.progressed {stored read : Text} (h : Sendable message stored)
    (hread : read <+: stored) :
    Progressed message read ⟨(cut read).decoder, read.length, (cut read).lines.isEmpty,
      decide ([] ∉ (cut read).lines)⟩ := by
  obtain ⟨rest, rfl⟩ := hread
  have herror : (cut read).error = none := by
    by_contra hsome
    obtain ⟨e, he⟩ := Option.ne_none_iff_exists'.1 hsome
    have hstays : cut (read ++ rest) = cut read := by
      rw [cut, List.foldl_append]
      exact Framing.foldl_byte_of_error he rest
    have hframed := h.framed
    rw [hstays, he] at hframed
    cases hframed
  refine ⟨herror, ?_, rfl⟩
  have hfit := h.fit
  rw [cut_append herror] at hfit
  dsimp only at hfit
  rw [fitLines_append, Bool.and_eq_true] at hfit
  exact hfit.1

/-- **The course of `send_body`.** If it succeeds, it has read a message it can send and written the
message's lines; and it does not complain about the content of such a message. -/
theorem sendBody_transfers (stored : Text) (rounds : Nat) {progress : BodyProgress}
    (transfer : Transfer) (hprogress : Progressed message transfer.read progress)
    (hwritten : transfer.written = written message transfer.read)
    (hbelow : transfer.read.length ≤ message.storedSize)
    (hrounds : message.storedSize < rounds + transfer.read.length) :
    Dialogue.Always Transfer.observe (fun _ _ => True)
      (fun _ after => Sendable message after.read ∧ after.ended = true
        ∧ after.written = written message after.read)
      (fun failure after => failure = .content → Sendable message stored → ¬ after.Faithful stored)
      (sendBody message rounds progress) transfer := by
  induction rounds generalizing progress transfer with
  | zero => omega
  | succ rounds ih =>
      refine ⟨trivial, ?_⟩
      intro answer
      match answer with
      | .elapsed =>
          intro helapsed
          cases helapsed
      | .failed =>
          intro _ _ hfaithful
          exact absurd hfaithful.whole Bool.true_eq_false.mp
      | .bytes [] =>
          have hat := hprogress.at_read
          refine Dialogue.Always.require ?_ ?_
          · rintro ⟨htotal, hbuffered, hheaders⟩
            rw [hat] at htotal hbuffered hheaders
            refine ⟨⟨htotal, hprogress.framed, List.eq_nil_of_length_eq_zero hbuffered,
              hprogress.fit, ?_⟩, rfl, hwritten⟩
            change [] ∈ (cut transfer.read).lines
            simpa using hheaders
          · intro hrefused _ hsendable hfaithful
            have hall : transfer.read = stored := hfaithful.ended rfl
            rw [← hall] at hsendable
            refine hrefused ?_
            rw [hat]
            refine ⟨hsendable.size, ?_, ?_⟩
            · simp [LineDecoder.bufferedBytes, hsendable.lines]
            · simpa using hsendable.separated
      | .bytes (byte :: rest) =>
          have htotal : progress.total = transfer.read.length := by rw [hprogress.at_read]
          have hlength : (transfer.read ++ byte :: rest).length
              = progress.total + (byte :: rest).length := by
            rw [List.length_append, htotal]
          refine Dialogue.Always.bind (Dialogue.Always.require ?_ ?_)
          · intro hfits
            refine Dialogue.Always.bind ?_
            cases hchunk : sendChunk message (byte :: rest)
                { progress with total := progress.total + (byte :: rest).length } [] with
            | none =>
                intro _ hsendable hfaithful
                have hnext := hsendable.progressed hfaithful.within
                obtain ⟨output, hout⟩ := written_append message hprogress.framed
                  (byte :: rest)
                have hsent := hprogress.sendChunk.2 ⟨hnext, hout⟩
                rw [hchunk] at hsent
                cases hsent
            | some sent =>
                obtain ⟨progress', output⟩ := sent
                obtain ⟨hnext, hout⟩ := hprogress.sendChunk.1 hchunk
                refine Dialogue.Always.bind (Dialogue.Always.mapError
                  (Dialogue.Always.insist trivial ?_ ?_))
                · intro _ _
                  refine ih _ hnext ?_ ?_ ?_
                  · change transfer.written ++ output = _
                    rw [hwritten]
                    exact hout.symm
                  · change (transfer.read ++ byte :: rest).length ≤ message.storedSize
                    omega
                  · change message.storedSize < rounds + (transfer.read ++ byte :: rest).length
                    rw [List.length_append, List.length_cons]
                    omega
                · intro _ hcontent
                  cases hcontent
          · intro htoo _ hsendable hfaithful
            have hwithin : (transfer.read ++ byte :: rest).length ≤ stored.length :=
              hfaithful.within.length_le
            rw [hsendable.size] at hwithin
            omega

end Rustymail.Client
