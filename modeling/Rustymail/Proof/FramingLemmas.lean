import Rustymail.Protocol.Framing
import Mathlib.Data.List.Induction

/-!
# Framing is exact

Both ways to drive a decoder come to the same: the bytes go through it one after the other, whatever
the chunks are.
-/

namespace Rustymail

namespace Framing

/-- One byte of a stream. -/
def byte (framing : Framing) (b : UInt8) : Framing :=
  if framing.error.isSome then framing
  else
    match framing.decoder.push b with
    | .error e => { framing with error := some e }
    | .ok decoder =>
        match decoder.frame with
        | none => { framing with decoder := decoder }
        | some frame =>
            { framing with
              lines := framing.lines ++ [frame.take (frame.length - 2)]
              decoder := decoder.clear }

/-- Ready for more bytes. -/
def Open (framing : Framing) : Prop := framing.decoder.complete = false ∧ framing.error = none

variable {framing : Framing} {bytes : Text}

/-- One round of the loop over a chunk. -/
theorem buffered_round (framing : Framing) (b : UInt8) (bytes : Text) :
    framing.buffered (b :: bytes) =
      match framing.decoder.feedBuffered (b :: bytes) with
      | .error e => { framing with decoder := framing.decoder.left (b :: bytes), error := some e }
      | .ok (decoder, rest) =>
          match decoder.frame with
          | none => { framing with decoder := decoder }
          | some frame =>
              buffered
                { framing with
                  lines := framing.lines ++ [frame.take (frame.length - 2)]
                  decoder := decoder.clear } rest := by
  rw [buffered]
  split
  · next e h => simp only [h]
  · next decoder rest h =>
      cases hframe : decoder.frame with
      | none => simp only [h, hframe]
      | some frame => simp only [h, hframe]

/-- A chunk is taken byte by byte. -/
theorem buffered_cons (hopen : framing.Open) (b : UInt8) (bytes : Text) :
    framing.buffered (b :: bytes) =
      match framing.decoder.push b with
      | .error e => { framing with error := some e }
      | .ok decoder =>
          match decoder.frame with
          | none => buffered { framing with decoder := decoder } bytes
          | some frame =>
              buffered
                { framing with
                  lines := framing.lines ++ [frame.take (frame.length - 2)]
                  decoder := decoder.clear } bytes := by
  obtain ⟨hcomplete, -⟩ := hopen
  rw [buffered_round, LineDecoder.feedBuffered, LineDecoder.left]
  simp only [hcomplete, Bool.false_eq_true, if_false]
  cases hpush : framing.decoder.push b with
  | error e => rfl
  | ok decoder =>
      cases hnext : decoder.complete with
      | true => simp [LineDecoder.frame, hnext]
      | false =>
          simp only [LineDecoder.frame, hnext, Bool.false_eq_true, if_false]
          cases bytes with
          | nil => simp [LineDecoder.feedBuffered, buffered, hnext]
          | cons c rest =>
              rw [buffered_round]
              rfl

theorem byte_of_open (hopen : framing.Open) (b : UInt8) :
    framing.byte b =
      match framing.decoder.push b with
      | .error e => { framing with error := some e }
      | .ok decoder =>
          match decoder.frame with
          | none => { framing with decoder := decoder }
          | some frame =>
              { framing with
                lines := framing.lines ++ [frame.take (frame.length - 2)]
                decoder := decoder.clear } := by
  unfold byte
  rw [if_neg (by simp [hopen.2])]

theorem foldl_byte_of_error {e : FrameError} (herror : framing.error = some e) (bytes : Text) :
    bytes.foldl byte framing = framing := by
  induction bytes with
  | nil => rfl
  | cons b rest ih =>
      have hstay : framing.byte b = framing := by
        unfold byte
        rw [herror]
        rfl
      rw [List.foldl_cons, hstay, ih]

/-- The loop over a chunk and the loop inside `feed_buffered` are one loop over its bytes. -/
theorem buffered_eq_foldl (hopen : framing.Open) (bytes : Text) :
    framing.buffered bytes = bytes.foldl byte framing := by
  induction bytes generalizing framing with
  | nil => rw [buffered, List.foldl_nil]
  | cons b rest ih =>
      rw [buffered_cons hopen, List.foldl_cons, byte_of_open hopen]
      cases hpush : framing.decoder.push b with
      | error e => exact (foldl_byte_of_error rfl rest).symm
      | ok decoder =>
          dsimp only
          cases hframe : decoder.frame with
          | none =>
              refine ih ⟨?_, hopen.2⟩
              by_contra hcomplete
              simp [LineDecoder.frame, hcomplete] at hframe
          | some frame => exact ih ⟨rfl, hopen.2⟩

theorem takeLine_eq (decoder : LineDecoder) :
    decoder.takeLine = match decoder.frame with
      | none => (decoder, none)
      | some frame => (decoder.clear, some (frame.take (frame.length - 2))) := by
  unfold LineDecoder.takeLine LineDecoder.frame
  split_ifs
  · rfl
  · rfl

theorem fed_round (framing : Framing) (b : UInt8) (bytes : Text) :
    framing.fed (b :: bytes) =
      match framing.decoder.feedBuffered (b :: bytes) with
      | .error e => { framing with decoder := framing.decoder.left (b :: bytes), error := some e }
      | .ok (decoder, rest) =>
          match decoder.frame with
          | none => { framing with decoder := decoder }
          | some frame =>
              fed
                { framing with
                  lines := framing.lines ++ [frame.take (frame.length - 2)]
                  decoder := decoder.clear } rest := by
  have hfed : ∀ {result}, framing.decoder.feed (b :: bytes) = result →
      framing.fed (b :: bytes) = match result with
        | .error e => { framing with decoder := framing.decoder.left (b :: bytes), error := some e }
        | .ok (decoder, _, none) => { framing with decoder := decoder }
        | .ok (decoder, rest, some line) =>
            fed { framing with lines := framing.lines ++ [line], decoder := decoder } rest := by
    rintro result rfl
    rw [fed]
    split <;> simp only [*]
  rw [hfed rfl]
  unfold LineDecoder.feed
  cases hround : framing.decoder.feedBuffered (b :: bytes) with
  | error e => rfl
  | ok round =>
      obtain ⟨decoder, rest⟩ := round
      dsimp only
      rw [takeLine_eq]
      cases hframe : decoder.frame with
      | none => rfl
      | some frame => rfl

/-- Handing the lines over changes nothing. -/
theorem fed_eq_buffered (framing : Framing) (bytes : Text) :
    framing.fed bytes = framing.buffered bytes := by
  induction framing, bytes using buffered.induct with
  | case1 framing => rw [fed, buffered]
  | case2 framing b bytes e h => rw [fed_round, buffered_round, h]
  | case3 framing b bytes decoder rest h hframe =>
      rw [fed_round, buffered_round, h]
      simp only [hframe]
  | case4 framing b bytes decoder rest h frame hframe ih =>
      rw [fed_round, buffered_round, h]
      simp only [hframe]
      exact ih

theorem foldl_byte_open_or_error (hopen : framing.Open) (bytes : Text) :
    (bytes.foldl byte framing).Open ∨ (bytes.foldl byte framing).error.isSome := by
  induction bytes generalizing framing with
  | nil => exact Or.inl hopen
  | cons b rest ih =>
      rw [List.foldl_cons]
      by_cases herror : (framing.byte b).error = none
      · refine ih ⟨?_, herror⟩
        rw [byte_of_open hopen] at herror ⊢
        split at herror
        · cases herror
        · next decoder hpush =>
            cases hframe : decoder.frame with
            | none =>
                unfold LineDecoder.frame at hframe
                split_ifs at hframe with hcomplete
                simpa using hcomplete
            | some frame => rfl
      · obtain ⟨e, he⟩ := Option.ne_none_iff_exists'.1 herror
        rw [foldl_byte_of_error he, he]
        exact Or.inr rfl

/-- The cuts between chunks do not matter. -/
theorem chunked_eq_foldl (hopen : framing.Open) (chunks : List Text) :
    chunked buffered framing chunks = chunks.flatten.foldl byte framing := by
  induction chunks generalizing framing with
  | nil => rfl
  | cons chunk chunks ih =>
      unfold chunked at ih ⊢
      rw [List.foldl_cons, List.flatten_cons, List.foldl_append, if_neg (by simp [hopen.2]),
        buffered_eq_foldl hopen]
      rcases foldl_byte_open_or_error hopen chunk with hstill | herror
      · exact ih hstill
      · obtain ⟨e, he⟩ := Option.isSome_iff_exists.1 herror
        rw [foldl_byte_of_error he]
        generalize chunk.foldl byte framing = stopped at he
        clear ih
        induction chunks with
        | nil => rfl
        | cons next rest ih => rw [List.foldl_cons, if_pos (by rw [he]; rfl), ih]

/-! ### What is accepted -/

/-- A line without its CRLF: no byte of it ends a line or is forbidden. -/
def Clean (line : Text) : Prop := 0 ∉ line ∧ cr ∉ line ∧ lf ∉ line

/-- The beginning of a line: at most its last byte is a CR. -/
def CleanStart (buffer : Text) : Prop := 0 ∉ buffer ∧ lf ∉ buffer ∧ cr ∉ buffer.dropLast

/-- Why a byte does not fit behind the bytes of a line. A full buffer comes first. -/
def Stops (limit : Nat) (buffer : Text) (b : UInt8) : FrameError → Prop
  | .tooLong => buffer.length = limit
  | .invalidLineEnding => buffer.length < limit ∧ (b = 0 ∨ (b = lf ∧ buffer.getLast? ≠ some cr)
      ∨ (buffer.getLast? = some cr ∧ b ≠ lf))

/-- The lines, each with its CRLF, and the rest in the decoder are what was read of the stream; it was
read to the end, or up to a byte that cannot follow. -/
structure Exact (limit : Nat) (stream : Text) (framing : Framing) : Prop where
  limit_eq : framing.decoder.limit = limit
  consumed : framing.lines.flatMap (· ++ crlf) ++ framing.decoder.buffer
    = stream.take framing.position
  finished : framing.error = none → framing.position = stream.length
  failed : ∀ e, framing.error = some e →
    ∃ b, stream[framing.position]? = some b ∧ Stops limit framing.decoder.buffer b e
  clean : ∀ line ∈ framing.lines, Clean line ∧ line.length + 2 ≤ limit
  started : CleanStart framing.decoder.buffer
  bounded : framing.decoder.bufferedBytes ≤ limit
  pending : framing.decoder.complete = false

theorem position_eq (framing : Framing) : framing.position
    = (framing.lines.flatMap (· ++ crlf) ++ framing.decoder.buffer).length := by
  unfold position LineDecoder.bufferedBytes
  rw [List.length_append, List.length_flatMap]
  congr 3
  funext line
  simp [crlf]

theorem Exact.start (limit : Nat) : (start limit).Exact limit [] where
  limit_eq := rfl
  consumed := rfl
  finished _ := rfl
  failed e he := by cases he
  clean line hline := by cases hline
  started := by simp [CleanStart, Framing.start, LineDecoder.new]
  bounded := Nat.zero_le limit
  pending := rfl

theorem push_cases (decoder : LineDecoder) (b : UInt8) (hbound : decoder.bufferedBytes ≤ decoder.limit) :
    (∃ e, decoder.push b = .error e ∧ Stops decoder.limit decoder.buffer b e)
      ∨ (decoder.buffer.length < decoder.limit ∧ b ≠ 0
        ∧ (b = lf ↔ decoder.buffer.getLast? = some cr)
        ∧ decoder.push b = .ok
          { decoder with buffer := decoder.buffer ++ [b], complete := decide (b = lf) }) := by
  unfold LineDecoder.push
  unfold LineDecoder.bufferedBytes at hbound
  split_ifs with hfull hbad
  · exact Or.inl ⟨_, rfl, hfull⟩
  · exact Or.inl ⟨_, rfl, by omega, hbad⟩
  · refine Or.inr ⟨by omega, fun h => hbad (Or.inl h), ⟨fun h => ?_, fun h => ?_⟩, rfl⟩
    · by_contra hlast
      exact hbad (Or.inr (Or.inl ⟨h, hlast⟩))
    · by_contra hnot
      exact hbad (Or.inr (Or.inr ⟨h, hnot⟩))

theorem Exact.stopped {limit : Nat} {stream : Text} (h : framing.Exact limit stream) {e : FrameError}
    (herror : framing.error = some e) (b : UInt8) : framing.Exact limit (stream ++ [b]) := by
  obtain ⟨c, hc, hstops⟩ := h.failed e herror
  have hless : framing.position < stream.length := by
    by_contra hge
    rw [List.getElem?_eq_none (by omega)] at hc
    cases hc
  refine
    { h with
      consumed := ?_
      finished := ?_
      failed := ?_ }
  · rw [List.take_append_of_le_length (Nat.le_of_lt hless)]
    exact h.consumed
  · intro hnone
    rw [herror] at hnone
    cases hnone
  · intro e' he'
    rw [List.getElem?_append_left hless]
    exact h.failed e' he'

theorem Exact.eq_stream {limit : Nat} {stream : Text} (h : framing.Exact limit stream)
    (herror : framing.error = none) :
    framing.lines.flatMap (· ++ crlf) ++ framing.decoder.buffer = stream := by
  rw [h.consumed, h.finished herror, List.take_length]

/-- The bytes read make up the stream, so that its length is the position. -/
theorem Exact.of_eq {limit : Nat} {stream : Text} (hlimit : framing.decoder.limit = limit)
    (herror : framing.error = none)
    (heq : framing.lines.flatMap (· ++ crlf) ++ framing.decoder.buffer = stream)
    (hclean : ∀ line ∈ framing.lines, Clean line ∧ line.length + 2 ≤ limit)
    (hstarted : CleanStart framing.decoder.buffer) (hbounded : framing.decoder.bufferedBytes ≤ limit)
    (hpending : framing.decoder.complete = false) : framing.Exact limit stream where
  limit_eq := hlimit
  consumed := by rw [position_eq, heq, List.take_length]
  finished _ := by rw [position_eq, heq]
  failed e he := by
    rw [herror] at he
    cases he
  clean := hclean
  started := hstarted
  bounded := hbounded
  pending := hpending

/-- One more byte of the stream. -/
theorem Exact.byte {limit : Nat} {stream : Text} (h : framing.Exact limit stream) (b : UInt8) :
    (framing.byte b).Exact limit (stream ++ [b]) := by
  cases herror : framing.error with
  | some e =>
      have hstay : framing.byte b = framing := by
        unfold Framing.byte
        rw [if_pos (by rw [herror]; rfl)]
      rw [hstay]
      exact h.stopped herror b
  | none =>
      have heq := h.eq_stream herror
      rw [byte_of_open ⟨h.pending, herror⟩]
      have hbound := h.bounded
      rw [← h.limit_eq] at hbound
      rcases push_cases framing.decoder b hbound with ⟨e, hpush, hstops⟩ | ⟨hroom, hzero, hend, hpush⟩
      · rw [hpush]
        have hposition : framing.position = stream.length := h.finished herror
        refine
          { h with
            consumed := ?_
            finished := fun hnone => by cases hnone
            failed := ?_ }
        · change _ = (stream ++ [b]).take framing.position
          rw [hposition, List.take_left, heq]
        · rintro e' ⟨⟩
          refine ⟨b, ?_, h.limit_eq ▸ hstops⟩
          change (stream ++ [b])[framing.position]? = some b
          rw [hposition, List.getElem?_append_right (Nat.le_refl _)]
          simp
      · rw [hpush]
        dsimp only
        by_cases hb : b = lf
        · obtain ⟨line, hline⟩ : ∃ line, framing.decoder.buffer = line ++ [cr] :=
            List.getLast?_eq_some_iff.1 (hend.1 hb)
          have hframe : LineDecoder.frame ⟨framing.decoder.buffer ++ [b], framing.decoder.limit,
              decide (b = lf)⟩ = some (line ++ crlf) := by
            simp [LineDecoder.frame, hb, hline, crlf]
          have htake : (line ++ crlf).take ((line ++ crlf).length - 2) = line := by
            simp [crlf]
          have hstarted := h.started
          rw [hline] at hstarted hroom
          rw [hframe]
          dsimp only
          rw [htake]
          refine .of_eq h.limit_eq herror ?_ ?_ ?_ (Nat.zero_le limit) rfl
          · dsimp only [LineDecoder.clear]
            rw [← heq, hline, hb, List.flatMap_append]
            simp [crlf]
          · intro l hl
            rcases List.mem_append.1 hl with hold | hnew
            · exact h.clean l hold
            · obtain rfl := List.mem_singleton.1 hnew
              obtain ⟨hnul, hlf, hcr⟩ := hstarted
              rw [h.limit_eq] at hroom
              refine ⟨⟨?_, ?_, ?_⟩, ?_⟩
              · exact fun hmem => hnul (List.mem_append_left _ hmem)
              · simpa using hcr
              · exact fun hmem => hlf (List.mem_append_left _ hmem)
              · simp only [List.length_append, List.length_singleton] at hroom
                omega
          · simp [CleanStart, LineDecoder.clear]
        · have hframe : LineDecoder.frame ⟨framing.decoder.buffer ++ [b], framing.decoder.limit,
              decide (b = lf)⟩ = none := by
            simp [LineDecoder.frame, hb]
          rw [hframe]
          refine .of_eq h.limit_eq herror ?_ h.clean ?_ ?_ (by simpa using hb)
          · dsimp only
            rw [← heq, List.append_assoc]
          · obtain ⟨hnul, hlf, hcr⟩ := h.started
            refine ⟨?_, ?_, ?_⟩
            · rw [List.mem_append, List.mem_singleton, not_or]
              exact ⟨hnul, Ne.symm hzero⟩
            · rw [List.mem_append, List.mem_singleton, not_or]
              exact ⟨hlf, Ne.symm hb⟩
            · rw [List.dropLast_concat]
              intro hmem
              rcases List.eq_nil_or_concat framing.decoder.buffer with hnil | ⟨front, last, hlast⟩
              · rw [hnil] at hmem
                cases hmem
              · rw [hlast] at hmem hcr hend
                rw [List.concat_eq_append] at hmem hcr hend
                rw [List.dropLast_concat] at hcr
                rcases List.mem_append.1 hmem with hfront | hcrlast
                · exact hcr hfront
                · refine hb (hend.2 ?_)
                  rw [List.getLast?_append, List.mem_singleton.1 hcrlast]
                  rfl
          · rw [h.limit_eq] at hroom
            simp only [LineDecoder.bufferedBytes, List.length_append, List.length_singleton]
            omega

theorem exact_foldl (limit : Nat) (stream : Text) :
    (stream.foldl Framing.byte (start limit)).Exact limit stream := by
  induction stream using List.reverseRecOn with
  | nil => exact .start limit
  | append_singleton stream b ih =>
      rw [List.foldl_append]
      exact ih.byte b

/-! ### A line in the stream -/

theorem push_ok {decoder : LineDecoder} {b : UInt8} (hroom : decoder.buffer.length < decoder.limit)
    (hzero : b ≠ 0) (hend : b = lf ↔ decoder.buffer.getLast? = some cr) :
    decoder.push b = .ok
      { decoder with buffer := decoder.buffer ++ [b], complete := decide (b = lf) } := by
  unfold LineDecoder.push
  rw [if_neg (by omega), if_neg]
  rintro (h | ⟨h, hnot⟩ | ⟨h, hnot⟩)
  · exact hzero h
  · exact hnot (hend.1 h)
  · exact hnot (hend.2 h)

/-- The same framing with other bytes in the buffer. -/
def withBuffer (framing : Framing) (buffer : Text) : Framing :=
  { framing with decoder := ⟨buffer, framing.decoder.limit, framing.decoder.complete⟩ }

theorem Open.withBuffer (hopen : framing.Open) (buffer : Text) : (framing.withBuffer buffer).Open :=
  hopen

/-- A byte inside a line goes into the buffer. -/
theorem byte_within (hopen : framing.Open) {b : UInt8}
    (hroom : framing.decoder.buffer.length < framing.decoder.limit) (hzero : b ≠ 0) (hlf : b ≠ lf)
    (hlast : framing.decoder.buffer.getLast? ≠ some cr) :
    framing.byte b = framing.withBuffer (framing.decoder.buffer ++ [b]) := by
  have hend : b = lf ↔ framing.decoder.buffer.getLast? = some cr :=
    ⟨fun h => absurd h hlf, fun h => absurd h hlast⟩
  rw [byte_of_open hopen, push_ok hroom hzero hend]
  simp [LineDecoder.frame, hlf, hopen.1, Framing.withBuffer]

theorem foldl_clean (hopen : framing.Open) {line : Text} (hclean : Clean line)
    (hlast : framing.decoder.buffer.getLast? ≠ some cr)
    (hroom : framing.decoder.buffer.length + line.length ≤ framing.decoder.limit) :
    line.foldl byte framing = framing.withBuffer (framing.decoder.buffer ++ line) := by
  induction line generalizing framing with
  | nil => simp [Framing.withBuffer]
  | cons b rest ih =>
      obtain ⟨hzero, hcr, hlf⟩ := hclean
      simp only [List.mem_cons, not_or] at hzero hcr hlf
      rw [List.length_cons] at hroom
      have hnext : (framing.withBuffer (framing.decoder.buffer ++ [b])).decoder.buffer.getLast?
          ≠ some cr := by
        change (framing.decoder.buffer ++ [b]).getLast? ≠ some cr
        rw [List.getLast?_append]
        simpa using Ne.symm hcr.1
      rw [List.foldl_cons, byte_within hopen (by omega) (Ne.symm hzero.1) (Ne.symm hlf.1) hlast,
        ih (hopen.withBuffer _) ⟨hzero.2, hcr.2, hlf.2⟩ hnext]
      · simp [Framing.withBuffer]
      · simp only [Framing.withBuffer, List.length_append, List.length_singleton]
        omega

/-- A clean line that fits is read as a line. -/
theorem foldl_line (hopen : framing.Open) (hempty : framing.decoder.buffer = []) {line : Text}
    (hclean : Clean line) (hroom : line.length + 2 ≤ framing.decoder.limit) :
    (line ++ crlf).foldl byte framing = { framing with lines := framing.lines ++ [line] } := by
  have hlast : line.getLast? ≠ some cr := by
    intro h
    exact hclean.2.1 (List.mem_of_getLast? h)
  have hline := foldl_clean hopen hclean (by simp [hempty])
    (by rw [hempty]; simp only [List.length_nil]; omega)
  rw [hempty, List.nil_append] at hline
  have hcr : (framing.withBuffer line).byte cr = framing.withBuffer (line ++ [cr]) := by
    have hless : (framing.withBuffer line).decoder.buffer.length
        < (framing.withBuffer line).decoder.limit := by
      change line.length < framing.decoder.limit
      omega
    exact byte_within (hopen.withBuffer line) hless (by decide) (by decide) hlast
  have hpush : (framing.withBuffer (line ++ [cr])).decoder.push lf
      = .ok ⟨line ++ [cr] ++ [lf], framing.decoder.limit, true⟩ := by
    refine push_ok ?_ (by decide) ?_
    · change (line ++ [cr]).length < framing.decoder.limit
      rw [List.length_append, List.length_singleton]
      omega
    · simp [Framing.withBuffer]
  rw [List.foldl_append, hline]
  change ((framing.withBuffer line).byte cr).byte lf = _
  rw [hcr, byte_of_open (hopen.withBuffer _), hpush]
  have hdecoder : framing.decoder = ⟨[], framing.decoder.limit, false⟩ := by
    rw [← hempty, ← hopen.1]
  rw [hdecoder]
  simp [LineDecoder.frame, LineDecoder.clear, Framing.withBuffer]

/-- Every CR is followed by LF, and every LF comes after a CR. -/
def PairedEndings (raw : Text) : Prop :=
  (∀ i, raw[i]? = some cr → raw[i + 1]? = some lf)
    ∧ ∀ i, raw[i]? = some lf → 0 < i ∧ raw[i - 1]? = some cr

theorem PairedEndings.of_clean {line : Text} (h : Clean line) : PairedEndings (line ++ crlf) := by
  obtain ⟨-, hcr, hlf⟩ := h
  constructor
  · intro i hi
    have hlast : i = line.length := by
      rcases Nat.lt_trichotomy i line.length with hless | heq | hgreater
      · rw [List.getElem?_append_left hless] at hi
        exact absurd (List.mem_of_getElem? hi) hcr
      · exact heq
      · rw [List.getElem?_append_right (by omega)] at hi
        obtain ⟨k, hk⟩ : ∃ k, i - line.length = k + 1 := ⟨i - line.length - 1, by omega⟩
        rw [hk] at hi
        cases k with
        | zero => cases hi
        | succ k => cases hi
    rw [hlast, List.getElem?_append_right (by omega)]
    simp [crlf]
  · intro i hi
    have hlast : i = line.length + 1 := by
      by_cases hless : i < line.length
      · rw [List.getElem?_append_left hless] at hi
        exact absurd (List.mem_of_getElem? hi) hlf
      · rw [List.getElem?_append_right (by omega)] at hi
        by_contra hne
        rcases Nat.lt_or_ge (i - line.length) 1 with hzero | hmore
        · rw [show i - line.length = 0 by omega] at hi
          cases hi
        · rw [List.getElem?_eq_none (by simp only [crlf, List.length_cons, List.length_nil]; omega)]
            at hi
          cases hi
    refine ⟨by omega, ?_⟩
    rw [hlast, Nat.add_sub_cancel, List.getElem?_append_right (Nat.le_refl _)]
    simp [crlf]

/-- Bytes before an LF whose endings are paired are a line and its CR. -/
theorem PairedEndings.clean {raw : Text} (h : PairedEndings (raw ++ [lf])) (hlf : lf ∉ raw)
    (hzero : 0 ∉ raw) : ∃ line, raw = line ++ [cr] ∧ Clean line := by
  obtain ⟨hcr, hend⟩ := h
  have hat : (raw ++ [lf])[raw.length]? = some lf := by simp
  obtain ⟨hpos, hbefore⟩ := hend raw.length hat
  rw [List.getElem?_append_left (by omega)] at hbefore
  have hlast : raw.getLast? = some cr := by
    rw [List.getLast?_eq_getElem?]
    exact hbefore
  obtain ⟨line, rfl⟩ := List.getLast?_eq_some_iff.1 hlast
  rw [List.mem_append, not_or] at hlf hzero
  refine ⟨line, rfl, hzero.1, ?_, hlf.1⟩
  intro hmem
  obtain ⟨i, hi⟩ := List.mem_iff_getElem?.1 hmem
  have hless : i < line.length := by
    by_contra hge
    rw [List.getElem?_eq_none (by omega)] at hi
    cases hi
  have hnext := hcr i (by
    rw [List.append_assoc, List.getElem?_append_left hless]
    exact hi)
  rw [List.getElem?_append_left (by simp only [List.length_append, List.length_singleton]; omega)]
    at hnext
  rcases List.mem_append.1 (List.mem_of_getElem? hnext) with hin | hin
  · exact hlf.1 hin
  · exact hlf.2 hin

/-- The lines before do not matter to what follows. -/
theorem foldl_after (before : List Text) (framing : Framing) (bytes : Text) :
    bytes.foldl byte { framing with lines := before ++ framing.lines }
      = { bytes.foldl byte framing with lines := before ++ (bytes.foldl byte framing).lines } := by
  induction bytes generalizing framing with
  | nil => rfl
  | cons b rest ih =>
      have hbyte : byte { framing with lines := before ++ framing.lines } b
          = { framing.byte b with lines := before ++ (framing.byte b).lines } := by
        unfold byte
        dsimp only
        split_ifs
        · rfl
        · cases framing.decoder.push b with
          | error e => rfl
          | ok decoder =>
              dsimp only
              cases decoder.frame with
              | none => rfl
              | some frame =>
                  dsimp only
                  rw [List.append_assoc]
      rw [List.foldl_cons, List.foldl_cons, hbyte, ih]

/-- Between two lines the decoder is as it was at the start. -/
theorem foldl_from_line {limit : Nat} {stream : Text} (hexact : framing.Exact limit stream)
    (herror : framing.error = none) (hempty : framing.decoder.buffer = []) (bytes : Text) :
    (bytes.foldl byte framing).error = (bytes.foldl byte (start limit)).error := by
  have hframing : framing = { start limit with lines := framing.lines ++ (start limit).lines } := by
    obtain ⟨lines, decoder, error⟩ := framing
    obtain ⟨buffer, held, complete⟩ := decoder
    have hlimit : held = limit := hexact.limit_eq
    have hcomplete : complete = false := hexact.pending
    change error = none at herror
    change buffer = [] at hempty
    rw [hlimit, hcomplete, herror, hempty]
    simp [start, LineDecoder.new]
  rw [hframing, foldl_after]

/-- The bytes up to an LF are accepted exactly if they are free of NUL, end lines properly and fit. -/
theorem accepted_iff (limit : Nat) {raw : Text} (hlf : lf ∉ raw) :
    ((raw ++ [lf]).foldl byte (start limit)).error = none ↔
      0 ∉ raw ∧ PairedEndings (raw ++ [lf]) ∧ raw.length + 1 ≤ limit := by
  constructor
  · intro herror
    have hexact := exact_foldl limit (raw ++ [lf])
    have heq := hexact.eq_stream herror
    have hbuffer := hexact.started.2.1
    cases hlines : ((raw ++ [lf]).foldl byte (start limit)).lines with
    | nil =>
        rw [hlines, List.flatMap_nil, List.nil_append] at heq
        rw [heq] at hbuffer
        simp at hbuffer
    | cons line more =>
        obtain ⟨hclean, hroom⟩ := hexact.clean line (by rw [hlines]; exact List.mem_cons_self)
        rw [hlines, List.flatMap_cons] at heq
        -- the line ends at the first LF, and that is the one behind `raw`
        have hcut : raw ++ lf :: [] = line ++ [cr] ++ lf :: (more.flatMap (· ++ crlf)
            ++ ((raw ++ [lf]).foldl byte (start limit)).decoder.buffer) := by
          refine heq.symm.trans ?_
          simp only [crlf, List.append_assoc, List.cons_append, List.nil_append]
        obtain ⟨hraw, -, -⟩ := (List.append_cons_inj_of_notMem hlf (by simp)).1 hcut
        rw [hraw]
        refine ⟨?_, ?_, ?_⟩
        · rw [List.mem_append, not_or]
          exact ⟨hclean.1, by decide⟩
        · rw [List.append_assoc]
          exact .of_clean hclean
        · rw [List.length_append, List.length_singleton]
          omega
  · rintro ⟨hzero, hpaired, hroom⟩
    obtain ⟨line, rfl, hclean⟩ := hpaired.clean hlf hzero
    rw [List.length_append, List.length_singleton] at hroom
    rw [List.append_assoc]
    have hopen : (start limit).Open := ⟨rfl, rfl⟩
    change ((line ++ crlf).foldl byte (start limit)).error = none
    rw [foldl_line hopen rfl hclean hroom]
    rfl

end Framing

/-- Driving a decoder over the chunks of a stream gives the same lines, the same error at the same
place or the same rest as the whole stream at once, through either interface; what it gives is
exact, and the bytes up to an LF are taken exactly if they form a line that fits. -/
theorem line_framing_exact (limit : Nat) (chunks : List Text) :
    Framing.chunked Framing.buffered (.start limit) chunks
        = (Framing.start limit).buffered chunks.flatten
      ∧ Framing.chunked Framing.fed (.start limit) chunks
        = (Framing.start limit).fed chunks.flatten
      ∧ (Framing.start limit).fed chunks.flatten = (Framing.start limit).buffered chunks.flatten
      ∧ ((Framing.start limit).buffered chunks.flatten).Exact limit chunks.flatten
      ∧ ∀ before raw, ((Framing.start limit).buffered before).error = none →
        ((Framing.start limit).buffered before).decoder.buffer = [] → lf ∉ raw →
        (((Framing.start limit).buffered (before ++ (raw ++ [lf]))).error = none ↔
          0 ∉ raw ∧ Framing.PairedEndings (raw ++ [lf]) ∧ raw.length + 1 ≤ limit) := by
  have hopen : (Framing.start limit).Open := ⟨rfl, rfl⟩
  have hfed : Framing.fed = Framing.buffered := by
    funext framing bytes
    exact framing.fed_eq_buffered bytes
  have hwhole := Framing.buffered_eq_foldl hopen chunks.flatten
  have hchunked := Framing.chunked_eq_foldl hopen chunks
  refine ⟨hchunked.trans hwhole.symm, ?_, by rw [hfed], ?_, ?_⟩
  · rw [hfed]
    exact hchunked.trans hwhole.symm
  · rw [hwhole]
    exact Framing.exact_foldl limit chunks.flatten
  · intro before raw herror hempty hraw
    rw [Framing.buffered_eq_foldl hopen] at herror hempty ⊢
    rw [List.foldl_append, Framing.foldl_from_line (Framing.exact_foldl limit before) herror hempty]
    exact Framing.accepted_iff limit hraw

end Rustymail
