import Rustymail.Server.Stream

/-!
# Readers and their pieces

How a stream is cut into pieces never matters to who reads it: two readers with the same bytes left
give the same lines and the same messages, and then have the same bytes left again.
-/

namespace Rustymail.Server

open Checked

/-- What a decoder makes of two chunks one after the other. -/
theorem feedBuffered_append {decoder : LineDecoder} (hopen : decoder.complete = false)
    (first second : Text) :
    decoder.feedBuffered (first ++ second)
      = match decoder.feedBuffered first with
        | .error e => .error e
        | .ok (next, left) =>
            if next.complete then .ok (next, left ++ second) else next.feedBuffered second := by
  induction first generalizing decoder with
  | nil =>
      rw [List.nil_append, LineDecoder.feedBuffered.eq_1 decoder]
      dsimp only
      rw [if_neg (by simp [hopen])]
  | cons byte first ih =>
      rw [List.cons_append, LineDecoder.feedBuffered, LineDecoder.feedBuffered,
        if_neg (by simp [hopen]), if_neg (by simp [hopen])]
      cases hpush : decoder.push byte with
      | error e => rfl
      | ok next =>
          dsimp only
          by_cases hcomplete : next.complete = true
          · rw [if_pos hcomplete, if_pos hcomplete]
            dsimp only
            rw [if_pos hcomplete]
          · rw [if_neg hcomplete, if_neg hcomplete]
            exact ih (Bool.eq_false_iff.2 hcomplete)

/-- `fillLine`, with the bytes that are left. -/
def filled (result : Except ErrorKind (LineDecoder × List Text × Bool)) :
    Except ErrorKind (LineDecoder × Text × Bool) :=
  result.map fun (decoder, left, more) => (decoder, left.flatten, more)

/-- A line of a stream that arrives in one piece. -/
def fillWhole (decoder : LineDecoder) (bytes : Text) : Except ErrorKind (LineDecoder × Text × Bool) :=
  match decoder.feedBuffered bytes with
  | .error _ => .error .invalidData
  | .ok (decoder, left) =>
      if decoder.complete then .ok (decoder, left, true)
      else if decoder.bufferedBytes = 0 then .ok (decoder, [], false)
      else .error .unexpectedEof

theorem fillLine_whole {decoder : LineDecoder} (hopen : decoder.complete = false)
    (pieces : List Text) : filled (fillLine decoder pieces) = fillWhole decoder pieces.flatten := by
  induction pieces generalizing decoder with
  | nil =>
      unfold fillLine fillWhole
      rw [List.flatten_nil, LineDecoder.feedBuffered]
      simp only [hopen, Bool.false_eq_true, if_false]
      split_ifs
      · rfl
      · rfl
  | cons piece pieces ih =>
      rw [fillLine, List.flatten_cons]
      by_cases hempty : piece.isEmpty = true
      · rw [if_pos hempty, ih hopen, List.isEmpty_iff.1 hempty, List.nil_append]
      · rw [if_neg hempty]
        unfold fillWhole
        rw [feedBuffered_append hopen]
        cases hfeed : decoder.feedBuffered piece with
        | error e => rfl
        | ok fed =>
            obtain ⟨next, left⟩ := fed
            dsimp only
            by_cases hcomplete : next.complete = true
            · rw [if_pos hcomplete, if_pos hcomplete]
              dsimp only
              rw [if_pos hcomplete]
              rfl
            · rw [if_neg hcomplete, if_neg hcomplete]
              exact ih (Bool.eq_false_iff.2 hcomplete)

variable {pieces others : List Text}

theorem fillLine_same (decoder : LineDecoder) (hopen : decoder.complete = false)
    (h : pieces.flatten = others.flatten) :
    filled (fillLine decoder pieces) = filled (fillLine decoder others) := by
  rw [fillLine_whole hopen, fillLine_whole hopen, h]

/-- One round of the loop of `receive_message`. -/
theorem dataLoop_eq {σ : Type} (wait : σ → Option ServerError)
    (line : σ → Text → Except ServerError σ) (state : σ) (pieces : List Text) :
    dataLoop wait line state pieces
      = match wait state with
        | some e => .error e
        | none =>
            match fillLine (.new 1001) pieces with
            | .error e => .error (.io e)
            | .ok (_, _, false) => .error (.io .unexpectedEof)
            | .ok (decoder, rest, true) =>
                match decoder.frame with
                | none => .error (.io .other)
                | some frame =>
                    match decodeDataFrame frame with
                    | .error _ => .error (.io .invalidData)
                    | .ok none => .ok (state, rest)
                    | .ok (some data) =>
                        match line state data with
                        | .error e => .error e
                        | .ok state => dataLoop wait line state rest := by
  rw [dataLoop]
  cases wait state with
  | some e => rfl
  | none =>
      dsimp only
      split
      · next hfill => simp only [hfill]
      · next hfill => simp only [hfill]
      · next decoder rest hfill =>
          cases hframe : decoder.frame with
          | none => simp only [hfill, hframe]
          | some frame =>
              cases hdecoded : decodeDataFrame frame with
              | error e => simp only [hfill, hframe, hdecoded]
              | ok data =>
                  cases data with
                  | none => simp only [hfill, hframe, hdecoded]
                  | some data =>
                      cases hline : line state data with
                      | error e => simp only [hfill, hframe, hdecoded, hline]
                      | ok state => simp only [hfill, hframe, hdecoded, hline]

/-- `dataLoop`, with the bytes that are left. -/
def gathered {σ : Type} (result : Except ServerError (σ × List Text)) :
    Except ServerError (σ × Text) :=
  result.map fun (state, left) => (state, left.flatten)

theorem dataLoop_same {σ : Type} (wait : σ → Option ServerError)
    (line : σ → Text → Except ServerError σ) (state : σ) (h : pieces.flatten = others.flatten) :
    gathered (dataLoop wait line state pieces) = gathered (dataLoop wait line state others) := by
  induction hlength : pieces.flatten.length using Nat.strong_induction_on
      generalizing state pieces others with
  | _ n ih =>
      rw [dataLoop_eq wait line state pieces, dataLoop_eq wait line state others]
      cases wait state with
      | some e => rfl
      | none =>
          dsimp only
          rcases map_eq_map (fillLine_same (.new 1001) rfl h) with
            ⟨e, hfirst, hsecond⟩ | ⟨⟨decoder, left, more⟩, ⟨decoder', left', more'⟩, hfirst, hsecond,
              hsame⟩
          · rw [hfirst, hsecond]
          · obtain rfl : decoder = decoder' := congrArg Prod.fst hsame
            obtain rfl : more = more' := congrArg (·.2.2) hsame
            have hleft : left.flatten = left'.flatten := congrArg (·.2.1) hsame
            rw [hfirst, hsecond]
            cases more with
            | false => rfl
            | true =>
                have hless := fillLine_length rfl hfirst
                dsimp only
                cases decoder.frame with
                | none => rfl
                | some frame =>
                    dsimp only
                    cases decodeDataFrame frame with
                    | error e => rfl
                    | ok decoded =>
                        cases decoded with
                        | none => exact congrArg (fun left => Except.ok (state, left)) hleft
                        | some data =>
                            dsimp only
                            cases line state data with
                            | error e => rfl
                            | ok state =>
                                exact ih left.flatten.length (hlength ▸ hless) state hleft rfl

/-- `receiveMessage`, with the bytes that are left. -/
def taken (result : Except ServerError (StagedMessage × Option Address × List Text)) :
    Except ServerError (StagedMessage × Option Address × Text) :=
  result.map fun (stage, author, left) => (stage, author, left.flatten)

/-- However a message is cut, the same is received. -/
theorem receiveMessage_same (limits : ReceiveLimits) (faults : ReceiveFaults) (submission : Bool)
    (body : Body) (text : Text) (stage : StagedMessage) (h : pieces.flatten = others.flatten) :
    taken (receiveMessage limits faults submission body text stage pieces)
      = taken (receiveMessage limits faults submission body text stage others) := by
  unfold receiveMessage
  dsimp only
  split
  · rfl
  · next state _ =>
      rcases map_eq_map (dataLoop_same (fun state => (faults.read state.round).map .io)
          (Receiving.line limits faults submission body) state h) with
        ⟨e, hfirst, hsecond⟩ | ⟨⟨state, left⟩, ⟨state', left'⟩, hfirst, hsecond, hsame⟩
      · rw [hfirst, hsecond]
      · obtain rfl : state = state' := congrArg Prod.fst hsame
        have hleft : left.flatten = left'.flatten := congrArg Prod.snd hsame
        rw [hfirst, hsecond]
        dsimp only
        cases state.finish faults submission with
        | error e => rfl
        | ok prepared =>
            obtain ⟨stage, author⟩ := prepared
            exact congrArg (fun left => Except.ok (stage, author, left)) hleft

namespace Reader

variable {reader other : Reader}

/-- The bytes that a reader still gives. -/
def bytes (reader : Reader) : Text := reader.pieces.flatten

theorem bytes_rest (pieces : List Text) : (rest pieces).bytes = pieces.flatten := by
  cases pieces with
  | nil => rfl
  | cons buffer stream => rfl

/-- Two readers with the same bytes give the same line. -/
theorem line_same (limit : Nat) (h : reader.bytes = other.bytes) :
    (reader.line limit).map (Prod.map id bytes) = (other.line limit).map (Prod.map id bytes) := by
  unfold line
  rcases map_eq_map (fillLine_same (.new limit) rfl h) with
    ⟨e, hfirst, hsecond⟩ | ⟨⟨decoder, left, more⟩, ⟨decoder', left', more'⟩, hfirst, hsecond, hsame⟩
  · rw [hfirst, hsecond]
  · obtain rfl : decoder = decoder' := congrArg Prod.fst hsame
    obtain rfl : more = more' := congrArg (·.2.2) hsame
    have hleft : (rest left).bytes = (rest left').bytes := by
      rw [bytes_rest, bytes_rest]
      exact congrArg (·.2.1) hsame
    rw [hfirst, hsecond]
    cases more with
    | false => exact congrArg (fun bytes => Except.ok (none, bytes)) hleft
    | true => exact congrArg (fun bytes => Except.ok (decoder.takeLine.2, bytes)) hleft

theorem response_same (responds : Bool) (h : reader.bytes = other.bytes) :
    (reader.response responds).1 = (other.response responds).1
      ∧ (reader.response responds).2.bytes = (other.response responds).2.bytes := by
  unfold response
  cases responds with
  | false => exact ⟨rfl, h⟩
  | true =>
      rw [if_pos rfl, if_pos rfl]
      rcases map_eq_map (line_same 1024 h) with
        ⟨e, hfirst, hsecond⟩ | ⟨⟨text, left⟩, ⟨text', left'⟩, hfirst, hsecond, hsame⟩
      · rw [hfirst, hsecond]
        exact ⟨rfl, h⟩
      · obtain rfl : text = text' := congrArg Prod.fst hsame
        rw [hfirst, hsecond]
        cases text with
        | none => exact ⟨rfl, h⟩
        | some text => exact ⟨rfl, congrArg Prod.snd hsame⟩

end Reader

end Rustymail.Server
