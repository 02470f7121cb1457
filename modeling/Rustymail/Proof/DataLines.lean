import Rustymail.Proof.ReceiveLemmas
import Rustymail.Protocol.Content

/-!
# The loop of DATA as lines

A run of the loop in `receive_message` is a run over lines: it takes them off the front of the stream,
and stops behind the terminator.
-/

namespace Rustymail

open Framing

/-- Lines of DATA as they are on the wire. -/
def DataFrames (frames : List Text) : Prop :=
  ∀ frame ∈ frames, Clean frame ∧ frame ≠ [46] ∧ (unstuffed frame).length + 2 ≤ 1000

theorem DataFrames.nil : DataFrames [] := fun _ hmem => (List.not_mem_nil hmem).elim

theorem clean_unstuffed {frame : Text} (h : Clean frame) : Clean (unstuffed frame) := by
  have hsub : ∀ b ∈ unstuffed frame, b ∈ frame := by
    unfold unstuffed
    split_ifs
    · exact fun b hb => List.mem_of_mem_tail hb
    · exact fun b hb => hb
  obtain ⟨hzero, hcr, hlf⟩ := h
  exact ⟨fun hmem => hzero (hsub _ hmem), fun hmem => hcr (hsub _ hmem), fun hmem => hlf (hsub _ hmem)⟩

/-! ### What a decoder takes -/

theorem LineDecoder.push_buffer {decoder decoder' : LineDecoder} {byte : UInt8}
    (h : decoder.push byte = .ok decoder') : decoder'.buffer = decoder.buffer ++ [byte] := by
  unfold LineDecoder.push at h
  split_ifs at h
  cases h
  rfl

theorem LineDecoder.feedBuffered_bytes {decoder decoder' : LineDecoder} {bytes left : Text}
    (h : decoder.feedBuffered bytes = .ok (decoder', left)) :
    decoder.buffer ++ bytes = decoder'.buffer ++ left := by
  induction bytes generalizing decoder with
  | nil =>
      cases h
      rfl
  | cons byte bytes ih =>
      rw [LineDecoder.feedBuffered] at h
      split_ifs at h with hcomplete
      · cases h
        rfl
      · cases hpush : decoder.push byte with
        | error e =>
            rw [hpush] at h
            cases h
        | ok next =>
            have hbuffer := LineDecoder.push_buffer hpush
            rw [hpush] at h
            dsimp only at h
            split_ifs at h with hended
            · cases h
              rw [hbuffer, List.append_assoc]
              rfl
            · rw [← ih h, hbuffer, List.append_assoc]
              rfl

namespace Server

/-- No byte is lost between the pieces. -/
theorem fillLine_bytes {decoder decoder' : LineDecoder} {pieces rest : List Text} {more : Bool}
    (hopen : decoder.complete = false) (h : fillLine decoder pieces = .ok (decoder', rest, more))
    (hmore : more = true) :
    decoder'.complete = true ∧ decoder.buffer ++ pieces.flatten = decoder'.buffer ++ rest.flatten := by
  induction pieces generalizing decoder with
  | nil =>
      rw [fillLine] at h
      split_ifs at h
      cases h
      cases hmore
  | cons piece pieces ih =>
      rw [fillLine] at h
      split_ifs at h with hempty
      · rw [List.flatten_cons, List.isEmpty_iff.1 hempty, List.nil_append]
        exact ih hopen h
      · cases hfeed : decoder.feedBuffered piece with
        | error e =>
            rw [hfeed] at h
            cases h
        | ok fed =>
            obtain ⟨next, left⟩ := fed
            have hbytes := LineDecoder.feedBuffered_bytes hfeed
            rw [hfeed] at h
            dsimp only at h
            rw [List.flatten_cons, ← List.append_assoc, hbytes]
            split_ifs at h with hcomplete
            · cases h
              refine ⟨hcomplete, ?_⟩
              rw [List.flatten_cons, List.append_assoc]
            · have hnone : left = [] := (feedBuffered_open hopen hfeed).resolve_left hcomplete
              rw [List.append_assoc, hnone, List.nil_append]
              exact ih (Bool.eq_false_iff.2 hcomplete) h

/-- What becomes of a frame. -/
theorem decodeDataFrame_cases {text : Text} {decoded : Option Text}
    (h : decodeDataFrame (text ++ crlf) = .ok decoded) :
    (text = [46] ∧ decoded = none)
      ∨ (text ≠ [46] ∧ (unstuffed text).length + 2 ≤ 1000 ∧ decoded = some (unstuffed text ++ crlf)) := by
  unfold decodeDataFrame at h
  rw [if_neg (by rw [isSuffixOf_crlf]; exact Bool.true_eq_false.mp)] at h
  have hend : text ++ crlf = 46 :: crlf ↔ text = [46] :=
    @List.append_left_inj _ text [46] crlf
  by_cases htext : text = [46]
  · rw [if_pos (hend.2 htext)] at h
    cases h
    exact Or.inl ⟨htext, rfl⟩
  rw [if_neg (hend.not.2 htext)] at h
  have hdata : (if (text ++ crlf).head? = some 46 then (text ++ crlf).tail else text ++ crlf)
      = unstuffed text ++ crlf := by
    unfold unstuffed
    cases text with
    | nil => rfl
    | cons byte text =>
        change (if some byte = some 46 then text ++ crlf else byte :: text ++ crlf)
          = (if some byte = some 46 then text else byte :: text) ++ crlf
        split_ifs
        · rfl
        · rfl
  dsimp only at h
  rw [hdata, List.length_append] at h
  split_ifs at h with hlong
  cases h
  exact Or.inr ⟨htext, Nat.not_lt.1 hlong, rfl⟩

variable {σ : Type} {wait : σ → Option ServerError} {line : σ → Text → Except ServerError σ}

/-- **One round of the loop.** It cannot go on, or it is at the terminator, or it takes a line. -/
theorem dataLoop_round (state : σ) (pieces : List Text) :
    (∃ e, dataLoop wait line state pieces = .error e ∧ (wait state = some e ∨ ∃ kind, e = .io kind))
      ∨ (∃ rest, pieces.flatten = Client.terminator ++ rest.flatten
        ∧ dataLoop wait line state pieces = .ok (state, rest))
      ∨ ∃ frame rest, DataFrames [frame] ∧ pieces.flatten = frame ++ crlf ++ rest.flatten
        ∧ dataLoop wait line state pieces
          = (line state (unstuffed frame ++ crlf)).bind fun state => dataLoop wait line state rest := by
  rw [dataLoop]
  cases hwait : wait state with
  | some e => exact Or.inl ⟨e, rfl, Or.inl rfl⟩
  | none =>
      dsimp only
      split
      · next e _ => exact Or.inl ⟨_, rfl, Or.inr ⟨e, rfl⟩⟩
      · exact Or.inl ⟨_, rfl, Or.inr ⟨_, rfl⟩⟩
      · next decoder rest hfill =>
          obtain ⟨hcomplete, hbytes⟩ := fillLine_bytes rfl hfill rfl
          obtain ⟨text, hclean, hbuffer⟩ := (fillLine_sound (.new 1001) hfill).1.ended hcomplete
          have hframe : decoder.frame = some (text ++ crlf) := by
            unfold LineDecoder.frame
            rw [if_pos hcomplete, hbuffer]
          rw [hbuffer] at hbytes
          rw [hframe]
          dsimp only
          cases hdecode : decodeDataFrame (text ++ crlf) with
          | error e => exact Or.inl ⟨_, rfl, Or.inr ⟨_, rfl⟩⟩
          | ok decoded =>
              rcases decodeDataFrame_cases hdecode with ⟨rfl, rfl⟩ | ⟨htext, hroom, rfl⟩
              · exact Or.inr (Or.inl ⟨rest, hbytes, rfl⟩)
              · refine Or.inr (Or.inr ⟨text, rest, ?_, hbytes, ?_⟩)
                · intro frame hmem
                  rw [List.mem_singleton.1 hmem]
                  exact ⟨hclean, htext, hroom⟩
                · dsimp only
                  cases line state (unstuffed text ++ crlf) with
                  | error e => rfl
                  | ok next => rfl

/-- How a run of the loop ends, with the lines it has taken: behind the terminator, or with an error
that the wait, the reader or the next line has made. -/
inductive Ended (wait : σ → Option ServerError) (line : σ → Text → Except ServerError σ) (state : σ)
    (more : Text) : Except ServerError (σ × List Text) → Prop
  | terminated (rest : List Text) (hmore : more = Client.terminator ++ rest.flatten) :
      Ended wait line state more (.ok (state, rest))
  | waited (e : ServerError) (hwait : wait state = some e) : Ended wait line state more (.error e)
  | broken (kind : ErrorKind) : Ended wait line state more (.error (.io kind))
  | refused (frame behind : Text) (e : ServerError) (hframe : DataFrames [frame])
      (hmore : more = frame ++ crlf ++ behind)
      (hline : line state (unstuffed frame ++ crlf) = .error e) : Ended wait line state more (.error e)

/-- **The run of the loop.** What every line preserves holds of all lines taken. -/
theorem dataLoop_run (Inv : List Text → σ → Prop)
    (hline : ∀ lines state text state', Clean text → text.length + 2 ≤ 1000 → Inv lines state →
      line state (text ++ crlf) = .ok state' → Inv (lines ++ [text]) state')
    {before : List Text} {state : σ} (pieces : List Text) (hinv : Inv before state) :
    ∃ frames more state', DataFrames frames ∧ pieces.flatten = frames.flatMap (· ++ crlf) ++ more
      ∧ Inv (before ++ frames.map unstuffed) state'
      ∧ Ended wait line state' more (dataLoop wait line state pieces) := by
  induction hlength : pieces.flatten.length using Nat.strong_induction_on
      generalizing before state pieces with
  | _ n ih =>
      have hnone : Inv (before ++ [].map unstuffed) state := by
        rw [List.map_nil, List.append_nil]
        exact hinv
      rcases @dataLoop_round _ wait line state pieces with
        ⟨e, hout, hwhy⟩ | ⟨rest, hmore, hout⟩ | ⟨frame, rest, hframe, hbytes, hout⟩
      · rw [hout]
        refine ⟨[], pieces.flatten, state, .nil, rfl, hnone, ?_⟩
        rcases hwhy with hwait | ⟨kind, rfl⟩
        · exact .waited e hwait
        · exact .broken kind
      · rw [hout]
        exact ⟨[], pieces.flatten, state, .nil, rfl, hnone, .terminated rest hmore⟩
      · rw [hout]
        obtain ⟨hclean, -, hroom⟩ := hframe frame (List.mem_singleton_self frame)
        cases hnext : line state (unstuffed frame ++ crlf) with
        | error e =>
            exact ⟨[], pieces.flatten, state, .nil, rfl, hnone,
              .refused frame rest.flatten e hframe hbytes hnext⟩
        | ok next =>
            have hless : rest.flatten.length < n := by
              rw [← hlength, hbytes]
              simp only [List.length_append, crlf, List.length_cons, List.length_nil]
              omega
            obtain ⟨frames, more, last, hframes, hrest, hlast, hended⟩ := ih _ hless rest
              (hline before state _ next (clean_unstuffed hclean) hroom hinv hnext) rfl
            refine ⟨frame :: frames, more, last, ?_, ?_, ?_, hended⟩
            · intro other hmem
              rcases List.mem_cons.1 hmem with rfl | hmem
              · exact hframe other (List.mem_singleton_self other)
              · exact hframes other hmem
            · rw [hbytes, hrest, List.flatMap_cons, List.append_assoc _ _ more]
            · rw [List.map_cons, List.append_cons]
              exact hlast

end Server

end Rustymail
