import Rustymail.Protocol.Lines

/-!
# Cutting a stream into lines

The two ways to drive a `LineDecoder`: `feed`, which hands every line over, and `feed_buffered` with
`frame` and `clear`, which leaves it in the decoder. Both take one line at a time, and their callers
present what is left of a chunk again until nothing is.
-/

namespace Rustymail

namespace LineDecoder

/-- What `feed_buffered` leaves in the decoder, also when it fails. -/
def left (decoder : LineDecoder) : Text → LineDecoder
  | [] => decoder
  | byte :: rest =>
      if decoder.complete then decoder
      else
        match decoder.push byte with
        | .error _ => decoder
        | .ok decoder => if decoder.complete then decoder else decoder.left rest

/-- `take_line`: the line without its CRLF, and the decoder without the line. -/
def takeLine (decoder : LineDecoder) : LineDecoder × Option Text :=
  if decoder.complete then
    ({ decoder with buffer := [], complete := false },
      some (decoder.buffer.take (decoder.buffer.length - 2)))
  else (decoder, none)

/-- `feed`, with the bytes it leaves over in place of the number it used. -/
def feed (decoder : LineDecoder) (bytes : Text) :
    Except FrameError (LineDecoder × Text × Option Text) :=
  match decoder.feedBuffered bytes with
  | .error e => .error e
  | .ok (decoder, rest) =>
      let (decoder, line) := decoder.takeLine
      .ok (decoder, rest, line)

/-- A round takes bytes, unless it only hands over a line that was complete before. -/
theorem feedBuffered_takes {decoder decoder' : LineDecoder} {byte : UInt8} {bytes rest : Text}
    (h : decoder.feedBuffered (byte :: bytes) = .ok (decoder', rest)) :
    rest.length < (byte :: bytes).length + decoder.complete.toNat := by
  induction bytes generalizing decoder byte with
  | nil =>
      simp only [feedBuffered] at h
      cases hcomplete : decoder.complete with
      | true =>
          simp only [hcomplete, if_true, Except.ok.injEq, Prod.mk.injEq] at h
          simp [← h.2]
      | false =>
          simp only [hcomplete, Bool.false_eq_true, if_false] at h
          split at h
          · cases h
          · split_ifs at h <;> cases h <;> simp
  | cons next bytes ih =>
      rw [feedBuffered] at h
      cases hcomplete : decoder.complete with
      | true =>
          simp only [hcomplete, if_true, Except.ok.injEq, Prod.mk.injEq] at h
          simp [← h.2]
      | false =>
          simp only [hcomplete, Bool.false_eq_true, if_false] at h
          split at h
          · cases h
          · split_ifs at h with hnext
            · cases h
              simp
            · have hlater := ih h
              simp only [Bool.not_eq_true] at hnext
              simp only [hnext, Bool.toNat_false, List.length_cons] at hlater ⊢
              omega

theorem feed_takes {decoder decoder' : LineDecoder} {byte : UInt8} {bytes rest line : Text}
    (h : decoder.feed (byte :: bytes) = .ok (decoder', rest, some line)) :
    rest.length + decoder'.complete.toNat < (byte :: bytes).length + decoder.complete.toNat := by
  unfold feed at h
  split at h
  · cases h
  · next fed left hfed =>
      unfold takeLine at h
      split_ifs at h with hcomplete
      · cases h
        simpa using feedBuffered_takes hfed
      · cases h

end LineDecoder

/-- What has become of a stream: the lines without CRLF, the decoder, and the error that ended it. -/
structure Framing where
  lines : List Text
  decoder : LineDecoder
  error : Option FrameError
  deriving DecidableEq

namespace Framing

def start (limit : Nat) : Framing := ⟨[], LineDecoder.new limit, none⟩

/-- The number of bytes taken in so far. -/
def position (framing : Framing) : Nat :=
  (framing.lines.map fun line => line.length + 2).sum + framing.decoder.bufferedBytes

/-- One chunk through `feed_buffered`, `frame` and `clear`. -/
def buffered (framing : Framing) : Text → Framing
  | [] => framing
  | byte :: bytes =>
      match _hround : framing.decoder.feedBuffered (byte :: bytes) with
      | .error e =>
          { framing with decoder := framing.decoder.left (byte :: bytes), error := some e }
      | .ok (decoder, rest) =>
          match decoder.frame with
          | none => { framing with decoder := decoder }
          | some frame =>
              buffered
                { framing with
                  lines := framing.lines ++ [frame.take (frame.length - 2)]
                  decoder := decoder.clear } rest
termination_by bytes => bytes.length + framing.decoder.complete.toNat
decreasing_by
  have hless := LineDecoder.feedBuffered_takes _hround
  simpa [LineDecoder.clear] using hless

/-- One chunk through `feed`. -/
def fed (framing : Framing) : Text → Framing
  | [] => framing
  | byte :: bytes =>
      match _hround : framing.decoder.feed (byte :: bytes) with
      | .error e =>
          { framing with decoder := framing.decoder.left (byte :: bytes), error := some e }
      | .ok (decoder, _, none) => { framing with decoder := decoder }
      | .ok (decoder, rest, some line) =>
          fed { framing with lines := framing.lines ++ [line], decoder := decoder } rest
termination_by bytes => bytes.length + framing.decoder.complete.toNat
decreasing_by exact LineDecoder.feed_takes _hround

/-- A stream in chunks; nothing is read after an error. -/
def chunked (drive : Framing → Text → Framing) (framing : Framing) (chunks : List Text) : Framing :=
  chunks.foldl (fun framing chunk => if framing.error.isSome then framing else drive framing chunk)
    framing

end Framing

end Rustymail
