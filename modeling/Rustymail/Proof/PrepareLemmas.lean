import Rustymail.Client.Prepare
import Rustymail.Proof.ReceiveLemmas

/-!
# What `prepare` keeps of a message

The invariant of its two loops: the temporary file consists of lines that can be sent as soon as the
body is announced the way `prepare` has found it to be.
-/

namespace Rustymail.Client

open Framing

/-- The decoder is within a line, and what matters of the lines before it is as `Inv` says. -/
structure Preparing.Holds (Inv : Text → Bool → HeaderFilter → Body → Prop) (stored : Text)
    (state : Preparing) : Prop where
  sound : state.line.Sound
  limit_eq : state.line.limit = 1000
  pending : state.line.complete = false
  holds : Inv stored state.headers state.filter state.body

/-- Every line keeps the invariant. -/
def Preparing.Retains (limits : InputLimits) (Inv : Text → Bool → HeaderFilter → Body → Prop) : Prop :=
  ∀ (stored : Text) (state state' : Preparing) (text : Text) (kept : Bool), Clean text →
    text.length + 2 ≤ 1000 → Inv stored state.headers state.filter state.body →
    state.retain limits (text ++ crlf) = .ok (state', kept) →
    Inv (stored ++ if kept then text ++ crlf else []) state'.headers state'.filter state'.body

/-- What `prepare` has written for the lines it has read. -/
def Preparing.Wrote (stored : Text) (headers : Bool) (_ : HeaderFilter) (body : Body) : Prop :=
  ∃ lines, headers = decide ([] ∉ lines)
    ∧ ∀ message : Message, message.omitPrefix = [] →
      (message.body = .sevenBit → body = .sevenBit) → Kept message lines stored

namespace Preparing

variable {limits : InputLimits} {state state' : Preparing} {stored output : Text}

theorem wrote_start : Wrote [] true .submission .sevenBit :=
  ⟨[], rfl, fun message _ _ => .nil message⟩

/-- One more line in the file. -/
theorem kept_line {lines : List Text} {text : Text} {body : Body}
    (hkept : ∀ message : Message, message.omitPrefix = [] →
      (message.body = .sevenBit → state.body = .sevenBit) → Kept message lines stored)
    (hclean : Clean text) (hroom : text.length + 2 ≤ 1000)
    (hbody : body = .sevenBit → state.body = .sevenBit)
    (hascii : [] ∉ lines ∨ body = .sevenBit → isAscii (text ++ crlf) = true) (message : Message)
    (homit : message.omitPrefix = []) (hmessage : message.body = .sevenBit → body = .sevenBit) :
    Kept message (lines ++ [text]) (stored ++ (text ++ crlf)) := by
  refine (hkept message homit fun h => hbody (hmessage h)).line hclean hroom ?_
  refine fitToSend_of_ascii (fun _ => Or.inl homit) ?_
  rintro (hheaders | hseven)
  · exact hascii (Or.inl (of_decide_eq_true hheaders))
  · exact hascii (Or.inr (hmessage hseven))

/-- A complete line. -/
theorem wrote_retains (limits : InputLimits) : Retains limits Wrote := by
  intro stored state state' text kept hclean hroom hholds hretain
  obtain ⟨lines, hheaders, hkept⟩ := hholds
  unfold Preparing.retain at hretain
  cases hin : state.headers with
  | true =>
      rw [hin] at hheaders hretain
      rw [if_pos rfl] at hretain
      dsimp only at hretain
      have hnone : [] ∉ lines := of_decide_eq_true hheaders.symm
      split_ifs at hretain with hlong hempty
      · cases hretain
        obtain rfl : text = [] := by simpa using hempty
        refine ⟨lines ++ [[]], by simp, ?_⟩
        exact kept_line hkept hclean hroom id fun _ => by decide
      · cases hfilter : state.filter.retain (text ++ crlf) with
        | none => simp [hfilter] at hretain
        | some retained =>
            obtain ⟨filter, keep⟩ := retained
            simp only [hfilter] at hretain
            cases hretain
            have htext : text ≠ [] := fun hnil => hempty (by rw [hnil]; rfl)
            cases kept with
            | true =>
                refine ⟨lines ++ [text], ?_, ?_⟩
                · simpa [hnone] using Ne.symm htext
                · exact kept_line hkept hclean hroom id fun _ => HeaderFilter.retain_ascii hfilter
            | false =>
                refine ⟨lines, ?_, ?_⟩
                · simp [hnone]
                · simpa using hkept
  | false =>
      rw [hin] at hheaders hretain
      simp only [Bool.false_eq_true, if_false] at hretain
      cases hretain
      have hsome : [] ∈ lines := by
        by_contra hnone
        rw [decide_eq_true hnone] at hheaders
        cases hheaders
      refine ⟨lines ++ [text], ?_, ?_⟩
      · simp [hsome]
      · refine kept_line hkept hclean hroom ?_ ?_
        · intro hseven
          dsimp only at hseven
          split_ifs at hseven with hascii
          exact hseven
        · rintro (hnone | hseven)
          · exact absurd hsome hnone
          · dsimp only at hseven
            split_ifs at hseven with hascii
            exact hascii

theorem retain_size {frame : Text} {kept : Bool}
    (h : state.retain limits frame = .ok (state', kept)) : state'.size = state.size := by
  unfold Preparing.retain at h
  dsimp only at h
  split at h
  · split_ifs at h with hlong hempty
    · cases h
      rfl
    · split at h
      · cases h
      · cases h
        rfl
  · cases h
    rfl

/-! ### The loops -/

variable {Inv : Text → Bool → HeaderFilter → Body → Prop}

theorem Holds.start (h : Inv [] true .submission .sevenBit) : Holds Inv [] {} :=
  ⟨.new 1000, rfl, rfl, h⟩

/-- **The bytes of a chunk.** -/
theorem Holds.chunk (hretains : Retains limits Inv) {bytes more : Text}
    (h : Holds Inv (stored ++ output) state)
    (hchunk : Preparing.chunk limits bytes state output = .ok (state', more)) :
    Holds Inv (stored ++ more) state' ∧ state'.size = state.size := by
  induction bytes generalizing state output with
  | nil =>
      cases hchunk
      exact ⟨h, rfl⟩
  | cons byte rest ih =>
      rw [Preparing.chunk] at hchunk
      cases hpush : state.line.push byte with
      | error e => simp [hpush] at hchunk
      | ok line =>
          obtain ⟨hsound, hlimit⟩ := h.sound.push h.pending hpush
          simp only [hpush] at hchunk
          cases hcomplete : line.complete with
          | false =>
              have hframe : line.frame = none := by simp [LineDecoder.frame, hcomplete]
              simp only [hframe] at hchunk
              have hnext : Holds Inv (stored ++ output) { state with line := line } :=
                ⟨hsound, hlimit.trans h.limit_eq, hcomplete, h.holds⟩
              obtain ⟨hend, hsize⟩ := ih hnext hchunk
              exact ⟨hend, hsize⟩
          | true =>
              have hframe : line.frame = some line.buffer := by simp [LineDecoder.frame, hcomplete]
              obtain ⟨text, hclean, hbuffer⟩ := hsound.ended hcomplete
              have hroom : text.length + 2 ≤ 1000 := by
                have hbounded := hsound.bounded
                rw [LineDecoder.bufferedBytes, hbuffer, hlimit, h.limit_eq,
                  List.length_append] at hbounded
                exact hbounded
              simp only [hframe, hbuffer] at hchunk
              cases hretain : state.retain limits (text ++ crlf) with
              | error e => simp [hretain] at hchunk
              | ok retained =>
                  obtain ⟨next, kept⟩ := retained
                  simp only [hretain] at hchunk
                  have hholds := hretains _ _ _ _ _ hclean hroom h.holds hretain
                  have hout : stored ++ output ++ (if kept then text ++ crlf else [])
                      = stored ++ if kept then output ++ (text ++ crlf) else output := by
                    cases kept with
                    | true => exact List.append_assoc _ _ _
                    | false => exact List.append_nil _
                  rw [hout] at hholds
                  have hcleared : line.clear.Sound :=
                    ⟨Nat.zero_le _, fun _ => by simp [LineDecoder.clear, CleanStart],
                      fun hended => by cases hended⟩
                  have hnext : Holds Inv (stored ++ if kept then output ++ (text ++ crlf) else output)
                      { next with line := line.clear } :=
                    ⟨hcleared, hlimit.trans h.limit_eq, rfl, hholds⟩
                  obtain ⟨hend, hsize⟩ := ih hnext hchunk
                  have hsame := retain_size hretain
                  exact ⟨hend, hsize.trans hsame⟩

/-- **The loop over the reader**, which also counts what it writes. -/
theorem Holds.rounds (hretains : Retains limits Inv) {input : List InputRound} {file : Text}
    (h : Holds Inv stored state) (hsize : state.size = stored.length)
    (hrounds : Preparing.rounds limits input state stored = .ok (state', file)) :
    Holds Inv file state' ∧ state'.size = file.length := by
  induction input generalizing state stored with
  | nil =>
      cases hrounds
      exact ⟨h, hsize⟩
  | cons round rest ih =>
      unfold Preparing.rounds at hrounds
      cases hread : round.read with
      | none => simp [hread] at hrounds
      | some bytes =>
          cases bytes with
          | nil =>
              simp only [hread] at hrounds
              cases hrounds
              exact ⟨h, hsize⟩
          | cons byte bytes =>
              simp only [hread] at hrounds
              by_cases hlarge : limits.messageBytes < state.inputSize + (byte :: bytes).length
              · rw [if_pos hlarge] at hrounds
                cases hrounds
              rw [if_neg hlarge] at hrounds
              have hstart : Holds Inv (stored ++ [])
                  { state with inputSize := state.inputSize + (byte :: bytes).length } := by
                rw [List.append_nil]
                exact ⟨h.sound, h.limit_eq, h.pending, h.holds⟩
              cases hchunk : Preparing.chunk limits (byte :: bytes)
                  { state with inputSize := state.inputSize + (byte :: bytes).length } [] with
              | error e =>
                  simp only [hchunk] at hrounds
                  cases hrounds
              | ok done =>
                  obtain ⟨next, output⟩ := done
                  obtain ⟨hnext, hkept⟩ := hstart.chunk hretains hchunk
                  simp only [hchunk] at hrounds
                  split_ifs at hrounds with hwrote
                  have hmore : Holds Inv (stored ++ output)
                      { next with size := next.size + output.length } :=
                    ⟨hnext.sound, hnext.limit_eq, hnext.pending, hnext.holds⟩
                  refine ih hmore ?_ hrounds
                  rw [List.length_append, ← hsize]
                  exact congrArg (· + output.length) hkept

end Preparing

/-- The two loops of a `prepare` that succeeds, for an invariant of its lines. -/
theorem prepare_holds {limits : InputLimits} {created flushed : Bool} {input : List InputRound}
    {snapshot : Snapshot} {Inv : Text → Bool → HeaderFilter → Body → Prop}
    (hstart : Inv [] true .submission .sevenBit) (hretains : Preparing.Retains limits Inv)
    (h : prepare limits created flushed input = .ok snapshot) :
    ∃ filter, Inv snapshot.bytes false filter snapshot.body
      ∧ snapshot.size = snapshot.bytes.length := by
  unfold prepare at h
  by_cases hvalid : limits.Valid
  swap
  · rw [if_pos hvalid] at h
    cases h
  rw [if_neg (not_not.2 hvalid)] at h
  cases created with
  | false => cases h
  | true =>
      rw [if_neg (by decide)] at h
      cases hrounds : Preparing.rounds limits input {} [] with
      | error e => simp [hrounds] at h
      | ok done =>
          obtain ⟨state, file⟩ := done
          simp only [hrounds] at h
          split_ifs at h with hends hflushed
          cases h
          obtain ⟨hholds, hsize⟩ := (Preparing.Holds.start hstart).rounds hretains rfl hrounds
          rw [not_or, Bool.not_eq_true] at hends
          have hfinal := hholds.holds
          rw [hends.1] at hfinal
          exact ⟨state.filter, hfinal, hsize⟩

/-- **What `prepare` has made can be sent.** -/
theorem prepare_sendable {limits : InputLimits} {created flushed : Bool} {input : List InputRound}
    {snapshot : Snapshot} (h : prepare limits created flushed input = .ok snapshot)
    (sender recipient : Address) : Sendable (snapshot.message sender recipient) snapshot.bytes := by
  obtain ⟨filter, ⟨lines, hheaders, hkept⟩, hsize⟩ :=
    prepare_holds Preparing.wrote_start (Preparing.wrote_retains limits) h
  refine (hkept _ rfl id).sendable ?_ hsize.symm
  by_contra hnone
  rw [decide_eq_true hnone] at hheaders
  cases hheaders

end Rustymail.Client
