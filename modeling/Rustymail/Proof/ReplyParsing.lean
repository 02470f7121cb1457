import Rustymail.Client.Wire
import Rustymail.Proof.DataLines
import Rustymail.Proof.Pipelining
import Rustymail.Proof.Transparency

/-!
# Reply parsing is exact

`response` on a stream in any pieces: it takes a reply if the stream begins with one, and then just
the bytes of it.
-/

namespace Rustymail.Client

open Dialogue

/-! ### A line -/

/-- The beginning of a line, within the limit. -/
def Partial (limit : Nat) (stream : Text) : Prop :=
  Framing.CleanStart stream ∧ stream.length ≤ limit

theorem takeLine_line (line : Text) (limit : Nat) :
    (⟨line ++ crlf, limit, true⟩ : LineDecoder).takeLine.2 = some line := by
  change some ((line ++ crlf).take ((line ++ crlf).length - 2)) = some line
  rw [List.length_append]
  simp [crlf]

theorem clean_of_reply {line : Text} (h : ∀ b ∈ line, (32 ≤ b ∧ b ≤ 126) ∨ b = 9) :
    Framing.Clean line := by
  refine ⟨fun hmem => ?_, fun hmem => ?_, fun hmem => ?_⟩
  · exact absurd (h 0 hmem) (by decide)
  · exact absurd (h cr hmem) (by decide)
  · exact absurd (h lf hmem) (by decide)

/-- There is one first line. -/
theorem first_line {line line' rest rest' : Text} (hclean : Framing.Clean line)
    (hclean' : Framing.Clean line') (h : line ++ crlf ++ rest = line' ++ crlf ++ rest') :
    line = line' ∧ rest = rest' := by
  rw [List.append_assoc, List.append_assoc] at h
  obtain ⟨hline, hrest⟩ := Words.cut_unique hclean.2.1 hclean'.2.1 h
  exact ⟨hline, (List.cons.inj hrest).2⟩

namespace Wire

variable {wire after : Wire} {line rest : Text}

/-- A line is found in any pieces. -/
theorem lineLoop_line {done todo : Text} {limit : Nat} (hclean : Framing.Clean line)
    (hframe : done ++ todo = line ++ crlf) (htodo : todo ≠ []) (hroom : line.length + 2 ≤ limit)
    (pieces : List Text) (hpieces : pieces.flatten = todo ++ rest) :
    ∃ left, wire.lineLoop ⟨done, limit, false⟩ pieces
        = (some (some line), { wire with pieces := left }) ∧ left.flatten = rest := by
  induction pieces generalizing done todo with
  | nil =>
      rw [List.flatten_nil] at hpieces
      exact absurd (List.append_eq_nil_iff.1 hpieces.symm).1 htodo
  | cons piece pieces ih =>
      rw [List.flatten_cons] at hpieces
      rw [lineLoop]
      by_cases hempty : piece.isEmpty = true
      · rw [if_pos hempty]
        rw [List.isEmpty_iff.1 hempty, List.nil_append] at hpieces
        exact ih hframe htodo hpieces
      rw [if_neg hempty]
      rcases List.append_eq_append_iff.1 hpieces with ⟨more, rfl, hmore⟩ | ⟨more, rfl, hmore⟩
      · cases more with
        | nil =>
            -- The piece ends with the line.
            rw [List.append_nil] at hframe htodo
            have hfeed := @feedBuffered_rest _ _ _ [] _ hclean hframe htodo hroom
            rw [List.append_nil] at hfeed
            rw [hfeed]
            dsimp only
            rw [if_pos rfl, takeLine_line]
            exact ⟨[] :: pieces, rfl, hmore⟩
        | cons byte more =>
            -- The line goes on in the next piece.
            rw [@feedBuffered_part _ _ _ (byte :: more) _ hclean
              (by simpa using hframe) (List.cons_ne_nil _ _) hroom]
            dsimp only
            rw [if_neg Bool.false_ne_true]
            exact ih (by simpa using hframe) (List.cons_ne_nil _ _) hmore
      · rw [feedBuffered_rest hclean hframe htodo hroom]
        dsimp only
        rw [if_pos rfl, takeLine_line]
        refine ⟨more :: pieces, rfl, ?_⟩
        rw [List.flatten_cons]
        exact hmore.symm

/-- What else the loop of `line` comes to. -/
theorem lineLoop_cases (decoder : LineDecoder) (hsound : decoder.Sound)
    (hopen : decoder.complete = false) (pieces : List Text) :
    (∃ line left, wire.lineLoop decoder pieces = (some (some line), { wire with pieces := left })
        ∧ Framing.Clean line ∧ line.length + 2 ≤ decoder.limit
        ∧ decoder.buffer ++ pieces.flatten = line ++ crlf ++ left.flatten)
      ∨ ∃ answer left elapsed, wire.lineLoop decoder pieces
          = (answer, { wire with pieces := left, elapsed := elapsed })
        ∧ (answer = none ∨ answer = some none)
        ∧ (elapsed = wire.elapsed
          ∨ (wire.ending = .silent ∧ Partial decoder.limit (decoder.buffer ++ pieces.flatten))) := by
  induction pieces generalizing decoder with
  | nil =>
      right
      rw [lineLoop]
      cases hending : wire.ending with
      | closed =>
          refine ⟨_, [], wire.elapsed, rfl, ?_, Or.inl rfl⟩
          split_ifs
          · exact Or.inr rfl
          · exact Or.inl rfl
      | broken => exact ⟨none, [], wire.elapsed, rfl, Or.inl rfl, Or.inl rfl⟩
      | silent =>
          refine ⟨none, [], true, rfl, Or.inl rfl, Or.inr ⟨rfl, ?_⟩⟩
          rw [List.flatten_nil, List.append_nil]
          exact ⟨hsound.started hopen, hsound.bounded⟩
  | cons piece pieces ih =>
      rw [lineLoop, List.flatten_cons]
      by_cases hempty : piece.isEmpty = true
      · rw [if_pos hempty, List.isEmpty_iff.1 hempty, List.nil_append]
        exact ih decoder hsound hopen
      rw [if_neg hempty]
      cases hfeed : decoder.feedBuffered piece with
      | error e => exact Or.inr ⟨none, piece :: pieces, wire.elapsed, rfl, Or.inl rfl, Or.inl rfl⟩
      | ok fed =>
          obtain ⟨next, left⟩ := fed
          have hbytes := LineDecoder.feedBuffered_bytes hfeed
          obtain ⟨hnext, hlimit⟩ := hsound.feedBuffered hfeed
          dsimp only
          rw [← List.append_assoc, hbytes, ← hlimit]
          by_cases hcomplete : next.complete = true
          · left
            obtain ⟨text, hclean, hbuffer⟩ := hnext.ended hcomplete
            have hline : next = ⟨text ++ crlf, next.limit, true⟩ := by
              cases next
              obtain rfl : _ = text ++ crlf := hbuffer
              obtain rfl : _ = true := hcomplete
              rfl
            have hbounded := hnext.bounded
            unfold LineDecoder.bufferedBytes at hbounded
            rw [hbuffer, List.length_append] at hbounded
            rw [if_pos hcomplete, hline, takeLine_line]
            refine ⟨text, left :: pieces, rfl, hclean, hbounded, ?_⟩
            rw [List.flatten_cons, List.append_assoc]
          · obtain rfl : left = [] := (Server.feedBuffered_open hopen hfeed).resolve_left hcomplete
            rw [if_neg hcomplete, List.append_nil]
            exact ih next hnext (Bool.eq_false_iff.2 hcomplete)

/-- A line that is there is taken. -/
theorem line_takes {limit : Nat} (hclean : Framing.Clean line) (hroom : line.length + 2 ≤ limit)
    (hbytes : wire.bytes = line ++ crlf ++ rest) :
    ∃ after, wire.line limit = (some (some line), after) ∧ after.bytes = rest := by
  obtain ⟨left, hloop, hleft⟩ := @lineLoop_line { wire with asked := wire.asked + 1 } line rest []
    (line ++ crlf) limit hclean rfl (by simp [crlf]) hroom wire.pieces hbytes
  exact ⟨_, hloop, hleft⟩

/-- A line that was taken was there. Without one nothing is waited for, unless more of it may come. -/
theorem line_cases (wire : Wire) (limit : Nat) :
    (∃ line after, wire.line limit = (some (some line), after) ∧ Framing.Clean line
        ∧ line.length + 2 ≤ limit ∧ wire.bytes = line ++ crlf ++ after.bytes
        ∧ after.asked = wire.asked + 1 ∧ after.elapsed = wire.elapsed ∧ after.ending = wire.ending)
      ∨ ∃ answer after, wire.line limit = (answer, after) ∧ (answer = none ∨ answer = some none)
        ∧ after.asked = wire.asked + 1
        ∧ (after.elapsed = wire.elapsed ∨ (wire.ending = .silent ∧ Partial limit wire.bytes)) := by
  rcases @lineLoop_cases { wire with asked := wire.asked + 1 } (.new limit) (.new limit) rfl
    wire.pieces with ⟨line, left, hloop, hclean, hroom, hbytes⟩ |
      ⟨answer, left, elapsed, hloop, hanswer, helapsed⟩
  · exact Or.inl ⟨line, _, hloop, hclean, hroom, hbytes, rfl, rfl, rfl⟩
  · exact Or.inr ⟨answer, _, hloop, hanswer, rfl, helapsed⟩

end Wire

/-! ### One line of a reply -/

/-- The loop takes the line: this is its code, and these are the capabilities after it. -/
structure Takes (capture start : Bool) (before : Option Nat) (total : Nat)
    (capabilities : Capabilities) (line : Text) (code : Nat) (captured : Capabilities) : Prop where
  code_eq : replyCode line = some code
  short : total + line.length + 2 ≤ 16384
  printable : ∀ b ∈ line, (32 ≤ b ∧ b ≤ 126) ∨ b = 9
  range : 200 ≤ code ∧ code < 600
  same : ∀ old ∈ before, old = code
  separated : separator line = 32 ∨ separator line = 45
  captured_eq : listing (capture && !start) code capabilities [line] = some captured

section Line

variable {wire after : Wire} {deadline : Deadline} {capture start : Bool} {before : Option Nat}
  {total remaining code : Nat} {capabilities captured : Capabilities} {line : Text}

theorem acceptable_iff {total : Nat} {line : Text} : acceptable total line = true ↔
    total ≤ 16384 ∧ ∀ b ∈ line, (32 ≤ b ∧ b ≤ 126) ∨ b = 9 := by
  rw [headerBytes_iff, not_or, Bool.not_eq_false, Bool.not_eq_true]
  unfold acceptable isAscii
  rw [Bool.and_eq_true, Bool.and_eq_true, decide_eq_true_eq, Bool.not_eq_true', and_assoc]

theorem listing_singleton (capture start : Bool) (code : Nat) (capabilities : Capabilities)
    (line : Text) : listing (capture && !start) code capabilities [line]
      = if capture && !start && decide (code = 250) then capabilities.capture (line.drop 4)
        else some capabilities := by
  unfold listing
  rw [List.foldlM_cons]
  simp only [List.foldlM_nil, bind_pure]

/-- A line is taken, or it ends the attempt to read a reply. -/
theorem play_line (hline : wire.line 512 = (some (some line), after)) :
    (∃ code captured, Takes capture start before total capabilities line code captured
        ∧ wire.play (responseLines deadline capture (remaining + 1) start before total capabilities)
          = after.play (if separator line = 32 then pure ⟨code, captured⟩
            else responseLines deadline capture remaining false (some code)
              (total + line.length + 2) captured))
      ∨ (∀ code captured, ¬ Takes capture start before total capabilities line code captured)
        ∧ wire.play (responseLines deadline capture (remaining + 1) start before total capabilities)
          = (.failed (), after) := by
  unfold Wire.play
  rw [responseLines, play_ask rfl]
  dsimp only [Wire.answer]
  rw [hline]
  dsimp only
  cases hcode : replyCode line with
  | none =>
      right
      refine ⟨?_, rfl⟩
      intro code captured htakes
      have hsome := htakes.code_eq
      rw [hcode] at hsome
      cases hsome
  | some number =>
      by_cases hgood : acceptable (total + line.length + 2) line = true ∧ 200 ≤ number ∧ number < 600
          ∧ (∀ old ∈ before, old = number) ∧ (separator line = 32 ∨ separator line = 45)
      · have hrequire : (require (acceptable (total + line.length + 2) line = true ∧ 200 ≤ number
            ∧ number < 600 ∧ (∀ old ∈ before, old = number)
            ∧ (separator line = 32 ∨ separator line = 45)) () : Talk Unit Unit) = .done () :=
          if_pos hgood
        obtain ⟨hacceptable, hlow, hhigh, hsame, hseparated⟩ := hgood
        obtain ⟨hshort, hprintable⟩ := acceptable_iff.1 hacceptable
        cases hcaptured : listing (capture && !start) number capabilities [line] with
        | none =>
            right
            refine ⟨?_, ?_⟩
            · intro code captured htakes
              obtain rfl := Option.some.inj (hcode.symm.trans htakes.code_eq)
              have hsome := htakes.captured_eq
              rw [hcaptured] at hsome
              cases hsome
            · rw [listing_singleton] at hcaptured
              change Dialogue.play Ask.reads Wire.answer (require _ () >>= fun _ => found () _ >>= _) _
                = _
              rw [hrequire, hcaptured]
              rfl
        | some captured =>
            left
            refine ⟨number, captured, ⟨hcode, hshort, hprintable, ⟨hlow, hhigh⟩, hsame, hseparated,
              hcaptured⟩, ?_⟩
            rw [listing_singleton] at hcaptured
            change Dialogue.play Ask.reads Wire.answer (require _ () >>= fun _ => found () _ >>= _) _
              = _
            rw [hrequire, hcaptured]
            rfl
      · right
        have hrequire : (require (acceptable (total + line.length + 2) line = true ∧ 200 ≤ number
            ∧ number < 600 ∧ (∀ old ∈ before, old = number)
            ∧ (separator line = 32 ∨ separator line = 45)) () : Talk Unit Unit) = .failed () :=
          if_neg hgood
        refine ⟨?_, ?_⟩
        · intro code captured htakes
          obtain rfl := Option.some.inj (hcode.symm.trans htakes.code_eq)
          exact hgood ⟨acceptable_iff.2 ⟨htakes.short, htakes.printable⟩, htakes.range.1,
            htakes.range.2, htakes.same, htakes.separated⟩
        · change Dialogue.play Ask.reads Wire.answer (require _ () >>= _) _ = _
          rw [hrequire]
          rfl

theorem play_noLine {answer : Option (Option Text)} (hline : wire.line 512 = (answer, after))
    (hanswer : answer = none ∨ answer = some none) :
    wire.play (responseLines deadline capture (remaining + 1) start before total capabilities)
      = (.failed (), after) := by
  unfold Wire.play
  rw [responseLines, play_ask rfl]
  dsimp only [Wire.answer]
  rw [hline]
  rcases hanswer with rfl | rfl
  · rfl
  · rfl

theorem play_takes (hline : wire.line 512 = (some (some line), after))
    (htakes : Takes capture start before total capabilities line code captured) :
    wire.play (responseLines deadline capture (remaining + 1) start before total capabilities)
      = after.play (if separator line = 32 then pure ⟨code, captured⟩
        else responseLines deadline capture remaining false (some code) (total + line.length + 2)
          captured) := by
  rcases play_line hline with ⟨code', captured', htakes', hplay⟩ | ⟨hrefuses, -⟩
  · obtain rfl := Option.some.inj (htakes.code_eq.symm.trans htakes'.code_eq)
    obtain rfl := Option.some.inj (htakes.captured_eq.symm.trans htakes'.captured_eq)
    exact hplay
  · exact absurd htakes (hrefuses code captured)

end Line

/-! ### The lines of a reply -/

/-- The loop takes these lines, one after the other, and stops with this reply. -/
inductive ReplyOf (capture : Bool) : (remaining : Nat) → (start : Bool) → (before : Option Nat) →
    (total : Nat) → Capabilities → List Text → Response → Prop where
  | last {remaining total code : Nat} {start : Bool} {before : Option Nat}
      {capabilities captured : Capabilities} {line : Text}
      (htakes : Takes capture start before total capabilities line code captured)
      (hroom : line.length + 2 ≤ 512) (hends : separator line = 32) :
      ReplyOf capture (remaining + 1) start before total capabilities [line] ⟨code, captured⟩
  | more {remaining total code : Nat} {start : Bool} {before : Option Nat}
      {capabilities captured : Capabilities} {line : Text} {lines : List Text} {reply : Response}
      (htakes : Takes capture start before total capabilities line code captured)
      (hroom : line.length + 2 ≤ 512) (hgoes : separator line = 45)
      (hrest : ReplyOf capture remaining false (some code) (total + line.length + 2) captured lines
        reply) :
      ReplyOf capture (remaining + 1) start before total capabilities (line :: lines) reply

/-- Lines that were taken and ask for more, and the beginning of the next one. -/
inductive Begun : (remaining : Nat) → (before : Option Nat) → (total : Nat) → (stream : Text) →
    Prop where
  | here {remaining total : Nat} {before : Option Nat} {part : Text} (hpart : Partial 512 part) :
      Begun (remaining + 1) before total part
  | more {remaining total code : Nat} {before : Option Nat} {line stream : Text}
      (hcode : replyCode line = some code) (hgoes : separator line = 45)
      (hsame : ∀ old ∈ before, old = code) (hshort : total + line.length + 2 ≤ 16384)
      (hroom : line.length + 2 ≤ 512) (hprintable : ∀ b ∈ line, (32 ≤ b ∧ b ≤ 126) ∨ b = 9)
      (hrest : Begun remaining (some code) (total + line.length + 2) stream) :
      Begun (remaining + 1) before total (line ++ crlf ++ stream)

theorem onStream_cons (line : Text) (lines : List Text) :
    onStream (line :: lines) = line ++ crlf ++ onStream lines := by
  unfold onStream
  rw [List.flatMap_cons]

section Lines

variable {wire : Wire} {deadline : Deadline} {capture start : Bool} {before : Option Nat}
  {total remaining : Nat} {capabilities : Capabilities} {lines : List Text} {reply : Response}

/-- Lines at the beginning of the stream that make a reply are taken. -/
theorem ReplyOf.play (h : ReplyOf capture remaining start before total capabilities lines reply)
    {rest : Text} (hbytes : wire.bytes = onStream lines ++ rest) :
    ∃ after, wire.play (responseLines deadline capture remaining start before total capabilities)
      = (.done reply, after) ∧ after.bytes = rest := by
  induction h generalizing wire with
  | @last remaining total code start before capabilities captured line htakes hroom hends =>
      rw [onStream_cons, show onStream [] = [] from rfl, List.append_nil] at hbytes
      obtain ⟨after, hline, hafter⟩ := Wire.line_takes (clean_of_reply htakes.printable) hroom hbytes
      rw [play_takes hline htakes, if_pos hends]
      exact ⟨after, rfl, hafter⟩
  | @more remaining total code start before capabilities captured line lines reply htakes hroom hgoes
      hrest ih =>
      rw [onStream_cons, List.append_assoc] at hbytes
      obtain ⟨after, hline, hafter⟩ := Wire.line_takes (clean_of_reply htakes.printable) hroom hbytes
      rw [play_takes hline htakes, if_neg (by rw [hgoes]; decide)]
      exact ih hafter

/-- How the loop ends: with the reply that its lines make, or with an error, and then it waits out the
deadline only for a peer that falls silent within a reply. -/
theorem responseLines_ends (remaining : Nat) (wire : Wire) (start : Bool) (before : Option Nat)
    (total : Nat) (capabilities : Capabilities) :
    ∃ result after,
      wire.play (responseLines deadline capture remaining start before total capabilities)
          = (result, after)
        ∧ ((∃ reply lines, result = .done reply ∧ after.elapsed = wire.elapsed
            ∧ ReplyOf capture remaining start before total capabilities lines reply
            ∧ wire.bytes = onStream lines ++ after.bytes)
          ∨ (result = .failed ()
            ∧ (after.elapsed = wire.elapsed
              ∨ (wire.ending = .silent ∧ Begun remaining before total wire.bytes))))
        ∧ after.asked ≤ wire.asked + remaining := by
  induction remaining generalizing wire start before total capabilities with
  | zero => exact ⟨.failed (), wire, rfl, Or.inr ⟨rfl, Or.inl rfl⟩, Nat.le_refl _⟩
  | succ remaining ih =>
      rcases wire.line_cases 512 with
        ⟨line, next, hline, hclean, hroom, hbytes, hasked, helapsed, hending⟩ |
        ⟨answer, after, hline, hanswer, hasked, helapsed⟩
      · rcases @play_line wire next deadline capture start before total remaining capabilities line
          hline with ⟨code, captured, htakes, hplay⟩ | ⟨-, hplay⟩
        · rw [hplay]
          by_cases hends : separator line = 32
          · rw [if_pos hends]
            refine ⟨_, next, rfl, Or.inl ⟨_, [line], rfl, helapsed, .last htakes hroom hends, ?_⟩, ?_⟩
            · rw [hbytes]
              simp [onStream]
            · omega
          · have hgoes : separator line = 45 := htakes.separated.resolve_left hends
            rw [if_neg hends]
            obtain ⟨result, after, hrest, hcases, hbound⟩ := ih next false (some code)
              (total + line.length + 2) captured
            refine ⟨result, after, hrest, ?_, by omega⟩
            rcases hcases with ⟨reply, lines, hdone, hsame, hreply, hstream⟩ | ⟨hfailed, hwaited⟩
            · left
              refine ⟨reply, line :: lines, hdone, hsame.trans helapsed, .more htakes hroom hgoes hreply,
                ?_⟩
              rw [hbytes, hstream, onStream_cons, List.append_assoc _ (onStream lines)]
            · right
              refine ⟨hfailed, ?_⟩
              rcases hwaited with hsame | ⟨hsilent, hbegun⟩
              · exact Or.inl (hsame.trans helapsed)
              · right
                refine ⟨hending.symm.trans hsilent, ?_⟩
                rw [hbytes]
                exact .more htakes.code_eq hgoes htakes.same htakes.short hroom htakes.printable hbegun
        · exact ⟨_, next, hplay, Or.inr ⟨rfl, Or.inl helapsed⟩, by omega⟩
      · refine ⟨_, after, play_noLine hline hanswer, Or.inr ⟨rfl, ?_⟩, by omega⟩
        rcases helapsed with hsame | ⟨hsilent, hpart⟩
        · exact Or.inl hsame
        · exact Or.inr ⟨hsilent, .here hpart⟩

end Lines

/-! ### Well-formed replies -/

section WellFormed

variable {capture : Bool} {code : Nat} {line : Text} {lines : List Text}
  {capabilities captured : Capabilities}

theorem isReply_singleton : IsReply code [line] ↔
    200 ≤ code ∧ code < 600 ∧ replyCode line = some code ∧ separator line = 32 := by
  unfold IsReply
  constructor
  · rintro ⟨hlow, hhigh, first, last, heq, -, hcode, hends⟩
    cases first with
    | nil =>
        obtain rfl := List.singleton_inj.1 heq
        exact ⟨hlow, hhigh, hcode, hends⟩
    | cons other first =>
        have hlength := congrArg List.length heq
        simp only [List.length_cons, List.length_append, List.length_nil] at hlength
        omega
  · rintro ⟨hlow, hhigh, hcode, hends⟩
    exact ⟨hlow, hhigh, [], line, rfl, fun other hmem => (List.not_mem_nil hmem).elim, hcode, hends⟩

theorem isReply_cons (h : lines ≠ []) : IsReply code (line :: lines) ↔
    replyCode line = some code ∧ separator line = 45 ∧ IsReply code lines := by
  unfold IsReply
  constructor
  · rintro ⟨hlow, hhigh, first, last, heq, hfirst, hlast⟩
    cases first with
    | nil => exact absurd (List.cons.inj heq).2 h
    | cons other first =>
        obtain ⟨rfl, rfl⟩ := List.cons.inj heq
        obtain ⟨hcode, hgoes⟩ := hfirst line List.mem_cons_self
        exact ⟨hcode, hgoes, hlow, hhigh, first, last, rfl,
          fun more hmem => hfirst more (List.mem_cons_of_mem line hmem), hlast⟩
  · rintro ⟨hcode, hgoes, hlow, hhigh, first, last, rfl, hfirst, hlast⟩
    refine ⟨hlow, hhigh, line :: first, last, rfl, ?_, hlast⟩
    intro more hmem
    rcases List.mem_cons.1 hmem with rfl | hlater
    · exact ⟨hcode, hgoes⟩
    · exact hfirst more hlater

theorem IsReply.ne_nil (h : IsReply code lines) : lines ≠ [] := by
  obtain ⟨-, -, first, last, rfl, -⟩ := h
  exact List.append_ne_nil_of_right_ne_nil _ (List.cons_ne_nil _ _)

theorem listing_cons (capture : Bool) (code : Nat) (capabilities : Capabilities) (line : Text)
    (lines : List Text) : listing capture code capabilities (line :: lines)
      = (listing capture code capabilities [line]).bind fun captured =>
        listing capture code captured lines := by
  unfold listing
  split_ifs
  · rw [List.foldlM_cons, List.foldlM_cons]
    simp only [List.foldlM_nil, bind_pure]
    rfl
  · rfl

/-- The lines that count: all of them but the first of a reply. -/
def counted (start : Bool) (lines : List Text) : List Text := if start then lines.tail else lines

theorem listing_counted (capture start : Bool) (code : Nat) (capabilities : Capabilities) (line : Text)
    (lines : List Text) : listing capture code capabilities (counted start (line :: lines))
      = (listing (capture && !start) code capabilities [line]).bind fun captured =>
        listing capture code captured lines := by
  cases start with
  | true =>
      rw [Bool.not_true, Bool.and_false]
      rfl
  | false =>
      rw [Bool.not_false, Bool.and_true]
      exact listing_cons capture code capabilities line lines

/-- What the loop takes, all at once. -/
theorem replyOf_iff {remaining total : Nat} {start : Bool} {before : Option Nat} {reply : Response} :
    ReplyOf capture remaining start before total capabilities lines reply ↔
      IsReply reply.code lines ∧ (∀ old ∈ before, old = reply.code) ∧ lines.length ≤ remaining
        ∧ total + octets lines ≤ 16384
        ∧ (∀ line ∈ lines, line.length + 2 ≤ 512 ∧ ∀ b ∈ line, (32 ≤ b ∧ b ≤ 126) ∨ b = 9)
        ∧ listing capture reply.code capabilities (counted start lines) = some reply.capabilities := by
  constructor
  · intro h
    induction h with
    | last htakes hroom hends =>
        refine ⟨isReply_singleton.2 ⟨htakes.range.1, htakes.range.2, htakes.code_eq, hends⟩,
          htakes.same, Nat.le_add_left _ _, ?_, ?_, ?_⟩
        · rw [octets_singleton]
          exact htakes.short
        · intro line hmem
          obtain rfl := List.mem_singleton.1 hmem
          exact ⟨hroom, htakes.printable⟩
        · rw [listing_counted, htakes.captured_eq, Option.bind_some]
          unfold listing
          split_ifs
          · rfl
          · rfl
    | @more _ _ number _ _ _ _ line lines reply htakes hroom hgoes hrest ih =>
        obtain ⟨hreply, hsame, hfew, hshort, hlines, hlisting⟩ := ih
        obtain rfl : number = reply.code := hsame number rfl
        refine ⟨(isReply_cons hreply.ne_nil).2 ⟨htakes.code_eq, hgoes, hreply⟩, htakes.same, ?_, ?_,
          ?_, ?_⟩
        · exact Nat.succ_le_succ hfew
        · rw [octets_cons]
          omega
        · intro other hmem
          rcases List.mem_cons.1 hmem with rfl | hlater
          · exact ⟨hroom, htakes.printable⟩
          · exact hlines other hlater
        · rw [listing_counted, htakes.captured_eq, Option.bind_some]
          exact hlisting
  · rintro ⟨hreply, hsame, hfew, hshort, hlines, hlisting⟩
    induction lines generalizing remaining start before total capabilities with
    | nil => exact absurd rfl hreply.ne_nil
    | cons line lines ih =>
        obtain ⟨remaining, rfl⟩ : ∃ more, remaining = more + 1 := ⟨remaining - 1, by
          rw [List.length_cons] at hfew
          omega⟩
        obtain ⟨hroom, hprintable⟩ := hlines line List.mem_cons_self
        rw [octets_cons] at hshort
        rw [listing_counted, Option.bind_eq_some_iff] at hlisting
        obtain ⟨captured, hcaptured, hlater⟩ := hlisting
        have hrange : 200 ≤ reply.code ∧ reply.code < 600 := ⟨hreply.1, hreply.2.1⟩
        cases lines with
        | nil =>
            obtain ⟨-, -, hcode, hends⟩ := isReply_singleton.1 hreply
            have hsome : some captured = some reply.capabilities := by
              rw [← hlater]
              unfold listing
              split_ifs
              · rfl
              · rfl
            obtain rfl := Option.some.inj hsome
            exact .last ⟨hcode, by omega, hprintable, hrange, hsame, Or.inl hends, hcaptured⟩ hroom
              hends
        | cons next lines =>
            obtain ⟨hcode, hgoes, hrest⟩ := (isReply_cons (List.cons_ne_nil _ _)).1 hreply
            refine .more ⟨hcode, by omega, hprintable, hrange, hsame, Or.inr hgoes, hcaptured⟩ hroom
              hgoes ?_
            refine ih hrest ?_ ?_ ?_ ?_ hlater
            · rintro old ⟨⟩
              rfl
            · rw [List.length_cons] at hfew
              omega
            · omega
            · intro other hmem
              exact hlines other (List.mem_cons_of_mem line hmem)

/-- A whole reply: well-formed, and what it lists can be read. -/
theorem replyOf_start_iff {reply : Response} :
    ReplyOf capture 64 true none 0 {} lines reply ↔
      WellFormedReply reply.code lines
        ∧ listing capture reply.code {} lines.tail = some reply.capabilities := by
  rw [replyOf_iff]
  constructor
  · rintro ⟨hreply, -, hfew, hshort, hlines, hlisting⟩
    exact ⟨⟨hreply, hfew, by omega, fun line hmem => (hlines line hmem).1,
      fun line hmem => (hlines line hmem).2⟩, hlisting⟩
  · rintro ⟨hformed, hlisting⟩
    refine ⟨hformed.reply, ?_, hformed.few, ?_, ?_, hlisting⟩
    · intro old hold
      cases hold
    · have hshort := hformed.short
      omega
    · intro line hmem
      exact ⟨hformed.fits line hmem, hformed.printable line hmem⟩

/-! ### SIZE -/

/-- A line that cannot be read is a SIZE with something else than a number. -/
theorem capture_isSome_iff {text : Text} : (capabilities.capture text).isSome ↔
    ∀ keyword value others, asciiWords text = keyword :: value :: others →
      uppercase keyword = ascii "SIZE" → (parseU64 value).isSome := by
  unfold Capabilities.capture
  dsimp only
  cases hwords : asciiWords text with
  | nil =>
      rw [if_neg (by decide), if_neg (by decide), if_neg (by decide), if_neg (by decide),
        if_neg (by decide)]
      simp
  | cons keyword rest =>
      rw [List.headD_cons, List.tail_cons]
      by_cases hsize : uppercase keyword = ascii "SIZE"
      · rw [hsize, if_neg (by decide), if_neg (by decide), if_neg (by decide), if_neg (by decide),
          if_pos rfl]
        cases rest with
        | nil => simp
        | cons value others => simp [hsize]
      · have hother : ∀ keyword' value others, keyword :: rest = keyword' :: value :: others →
            uppercase keyword' = ascii "SIZE" → (parseU64 value).isSome := by
          intro keyword' value others heq hsize'
          rw [← (List.cons.inj heq).1] at hsize'
          exact absurd hsize' hsize
        rw [if_neg hsize]
        split_ifs
        all_goals exact iff_of_true rfl hother

/-- What a reply lists can be read if all its SIZE values can. -/
theorem listing_isSome_iff (capabilities : Capabilities) (lines : List Text) :
    (listing capture code capabilities lines).isSome ↔
      (capture = true → code = 250 → ∀ line ∈ lines, ∀ keyword value others,
        asciiWords (line.drop 4) = keyword :: value :: others →
          uppercase keyword = ascii "SIZE" → (parseU64 value).isSome) := by
  by_cases hcaptures : capture = true ∧ code = 250
  · obtain ⟨rfl, rfl⟩ := hcaptures
    induction lines generalizing capabilities with
    | nil => simp [listing]
    | cons line lines ih =>
        rw [listing_cons]
        have hone : listing true 250 capabilities [line] = capabilities.capture (line.drop 4) := by
          unfold listing
          rw [List.foldlM_cons]
          simp only [List.foldlM_nil, bind_pure]
          rfl
        rw [hone]
        have hcapture := @capture_isSome_iff capabilities (line.drop 4)
        cases hline : capabilities.capture (line.drop 4) with
        | none =>
            rw [hline] at hcapture
            refine iff_of_false Bool.false_ne_true ?_
            intro hall
            have hsome := hcapture.2 (hall rfl rfl line List.mem_cons_self)
            cases hsome
        | some captured =>
            rw [hline] at hcapture
            rw [Option.bind_some, ih captured]
            constructor
            · intro hlater _ _ other hmem
              rcases List.mem_cons.1 hmem with rfl | hmem
              · exact hcapture.1 rfl
              · exact hlater rfl rfl other hmem
            · intro hall _ _ other hmem
              exact hall rfl rfl other (List.mem_cons_of_mem line hmem)
  · unfold listing
    have hnot : (capture && decide (code = 250)) = false := by
      rw [Bool.and_eq_false_iff, decide_eq_false_iff_not, ← Bool.not_eq_true]
      exact not_and_or.1 hcaptures
    rw [hnot, if_neg Bool.false_ne_true]
    refine iff_of_true rfl ?_
    intro hcapture hcode
    exact absurd ⟨hcapture, hcode⟩ hcaptures

end WellFormed

/-! ### The parser -/

/-- A stream that may become a reply with more bytes: whole lines that ask for another one, and the
beginning of that, all within the limits. -/
def Incomplete (stream : Text) : Prop :=
  ∃ code lines part, stream = onStream lines ++ part ∧ lines.length < 64 ∧ octets lines ≤ 16384
    ∧ (∀ line ∈ lines, replyCode line = some code ∧ separator line = 45 ∧ line.length + 2 ≤ 512
      ∧ ∀ b ∈ line, (32 ≤ b ∧ b ≤ 126) ∨ b = 9)
    ∧ Partial 512 part

theorem Begun.lines {remaining total : Nat} {before : Option Nat} {stream : Text}
    (h : Begun remaining before total stream) (htotal : total ≤ 16384) :
    ∃ code lines part, (∀ old ∈ before, old = code) ∧ stream = onStream lines ++ part
      ∧ lines.length < remaining ∧ total + octets lines ≤ 16384
      ∧ (∀ line ∈ lines, replyCode line = some code ∧ separator line = 45 ∧ line.length + 2 ≤ 512
        ∧ ∀ b ∈ line, (32 ≤ b ∧ b ≤ 126) ∨ b = 9)
      ∧ Partial 512 part := by
  induction h with
  | @here remaining total before part hpart =>
      refine ⟨before.getD 0, [], part, ?_, rfl, Nat.succ_pos _, htotal, ?_, hpart⟩
      · rintro old hold
        rw [Option.mem_def.1 hold, Option.getD_some]
      · intro line hmem
        exact (List.not_mem_nil hmem).elim
  | @more remaining total code before line stream hcode hgoes hsame hshort hroom hprintable hrest ih =>
      obtain ⟨code', lines, part, hcodes, hstream, hfew, hoctets, hlines, hpart⟩ := ih hshort
      obtain rfl : code = code' := hcodes code rfl
      refine ⟨code, line :: lines, part, hsame, ?_, Nat.succ_lt_succ hfew, ?_, ?_, hpart⟩
      · rw [onStream_cons, hstream, List.append_assoc _ (onStream lines)]
      · rw [octets_cons]
        omega
      · intro other hmem
        rcases List.mem_cons.1 hmem with rfl | hlater
        · exact ⟨hcode, hgoes, hroom, hprintable⟩
        · exact hlines other hlater

/-- A stream begins with one reply at most. -/
theorem reply_unique {code code' : Nat} {lines lines' : List Text} {rest rest' : Text}
    (h : IsReply code lines) (h' : IsReply code' lines')
    (hclean : ∀ line ∈ lines, Framing.Clean line) (hclean' : ∀ line ∈ lines', Framing.Clean line)
    (heq : onStream lines ++ rest = onStream lines' ++ rest') :
    code = code' ∧ lines = lines' ∧ rest = rest' := by
  induction lines generalizing lines' with
  | nil => exact absurd rfl h.ne_nil
  | cons line lines ih =>
      cases lines' with
      | nil => exact absurd rfl h'.ne_nil
      | cons line' lines' =>
          rw [onStream_cons, onStream_cons, List.append_assoc _ (onStream lines),
            List.append_assoc _ (onStream lines')] at heq
          obtain ⟨rfl, hrest⟩ := first_line (hclean line List.mem_cons_self)
            (hclean' line' List.mem_cons_self) heq
          cases lines with
          | nil =>
              obtain ⟨-, -, hcode, hends⟩ := isReply_singleton.1 h
              cases lines' with
              | nil =>
                  obtain ⟨-, -, hcode', -⟩ := isReply_singleton.1 h'
                  exact ⟨Option.some.inj (hcode.symm.trans hcode'), rfl, hrest⟩
              | cons next lines' =>
                  obtain ⟨-, hgoes, -⟩ := (isReply_cons (List.cons_ne_nil _ _)).1 h'
                  rw [hends] at hgoes
                  exact absurd hgoes (by decide)
          | cons other lines =>
              obtain ⟨-, hgoes, hlater⟩ := (isReply_cons (List.cons_ne_nil _ _)).1 h
              cases lines' with
              | nil =>
                  obtain ⟨-, -, -, hends⟩ := isReply_singleton.1 h'
                  rw [hends] at hgoes
                  exact absurd hgoes (by decide)
              | cons next lines' =>
                  obtain ⟨-, -, hlater'⟩ := (isReply_cons (List.cons_ne_nil _ _)).1 h'
                  obtain ⟨hcode, hlines, hleft⟩ := ih hlater hlater'
                    (fun l hmem => hclean l (List.mem_cons_of_mem line hmem))
                    (fun l hmem => hclean' l (List.mem_cons_of_mem line hmem)) hrest
                  exact ⟨hcode, by rw [hlines], hleft⟩

theorem WellFormedReply.clean {code : Nat} {lines : List Text} (h : WellFormedReply code lines) :
    ∀ line ∈ lines, Framing.Clean line := by
  intro line hmem
  exact clean_of_reply (h.printable line hmem)

theorem sizesReadable_iff {capture : Bool} {code : Nat} {lines : List Text} :
    (listing capture code {} lines.tail).isSome ↔
      (capture = true → code = 250 → SizesReadable lines) :=
  listing_isSome_iff {} lines.tail

/-- **Replies are read exactly.** On any stream in any pieces the client takes a reply if the stream
begins with a well-formed one, and then the bytes of that reply and no others. On every other stream it
fails; it waits for its deadline only if the peer falls silent within what may become a reply. It never
reads more than 64 lines. -/
theorem response_exact (deadline : Deadline) (capture : Bool) (wire : Wire) :
    ∃ result after, wire.play (response deadline capture) = (result, after)
      ∧ (∀ code, (∃ capabilities, result = .done ⟨code, capabilities⟩) ↔
        ∃ lines rest, WellFormedReply code lines
          ∧ (capture = true → code = 250 → SizesReadable lines)
          ∧ wire.bytes = onStream lines ++ rest)
      ∧ (∀ reply code lines rest, result = .done reply → WellFormedReply code lines →
        wire.bytes = onStream lines ++ rest → reply.code = code ∧ after.bytes = rest)
      ∧ ((∃ reply, result = .done reply) ∨ result = .failed ())
      ∧ (after.elapsed = wire.elapsed ∨ (wire.ending = .silent ∧ Incomplete wire.bytes))
      ∧ after.asked ≤ wire.asked + 64 := by
  obtain ⟨result, after, hplay, hends, hasked⟩ :=
    @responseLines_ends deadline capture 64 wire true none 0 {}
  refine ⟨result, after, hplay, ?_, ?_, ?_, ?_, hasked⟩
  · intro code
    constructor
    · rintro ⟨capabilities, rfl⟩
      rcases hends with ⟨reply, lines, hdone, -, hreply, hbytes⟩ | ⟨hfailed, -⟩
      · cases hdone
        obtain ⟨hformed, hlisting⟩ := replyOf_start_iff.1 hreply
        exact ⟨lines, after.bytes, hformed, sizesReadable_iff.1 (Option.isSome_of_eq_some hlisting),
          hbytes⟩
      · cases hfailed
    · rintro ⟨lines, rest, hformed, hsizes, hbytes⟩
      obtain ⟨capabilities, hlisting⟩ := Option.isSome_iff_exists.1 (sizesReadable_iff.2 hsizes)
      have hreply : ReplyOf capture 64 true none 0 {} lines ⟨code, capabilities⟩ :=
        replyOf_start_iff.2 ⟨hformed, hlisting⟩
      obtain ⟨after', hdone, -⟩ := @ReplyOf.play wire deadline _ _ _ _ _ _ _ _ hreply rest hbytes
      exact ⟨capabilities, (Prod.mk.inj (hplay.symm.trans hdone)).1⟩
  · rintro reply code lines rest rfl hformed hbytes
    rcases hends with ⟨reply', lines', hdone, -, hreply, hstream⟩ | ⟨hfailed, -⟩
    · cases hdone
      obtain ⟨hformed', -⟩ := replyOf_start_iff.1 hreply
      obtain ⟨hcode, -, hrest⟩ := reply_unique hformed'.reply hformed.reply hformed'.clean
        hformed.clean (hstream.symm.trans hbytes)
      exact ⟨hcode, hrest⟩
    · cases hfailed
  · rcases hends with ⟨reply, lines, hdone, -⟩ | ⟨hfailed, -⟩
    · exact Or.inl ⟨reply, hdone⟩
    · exact Or.inr hfailed
  · rcases hends with ⟨reply, lines, -, hsame, -⟩ | ⟨-, hsame | ⟨hsilent, hbegun⟩⟩
    · exact Or.inl hsame
    · exact Or.inl hsame
    · obtain ⟨code, lines, part, -, hstream, hfew, hoctets, hlines, hpart⟩ :=
        hbegun.lines (Nat.zero_le _)
      right
      exact ⟨hsilent, code, lines, part, hstream, hfew, by omega, hlines, hpart⟩

/-- A reply in four pieces, with the next one right behind it. -/
def pipelined : Wire where
  pieces := [ascii "250-mx.a\r", ascii "\n250 SI", ascii "ZE 10\r\n354", ascii " go\r\n"]
  ending := .silent

theorem response_exact_pipelined :
    ∃ capabilities after, pipelined.play (response .command true) = (.done ⟨250, capabilities⟩, after)
      ∧ after.bytes = ascii "354 go\r\n" ∧ after.asked ≤ 64 := by
  obtain ⟨result, after, hplay, htaken, hleft, -, -, hasked⟩ := response_exact .command true pipelined
  have hformed : WellFormedReply 250 [ascii "250-mx.a", ascii "250 SIZE 10"] := by
    refine ⟨⟨by decide, by decide, [ascii "250-mx.a"], ascii "250 SIZE 10", rfl, ?_, by decide⟩,
      by decide, by decide, by decide, by decide +kernel⟩
    intro line hmem
    obtain rfl := List.mem_singleton.1 hmem
    decide
  have hsizes : SizesReadable [ascii "250-mx.a", ascii "250 SIZE 10"] := by
    intro line hmem keyword value others hwords _
    obtain rfl := List.mem_singleton.1 hmem
    obtain rfl : ascii "10" = value := by
      have hlist : [ascii "SIZE", ascii "10"] = keyword :: value :: others := hwords ▸ by decide
      exact (List.cons.inj (List.cons.inj hlist).2).1
    decide
  have hbytes : pipelined.bytes
      = onStream [ascii "250-mx.a", ascii "250 SIZE 10"] ++ ascii "354 go\r\n" := by decide
  obtain ⟨capabilities, rfl⟩ := (htaken 250).2 ⟨_, _, hformed, fun _ _ => hsizes, hbytes⟩
  exact ⟨capabilities, after, hplay, (hleft _ 250 _ _ rfl hformed hbytes).2, hasked⟩

end Rustymail.Client
