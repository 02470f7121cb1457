import Rustymail.Client.Transfer
import Rustymail.Proof.BodyLemmas
import Rustymail.Server.Receive

/-!
# DATA is transparent

The lines that `send_body` puts on the wire are the lines that the server takes from it, however the
bytes are cut on either side.
-/

namespace Rustymail

open Dialogue

/-! ### A line through `fill_line` -/

/-- The next byte of a line: it belongs to the text, or it is the CR or the LF behind it. -/
theorem frame_next {line done todo : Text} {byte : UInt8}
    (hframe : done ++ byte :: todo = line ++ crlf) :
    (done ++ [byte] <+: line ∧ todo ≠ []) ∨ (done = line ∧ byte = cr ∧ todo = [lf])
      ∨ (done = line ++ [cr] ∧ byte = lf ∧ todo = []) := by
  rcases List.append_eq_append_iff.1 hframe with ⟨rest, rfl, hrest⟩ | ⟨rest, rfl, hrest⟩
  · cases rest with
    | nil =>
        obtain ⟨rfl, rfl⟩ := List.cons.inj hrest
        exact Or.inr (Or.inl ⟨(List.append_nil _).symm, rfl, rfl⟩)
    | cons head rest =>
        obtain ⟨rfl, rfl⟩ := List.cons.inj hrest
        refine Or.inl ⟨⟨rest, by simp⟩, ?_⟩
        simp [crlf]
  · cases rest with
    | nil =>
        obtain ⟨rfl, rfl⟩ := List.cons.inj hrest
        exact Or.inr (Or.inl ⟨List.append_nil _, rfl, rfl⟩)
    | cons head rest =>
        obtain ⟨rfl, htail⟩ := List.cons.inj hrest
        cases rest with
        | nil =>
            obtain ⟨rfl, rfl⟩ := List.cons.inj htail
            exact Or.inr (Or.inr ⟨rfl, rfl, rfl⟩)
        | cons next rest =>
            obtain ⟨-, hlast⟩ := List.cons.inj htail
            exact absurd hlast.symm (List.append_ne_nil_of_right_ne_nil rest (List.cons_ne_nil byte todo))

/-- It goes into the decoder, and only the last one completes the line. -/
theorem push_next {line done todo : Text} {byte : UInt8} {limit : Nat} (hclean : Framing.Clean line)
    (hframe : done ++ byte :: todo = line ++ crlf) (hroom : line.length + 2 ≤ limit) :
    (⟨done, limit, false⟩ : LineDecoder).push byte = .ok ⟨done ++ [byte], limit, todo.isEmpty⟩ := by
  obtain ⟨hzero, hcr, hlf⟩ := hclean
  have hlength := congrArg List.length hframe
  simp only [crlf, List.length_cons, List.length_nil, List.length_append] at hlength
  have hless : done.length < limit := by omega
  have hnotLast : ∀ text : Text, text <+: line → text.getLast? ≠ some cr := by
    intro text htext hlast
    exact hcr (htext.subset (List.mem_of_getLast? hlast))
  rcases frame_next hframe with ⟨hinside, htodo⟩ | ⟨rfl, rfl, rfl⟩ | ⟨rfl, rfl, rfl⟩
  · have hmem : byte ∈ line := hinside.subset (by simp)
    have hnotEnd : byte ≠ lf := by
      rintro rfl
      exact hlf hmem
    have hnotZero : byte ≠ 0 := by
      rintro rfl
      exact hzero hmem
    rw [Framing.push_ok hless hnotZero]
    · rw [decide_eq_false hnotEnd, List.isEmpty_eq_false_iff.2 htodo]
    · refine ⟨fun h => absurd h hnotEnd, fun h => absurd h (hnotLast done ?_)⟩
      exact (List.prefix_append done [byte]).trans hinside
  · rw [Framing.push_ok hless (by decide)]
    · rfl
    · exact ⟨fun h => absurd h (by decide), fun h => absurd h (hnotLast _ (List.prefix_refl _))⟩
  · rw [Framing.push_ok hless (by decide)]
    · rfl
    · simp

theorem feedBuffered_push {decoder next : LineDecoder} {byte : UInt8} {bytes : Text}
    (hopen : decoder.complete = false) (hpush : decoder.push byte = .ok next) :
    decoder.feedBuffered (byte :: bytes)
      = if next.complete then .ok (next, bytes) else next.feedBuffered bytes := by
  rw [LineDecoder.feedBuffered, if_neg (by simp [hopen]), hpush]

/-- A piece of a line. -/
theorem feedBuffered_part {line done part todo : Text} {limit : Nat} (hclean : Framing.Clean line)
    (hframe : done ++ part ++ todo = line ++ crlf) (htodo : todo ≠ [])
    (hroom : line.length + 2 ≤ limit) :
    (⟨done, limit, false⟩ : LineDecoder).feedBuffered part = .ok (⟨done ++ part, limit, false⟩, []) := by
  induction part generalizing done with
  | nil => rw [LineDecoder.feedBuffered, List.append_nil]
  | cons byte part ih =>
      have hnext : done ++ byte :: (part ++ todo) = line ++ crlf := by simpa using hframe
      rw [feedBuffered_push rfl (push_next hclean hnext hroom),
        List.isEmpty_eq_false_iff.2 (List.append_ne_nil_of_right_ne_nil _ htodo),
        if_neg Bool.false_ne_true, ih (by simpa using hframe)]
      simp

/-- The rest of a line, and more. -/
theorem feedBuffered_rest {line done todo more : Text} {limit : Nat} (hclean : Framing.Clean line)
    (hframe : done ++ todo = line ++ crlf) (htodo : todo ≠ []) (hroom : line.length + 2 ≤ limit) :
    (⟨done, limit, false⟩ : LineDecoder).feedBuffered (todo ++ more)
      = .ok (⟨line ++ crlf, limit, true⟩, more) := by
  induction todo generalizing done with
  | nil => exact absurd rfl htodo
  | cons byte todo ih =>
      rw [List.cons_append, feedBuffered_push rfl (push_next hclean hframe hroom)]
      cases todo with
      | nil =>
          rw [List.isEmpty_nil, if_pos rfl, hframe]
          rfl
      | cons next todo =>
          rw [List.isEmpty_cons, if_neg Bool.false_ne_true]
          exact ih (by simpa using hframe) (List.cons_ne_nil _ _)

/-- **A line from any pieces.** -/
theorem fillLine_line {line done todo more : Text} {limit : Nat} (hclean : Framing.Clean line)
    (hframe : done ++ todo = line ++ crlf) (htodo : todo ≠ []) (hroom : line.length + 2 ≤ limit)
    (pieces : List Text) (hpieces : pieces.flatten = todo ++ more) :
    ∃ rest, Server.fillLine ⟨done, limit, false⟩ pieces
        = .ok (⟨line ++ crlf, limit, true⟩, rest, true) ∧ rest.flatten = more := by
  induction pieces generalizing done todo with
  | nil =>
      rw [List.flatten_nil] at hpieces
      exact absurd (List.append_eq_nil_iff.1 hpieces.symm).1 htodo
  | cons piece pieces ih =>
      rw [List.flatten_cons] at hpieces
      rw [Server.fillLine]
      cases hpiece : piece.isEmpty with
      | true =>
          rw [if_pos rfl]
          rw [List.isEmpty_iff.1 hpiece, List.nil_append] at hpieces
          exact ih hframe htodo hpieces
      | false =>
          rw [if_neg Bool.false_ne_true]
          rcases List.append_eq_append_iff.1 hpieces with ⟨left, rfl, hleft⟩ | ⟨left, rfl, rfl⟩
          · -- the piece ends within the line
            cases left with
            | nil =>
                rw [List.append_nil] at hframe
                rw [← List.append_nil piece, feedBuffered_rest hclean hframe
                  (List.isEmpty_eq_false_iff.1 hpiece) hroom]
                exact ⟨[] :: pieces, rfl, hleft⟩
            | cons byte left =>
                rw [feedBuffered_part hclean (by simpa using hframe) (List.cons_ne_nil byte left) hroom]
                exact ih (by simpa using hframe) (List.cons_ne_nil _ _) hleft
          · rw [feedBuffered_rest hclean hframe htodo hroom]
            exact ⟨left :: pieces, rfl, by rw [List.flatten_cons]⟩

/-! ### Lines through the loop of DATA -/

/-- A line with its CRLF as it goes on the wire. -/
def stuffed (line : Text) : Text :=
  if line.head? = some Client.dot then Client.dot :: (line ++ crlf) else line ++ crlf

theorem isSuffixOf_crlf (text : Text) : crlf.isSuffixOf (text ++ crlf) = true :=
  List.isSuffixOf_iff_suffix.2 (List.suffix_append _ _)

theorem head?_frame (line : Text) :
    (line ++ crlf).head? = some Client.dot ↔ line.head? = some Client.dot := by
  cases line with
  | nil => simp [crlf, cr, Client.dot]
  | cons byte line => simp

/-- What `decode_data_frame` makes of it. -/
theorem decodeDataFrame_stuffed {line : Text} (hroom : line.length + 2 ≤ 1000) :
    decodeDataFrame (stuffed line) = .ok (some (line ++ crlf)) := by
  have hlength : (line ++ crlf).length ≤ 1000 := by
    simpa [crlf] using hroom
  unfold decodeDataFrame stuffed
  by_cases hdot : line.head? = some Client.dot
  · rw [if_pos hdot]
    have hframe : Client.dot :: (line ++ crlf) ≠ 46 :: crlf := by
      intro heq
      have hline : line = [] := by simpa using (List.cons.inj heq).2
      rw [hline] at hdot
      cases hdot
    have hsuffix := isSuffixOf_crlf (Client.dot :: line)
    rw [List.cons_append] at hsuffix
    rw [if_neg (by simp [hsuffix]), if_neg hframe]
    simp only [List.head?_cons, List.tail_cons, Client.dot, if_true]
    rw [if_neg (by omega)]
  · rw [if_neg hdot]
    have hhead : (line ++ crlf).head? ≠ some 46 := by
      intro heq
      exact hdot ((head?_frame line).1 heq)
    have hframe : line ++ crlf ≠ 46 :: crlf := by
      intro heq
      rw [heq] at hhead
      exact hhead rfl
    rw [if_neg (by simp [isSuffixOf_crlf]), if_neg hframe]
    simp only [if_neg hhead]
    rw [if_neg (by omega)]

theorem Clean.stuffed {line : Text} (h : Framing.Clean line) :
    ∃ text, Framing.Clean text ∧ stuffed line = text ++ crlf ∧ text.length ≤ line.length + 1 := by
  unfold Rustymail.stuffed
  split_ifs with hdot
  · refine ⟨Client.dot :: line, ?_, rfl, Nat.le_refl _⟩
    obtain ⟨hzero, hcr, hlf⟩ := h
    exact ⟨List.not_mem_cons_of_ne_of_not_mem (by decide) hzero,
      List.not_mem_cons_of_ne_of_not_mem (by decide) hcr,
      List.not_mem_cons_of_ne_of_not_mem (by decide) hlf⟩
  · exact ⟨line, h, rfl, Nat.le_succ _⟩

/-- One round of the loop. -/
theorem dataLoop_line {σ : Type} (wait : σ → Option Server.ServerError)
    (line : σ → Text → Except Server.ServerError σ) (state : σ) (hwait : wait state = none)
    {text more : Text} (hclean : Framing.Clean text) (hroom : text.length + 2 ≤ 1001) {pieces : List Text}
    (hpieces : pieces.flatten = text ++ crlf ++ more) :
    ∃ rest, rest.flatten = more ∧ Server.dataLoop wait line state pieces =
      match decodeDataFrame (text ++ crlf) with
      | .error _ => .error (.io .invalidData)
      | .ok none => .ok (state, rest)
      | .ok (some data) =>
          match line state data with
          | .error e => .error e
          | .ok state => Server.dataLoop wait line state rest := by
  obtain ⟨rest, hfill, hrest⟩ := fillLine_line hclean (List.nil_append (text ++ crlf))
    (by simp [crlf]) hroom pieces hpieces
  refine ⟨rest, hrest, ?_⟩
  rw [Server.dataLoop, hwait]
  dsimp only
  split
  · next e h =>
      rw [LineDecoder.new, hfill] at h
      cases h
  · next h =>
      rw [LineDecoder.new, hfill] at h
      cases h
  · next decoder left h =>
      rw [LineDecoder.new, hfill] at h
      cases h
      rfl

/-- **The lines arrive.** The loop takes them one by one and stops behind the terminator. -/
theorem collect_lines (lines before : List Text) (further : Text)
    (hlines : ∀ text ∈ lines, Framing.Clean text ∧ text.length + 2 ≤ 1000) (pieces : List Text)
    (hpieces : pieces.flatten = lines.flatMap stuffed ++ Client.terminator ++ further) :
    ∃ rest, rest.flatten = further ∧
      Server.dataLoop (fun _ => none) (fun lines data => .ok (lines ++ [data])) before pieces
        = .ok (before ++ lines.map (· ++ crlf), rest) := by
  induction lines generalizing before pieces with
  | nil =>
      have hdot : Framing.Clean [Client.dot] := ⟨by decide, by decide, by decide⟩
      obtain ⟨rest, hrest, hround⟩ := dataLoop_line (fun _ => none)
        (fun lines data => .ok (lines ++ [data])) before rfl hdot (by decide) hpieces
      refine ⟨rest, hrest, ?_⟩
      rw [hround, List.map_nil, List.append_nil]
      rfl
  | cons text lines ih =>
      obtain ⟨hclean, hroom⟩ := hlines text List.mem_cons_self
      obtain ⟨wire, hwire, hstuffed, hlength⟩ := Clean.stuffed hclean
      rw [List.flatMap_cons, hstuffed, List.append_assoc, List.append_assoc] at hpieces
      obtain ⟨rest, hrest, hround⟩ := dataLoop_line (fun _ => none)
        (fun lines data => .ok (lines ++ [data])) before rfl hwire (by omega) hpieces
      rw [← hstuffed, decodeDataFrame_stuffed hroom] at hround
      obtain ⟨last, hlast, hloop⟩ := ih (before ++ [text ++ crlf])
        (fun text hmem => hlines text (List.mem_cons_of_mem _ hmem)) rest
        (by rw [hrest, List.append_assoc])
      refine ⟨last, hlast, ?_⟩
      rw [hround]
      dsimp only
      rw [hloop, List.map_cons, List.append_assoc, List.singleton_append]

/-! ### The lines of a message -/

namespace Client

variable {message : Message}

theorem onWire_false (line : Text) : onWire message false (line ++ crlf) = stuffed line := by
  unfold onWire stuffed
  simp only [Bool.false_and, Bool.false_eq_true, if_false, head?_frame]

theorem wireLines_false (lines : List Text) : wireLines message false lines = lines.flatMap stuffed := by
  induction lines with
  | nil => rfl
  | cons line rest ih => rw [wireLines, onWire_false, ih, List.flatMap_cons]

/-- What is stored is the omitted prefix and the lines that go on the wire. -/
theorem Sendable.body {stored : Text} (h : Sendable message stored) :
    ∃ lines : List Text, (∀ line ∈ lines, Framing.Clean line ∧ line.length + 2 ≤ 1000)
      ∧ stored = message.omitPrefix ++ lines.flatMap (· ++ crlf)
      ∧ written message stored = lines.flatMap stuffed := by
  have hclean := (Framing.exact_foldl 1000 stored).clean
  have heq := h.eq_lines
  have hfit := h.fit
  have hsome : (cut stored).lines ≠ [] := List.ne_nil_of_mem h.separated
  unfold written
  change ∀ line ∈ (cut stored).lines, _ at hclean
  generalize (cut stored).lines = lines at heq hfit hsome hclean ⊢
  by_cases hprefix : message.omitPrefix.isEmpty = true
  · refine ⟨lines, hclean, ?_, ?_⟩
    · rw [List.isEmpty_iff.1 hprefix, List.nil_append]
      exact heq
    · cases lines with
      | nil => rfl
      | cons line rest =>
          have hfirst : onWire message true (line ++ crlf) = onWire message false (line ++ crlf) := by
            simp [onWire, hprefix]
          rw [wireLines, hfirst, onWire_false, wireLines_false, List.flatMap_cons]
  · cases lines with
    | nil => exact absurd rfl hsome
    | cons line rest =>
        rw [Bool.not_eq_true] at hprefix
        rw [fitLines, Bool.and_eq_true] at hfit
        have homitted : line ++ crlf = message.omitPrefix := by
          have hexpected := hfit.1
          simp only [fitToSend, hprefix, Bool.and_eq_true] at hexpected
          simpa using hexpected.2
        refine ⟨rest, fun text hmem => hclean text (List.mem_cons_of_mem _ hmem), ?_, ?_⟩
        · rw [← homitted, heq, List.flatMap_cons]
        · rw [wireLines, wireLines_false]
          simp [onWire, hprefix]

/-- What a successful course of `send_body` has read and written. -/
theorem send_transfers {seen : List (Σ question : Ask, question.Answer)}
    (hsent : Reaches message.send seen (.done ())) :
    Sendable message (Transfer.after seen).read
      ∧ (Transfer.after seen).written = written message (Transfer.after seen).read := by
  have hall := sendBody_transfers [] (message.storedSize + 1) {} (.start message) rfl
    (Nat.zero_le _) (Nat.lt_succ_self _)
  obtain ⟨hsendable, -, hwritten⟩ := hall.reaches hsent
  exact ⟨hsendable, hwritten⟩

/-- Whenever `send_body` succeeds, however its reader cuts the message: cut in any way, the bytes on
the wire with the terminator and anything after it come out of the server's loop as the lines behind
the omitted prefix, with exactly the bytes after the terminator left over. The lengths of the lines
add up to the announced size, and the same message in other chunks makes the same bytes. -/
theorem data_transparent (message : Message) (seen : List (Σ question : Ask, question.Answer))
    (hsent : Reaches message.send seen (.done ())) :
    ∃ lines : List Text,
      (Transfer.after seen).read = message.omitPrefix ++ lines.flatten
        ∧ (∀ line ∈ lines, ∃ text, Framing.Clean text ∧ line = text ++ crlf)
        ∧ (∀ pieces further,
          pieces.flatten = (Transfer.after seen).written ++ terminator ++ further →
          ∃ rest, Server.collect pieces = .ok (lines, rest) ∧ rest.flatten = further)
        ∧ message.wireSize = some (lines.map List.length).sum
        ∧ ∀ seen', Reaches message.send seen' (.done ()) →
          (Transfer.after seen').read = (Transfer.after seen).read →
          (Transfer.after seen').written = (Transfer.after seen).written := by
  obtain ⟨hsendable, hwritten⟩ := send_transfers hsent
  obtain ⟨lines, hlines, hread, hwire⟩ := hsendable.body
  refine ⟨lines.map (· ++ crlf), ?_, ?_, ?_, ?_, ?_⟩
  · rw [hread, List.flatMap_def]
  · intro line hmem
    obtain ⟨text, htext, rfl⟩ := List.mem_map.1 hmem
    exact ⟨text, (hlines text htext).1, rfl⟩
  · intro pieces further hpieces
    rw [hwritten, hwire] at hpieces
    obtain ⟨rest, hrest, hloop⟩ := collect_lines lines [] further hlines pieces hpieces
    exact ⟨rest, hloop, hrest⟩
  · have hsize := hsendable.size
    have hlength := congrArg List.length hread
    rw [List.length_append, List.flatMap_def, List.length_flatten] at hlength
    unfold Message.wireSize
    rw [if_pos (by omega)]
    congr 1
    omega
  · intro seen' hsent' hsame
    rw [(send_transfers hsent').2, hsame, ← hwritten]

theorem Sample.accepted : Address.accepts (ascii "a@b.c") = true := by decide

theorem Sample.normal : Address.normalize (ascii "a@b.c") = ascii "a@b.c" := by decide

/-- A message with a line that is a single dot, read in two chunks. -/
def Sample.dots : Message where
  sender := none
  recipient := ⟨ascii "a@b.c", Sample.accepted, Sample.normal⟩
  body := .sevenBit
  storedSize := 5
  omitPrefix := []

def Sample.dotsSent : List (Σ question : Ask, question.Answer) :=
  [⟨.pump, .bytes (crlf ++ [dot])⟩, ⟨.write .dataWrite crlf, true⟩, ⟨.pump, .bytes crlf⟩,
    ⟨.write .dataWrite (dot :: terminator), true⟩, ⟨.pump, .bytes []⟩]

theorem dots_transparent : ∃ lines : List Text,
    (Transfer.after Sample.dotsSent).read = Sample.dots.omitPrefix ++ lines.flatten := by
  obtain ⟨lines, hread, -⟩ := data_transparent Sample.dots Sample.dotsSent
    (.ask (.ask (.ask (.ask (.ask (.refl _))))))
  exact ⟨lines, hread⟩

end Client

end Rustymail
