import Rustymail.Proof.PlainText
import Rustymail.Proof.Transparency

/-!
# What the intakes keep of a message

The loops that take a message in cut it into lines and keep some of them. A line that is kept is fit
to be sent again: `send_body` asks for nothing that was not asked here.
-/

namespace Rustymail

open Framing

theorem isAscii_append (first second : Text) :
    isAscii (first ++ second) = (isAscii first && isAscii second) :=
  List.all_append

theorem isAscii_line {line : Text} (h : isAscii line = true) : isAscii (line ++ crlf) = true := by
  rw [isAscii_append, h]
  rfl

/-! ### Lines kept -/

namespace Client

variable {message : Message} {lines : List Text} {stored : Text}

/-- Lines that have been kept, and the bytes they make up. -/
structure Kept (message : Message) (lines : List Text) (stored : Text) : Prop where
  stored_eq : stored = lines.flatMap (· ++ crlf)
  clean : ∀ line ∈ lines, Clean line ∧ line.length + 2 ≤ 1000
  fit : fitLines message true true lines = true

theorem Kept.nil (message : Message) : Kept message [] [] where
  stored_eq := rfl
  clean := by simp
  fit := rfl

/-- One more line. -/
theorem Kept.line (h : Kept message lines stored) {line : Text} (hclean : Clean line)
    (hroom : line.length + 2 ≤ 1000)
    (hfit : fitToSend message lines.isEmpty (decide ([] ∉ lines)) (line ++ crlf) = true) :
    Kept message (lines ++ [line]) (stored ++ (line ++ crlf)) where
  stored_eq := by simp [h.stored_eq]
  clean := by
    intro text hmem
    rcases List.mem_append.1 hmem with hold | hnew
    · exact h.clean text hold
    · rw [List.mem_singleton.1 hnew]
      exact ⟨hclean, hroom⟩
  fit := by
    rw [fitLines_append, h.fit]
    simpa [fitLines] using hfit

theorem cut_lines (hclean : ∀ line ∈ lines, Clean line ∧ line.length + 2 ≤ 1000)
    (before : List Text) :
    (lines.flatMap (· ++ crlf)).foldl Framing.byte { Framing.start 1000 with lines := before }
      = { Framing.start 1000 with lines := before ++ lines } := by
  induction lines generalizing before with
  | nil => simp
  | cons line rest ih =>
      obtain ⟨hline, hroom⟩ := hclean line List.mem_cons_self
      have hopen : Framing.Open { Framing.start 1000 with lines := before } := ⟨rfl, rfl⟩
      rw [List.flatMap_cons, List.foldl_append, foldl_line hopen rfl hline hroom]
      dsimp only
      rw [ih (fun line hmem => hclean line (List.mem_cons_of_mem _ hmem)), List.append_assoc]
      rfl

/-- **What is kept can be sent**, once the separator is there. -/
theorem Kept.sendable (h : Kept message lines stored) (hseparated : [] ∈ lines)
    (hsize : stored.length = message.storedSize) : Sendable message stored := by
  have hcut : cut stored = { Framing.start 1000 with lines := lines } := by
    rw [h.stored_eq]
    exact cut_lines h.clean []
  refine ⟨hsize, ?_, ?_, ?_, ?_⟩
  · rw [hcut]
    rfl
  · rw [hcut]
    rfl
  · rw [hcut]
    exact h.fit
  · rw [hcut]
    exact hseparated

/-- A line that is not the first one is fit if it is ASCII where it has to be. -/
theorem fitToSend_of_ascii {first headers : Bool} {frame : Text}
    (hfirst : first = true → message.omitPrefix = [] ∨ frame = message.omitPrefix)
    (hascii : headers = true ∨ message.body = .sevenBit → isAscii frame = true) :
    fitToSend message first headers frame = true := by
  unfold fitToSend
  rw [Bool.and_eq_true]
  constructor
  · by_cases hneeds : headers = true ∨ message.body = .sevenBit
    · have hall := hascii hneeds
      unfold isAscii at hall
      rw [hall]
      simp
    · rw [not_or, Bool.not_eq_true] at hneeds
      simp [hneeds.1, hneeds.2]
  · cases first with
    | false => rfl
    | true =>
        rcases hfirst rfl with hnone | hsame
        · simp [hnone]
        · simp [hsame]

theorem fitLines_of_ascii {first headers : Bool} (hascii : ∀ line ∈ lines, isAscii line = true)
    (hfirst : first = true →
      message.omitPrefix = [] ∨ ∀ line ∈ lines.head?, line ++ crlf = message.omitPrefix) :
    fitLines message first headers lines = true := by
  induction lines generalizing first headers with
  | nil => rfl
  | cons line rest ih =>
      rw [fitLines, Bool.and_eq_true]
      refine ⟨fitToSend_of_ascii ?_ ?_, ih ?_ ?_⟩
      · exact fun h => (hfirst h).imp id fun hall => hall line rfl
      · exact fun _ => isAscii_line (hascii line List.mem_cons_self)
      · exact fun line hmem => hascii line (List.mem_cons_of_mem _ hmem)
      · intro h
        cases h

/-- Lines of plain text are kept whatever the body is announced as. -/
theorem Kept.of_plain (hplain : ∀ line ∈ lines, plain line = true ∧ line.length ≤ 998)
    (hfirst : message.omitPrefix = [] ∨ ∀ line ∈ lines.head?, line ++ crlf = message.omitPrefix) :
    Kept message lines (lines.flatMap (· ++ crlf)) where
  stored_eq := rfl
  clean := by
    intro line hmem
    obtain ⟨htext, hlength⟩ := hplain line hmem
    exact ⟨plain_clean htext, by omega⟩
  fit := fitLines_of_ascii (fun line hmem => plain_ascii (hplain line hmem).1) fun _ => hfirst

end Client

/-! ### Lines read -/

namespace LineDecoder

/-- What a decoder holds: the beginning of a line, or a whole one. -/
structure Sound (decoder : LineDecoder) : Prop where
  bounded : decoder.bufferedBytes ≤ decoder.limit
  started : decoder.complete = false → CleanStart decoder.buffer
  ended : decoder.complete = true → ∃ text, Clean text ∧ decoder.buffer = text ++ crlf

theorem Sound.new (limit : Nat) : (LineDecoder.new limit).Sound where
  bounded := Nat.zero_le limit
  started _ := by simp [CleanStart, LineDecoder.new]
  ended h := by cases h

theorem Sound.push {decoder decoder' : LineDecoder} {byte : UInt8} (h : decoder.Sound)
    (hopen : decoder.complete = false) (hpush : decoder.push byte = .ok decoder') :
    decoder'.Sound ∧ decoder'.limit = decoder.limit := by
  obtain ⟨hzero, hlf, hcr⟩ := h.started hopen
  rcases push_cases decoder byte h.bounded with ⟨e, herror, -⟩ | ⟨hroom, hnonzero, hend, hok⟩
  · rw [herror] at hpush
    cases hpush
  · rw [hok] at hpush
    cases hpush
    refine ⟨⟨?_, ?_, ?_⟩, rfl⟩
    · change (decoder.buffer ++ [byte]).length ≤ decoder.limit
      rw [List.length_append, List.length_singleton]
      omega
    · intro hincomplete
      have hbyte : byte ≠ lf := of_decide_eq_false hincomplete
      have hlast : decoder.buffer.getLast? ≠ some cr := fun hlast => hbyte (hend.2 hlast)
      refine ⟨?_, ?_, ?_⟩
      · simpa [hzero] using Ne.symm hnonzero
      · simpa [hlf] using Ne.symm hbyte
      · rw [List.dropLast_concat]
        intro hmem
        rcases List.eq_nil_or_concat decoder.buffer with hnil | ⟨start, last, hbuffer⟩
        · rw [hnil] at hmem
          cases hmem
        · rw [hbuffer, List.concat_eq_append] at hmem hcr hlast
          rw [List.dropLast_concat] at hcr
          rcases List.mem_append.1 hmem with hstart | hlastMem
          · exact hcr hstart
          · rw [List.mem_singleton.1 hlastMem] at hlast
            exact hlast List.getLast?_concat
    · intro hcomplete
      have hbyte : byte = lf := of_decide_eq_true hcomplete
      obtain ⟨line, hbuffer⟩ := List.getLast?_eq_some_iff.1 (hend.1 hbyte)
      rw [hbuffer, List.dropLast_concat] at hcr
      rw [hbuffer] at hzero hlf
      refine ⟨line, ⟨?_, hcr, ?_⟩, ?_⟩
      · exact fun hmem => hzero (List.mem_append_left _ hmem)
      · exact fun hmem => hlf (List.mem_append_left _ hmem)
      · rw [hbuffer, hbyte]
        simp [crlf]

theorem Sound.feedBuffered {decoder decoder' : LineDecoder} {bytes left : Text} (h : decoder.Sound)
    (hfeed : decoder.feedBuffered bytes = .ok (decoder', left)) :
    decoder'.Sound ∧ decoder'.limit = decoder.limit := by
  induction bytes generalizing decoder with
  | nil =>
      cases hfeed
      exact ⟨h, rfl⟩
  | cons byte bytes ih =>
      rw [LineDecoder.feedBuffered] at hfeed
      split_ifs at hfeed with hcomplete
      · cases hfeed
        exact ⟨h, rfl⟩
      · cases hpush : decoder.push byte with
        | error e => simp [hpush] at hfeed
        | ok next =>
            obtain ⟨hnext, hlimit⟩ := h.push (by simpa using hcomplete) hpush
            simp only [hpush] at hfeed
            split_ifs at hfeed with hended
            · cases hfeed
              exact ⟨hnext, hlimit⟩
            · obtain ⟨hlast, hlimit'⟩ := ih hnext hfeed
              exact ⟨hlast, hlimit'.trans hlimit⟩

end LineDecoder

namespace Server

theorem fillLine_sound {decoder decoder' : LineDecoder} {pieces rest : List Text} {more : Bool}
    (h : decoder.Sound) (hfill : fillLine decoder pieces = .ok (decoder', rest, more)) :
    decoder'.Sound ∧ decoder'.limit = decoder.limit := by
  induction pieces generalizing decoder with
  | nil =>
      unfold fillLine at hfill
      split_ifs at hfill
      cases hfill
      exact ⟨h, rfl⟩
  | cons piece pieces ih =>
      unfold fillLine at hfill
      split_ifs at hfill with hempty
      · exact ih h hfill
      · cases hfeed : decoder.feedBuffered piece with
        | error e => simp [hfeed] at hfill
        | ok fed =>
            obtain ⟨next, left⟩ := fed
            obtain ⟨hnext, hlimit⟩ := h.feedBuffered hfeed
            simp only [hfeed] at hfill
            split_ifs at hfill with hcomplete
            · cases hfill
              exact ⟨hnext, hlimit⟩
            · obtain ⟨hlast, hlimit'⟩ := ih hnext hfill
              exact ⟨hlast, hlimit'.trans hlimit⟩

/-- What is left of a frame once a leading dot is gone is a line. -/
theorem decodeDataFrame_line {text data : Text} (hclean : Clean text)
    (h : decodeDataFrame (text ++ crlf) = .ok (some data)) :
    ∃ line, Clean line ∧ data = line ++ crlf ∧ line.length + 2 ≤ 1000 := by
  unfold decodeDataFrame at h
  rw [if_neg (by rw [isSuffixOf_crlf]; exact Bool.true_eq_false.mp)] at h
  split_ifs at h with hend hdot
  · cases h
  · dsimp only at h
    split_ifs at h with hlong
    cases h
    cases text with
    | nil => exact absurd hdot (by decide)
    | cons byte line =>
        obtain ⟨hzero, hcr, hlf⟩ := hclean
        refine ⟨line, ⟨?_, ?_, ?_⟩, rfl, ?_⟩
        · exact fun hmem => hzero (List.mem_cons_of_mem _ hmem)
        · exact fun hmem => hcr (List.mem_cons_of_mem _ hmem)
        · exact fun hmem => hlf (List.mem_cons_of_mem _ hmem)
        · rw [List.cons_append, List.tail_cons, List.length_append] at hlong
          exact Nat.not_lt.1 hlong
  · dsimp only at h
    split_ifs at h with hlong
    cases h
    refine ⟨text, hclean, rfl, ?_⟩
    rw [List.length_append] at hlong
    exact Nat.not_lt.1 hlong

/-- **The loop of `receive_message`.** What every line preserves holds at its end. -/
theorem dataLoop_invariant {σ : Type} {wait : σ → Option ServerError}
    {line : σ → Text → Except ServerError σ} (Inv : σ → Prop)
    (hline : ∀ state text state', Clean text → text.length + 2 ≤ 1000 → Inv state →
      line state (text ++ crlf) = .ok state' → Inv state')
    {state state' : σ} {pieces rest : List Text} (hinv : Inv state)
    (h : dataLoop wait line state pieces = .ok (state', rest)) : Inv state' := by
  induction hlength : pieces.flatten.length using Nat.strong_induction_on
      generalizing state pieces with
  | _ n ih =>
      rw [dataLoop] at h
      cases hwait : wait state with
      | some e => simp [hwait] at h
      | none =>
          simp only [hwait] at h
          split at h
          · cases h
          · cases h
          · next decoder left hfill =>
              have hless := fillLine_length rfl hfill
              obtain ⟨hsound, -⟩ := fillLine_sound (.new 1001) hfill
              cases hframe : decoder.frame with
              | none => simp [hframe] at h
              | some frame =>
                  have hended : decoder.complete = true ∧ decoder.buffer = frame := by
                    unfold LineDecoder.frame at hframe
                    split_ifs at hframe with hcomplete
                    exact ⟨hcomplete, Option.some.inj hframe⟩
                  obtain ⟨text, hclean, hbuffer⟩ := hsound.ended hended.1
                  rw [← hended.2, hbuffer] at hframe
                  simp only [hframe] at h
                  cases hdecode : decodeDataFrame (text ++ crlf) with
                  | error e => simp [hdecode] at h
                  | ok decoded =>
                      cases decoded with
                      | none =>
                          simp only [hdecode] at h
                          cases h
                          exact hinv
                      | some data =>
                          obtain ⟨taken, htaken, rfl, hroom⟩ := decodeDataFrame_line hclean hdecode
                          simp only [hdecode] at h
                          cases hnext : line state (taken ++ crlf) with
                          | error e => simp [hnext] at h
                          | ok next =>
                              simp only [hnext] at h
                              exact ih left.flatten.length (hlength ▸ hless)
                                (hline state taken next htaken hroom hinv hnext) h rfl

end Server

/-! ### `receive_message` -/

theorem StagedMessage.append_ok {stage stage' : StagedMessage} {bytes taken : Text}
    {fault : Option StoreError} (h : stage.append bytes fault = (stage', .ok taken)) :
    stage'.hashed = stage.hashed ++ bytes ∧ stage'.size = stage.size + bytes.length := by
  unfold StagedMessage.append at h
  split_ifs at h with hpoisoned hsize
  · cases h
  · cases fault with
    | some e => cases h
    | none =>
        cases h
        exact ⟨rfl, rfl⟩
  · cases h

theorem HeaderFilter.retain_ascii {filter filter' : HeaderFilter} {line : Text} {kept : Bool}
    (h : filter.retain (line ++ crlf) = some (filter', kept)) : isAscii (line ++ crlf) = true := by
  have hstrip : stripCrlf (line ++ crlf) = some line := by
    unfold stripCrlf
    rw [if_pos (isSuffixOf_crlf line), List.length_append]
    congr 1
    exact List.take_left
  unfold HeaderFilter.retain at h
  rw [hstrip] at h
  dsimp only at h
  split_ifs at h with hbad <;>
  · rw [not_or, Bool.not_eq_false] at hbad
    exact isAscii_line hbad.1

namespace Server.Receiving

variable {limits : ReceiveLimits} {faults : ReceiveFaults} {submission : Bool} {body : Body}
  {state state' : Receiving} {message : Client.Message} {lines : List Text}

/-- The lines on a stage, and whether they are all header. -/
structure Took (message : Client.Message) (lines : List Text) (stage : StagedMessage)
    (inHeaders : Bool) : Prop where
  kept : Client.Kept message lines stage.hashed
  some_line : lines ≠ []
  size_eq : stage.size = stage.hashed.length
  headers_eq : inHeaders = decide ([] ∉ lines)

theorem append_ok {bytes : Text} (h : append faults state bytes = .ok state') :
    state'.stage.hashed = state.stage.hashed ++ bytes
      ∧ state'.stage.size = state.stage.size + bytes.length ∧ state'.inHeaders = state.inHeaders := by
  unfold append at h
  split at h
  · cases h
  · next stage taken happend =>
      obtain ⟨hhashed, hsize⟩ := StagedMessage.append_ok happend
      cases h
      exact ⟨hhashed, hsize, rfl⟩

/-- A line that is appended. -/
theorem Took.append {stage : StagedMessage} {inHeaders : Bool} {line : Text}
    (htook : Took message lines stage inHeaders)
    (h : Receiving.append faults state (line ++ crlf) = .ok state') (hstage : state.stage = stage)
    (hclean : Clean line) (hroom : line.length + 2 ≤ 1000)
    (hascii : inHeaders = true ∨ message.body = .sevenBit → isAscii (line ++ crlf) = true) :
    Took message (lines ++ [line]) state'.stage (inHeaders && decide (line ≠ []))
      ∧ state'.inHeaders = state.inHeaders := by
  obtain ⟨hhashed, hsize, hin⟩ := append_ok h
  rw [hstage] at hhashed hsize
  have hfit : Client.fitToSend message lines.isEmpty (decide ([] ∉ lines)) (line ++ crlf) = true := by
    refine Client.fitToSend_of_ascii ?_ ?_
    · intro hempty
      exact absurd (List.isEmpty_iff.1 hempty) htook.some_line
    · rw [← htook.headers_eq]
      exact hascii
  refine ⟨⟨?_, by simp, ?_, ?_⟩, hin⟩
  · rw [hhashed]
    exact htook.kept.line hclean hroom hfit
  · rw [hhashed, hsize, htook.size_eq, ← List.length_append]
  · rw [htook.headers_eq]
    cases line with
    | nil => simp
    | cons byte line => simp

theorem Took.header {stage : StagedMessage} {text : Text} (htook : Took message lines stage true)
    (h : Receiving.header faults submission state (text ++ crlf) = .ok state')
    (hstage : state.stage = stage) (hin : state.inHeaders = true) (hclean : Clean text)
    (hroom : text.length + 2 ≤ 1000) :
    ∃ lines', Took message lines' state'.stage state'.inHeaders := by
  unfold Receiving.header at h
  by_cases hempty : text ++ crlf = crlf
  · obtain rfl : text = [] := by simpa using hempty
    rw [if_pos hempty] at h
    obtain ⟨hnext, hin'⟩ := htook.append h hstage hclean hroom fun _ => by decide
    rw [hin']
    exact ⟨_, hnext⟩
  · rw [if_neg hempty] at h
    have htext : text ≠ [] := fun hnil => hempty (by rw [hnil]; rfl)
    cases hretain : state.filter.retain (text ++ crlf) with
    | none => simp [hretain] at h
    | some retained =>
        obtain ⟨filter, kept⟩ := retained
        simp only [hretain] at h
        cases hline : if submission then state.identities.line (text ++ crlf)
            else some state.identities with
        | none => simp [hline] at h
        | some identities =>
            simp only [hline] at h
            cases kept with
            | true =>
                rw [if_pos rfl] at h
                obtain ⟨hnext, hin'⟩ := htook.append h hstage hclean hroom
                  fun _ => HeaderFilter.retain_ascii hretain
                rw [decide_eq_true htext] at hnext
                refine ⟨lines ++ [text], ?_⟩
                rw [hin']
                change Took message _ state'.stage state.inHeaders
                rw [hin]
                exact hnext
            | false =>
                cases h
                refine ⟨lines, ?_⟩
                change Took message lines state.stage state.inHeaders
                rw [hin, hstage]
                exact htook

/-- **One round of `receive_message`.** -/
theorem Took.line {text : Text} (htook : Took message lines state.stage state.inHeaders)
    (hbody : message.body = .sevenBit → body = .sevenBit) (hclean : Clean text)
    (hroom : text.length + 2 ≤ 1000)
    (h : Receiving.line limits faults submission body state (text ++ crlf) = .ok state') :
    ∃ lines', Took message lines' state'.stage state'.inHeaders := by
  unfold Receiving.line at h
  split_ifs at h with hbits hinput
  dsimp only at h
  split_ifs at h with hin hheaders
  · rw [hin] at htook
    exact htook.header h rfl hin hclean hroom
  · rw [Bool.not_eq_true] at hin
    rw [hin] at htook
    have hascii : false = true ∨ message.body = .sevenBit → isAscii (text ++ crlf) = true := by
      rintro (hno | hseven)
      · cases hno
      · by_contra hother
        exact hbits ⟨hbody hseven, by simpa using hother⟩
    obtain ⟨hnext, hin'⟩ := htook.append h rfl hclean hroom hascii
    refine ⟨lines ++ [text], ?_⟩
    rw [hin']
    change Took message _ state'.stage state.inHeaders
    rw [hin]
    exact hnext

end Server.Receiving

namespace Server

variable {message : Client.Message} {limits : ReceiveLimits} {faults : ReceiveFaults}
  {submission : Bool} {body : Body}

/-- The end of the data adds a separator that is missing. -/
theorem Receiving.Took.finish {state : Receiving} {lines : List Text} {stage : StagedMessage}
    {author : Option Address} (htook : Took message lines state.stage state.inHeaders)
    (h : state.finish faults submission = .ok (stage, author)) :
    ∃ lines', Took message lines' stage false := by
  unfold Receiving.finish at h
  by_cases hauthor : submission = true ∧ state.identities.author = none
  · rw [if_pos hauthor] at h
    cases h
  · rw [if_neg hauthor] at h
    dsimp only at h
    cases hin : state.inHeaders with
    | true =>
        rw [hin] at htook h
        rw [if_pos rfl] at h
        cases happend : Receiving.append faults state crlf with
        | error e => simp [happend] at h
        | ok state' =>
            have hblank : Clean [] := ⟨List.not_mem_nil, List.not_mem_nil, List.not_mem_nil⟩
            rw [← List.nil_append crlf] at happend
            obtain ⟨hnext, -⟩ := htook.append happend rfl hblank (by decide) fun _ => by decide
            rw [List.nil_append] at happend
            simp only [happend] at h
            split at h
            · cases h
            · cases h
              exact ⟨_, hnext⟩
    | false =>
        rw [hin] at htook h
        simp only [Bool.false_eq_true, if_false] at h
        split at h
        · cases h
        · cases h
          exact ⟨lines, htook⟩

/-- **What `receive_message` stores can be sent**, if the return path in front of it is the one that
is left out. -/
theorem receiveMessage_sendable {trace : Trace} {sender : Option Address} {operation : Uuid}
    {date : Option Text} {traced root : Text} {id : Uuid} {bufferLimit maxSize : Nat}
    {limited : maxSize ≤ maxStoredBytes} {pieces rest : List Text} {stage : StagedMessage}
    {author : Option Address} (hdate : ∀ text ∈ date, plain text = true)
    (htraced : trace.prefixText sender operation date = some traced)
    (h : receiveMessage limits faults submission body traced
      (.new root id bufferLimit maxSize limited) pieces = .ok (stage, author, rest))
    (homit : message.omitPrefix
      = ascii "Return-Path: <" ++ sender.elim [] Address.asStr ++ ascii ">" ++ crlf)
    (hbody : message.body = .sevenBit → body = .sevenBit) (hsize : message.storedSize = stage.size) :
    Client.Sendable message stage.hashed := by
  obtain ⟨others, htext, hlines⟩ := Trace.prefixText_lines hdate htraced
  unfold receiveMessage at h
  dsimp only at h
  split at h
  · cases h
  · next first happend =>
      obtain ⟨hhashed, hlength, hin⟩ := Receiving.append_ok happend
      have hstart : Receiving.Took message
          ((ascii "Return-Path: <" ++ sender.elim [] Address.asStr ++ ascii ">") :: others)
          first.stage first.inHeaders := by
        have hkept := Client.Kept.of_plain
          (fun line hmem => ⟨(hlines line hmem).1, (hlines line hmem).2.1⟩)
          (Or.inr fun line hhead => by rw [← Option.some.inj hhead, homit])
        refine ⟨?_, by simp, ?_, ?_⟩
        · rw [hhashed, StagedMessage.new, List.nil_append, htext]
          exact hkept
        · rw [hhashed, hlength]
          exact Nat.zero_add _
        · have hnone : [] ∉ (ascii "Return-Path: <" ++ sender.elim [] Address.asStr ++ ascii ">")
              :: others := fun hnil => (hlines [] hnil).2.2 rfl
          rw [hin, decide_eq_true hnone]
      split at h
      · cases h
      · next last left hloop =>
          obtain ⟨lines, htook⟩ := dataLoop_invariant
            (fun state => ∃ lines, Receiving.Took message lines state.stage state.inHeaders)
            (fun state text state' hclean hroom ⟨lines, htook⟩ hline =>
              htook.line hbody hclean hroom hline) ⟨_, hstart⟩ hloop
          split at h
          · cases h
          · next ended writer hfinish =>
              cases h
              obtain ⟨lines', hended⟩ := htook.finish hfinish
              refine hended.kept.sendable ?_ ?_
              · by_contra hmissing
                have hheaders := hended.headers_eq
                rw [decide_eq_true hmissing] at hheaders
                cases hheaders
              · rw [hsize, hended.size_eq]

end Server

end Rustymail
