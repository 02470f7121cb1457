import Rustymail.Proof.AuthorLemmas
import Rustymail.Proof.DataLines

/-!
# What `receive_message` stores

After every line the stage holds the trace and what is kept of the lines so far, and the three counters
tell how much has come in.
-/

namespace Rustymail

open Framing

variable {lines : List Text}

/-! ### Header and body -/

theorem octets_append (first second : List Text) : octets (first ++ second) = octets first + octets second := by
  unfold octets
  rw [List.map_append, List.sum_append]

theorem octets_cons (line : Text) (lines : List Text) :
    octets (line :: lines) = line.length + 2 + octets lines := List.sum_cons

theorem octets_singleton (line : Text) : octets [line] = line.length + 2 := Nat.add_zero _

theorem length_flatMap_crlf (lines : List Text) : (lines.flatMap (· ++ crlf)).length = octets lines := by
  induction lines with
  | nil => rfl
  | cons line rest ih =>
      rw [List.flatMap_cons, List.length_append, ih, List.length_append]
      rfl

theorem full_of_not_mem {header : List Text} (h : [] ∉ header) : ∀ line ∈ header, (!line.isEmpty) = true := by
  intro line hmem
  cases line with
  | nil => exact absurd hmem h
  | cons b line => rfl

/-- Lines that are all header. -/
theorem header_only {header : List Text} (h : [] ∉ header) :
    headerLines header = header ∧ bodyLines header = [] ∧ sectionLines header = header := by
  have htake : (header.takeWhile fun line => !line.isEmpty) = header :=
    List.takeWhile_eq_self_iff.2 (full_of_not_mem h)
  have hdrop : (header.dropWhile fun line => !line.isEmpty) = [] :=
    List.dropWhile_eq_nil_iff.2 (full_of_not_mem h)
  unfold sectionLines headerLines bodyLines
  rw [htake, hdrop]
  exact ⟨rfl, rfl, List.append_nil _⟩

/-- A header with its empty line, and a body. -/
theorem header_body {header : List Text} (h : [] ∉ header) (body : List Text) :
    headerLines (header ++ [] :: body) = header ∧ bodyLines (header ++ [] :: body) = body
      ∧ sectionLines (header ++ [] :: body) = header ++ [[]] := by
  have htake : ((header ++ [] :: body).takeWhile fun line => !line.isEmpty) = header := by
    rw [List.takeWhile_append_of_pos (full_of_not_mem h)]
    exact List.append_nil _
  have hdrop : ((header ++ [] :: body).dropWhile fun line => !line.isEmpty) = [] :: body :=
    Words.dropWhile_append_of_all (full_of_not_mem h) _
  unfold sectionLines headerLines bodyLines
  rw [htake, hdrop]
  exact ⟨rfl, rfl, rfl⟩

theorem octets_section {header : List Text} (h : [] ∉ header) (text : Text) :
    octets (sectionLines (header ++ [text])) = octets header + (text.length + 2) := by
  by_cases hempty : text = []
  · rw [hempty, (header_body h []).2.2, octets_append, octets_singleton]
  · have hfull : [] ∉ header ++ [text] := by
      rw [List.mem_append, List.mem_singleton, not_or]
      exact ⟨h, Ne.symm hempty⟩
    rw [(header_only hfull).2.2, octets_append, octets_singleton]

namespace Server.Receiving

variable {limits : ReceiveLimits} {faults : ReceiveFaults} {submission : Bool} {body : Body}
  {tracePrefix : Text} {state state' : Receiving}

/-! ### One append -/

/-- The state behind bytes that have been appended. -/
structure Appended (state : Receiving) (bytes : Text) (state' : Receiving) : Prop where
  hashed : state'.stage.hashed = state.stage.hashed ++ bytes
  size : state'.stage.size = state.stage.size + bytes.length
  healthy : state'.stage.poisoned = false
  maxSize : state'.stage.maxSize = state.stage.maxSize
  others : (state'.inHeaders, state'.headers, state'.inputBytes, state'.filter, state'.identities)
    = (state.inHeaders, state.headers, state.inputBytes, state.filter, state.identities)

/-- Where there is room, only the disk can refuse. -/
theorem append_cases {bytes : Text} (hhealthy : state.stage.poisoned = false)
    (hroom : state.stage.size + bytes.length ≤ state.stage.maxSize) :
    (∃ e, faults.append state.round = some e ∧ append faults state bytes = .error (.storage e))
      ∨ ∃ state', append faults state bytes = .ok state' ∧ Appended state bytes state' := by
  unfold append StagedMessage.append
  rw [if_neg (by rw [hhealthy]; exact Bool.false_ne_true), dif_pos hroom]
  cases faults.append state.round with
  | some e => exact Or.inl ⟨e, rfl, rfl⟩
  | none => exact Or.inr ⟨_, rfl, rfl, rfl, hhealthy, rfl, rfl⟩

/-! ### The invariant -/

/-- The lines so far and what is on the stage behind the trace: the fields kept of the header, and
everything from the separator on. -/
structure Behind (submission : Bool) (lines : List Text) (text : Text) (state : Receiving)
    (header kept : List Text) : Prop where
  filtered : (HeaderFilter.initial submission).retainAll (header.map (· ++ crlf))
    = some (state.filter, kept)
  identified : submission = true →
    SubmissionHeaders.lines {} (header.map (· ++ crlf)) = some state.identities
  full : [] ∉ header
  text_eq : if state.inHeaders then
      lines = header ∧ text = kept.flatten ∧ state.headers = octets header
    else ∃ later, lines = header ++ [] :: later
      ∧ text = kept.flatten ++ crlf ++ later.flatMap (· ++ crlf)
      ∧ state.headers = octets (header ++ [[]])

/-- The state behind these lines. -/
structure Stored (limits : ReceiveLimits) (submission : Bool) (body : Body) (tracePrefix : Text)
    (lines : List Text) (state : Receiving) : Prop where
  behind : ∃ text header kept, state.stage.hashed = tracePrefix ++ text
    ∧ Behind submission lines text state header kept
  size_eq : state.stage.size = state.stage.hashed.length
  healthy : state.stage.poisoned = false
  maxSize : state.stage.maxSize = limits.messageBytes + 2048
  input_eq : state.inputBytes = octets lines
  room : state.stage.size ≤ tracePrefix.length + state.inputBytes
  input_le : state.inputBytes ≤ limits.messageBytes
  headers_le : state.headers ≤ limits.headerBytes
  ascii : body = .sevenBit → ∀ line ∈ lines, isAscii line = true

/-- More has come in than either limit allows. -/
def Exceeds (limits : ReceiveLimits) (lines : List Text) : Prop :=
  limits.messageBytes < octets lines ∨ limits.headerBytes < octets (sectionLines lines)

section

variable {text bytes : Text}

/-- One more line, of which these bytes are appended. -/
theorem Stored.grow (mid : Receiving) (h : Stored limits submission body tracePrefix lines state)
    (hbytes : bytes.length ≤ text.length + 2) (hstage : mid.stage = state.stage)
    (hinput : mid.inputBytes = state.inputBytes + (text.length + 2))
    (hinput_le : mid.inputBytes ≤ limits.messageBytes) (hheaders : mid.headers ≤ limits.headerBytes)
    (hascii : body = .sevenBit → isAscii text = true) (happended : Appended mid bytes state')
    (hbehind : ∃ behind header kept, state.stage.hashed ++ bytes = tracePrefix ++ behind
      ∧ Behind submission (lines ++ [text]) behind mid header kept) :
    Stored limits submission body tracePrefix (lines ++ [text]) state' := by
  obtain ⟨hhashed, hsize, hhealthy, hmax, hothers⟩ := happended
  simp only [Prod.mk.injEq] at hothers
  obtain ⟨hin, hheaders', hinput', hfilter, hidentities⟩ := hothers
  rw [hstage] at hhashed hsize hmax
  have hroom := h.room
  refine ⟨?_, ?_, hhealthy, hmax.trans h.maxSize, ?_, ?_, ?_, ?_, ?_⟩
  · obtain ⟨behind, header, kept, htext, hbehind⟩ := hbehind
    refine ⟨behind, header, kept, hhashed.trans htext, ?_, ?_, hbehind.full, ?_⟩
    · rw [hfilter]
      exact hbehind.filtered
    · rw [hidentities]
      exact hbehind.identified
    · rw [hin, hheaders']
      exact hbehind.text_eq
  · rw [hsize, hhashed, h.size_eq, List.length_append]
  · rw [hinput', hinput, h.input_eq, octets_append, octets_singleton]
  · omega
  · omega
  · omega
  · intro hbody line hmem
    rcases List.mem_append.1 hmem with hold | hnew
    · exact h.ascii hbody line hold
    · rw [List.mem_singleton.1 hnew]
      exact hascii hbody

/-- A line of the header section. -/
theorem Stored.header {mid : Receiving} (h : Stored limits submission body tracePrefix lines state)
    (hshort : tracePrefix.length + 2 ≤ 2048) (hstage : mid.stage = state.stage)
    (hinput : mid.inputBytes = state.inputBytes + (text.length + 2))
    (hinput_le : mid.inputBytes ≤ limits.messageBytes)
    (hheaders : mid.headers = state.headers + (text.length + 2))
    (hheaders_le : mid.headers ≤ limits.headerBytes)
    (hascii : body = .sevenBit → isAscii text = true) (hin : state.inHeaders = true)
    (hothers : (mid.inHeaders, mid.filter, mid.identities)
      = (state.inHeaders, state.filter, state.identities)) :
    (∃ e, Receiving.header faults submission mid (text ++ crlf) = .error e
        ∧ (e = .storage .sizeLimit → ∃ n, faults.append n = some .sizeLimit))
      ∨ ∃ state', Receiving.header faults submission mid (text ++ crlf) = .ok state'
        ∧ Stored limits submission body tracePrefix (lines ++ [text]) state' := by
  simp only [Prod.mk.injEq] at hothers
  obtain ⟨hin', hfilter, hidentities⟩ := hothers
  have hlength : (text ++ crlf).length = text.length + 2 := List.length_append
  have hroom : mid.stage.size + (text ++ crlf).length ≤ mid.stage.maxSize := by
    have hbefore := h.room
    have hmax := h.maxSize
    rw [hstage, hlength]
    omega
  have hhealthy : mid.stage.poisoned = false := by
    rw [hstage]
    exact h.healthy
  obtain ⟨behind, header, kept, hhashed, hbehind⟩ := h.behind
  have hcontent := hbehind.text_eq
  rw [hin, if_pos rfl] at hcontent
  obtain ⟨rfl, rfl, hcount⟩ := hcontent
  unfold Receiving.header
  by_cases hempty : text ++ crlf = crlf
  · -- the separator
    obtain rfl : text = [] := List.append_left_eq_self.1 hempty
    rw [if_pos hempty]
    rcases @append_cases faults { mid with inHeaders := false } _ hhealthy hroom with
      ⟨e, hfault, herror⟩ | ⟨state', hok, happended⟩
    · refine Or.inl ⟨_, herror, ?_⟩
      intro heq
      cases heq
      exact ⟨_, hfault⟩
    · refine Or.inr ⟨state', hok, ?_⟩
      refine h.grow { mid with inHeaders := false } hlength.le hstage hinput hinput_le hheaders_le
        hascii happended ⟨kept.flatten ++ crlf, lines, kept, ?_, ?_, ?_, hbehind.full, ?_⟩
      · rw [hhashed, List.append_assoc]
        rfl
      · change _ = some (mid.filter, kept)
        rw [hfilter]
        exact hbehind.filtered
      · change _ → _ = some mid.identities
        rw [hidentities]
        exact hbehind.identified
      · rw [if_neg Bool.false_ne_true]
        refine ⟨[], rfl, (List.append_nil _).symm, ?_⟩
        change mid.headers = _
        rw [hheaders, hcount, octets_append, octets_singleton]
  · have htext : text ≠ [] := by
      rintro rfl
      exact hempty rfl
    rw [if_neg hempty]
    cases hretain : mid.filter.retain (text ++ crlf) with
    | none =>
        refine Or.inl ⟨_, rfl, ?_⟩
        intro heq
        cases heq
    | some retained =>
        obtain ⟨filter, keep⟩ := retained
        dsimp only
        cases hidentity : if submission then mid.identities.line (text ++ crlf)
            else some mid.identities with
        | none =>
            refine Or.inl ⟨_, rfl, ?_⟩
            intro heq
            cases heq
        | some identities =>
            dsimp only
            have hfiltered := hbehind.filtered
            rw [← hfilter] at hfiltered
            have hfull : [] ∉ lines ++ [text] := by
              rw [List.mem_append, List.mem_singleton, not_or]
              exact ⟨hbehind.full, Ne.symm htext⟩
            have hnext : ∀ behind, behind = (kept ++ if keep then [text ++ crlf] else []).flatten →
                Behind submission (lines ++ [text]) behind
                  { mid with filter := filter, identities := identities } (lines ++ [text])
                  (kept ++ if keep then [text ++ crlf] else []) := by
              rintro behind rfl
              refine ⟨?_, ?_, hfull, ?_⟩
              · rw [List.map_append]
                exact HeaderFilter.retainAll_snoc hfiltered hretain
              · intro hsubmission
                rw [hsubmission, if_pos rfl, hidentities] at hidentity
                rw [List.map_append]
                exact SubmissionHeaders.lines_snoc (hbehind.identified hsubmission) hidentity
              · change if mid.inHeaders then _ else _
                rw [hin', hin, if_pos rfl]
                refine ⟨rfl, rfl, ?_⟩
                change mid.headers = _
                rw [hheaders, hcount, octets_append, octets_singleton]
            cases keep with
            | true =>
                rw [if_pos rfl]
                rcases @append_cases faults { mid with filter := filter, identities := identities } _
                  hhealthy hroom with ⟨e, hfault, herror⟩ | ⟨state', hok, happended⟩
                · refine Or.inl ⟨_, herror, ?_⟩
                  intro heq
                  cases heq
                  exact ⟨_, hfault⟩
                · refine Or.inr ⟨state', hok, ?_⟩
                  refine h.grow { mid with filter := filter, identities := identities } hlength.le hstage
                    hinput hinput_le hheaders_le hascii happended ⟨_, lines ++ [text], _, ?_, hnext _ rfl⟩
                  rw [hhashed, List.append_assoc, List.flatten_append]
                  simp
            | false =>
                rw [if_neg Bool.false_ne_true]
                refine Or.inr ⟨_, rfl, ?_⟩
                refine h.grow { mid with filter := filter, identities := identities } (Nat.zero_le _) hstage
                  hinput hinput_le hheaders_le hascii
                  ⟨(List.append_nil _).symm, rfl, hhealthy, rfl, rfl⟩
                  ⟨_, lines ++ [text], _, ?_, hnext _ rfl⟩
                rw [hhashed, List.flatten_append]
                simp

/-- **One round of `receive_message`.** The stage has room for every line that the limits allow. -/
theorem Stored.line (h : Stored limits submission body tracePrefix lines state)
    (hshort : tracePrefix.length + 2 ≤ 2048) (text : Text) :
    (∃ e, Receiving.line limits faults submission body state (text ++ crlf) = .error e
        ∧ (e = .storage .sizeLimit →
          Exceeds limits (lines ++ [text]) ∨ ∃ n, faults.append n = some .sizeLimit))
      ∨ ∃ state', Receiving.line limits faults submission body state (text ++ crlf) = .ok state'
        ∧ Stored limits submission body tracePrefix (lines ++ [text]) state' := by
  have hlength : (text ++ crlf).length = text.length + 2 := List.length_append
  unfold Receiving.line
  by_cases hbits : body = .sevenBit ∧ isAscii (text ++ crlf) = false
  · rw [if_pos hbits]
    refine Or.inl ⟨_, rfl, ?_⟩
    intro heq
    cases heq
  rw [if_neg hbits]
  have hascii : body = .sevenBit → isAscii text = true := by
    intro hbody
    have htext : isAscii (text ++ crlf) = true := by
      by_contra hother
      exact hbits ⟨hbody, Bool.eq_false_iff.2 hother⟩
    rw [isAscii_append, Bool.and_eq_true] at htext
    exact htext.1
  by_cases hinput : limits.messageBytes < state.inputBytes + (text ++ crlf).length
  · rw [if_pos hinput]
    refine Or.inl ⟨_, rfl, fun _ => Or.inl (Or.inl ?_)⟩
    rw [octets_append, octets_singleton, ← h.input_eq, ← hlength]
    exact hinput
  rw [if_neg hinput]
  rw [hlength] at hinput
  dsimp only
  cases hin : state.inHeaders with
  | true =>
      rw [if_pos rfl]
      by_cases hheaders : limits.headerBytes < state.headers + (text ++ crlf).length
      · rw [if_pos hheaders]
        refine Or.inl ⟨_, rfl, fun _ => Or.inl (Or.inr ?_)⟩
        obtain ⟨behind, header, kept, -, hbehind⟩ := h.behind
        have hcontent := hbehind.text_eq
        rw [hin, if_pos rfl] at hcontent
        obtain ⟨rfl, -, hcount⟩ := hcontent
        rw [octets_section hbehind.full, ← hcount, ← hlength]
        exact hheaders
      · rw [if_neg hheaders]
        rw [hlength] at hheaders
        have hnext := @Stored.header _ _ faults _ _ _ state text
          { state with
            inputBytes := state.inputBytes + (text ++ crlf).length
            headers := state.headers + (text ++ crlf).length
            inHeaders := true } h hshort rfl (congrArg _ hlength) (by dsimp only; omega)
          (congrArg _ hlength) (by dsimp only; omega) hascii hin (by rw [hin])
        rcases hnext with ⟨e, herror, hsize⟩ | hok
        · exact Or.inl ⟨e, herror, fun heq => Or.inr (hsize heq)⟩
        · exact Or.inr hok
  | false =>
      rw [if_neg Bool.false_ne_true]
      have hroom : state.stage.size + (text ++ crlf).length ≤ state.stage.maxSize := by
        have hbefore := h.room
        have hmax := h.maxSize
        omega
      rcases @append_cases faults { state with
          inputBytes := state.inputBytes + (text ++ crlf).length, inHeaders := false } _
        h.healthy hroom with ⟨e, hfault, herror⟩ | ⟨state', hok, happended⟩
      · refine Or.inl ⟨_, herror, ?_⟩
        intro heq
        cases heq
        exact Or.inr ⟨_, hfault⟩
      · refine Or.inr ⟨state', hok, ?_⟩
        obtain ⟨behind, header, kept, hhashed, hbehind⟩ := h.behind
        have hcontent := hbehind.text_eq
        rw [hin, if_neg Bool.false_ne_true] at hcontent
        obtain ⟨later, hlines, htext, hcount⟩ := hcontent
        refine h.grow { state with
            inputBytes := state.inputBytes + (text ++ crlf).length, inHeaders := false }
          hlength.le rfl (congrArg _ hlength) (by dsimp only; omega) h.headers_le hascii happended
          ⟨behind ++ (text ++ crlf), header, kept, ?_, hbehind.filtered,
            hbehind.identified, hbehind.full, ?_⟩
        · rw [hhashed, List.append_assoc]
        · rw [if_neg Bool.false_ne_true]
          refine ⟨later ++ [text], ?_, ?_, hcount⟩
          · rw [hlines, List.append_assoc]
            rfl
          · rw [htext, List.flatMap_append, List.flatMap_singleton, List.append_assoc]

/-- What is then known of a message. -/
structure Accepted (limits : ReceiveLimits) (submission : Bool) (body : Body) (tracePrefix : Text)
    (lines : List Text) (stage : StagedMessage) (author : Option Address) : Prop where
  stored : stage.hashed = tracePrefix ++ storedText submission lines
  size_eq : stage.size = stage.hashed.length
  size_le : stage.size ≤ limits.messageBytes + 2048
  input_le : octets lines ≤ limits.messageBytes
  headers_le : octets (sectionLines lines) ≤ limits.headerBytes
  ascii : body = .sevenBit → ∀ line ∈ lines, isAscii line = true
  filtered : ∃ filter kept, (HeaderFilter.initial submission).retainAll
    ((headerLines lines).map (· ++ crlf)) = some (filter, kept)
  identified : submission = true → ∃ identities,
    SubmissionHeaders.lines {} ((headerLines lines).map (· ++ crlf)) = some identities
      ∧ identities.author = author ∧ author.isSome = true
  anonymous : submission = false → author = none

/-- The end of the data. -/
theorem Stored.finish (h : Stored limits submission body tracePrefix lines state)
    (hshort : tracePrefix.length + 2 ≤ 2048) :
    (∃ e, state.finish faults submission = .error e
        ∧ (e = .storage .sizeLimit →
          faults.prepare = some .sizeLimit ∨ ∃ n, faults.append n = some .sizeLimit))
      ∨ ∃ stage author, state.finish faults submission = .ok (stage, author)
        ∧ Accepted limits submission body tracePrefix lines stage author := by
  unfold Receiving.finish
  by_cases hmissing : submission = true ∧ state.identities.author = none
  · rw [if_pos hmissing]
    refine Or.inl ⟨_, rfl, ?_⟩
    intro heq
    cases heq
  rw [if_neg hmissing]
  dsimp only
  obtain ⟨behind, header, kept, hhashed, hbehind⟩ := h.behind
  have hinput := h.input_le
  have hheaders := h.headers_le
  rw [h.input_eq] at hinput
  -- what the stage must hold, and how much of the input is header
  have haccepted : ∀ stage : StagedMessage, stage.hashed = tracePrefix ++ storedText submission lines →
      stage.size = stage.hashed.length → stage.maxSize = limits.messageBytes + 2048 →
      headerLines lines = header →
      octets (sectionLines lines) = state.headers →
      Accepted limits submission body tracePrefix lines stage
        (if submission then state.identities.author else none) := by
    intro stage hstored hsize hmax hheader hsection
    refine ⟨hstored, hsize, hmax ▸ stage.bounded, hinput, by omega, h.ascii, ?_, ?_, ?_⟩
    · rw [hheader]
      exact ⟨_, _, hbehind.filtered⟩
    · intro hsubmission
      rw [hheader, hsubmission, if_pos rfl]
      refine ⟨_, hbehind.identified hsubmission, rfl, ?_⟩
      rw [Option.isSome_iff_ne_none]
      exact fun hnone => hmissing ⟨hsubmission, hnone⟩
    · intro hsubmission
      rw [hsubmission, if_neg Bool.false_ne_true]
  have hretained : headerLines lines = header →
      (retainedLines submission lines).flatMap (· ++ crlf) = kept.flatten := by
    intro hheader
    unfold retainedLines
    rw [hheader, (HeaderFilter.retainAll_initial hbehind.filtered).2, List.flatMap_def]
  have hcontent := hbehind.text_eq
  cases hin : state.inHeaders with
  | true =>
      rw [hin, if_pos rfl] at hcontent
      obtain ⟨rfl, rfl, hcount⟩ := hcontent
      obtain ⟨hheader, hbody, hsection⟩ := header_only hbehind.full
      rw [if_pos rfl]
      have hroom : state.stage.size + crlf.length ≤ state.stage.maxSize := by
        have hbefore := h.room
        have hmax := h.maxSize
        have hinput' := h.input_le
        have hcrlf : crlf.length = 2 := rfl
        omega
      rcases @append_cases faults state _ h.healthy hroom with
        ⟨e, hfault, herror⟩ | ⟨state', hok, happended⟩
      · rw [herror]
        refine Or.inl ⟨_, rfl, ?_⟩
        intro heq
        cases heq
        exact Or.inr ⟨_, hfault⟩
      · rw [hok]
        dsimp only
        cases hprepare : faults.prepare with
        | some e =>
            refine Or.inl ⟨_, rfl, ?_⟩
            intro heq
            cases heq
            exact Or.inl rfl
        | none =>
            refine Or.inr ⟨_, _, rfl, haccepted _ ?_ ?_ (happended.maxSize.trans h.maxSize)
              hheader ?_⟩
            · unfold storedText
              rw [happended.hashed, hhashed, hretained hheader, hbody, List.append_assoc,
                List.flatMap_nil, List.append_nil]
            · rw [happended.size, happended.hashed, h.size_eq, List.length_append]
            · rw [hsection, hcount]
  | false =>
      rw [hin, if_neg Bool.false_ne_true] at hcontent
      obtain ⟨later, rfl, rfl, hcount⟩ := hcontent
      obtain ⟨hheader, hbody, hsection⟩ := header_body hbehind.full later
      rw [if_neg Bool.false_ne_true]
      cases hprepare : faults.prepare with
      | some e =>
          refine Or.inl ⟨_, rfl, ?_⟩
          intro heq
          cases heq
          exact Or.inl rfl
      | none =>
          refine Or.inr ⟨_, _, rfl, haccepted _ ?_ h.size_eq h.maxSize hheader ?_⟩
          · unfold storedText
            rw [hhashed, hretained hheader, hbody]
          · rw [hsection, hcount]

end

end Server.Receiving

namespace Server

variable {limits : ReceiveLimits} {faults : ReceiveFaults} {submission : Bool} {body : Body}
  {tracePrefix root : Text} {id : Uuid} {bufferLimit : Nat}
  {limited : limits.messageBytes + 2048 ≤ maxStoredBytes}

/-- **The call.** It fails, for the size only where a limit is exceeded; or it has taken the lines up
to the terminator and has stored what is to be kept of them. -/
theorem receiveMessage_cases (hshort : tracePrefix.length + 2 ≤ 2048) (pieces : List Text) :
    (∃ e, receiveMessage limits faults submission body tracePrefix
          (.new root id bufferLimit (limits.messageBytes + 2048) limited) pieces = .error e
        ∧ (e = .storage .sizeLimit →
          (faults.prepare = some .sizeLimit ∨ ∃ n, faults.append n = some .sizeLimit)
            ∨ ∃ frames more, DataFrames frames
              ∧ pieces.flatten = frames.flatMap (· ++ crlf) ++ more
              ∧ Receiving.Exceeds limits (frames.map unstuffed)))
      ∨ ∃ stage author rest frames, receiveMessage limits faults submission body tracePrefix
            (.new root id bufferLimit (limits.messageBytes + 2048) limited) pieces
          = .ok (stage, author, rest)
        ∧ DataFrames frames
        ∧ pieces.flatten = frames.flatMap (· ++ crlf) ++ Client.terminator ++ rest.flatten
        ∧ Receiving.Accepted limits submission body tracePrefix (frames.map unstuffed) stage author := by
  unfold receiveMessage
  dsimp only
  rcases @Receiving.append_cases faults
      ⟨0, .new root id bufferLimit (limits.messageBytes + 2048) limited, true, 0, 0,
        if submission then HeaderFilter.submission else {}, {}⟩ tracePrefix rfl
      (by change 0 + tracePrefix.length ≤ limits.messageBytes + 2048; omega) with
    ⟨e, hfault, herror⟩ | ⟨first, hfirst, happended⟩
  · rw [herror]
    refine Or.inl ⟨_, rfl, ?_⟩
    intro heq
    cases heq
    exact Or.inl (Or.inr ⟨_, hfault⟩)
  rw [hfirst]
  dsimp only
  have hothers := happended.others
  simp only [Prod.mk.injEq] at hothers
  obtain ⟨hin, hheaders, hinput, hfilter, hidentities⟩ := hothers
  have hstart : Receiving.Stored limits submission body tracePrefix [] first := by
    refine ⟨⟨[], [], [], ?_, ?_, ?_, List.not_mem_nil, ?_⟩, ?_, happended.healthy, happended.maxSize,
      hinput, ?_, ?_, ?_, ?_⟩
    · rw [happended.hashed, List.append_nil]
      rfl
    · rw [hfilter]
      cases submission with
      | true => rfl
      | false => rfl
    · rw [hidentities]
      exact fun _ => rfl
    · rw [hin, if_pos rfl]
      exact ⟨rfl, rfl, hheaders⟩
    · rw [happended.size, happended.hashed]
      exact (Nat.zero_add _)
    · rw [happended.size, hinput]
      exact (Nat.zero_add _).le
    · rw [hinput]
      exact Nat.zero_le _
    · rw [hheaders]
      exact Nat.zero_le _
    · intro _ line hmem
      exact (List.not_mem_nil hmem).elim
  obtain ⟨frames, more, state, hframes, hbytes, hstored, hended⟩ :=
    @dataLoop_run _ (fun state => (faults.read state.round).map .io)
      (Receiving.line limits faults submission body)
      (Receiving.Stored limits submission body tracePrefix)
      (by
        intro lines state text state' _ _ hstored hline
        rcases hstored.line hshort text with ⟨e, herror, -⟩ | ⟨next, hok, hnext⟩
        · rw [hline] at herror
          cases herror
        · rw [hline] at hok
          cases hok
          exact hnext) [] first pieces hstart
  rw [List.nil_append] at hstored
  generalize dataLoop _ _ _ _ = outcome at hended
  cases hended with
  | terminated rest hmore =>
      dsimp only
      rcases hstored.finish hshort with ⟨e, herror, hsize⟩ | ⟨stage, author, hok, haccepted⟩
      · rw [herror]
        exact Or.inl ⟨_, rfl, fun heq => Or.inl (hsize heq)⟩
      · rw [hok]
        refine Or.inr ⟨stage, author, rest, frames, rfl, hframes, ?_, haccepted⟩
        rw [hbytes, hmore, List.append_assoc]
  | waited e hwait =>
      refine Or.inl ⟨_, rfl, ?_⟩
      rintro rfl
      obtain ⟨kind, -, heq⟩ := Option.map_eq_some_iff.1 hwait
      cases heq
  | broken kind =>
      refine Or.inl ⟨_, rfl, ?_⟩
      intro heq
      cases heq
  | refused frame behind e hframe hmore hline =>
      refine Or.inl ⟨_, rfl, ?_⟩
      intro heq
      rcases hstored.line hshort (unstuffed frame) with ⟨e', herror, hsize⟩ | ⟨next, hok, -⟩
      · rw [hline] at herror
        cases herror
        rcases hsize heq with hexceeds | hfault
        · refine Or.inr ⟨frames ++ [frame], behind, ?_, ?_, ?_⟩
          · intro other hmem
            rcases List.mem_append.1 hmem with hold | hnew
            · exact hframes other hold
            · exact hframe other hnew
          · rw [hbytes, hmore, List.flatMap_append, List.flatMap_singleton]
            simp
          · rw [List.map_append]
            exact hexceeds
        · exact Or.inl (Or.inr hfault)
      · rw [hline] at hok
        cases hok

end Server

end Rustymail
