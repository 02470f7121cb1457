import Rustymail.Client.Passage
import Rustymail.Proof.BodyLemmas
import Rustymail.Proof.ClientLemmas

/-!
# The order of the phases

Whatever the peer answers, an attempt writes only what its phase permits; and once a handshake has
completed, the rest of the attempt is the same whatever came before.
-/

namespace Rustymail.Client

open Dialogue

variable {ε α β : Type} {client : SmtpClient} {message : Message} {passage : Passage}

/-- The dialogue writes only what is permitted, and a value it ends with comes after `post`. -/
abbrev Passes (client : SmtpClient) (message : Message) (post : α → Passage → Prop)
    (talk : Talk ε α) (passage : Passage) : Prop :=
  Always Passage.observe (Passage.permits client message) post (fun _ _ => True) talk passage

theorem Passes.lost {talk : Talk Unit α} {post : α → Passage → Prop}
    (h : Passes client message post talk passage) : Passes client message post (lost talk) passage :=
  Always.mapError h

/-! ### Replies -/

/-- A line of a reply as `response` takes it in. -/
def Captured (capture first : Bool) (capabilities : Capabilities) (line : Text) (number : Nat)
    (captured : Capabilities) : Prop :=
  replyCode line = some number
    ∧ (if capture && !first && decide (number = 250) then capabilities.capture (line.drop 4)
      else some capabilities) = some captured

/-- **Reading a reply.** What every line but the last keeps up and the last one turns into `post`. -/
theorem responseLines_passes {capture : Bool} {post : Response → Passage → Prop}
    (holds : Bool → Capabilities → Passage → Prop)
    (hline : ∀ first capabilities passage line number captured, holds first capabilities passage →
      Captured capture first capabilities line number captured →
      if separator line = 32 then post ⟨number, captured⟩ (passage.line line)
      else holds false captured (passage.line line))
    (deadline : Deadline) (remaining : Nat) (first : Bool) (code : Option Nat) (total : Nat)
    (capabilities : Capabilities) (h : holds first capabilities passage) :
    Passes client message post
      (responseLines deadline capture remaining first code total capabilities) passage := by
  induction remaining generalizing first code total capabilities passage with
  | zero => trivial
  | succ remaining ih =>
      refine ⟨trivial, ?_⟩
      intro answer
      match answer with
      | none => trivial
      | some none => trivial
      | some (some line) =>
          refine Always.bind (Always.found ?_ trivial)
          intro number hcode
          refine Always.bind (Always.require ?_ fun _ => trivial)
          intro _
          refine Always.bind (Always.found ?_ trivial)
          intro captured hcaptured
          have hnext := hline first capabilities passage line number captured h ⟨hcode, hcaptured⟩
          by_cases hlast : separator line = 32
          · rw [if_pos hlast] at hnext ⊢
            exact hnext
          · rw [if_neg hlast] at hnext ⊢
            exact ih false _ _ captured hnext

/-- A reply whose lines nothing depends on. -/
theorem response_idle (hgreeted : passage.greeted = false) (henvelope : passage.envelope = [])
    (deadline : Deadline) (capture : Bool) :
    Passes client message (fun _ after => after = passage) (response deadline capture) passage := by
  refine responseLines_passes (fun _ _ now => now = passage) ?_ deadline 64 true none 0 {} rfl
  rintro first capabilities now line number captured rfl -
  have hsame : now.line line = now := by simp [Passage.line, hgreeted, henvelope]
  rw [hsame]
  split_ifs <;> rfl

/-- A reply to the envelope adds its code. -/
theorem response_codes (hgreeted : passage.greeted = false) (henvelope : passage.envelope ≠ [])
    (deadline : Deadline) (capture : Bool) :
    Passes client message
      (fun reply after => after = { passage with codes := passage.codes ++ [reply.code] })
      (response deadline capture) passage := by
  refine responseLines_passes (fun _ _ now => now = passage) ?_ deadline 64 true none 0 {} rfl
  rintro first capabilities now line number captured rfl ⟨hcode, -⟩
  by_cases hlast : separator line = 32
  · rw [if_pos hlast]
    simp [Passage.line, hgreeted, henvelope, hlast, hcode]
  · rw [if_neg hlast]
    simp [Passage.line, hgreeted, hlast]

/-- Only an AUTH line changes what is known about AUTH. -/
theorem capture_plain {capabilities captured : Capabilities} {text : Text}
    (h : capabilities.capture text = some captured) (hplain : captured.plain = true) :
    capabilities.plain = true
      ∨ (uppercase ((asciiWords text).headD []) = ascii "AUTH"
        ∧ ∃ word ∈ (asciiWords text).tail, uppercase word = ascii "PLAIN") := by
  unfold Capabilities.capture at h
  dsimp only at h
  split_ifs at h with hpipelining hstarttls height hauth hsize
  · cases h
    exact Or.inl hplain
  · cases h
    exact Or.inl hplain
  · cases h
    exact Or.inl hplain
  · cases h
    obtain ⟨word, hmem, hword⟩ := List.any_eq_true.1 hplain
    exact Or.inr ⟨hauth, word, hmem, beq_iff_eq.1 hword⟩
  · cases hlimit : (asciiWords text).tail with
    | nil =>
        rw [hlimit] at h
        cases h
        exact Or.inl hplain
    | cons limit rest =>
        rw [hlimit] at h
        obtain ⟨n, -, rfl⟩ := Option.map_eq_some_iff.1 h
        exact Or.inl hplain
  · cases h
    exact Or.inl hplain

theorem ListsPlain_append {offers more : List Text} (h : Passage.ListsPlain offers) :
    Passage.ListsPlain (offers ++ more) := by
  obtain ⟨line, hmem, hline⟩ := h
  refine ⟨line, ?_, hline⟩
  cases offers with
  | nil => cases hmem
  | cons first rest => exact List.mem_append_left _ hmem

/-- The answer to EHLO: what the capabilities say about AUTH, a line has said. -/
theorem response_offers (hgreeted : passage.greeted = true) (hoffers : passage.offers = [])
    (deadline : Deadline) (capture : Bool) :
    Passes client message
      (fun reply after => ∃ offers, after = { passage with offers := offers }
        ∧ (reply.capabilities.plain = true → Passage.ListsPlain offers))
      (response deadline capture) passage := by
  refine responseLines_passes
    (fun first capabilities now => ∃ offers, now = { passage with offers := offers }
      ∧ (first = false → offers ≠ [])
      ∧ (capabilities.plain = true → Passage.ListsPlain offers)) ?_ deadline 64 true none 0 {} ?_
  · rintro first capabilities now line number captured ⟨offers, rfl, hfirst, hplain⟩ ⟨hcode, hcaptured⟩
    have hread : ({ passage with offers := offers } : Passage).line line
        = { passage with offers := offers ++ [line] } := by
      simp [Passage.line, hgreeted]
    have hlisted : captured.plain = true → Passage.ListsPlain (offers ++ [line]) := by
      intro hcapturedPlain
      split_ifs at hcaptured with hcapture
      · simp only [Bool.and_eq_true, Bool.not_eq_true', decide_eq_true_eq] at hcapture
        obtain ⟨⟨-, hlater⟩, rfl⟩ := hcapture
        rcases capture_plain hcaptured hcapturedPlain with hbefore | hauth
        · exact ListsPlain_append (hplain hbefore)
        · refine ⟨line, ?_, hcode, hauth⟩
          rw [List.tail_append_of_ne_nil (hfirst hlater)]
          exact List.mem_append_right _ List.mem_cons_self
      · cases hcaptured
        exact ListsPlain_append (hplain hcapturedPlain)
    rw [hread]
    by_cases hlast : separator line = 32
    · rw [if_pos hlast]
      exact ⟨_, rfl, hlisted⟩
    · rw [if_neg hlast]
      exact ⟨_, rfl, fun _ => by simp, hlisted⟩
  · exact ⟨[], by rw [← hoffers], fun h => (by cases h), fun h => (by cases h)⟩

/-! ### Commands -/

theorem write_passes {bytes : Text} {post : Unit → Passage → Prop}
    (hmay : passage.MayCommand client message bytes) (hpost : post () (passage.command bytes)) :
    Passes client message post (write .command bytes) passage :=
  Always.insist hmay (fun _ _ => hpost) fun _ => trivial

/-- A command and its reply. -/
theorem exchange_passes {bytes : Text} {capture : Bool} {post : Response → Passage → Prop}
    (hmay : passage.MayCommand client message bytes)
    (hreply : Passes client message post (response .command capture) (passage.command bytes)) :
    Passes client message post (lost (command bytes capture)) passage :=
  Passes.lost (Always.bind (write_passes hmay hreply))

/-- A command that is neither EHLO nor MAIL, before the envelope. -/
theorem command_idle {bytes : Text} (hehlo : (ascii "EHLO ").isPrefixOf bytes = false)
    (hmail : (ascii "MAIL FROM:").isPrefixOf bytes = false) (henvelope : passage.envelope = []) :
    passage.command bytes = { passage with greeted := false } := by
  unfold Passage.command
  rw [if_neg (by simp [hehlo]), if_neg (by simp [hmail]), if_pos henvelope, ← henvelope]

theorem command_ehlo (rest : Text) :
    passage.command (ascii "EHLO " ++ rest) = { passage with greeted := true, offers := [] } := by
  unfold Passage.command
  rw [if_pos]
  rw [List.isPrefixOf_iff_prefix]
  exact List.prefix_append _ _

/-- The secured connection before the body: nothing has been asked of the reader or of the caller. -/
structure Passage.Prepared (passage : Passage) : Prop where
  secured : passage.secured = true
  unasked : passage.asked = false
  unread : passage.read = []
  unended : passage.ended = false

theorem Passage.Prepared.command (h : passage.Prepared) (bytes : Text) :
    (passage.command bytes).Prepared := by
  obtain ⟨hsecured, hasked, hread, hended⟩ := h
  unfold Passage.command
  split_ifs <;> exact ⟨hsecured, hasked, hread, hended⟩

theorem Passage.Prepared.line (h : passage.Prepared) (text : Text) : (passage.line text).Prepared := by
  obtain ⟨hsecured, hasked, hread, hended⟩ := h
  unfold Passage.line
  split_ifs <;> exact ⟨hsecured, hasked, hread, hended⟩

theorem Passage.Prepared.response (h : passage.Prepared) (deadline : Deadline) (capture : Bool) :
    Passes client message (fun _ after => after.Prepared) (response deadline capture) passage := by
  refine responseLines_passes (fun _ _ now => now.Prepared) ?_ deadline 64 true none 0 {} h
  intro first capabilities now line number captured hnow _
  split_ifs
  · exact hnow.line line
  · exact hnow.line line

/-! ### Up to the envelope -/

/-- Greeted on a secured connection: the capabilities are those of the last answer to EHLO. -/
def Greeted (capabilities : Capabilities) (passage : Passage) : Prop :=
  ∃ offers, passage = { secured := true, greeted := true, offers := offers }
    ∧ (capabilities.plain = true → Passage.ListsPlain offers)

theorem upgrade_passes (hsecured : passage.secured = false) :
    Passes client message (fun _ after => after = { secured := true }) client.upgrade passage := by
  refine Always.bind (Always.require ?_ fun _ => trivial)
  intro _
  refine Always.insist hsecured ?_ fun _ => trivial
  intro answer hanswer
  change (if answer then _ else passage) = _
  rw [if_pos (show answer = true from hanswer)]

theorem hello_passes (hmay : passage.secured = true ∨ client.starttls = true) :
    Passes client message
      (fun ehlo after => ∃ offers, after = { passage with greeted := true, offers := offers }
        ∧ (ehlo.capabilities.plain = true → Passage.ListsPlain offers))
      client.hello passage := by
  have hcommand : passage.command (ascii "EHLO " ++ client.greeting ++ crlf)
      = { passage with greeted := true, offers := [] } := by
    rw [List.append_assoc]
    exact command_ehlo _
  refine Always.then (exchange_passes (Or.inl ⟨rfl, hmay⟩)
    (response_offers (by rw [hcommand]) (by rw [hcommand]) .command true)) ?_
  rintro ehlo after ⟨offers, rfl, hplain⟩
  refine Always.bind (Always.require ?_ fun _ => trivial)
  intro _
  refine ⟨offers, ?_, hplain⟩
  rw [hcommand]

/-- In STARTTLS mode nothing is known of the peer at first. -/
theorem negotiate_passes
    (hstart : passage = if client.starttls then {} else { secured := true }) :
    Passes client message Greeted client.negotiate passage := by
  unfold SmtpClient.negotiate
  by_cases hstarttls : client.starttls = true
  · rw [if_pos hstarttls] at hstart
    subst hstart
    refine Always.then (hello_passes (Or.inr hstarttls)) ?_
    rintro ehlo after ⟨offers, rfl, -⟩
    rw [if_pos hstarttls]
    refine Always.bind (Always.require ?_ fun _ => trivial)
    intro _
    have hcommand : ({ greeted := true, offers := offers } : Passage).command
        (ascii "STARTTLS" ++ crlf) = { offers := offers } :=
      command_idle (by decide) (by decide) rfl
    refine Always.then (exchange_passes (Or.inr (Or.inl ⟨rfl, rfl, hstarttls⟩))
      (response_idle (by rw [hcommand]) (by rw [hcommand]) .command false)) ?_
    rintro ready after rfl
    rw [hcommand]
    refine Always.bind (Always.require ?_ fun _ => trivial)
    intro _
    refine Always.then (upgrade_passes rfl) ?_
    rintro _ after rfl
    refine Always.then (hello_passes (Or.inl rfl)) ?_
    intro ehlo after hafter
    exact hafter
  · rw [if_neg hstarttls] at hstart
    subst hstart
    refine Always.then (hello_passes (Or.inl rfl)) ?_
    intro ehlo after hafter
    rw [if_neg hstarttls]
    exact hafter

theorem authenticate_passes {capabilities : Capabilities} (h : Greeted capabilities passage) :
    Passes client message (fun _ after => after.Prepared) (client.authenticate capabilities)
      passage := by
  obtain ⟨offers, rfl, hplain⟩ := h
  unfold SmtpClient.authenticate
  cases hauthorization : client.authorization with
  | none => exact ⟨rfl, rfl, rfl, rfl⟩
  | some token =>
      refine Always.bind (Always.require ?_ fun _ => trivial)
      rintro ⟨hoffered, -⟩
      have hmay : ∀ now : Passage, now.secured = true → now.offers = offers → ∀ bytes,
          (bytes = ascii "AUTH PLAIN " ++ token ++ crlf ∨ bytes = token ++ crlf) →
          now.MayCommand client message bytes := by
        intro now hsecured hoffers bytes hbytes
        refine Or.inr (Or.inr (Or.inl ⟨hsecured, ?_, token, hauthorization, hbytes⟩))
        rw [hoffers]
        exact hplain hoffered
      have hcommand : ({ secured := true, greeted := true, offers := offers } : Passage).command
          (ascii "AUTH PLAIN " ++ token ++ crlf) = { secured := true, offers := offers } :=
        command_idle rfl rfl rfl
      refine Always.then (exchange_passes (hmay _ rfl rfl _ (Or.inl rfl))
        (response_idle (by rw [hcommand]) (by rw [hcommand]) .command false)) ?_
      rintro first after rfl
      rw [hcommand]
      have hprepared : ({ secured := true, offers := offers } : Passage).Prepared :=
        ⟨rfl, rfl, rfl, rfl⟩
      by_cases hmore : first.code = 334
      · rw [if_pos hmore]
        -- the bare token may look like any command, so nothing is said of what follows from it
        refine Always.then (exchange_passes (hmay _ rfl rfl _ (Or.inr rfl))
          ((hprepared.command _).response .command false)) ?_
        intro second after hafter
        exact Always.require (fun _ => hafter) fun _ => trivial
      · rw [if_neg hmore]
        exact Always.require (fun _ => hprepared) fun _ => trivial

/-! ### The envelope -/

/-- The passage within the envelope. -/
def Passage.within (passage : Passage) (envelope : Text) (codes : List Nat) : Passage :=
  { passage with greeted := false, envelope := envelope, codes := codes }

theorem command_mail (passage : Passage) (message : Message) (capabilities : Capabilities)
    (size : Nat) (more : Text) :
    passage.command (message.mailCommand capabilities size ++ more)
      = passage.within (message.mailCommand capabilities size ++ more) [] := by
  unfold Passage.command
  rw [if_neg, if_pos]
  · rfl
  · unfold Message.mailCommand
    simp only [List.append_assoc]
    rfl
  · unfold Message.mailCommand
    simp only [List.append_assoc]
    exact Bool.false_ne_true

theorem command_within {envelope bytes : Text} {codes : List Nat} (henvelope : envelope ≠ [])
    (hehlo : (ascii "EHLO ").isPrefixOf bytes = false)
    (hmail : (ascii "MAIL FROM:").isPrefixOf bytes = false) :
    (passage.within envelope codes).command bytes = passage.within (envelope ++ bytes) codes := by
  have hopen : (passage.within envelope codes).envelope ≠ [] := henvelope
  unfold Passage.command
  rw [if_neg (by simp [hehlo]), if_neg (by simp [hmail]), if_neg hopen]
  rfl

theorem response_within {envelope : Text} {codes : List Nat} (henvelope : envelope ≠ [])
    (deadline : Deadline) :
    Passes client message
      (fun reply after => after = passage.within envelope (codes ++ [reply.code]))
      (response deadline false) (passage.within envelope codes) :=
  response_codes rfl henvelope deadline false

theorem pipelineReplies_passes {envelope : Text} {codes : List Nat} (henvelope : envelope ≠ [])
    (deadlines : List Deadline) :
    Passes client message
      (fun replies after => after = passage.within envelope (codes ++ replies)
        ∧ replies.length ≤ deadlines.length)
      (pipelineReplies deadlines) (passage.within envelope codes) := by
  induction deadlines generalizing codes with
  | nil =>
      refine ⟨?_, Nat.le_refl 0⟩
      rw [List.append_nil]
  | cons deadline rest ih =>
      refine Always.then (response_within henvelope deadline) ?_
      rintro reply after rfl
      by_cases hclosing : reply.code = 421
      · rw [if_pos hclosing]
        exact ⟨rfl, Nat.succ_le_succ (Nat.zero_le _)⟩
      · rw [if_neg hclosing]
        refine Always.then ih ?_
        rintro replies after ⟨rfl, hlength⟩
        refine ⟨?_, Nat.succ_le_succ hlength⟩
        rw [List.append_assoc, List.singleton_append]

theorem readPipeline_ok {replies : List Nat} (hlength : replies.length ≤ 3)
    (h : readPipeline replies = .ok 354) :
    ∃ mail rcpt, replies = [mail, rcpt, 354] ∧ success mail = true ∧ success rcpt = true := by
  unfold readPipeline at h
  split_ifs at h with hmail hrcpt
  have hdata : replies.getD 2 0 = 354 := Except.ok.inj h
  match replies, hlength with
  | [mail, rcpt, data], _ =>
      refine ⟨mail, rcpt, ?_, by simpa using hmail, by simpa using hrcpt⟩
      rw [show data = 354 from hdata]
  | [], _ => cases hdata
  | [_], _ => cases hdata
  | [_, _], _ => cases hdata

/-- An envelope that got its go-ahead. -/
def Agreed (message : Message) (outcome : Except Nat Nat) (passage : Passage) : Prop :=
  outcome = .ok 354 → passage.Prepared
    ∧ (∃ capabilities size, passage.envelope
      = message.mailCommand capabilities size ++ message.rcptCommand ++ ascii "DATA" ++ crlf)
    ∧ ∃ mail rcpt, passage.codes = [mail, rcpt, 354] ∧ success mail = true ∧ success rcpt = true

theorem envelope_passes (h : passage.Prepared) (capabilities : Capabilities) (size : Nat) :
    Passes client message (Agreed message) (envelope message capabilities size) passage := by
  have hmay : ∀ now : Passage, now.secured = true → ∀ bytes,
      bytes ∈ [message.mailCommand capabilities size, message.rcptCommand, ascii "DATA" ++ crlf,
        message.mailCommand capabilities size ++ message.rcptCommand ++ ascii "DATA" ++ crlf] →
      now.MayCommand client message bytes := by
    intro now hsecured bytes hbytes
    exact Or.inr (Or.inr (Or.inr ⟨hsecured, capabilities, size, hbytes⟩))
  have hwithin : ∀ envelope codes, (passage.within envelope codes).Prepared :=
    fun _ _ => ⟨h.secured, h.unasked, h.unread, h.unended⟩
  have hnonempty : ∀ more, message.mailCommand capabilities size ++ more ≠ [] := by
    intro more hnil
    unfold Message.mailCommand at hnil
    simp [crlf] at hnil
  unfold envelope
  dsimp only
  by_cases hpipelining : capabilities.pipelining = true
  · rw [if_pos hpipelining]
    have hcommand := command_mail passage message capabilities size
      (message.rcptCommand ++ (ascii "DATA" ++ crlf))
    simp only [← List.append_assoc] at hcommand
    refine Always.bind (Always.bind (write_passes (hmay passage h.secured _ (by simp)) ?_))
    rw [hcommand]
    refine Always.then (pipelineReplies_passes ?_ _) ?_
    · simp only [List.append_assoc]
      exact hnonempty _
    · rintro replies after ⟨rfl, hlength⟩
      refine Always.bind (Always.insist trivial ?_ fun _ => trivial)
      intro _ _ hagreed
      exact ⟨hwithin _ _, ⟨capabilities, size, rfl⟩, readPipeline_ok hlength hagreed⟩
  · rw [if_neg hpipelining]
    have hcommand := command_mail passage message capabilities size []
    rw [List.append_nil] at hcommand
    have hmail : message.mailCommand capabilities size ≠ [] := by simpa using hnonempty []
    have hrcpt := hnonempty message.rcptCommand
    unfold envelopeSequence
    refine Always.bind (Always.bind (write_passes (hmay passage h.secured _ (by simp)) ?_))
    rw [hcommand]
    refine Always.imp (response_within hmail .command) ?_ fun _ _ h => h
    rintro first after rfl
    by_cases hfirst : success first.code = false
    · rw [if_pos hfirst]
      intro hagreed
      cases hagreed
    · rw [if_neg hfirst]
      refine Always.bind (Always.bind (write_passes (hmay _ h.secured _ (by simp)) ?_))
      rw [command_within hmail rfl rfl]
      refine Always.imp (response_within hrcpt .command) ?_ fun _ _ h => h
      rintro second after rfl
      by_cases hsecond : success second.code = false
      · rw [if_pos hsecond]
        intro hagreed
        cases hagreed
      · rw [if_neg hsecond]
        refine Always.bind (write_passes (hmay _ h.secured _ (by simp)) ?_)
        rw [command_within hrcpt rfl rfl]
        refine Always.then (response_within ?_ .dataCommand) ?_
        · simp only [List.append_assoc]
          exact hnonempty _
        · rintro third after rfl hagreed
          refine ⟨hwithin _ _, ⟨capabilities, size, ?_⟩, first.code, second.code, ?_, ?_, ?_⟩
          · simp [Passage.within]
          · rw [← Except.ok.inj hagreed]
            rfl
          · simpa using hfirst
          · simpa using hsecond

/-! ### The body -/

theorem sendBody_passes (rounds : Nat) {progress : BodyProgress}
    (hmay : passage.MayWriteBody message) (hended : passage.ended = false)
    (hprogress : Progressed message passage.read progress) :
    Passes client message
      (fun _ after => after.MayWriteBody message ∧ after.MayTerminate message)
      (sendBody message rounds progress) passage := by
  induction rounds generalizing progress passage with
  | zero => trivial
  | succ rounds ih =>
      refine ⟨trivial, ?_⟩
      intro answer
      match answer with
      | .elapsed => trivial
      | .failed => trivial
      | .bytes [] =>
          refine Always.require ?_ fun _ => trivial
          rintro ⟨htotal, hbuffered, hheaders⟩
          refine ⟨⟨hmay.secured, hmay.envelope, hmay.codes, hmay.marked⟩, ?_⟩
          have hat := hprogress.at_read
          refine ⟨rfl, ?_, (cut passage.read).lines, hprogress.complete hbuffered, ?_, ?_⟩
          · rw [hat] at htotal
            exact htotal
          · intro line hmem
            exact ((Framing.exact_foldl 1000 passage.read).clean line hmem).1
          · rw [hat] at hheaders
            simpa using hheaders
      | .bytes (byte :: rest) =>
          refine Always.bind (Always.require ?_ fun _ => trivial)
          intro _
          refine Always.bind (Always.found ?_ trivial)
          rintro ⟨progress', output⟩ hsent
          have hbody := (sendChunk_stuffed hsent stuffed_nil).ne_terminator
          have hnext := (hprogress.sendChunk.1 hsent).1
          have hmay' : ({ passage with read := passage.read ++ byte :: rest } : Passage).MayWriteBody
              message := ⟨hmay.secured, hmay.envelope, hmay.codes, hmay.marked⟩
          refine Always.bind (Passes.lost (Always.insist ⟨hmay', ?_⟩ ?_ fun _ => trivial))
          · intro hterminator
            exact absurd hterminator hbody
          · intro _ _
            exact ih hmay' hended hnext

/-- Reading writes nothing. -/
theorem response_free (deadline : Deadline) (capture : Bool) :
    Passes client message (fun _ _ => True) (response deadline capture) passage := by
  refine responseLines_passes (fun _ _ _ => True) ?_ deadline 64 true none 0 {} trivial
  intro first capabilities now line number captured _ _
  split_ifs

theorem rejected_free (code : Nat) :
    Passes client message (fun _ _ => True) (rejected code) passage := by
  unfold rejected
  split_ifs <;> trivial

theorem transmit_passes (hagreed : Agreed message (.ok 354) passage) :
    Passes client message (fun _ _ => True) (transmit message) passage := by
  obtain ⟨hprepared, henvelope, hcodes⟩ := hagreed rfl
  refine Always.bind (Always.insist hprepared.unasked ?_ fun _ => trivial)
  intro answer hanswer
  have hmay : (passage.observe .beforeBody answer).MayWriteBody message :=
    ⟨hprepared.secured, henvelope, hcodes, hanswer⟩
  refine Always.then (sendBody_passes _ hmay hprepared.unended ?_) ?_
  · change Progressed message passage.read .start
    rw [hprepared.unread]
    exact .start message
  · rintro _ after ⟨hbody, hterminate⟩
    refine Always.bind (Passes.lost (Always.insist ⟨hbody, fun _ => hterminate⟩ ?_ fun _ => trivial))
    intro _ _
    refine Always.then (Passes.lost (response_free .finalReply false)) ?_
    intro reply _ _
    split_ifs
    · trivial
    · exact rejected_free reply.code

theorem secure_passes (htls : client.tls = true) :
    Passes client message
      (fun _ after => after = if client.starttls then {} else { secured := true })
      client.secure {} := by
  unfold SmtpClient.secure
  by_cases hstarttls : client.starttls = true
  · rw [hstarttls, htls]
    rfl
  · rw [Bool.not_eq_true] at hstarttls
    rw [hstarttls, htls]
    exact upgrade_passes rfl

theorem tryAttempt_passes (htls : client.tls = true) :
    Passes client message (fun _ _ => True) (client.tryAttempt message) {} := by
  unfold SmtpClient.tryAttempt
  refine Always.bind (Always.insist trivial ?_ fun _ => trivial)
  intro _ _
  refine Always.then (secure_passes htls) ?_
  intro _ start hstart
  refine Always.then (Passes.lost (response_idle ?_ ?_ .banner false)) ?_
  · rw [hstart]
    split_ifs <;> rfl
  · rw [hstart]
    split_ifs <;> rfl
  · rintro banner after rfl
    refine Always.bind (Always.require ?_ fun _ => trivial)
    intro _
    refine Always.then (negotiate_passes hstart) ?_
    intro capabilities greeted hgreeted
    refine Always.then (authenticate_passes hgreeted) ?_
    intro _ prepared hprepared
    refine Always.bind (Always.found ?_ trivial)
    intro size _
    refine Always.bind (Always.require ?_ fun _ => trivial)
    intro _
    refine Always.then (Passes.lost (envelope_passes hprepared capabilities size)) ?_
    intro outcome agreed hagreed
    cases outcome with
    | error code => exact rejected_free code
    | ok code =>
        dsimp only
        by_cases hready : code = 354
        · rw [if_pos hready]
          rw [hready] at hagreed
          exact transmit_passes hagreed
        · rw [if_neg hready]
          exact rejected_free code

/-! ### After the upgrade -/

/-- A handshake that completed. -/
def Completed : (question : Ask) → question.Answer → Prop
  | .handshake, succeeded => succeeded = true
  | _, _ => False

/-- The dialogue does not complete a handshake. -/
abbrev Quiet (talk : Talk ε α) : Prop :=
  Always (fun now _ _ => now) (fun (_ : Unit) question => ∀ answer, ¬ Completed question answer)
    (fun _ _ => True) (fun _ _ => True) talk ()

theorem Quiet.settles {talk : Talk ε α} {next : α → Talk ε β} {rest : Talk ε β} (h : Quiet talk)
    (hnext : ∀ value, Settles Completed rest (next value)) :
    Settles Completed rest (talk >>= next) :=
  Settles.bind (h.imp (fun value _ _ => hnext value) fun _ _ _ => trivial)

theorem quiet_require {p : Prop} [Decidable p] {error : ε} :
    Quiet (Dialogue.require p error : Talk ε Unit) :=
  Always.require (fun _ => trivial) fun _ => trivial

theorem quiet_response (deadline : Deadline) (capture : Bool) : Quiet (response deadline capture) := by
  unfold response
  generalize 64 = remaining, true = first, (none : Option Nat) = code, 0 = total,
    ({} : Capabilities) = capabilities
  induction remaining generalizing first code total capabilities with
  | zero => trivial
  | succ remaining ih =>
      refine ⟨fun _ h => h, ?_⟩
      intro answer
      match answer with
      | none => trivial
      | some none => trivial
      | some (some line) =>
          refine Always.bind (Always.found ?_ trivial)
          intro number _
          refine Always.bind (Always.require ?_ fun _ => trivial)
          intro _
          refine Always.bind (Always.found ?_ trivial)
          intro captured _
          split_ifs
          · trivial
          · exact ih _ _ _ _

theorem quiet_exchange (bytes : Text) (capture : Bool) : Quiet (lost (command bytes capture)) := by
  refine Always.mapError (Always.bind (Always.insist (fun _ h => h) ?_ fun _ => trivial))
  intro _ _
  exact quiet_response .command capture

theorem quiet_hello (client : SmtpClient) : Quiet client.hello := by
  refine Always.then (quiet_exchange _ true) ?_
  intro ehlo _ _
  exact Always.bind (Always.require (fun _ => trivial) fun _ => trivial)

/-- An upgrade throws away all that was before it. -/
theorem upgrade_settles (htls : client.tls = true) (next : Unit → Talk Failure β) :
    Settles Completed (next ()) (client.upgrade >>= next) := by
  have hupgrade : client.upgrade = insist .handshake id .setup := by
    unfold SmtpClient.upgrade
    rw [htls]
    rfl
  rw [hupgrade]
  intro answer
  constructor
  · intro hdone
    rw [show answer = true from hdone]
    rfl
  · intro hfailed
    rw [show answer = false from Bool.eq_false_iff.2 hfailed]
    trivial

/-- What the peer says before STARTTLS has no effect on what follows it. -/
theorem negotiate_settles (htls : client.tls = true) (hstarttls : client.starttls = true)
    (next : Capabilities → Talk Failure β) :
    Settles Completed (client.hello >>= fun ehlo => next ehlo.capabilities)
      (client.negotiate >>= next) := by
  unfold SmtpClient.negotiate
  rw [Dialogue.bind_assoc]
  refine (quiet_hello client).settles ?_
  intro ehlo
  rw [if_pos hstarttls, Dialogue.bind_assoc]
  refine quiet_require.settles ?_
  intro _
  rw [Dialogue.bind_assoc]
  refine (quiet_exchange _ false).settles ?_
  intro ready
  rw [Dialogue.bind_assoc]
  refine quiet_require.settles ?_
  intro _
  rw [Dialogue.bind_assoc]
  have hrest : (client.hello >>= fun ehlo => pure ehlo.capabilities) >>= next
      = client.hello >>= fun ehlo => next ehlo.capabilities := by
    rw [Dialogue.bind_assoc]
    rfl
  rw [← hrest]
  exact upgrade_settles htls fun _ => (client.hello >>= fun ehlo => pure ehlo.capabilities) >>= next

/-- An attempt once it knows its peer. -/
def SmtpClient.deliver (client : SmtpClient) (message : Message) (capabilities : Capabilities) :
    Talk Failure AttemptResult := do
  client.authenticate capabilities
  let size ← found .content message.wireSize
  require (message.refused capabilities size = false) .content
  let outcome ← lost (envelope message capabilities size)
  match outcome with
  | .error code => rejected code
  | .ok code => if code = 354 then transmit message else rejected code

theorem tryAttempt_eq (client : SmtpClient) (message : Message) :
    client.tryAttempt message = (do
      insist .connect id .connection
      client.secure
      let banner ← lost (response .banner false)
      require (banner.code = 220) .setup
      client.negotiate >>= client.deliver message) := rfl

theorem tryAttempt_settles (htls : client.tls = true) (message : Message) :
    ∃ rest, Settles Completed rest (client.tryAttempt message) := by
  have hconnect : Quiet (insist .connect id .connection : Talk Failure Unit) :=
    Always.insist (fun _ h => h) (fun _ _ => trivial) fun _ => trivial
  rw [tryAttempt_eq]
  unfold SmtpClient.secure
  by_cases hstarttls : client.starttls = true
  · refine ⟨client.hello >>= fun ehlo => client.deliver message ehlo.capabilities, ?_⟩
    refine hconnect.settles ?_
    intro _
    rw [hstarttls, Bool.not_true, Bool.and_false]
    have hpure : Quiet (if false = true then client.upgrade else pure ()) := trivial
    refine hpure.settles ?_
    intro _
    refine Quiet.settles (Always.mapError (quiet_response .banner false)) ?_
    intro banner
    refine quiet_require.settles ?_
    intro _
    exact negotiate_settles htls hstarttls _
  · rw [Bool.not_eq_true] at hstarttls
    rw [hstarttls, htls]
    refine ⟨lost (response .banner false) >>= fun banner => require (banner.code = 220) .setup
      >>= fun _ => client.negotiate >>= client.deliver message, hconnect.settles ?_⟩
    intro _
    exact upgrade_settles htls fun _ => lost (response .banner false) >>= fun banner =>
      require (banner.code = 220) .setup >>= fun _ => client.negotiate >>= client.deliver message

/-- A secured connection stays secured, and a completed handshake secures it. -/
theorem observe_secured (question : Ask) (answer : question.Answer)
    (h : passage.secured = true ∨ Completed question answer) :
    (passage.observe question answer).secured = true := by
  match question, answer, h with
  | .handshake, true, _ => rfl
  | .handshake, false, .inl hsecured => exact hsecured
  | .connect, _, .inl hsecured => exact hsecured
  | .prefetched, _, .inl hsecured => exact hsecured
  | .beforeBody, _, .inl hsecured => exact hsecured
  | .pump, .bytes [], .inl hsecured => exact hsecured
  | .pump, .bytes (_ :: _), .inl hsecured => exact hsecured
  | .pump, .failed, .inl hsecured => exact hsecured
  | .pump, .elapsed, .inl hsecured => exact hsecured
  | .line _, none, .inl hsecured => exact hsecured
  | .line _, some none, .inl hsecured => exact hsecured
  | .line _, some (some text), .inl hsecured =>
      change (passage.line text).secured = true
      unfold Passage.line
      split_ifs <;> exact hsecured
  | .write deadline bytes, _, .inl hsecured =>
      cases deadline with
      | command =>
          change (passage.command bytes).secured = true
          unfold Passage.command
          split_ifs <;> exact hsecured
      | _ => exact hsecured

theorem foldl_secured (seen : List (Σ question : Ask, question.Answer))
    (h : passage.secured = true ∨ ∃ e ∈ seen, Completed e.1 e.2) :
    (seen.foldl (fun passage e => passage.observe e.1 e.2) passage).secured = true := by
  induction seen generalizing passage with
  | nil =>
      rcases h with hsecured | ⟨e, hmem, -⟩
      · exact hsecured
      · cases hmem
  | cons e rest ih =>
      rw [List.foldl_cons]
      refine ih ?_
      rcases h with hsecured | ⟨e', hmem, hcompleted⟩
      · exact Or.inl (observe_secured e.1 e.2 (Or.inl hsecured))
      · rcases List.mem_cons.1 hmem with rfl | hlater
        · exact Or.inl (observe_secured e'.1 e'.2 (Or.inr hcompleted))
        · exact Or.inr ⟨e', hlater, hcompleted⟩

/-- Before a handshake that is still permitted none has completed. -/
theorem not_completed {seen : List (Σ question : Ask, question.Answer)}
    (h : (Passage.after seen).secured = false) : ∀ e ∈ seen, ¬ Completed e.1 e.2 := by
  intro e hmem hcompleted
  have hsecured : (Passage.after seen).secured = true :=
    foldl_secured seen (Or.inr ⟨e, hmem, hcompleted⟩)
  exact absurd (hsecured.symm.trans h) (by decide)

/-- For every client with TLS and every peer, caller and reader: each question of an attempt is one
that its phase permits, and what is left of the attempt after a completed handshake does not depend
on anything before it. -/
theorem phases_in_order (greeting : Text) (starttls : Bool) (authorization : Option Text)
    (message : Message) (seen : List (Σ question : Ask, question.Answer)) :
    let client := SmtpClient.load greeting starttls authorization
    (∀ question next, Reaches (client.tryAttempt message) seen (.ask question next) →
        (Passage.after seen).permits client message question)
      ∧ ∀ seen' rest rest', Reaches (client.tryAttempt message) (seen ++ [⟨.handshake, true⟩]) rest →
        Reaches (client.tryAttempt message) (seen' ++ [⟨.handshake, true⟩]) rest' → rest = rest' := by
  intro client
  have hpasses : Passes client message (fun _ _ => True) (client.tryAttempt message) {} :=
    tryAttempt_passes rfl
  refine ⟨?_, ?_⟩
  · intro question next hreaches
    exact (hpasses.reaches hreaches).1
  · intro seen' rest rest' hrest hrest'
    obtain ⟨settled, hsettled⟩ : ∃ rest, Settles Completed rest (client.tryAttempt message) :=
      tryAttempt_settles rfl message
    have hfirst : ∀ {seen rest},
        Reaches (client.tryAttempt message) (seen ++ [⟨.handshake, true⟩]) rest → rest = settled := by
      intro seen rest hreaches
      obtain ⟨next, hasked, -⟩ := hreaches.snoc
      have hplain : (Passage.after seen).secured = false := (hpasses.reaches hasked).1
      exact hsettled.reaches (show Completed .handshake true from rfl) (not_completed hplain) hreaches
    rw [hfirst hrest, hfirst hrest']

end Rustymail.Client
