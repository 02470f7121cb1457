import Rustymail.Client.Transfer
import Rustymail.Proof.Preliminaries
import Rustymail.Proof.VerifiedRead

/-!
# Success means the expected bytes

Both readers of a blob, `export` and the relay, succeed only behind a verified end.
-/

namespace Rustymail

/-! ### Export -/

/-- A copy that succeeds has come to a successful end of its reader, and written what was read. -/
theorem ioCopy_ok {sha256 : Text → Text} {rounds : List CopyRound} {readout : Readout}
    {written : Text} {total : Nat}
    (h : ioCopy sha256 rounds readout.reader readout.content = (written, some (.ok total))) :
    ∃ requests request, 0 < request.capacity
      ∧ ((readout.run sha256 requests).reader.read sha256 request).2 = .ok []
      ∧ written = (readout.run sha256 requests).content ∧ total = written.length := by
  induction rounds generalizing readout with
  | nil => cases h
  | cons round rest ih =>
      have hgrown : (readout.next sha256 round.request).content
          = readout.content ++ returned (readout.reader.read sha256 round.request).2 :=
        Readout.content_snoc _ _ _
      have hreader : (readout.next sha256 round.request).reader
          = (readout.reader.read sha256 round.request).1 := rfl
      have hlater := @ih (readout.next sha256 round.request)
      have hstep : ∀ requests, (readout.next sha256 round.request).run sha256 requests
          = readout.run sha256 (round.request :: requests) := fun _ => rfl
      have hnow : (readout.reader.read sha256 round.request).2 = .ok [] →
          ∃ requests request, 0 < request.capacity
            ∧ ((readout.run sha256 requests).reader.read sha256 request).2 = .ok []
            ∧ readout.content = (readout.run sha256 requests).content :=
        fun hend => ⟨[], round.request, round.room, hend, rfl⟩
      rw [hgrown, hreader] at hlater
      unfold ioCopy at h
      generalize readout.reader.read sha256 round.request = outcome at h hlater hnow
      obtain ⟨reader, result⟩ := outcome
      have hagain : ioCopy sha256 rest reader (readout.content ++ returned result)
          = (written, some (.ok total)) →
          ∃ requests request, 0 < request.capacity
            ∧ ((readout.run sha256 requests).reader.read sha256 request).2 = .ok []
            ∧ written = (readout.run sha256 requests).content ∧ total = written.length := by
        intro hrest
        obtain ⟨requests, request, hroom, hend, hwritten, htotal⟩ := hlater hrest
        rw [hstep] at hend hwritten
        exact ⟨_, request, hroom, hend, hwritten, htotal⟩
      cases result with
      | error e =>
          cases e with
          | integrity => cases h
          | overflow => cases h
          | file interrupted =>
              cases interrupted with
              | false => cases h
              | true =>
                  refine hagain ?_
                  change ioCopy sha256 rest reader (readout.content ++ []) = _
                  rw [List.append_nil]
                  exact h
      | ok chunk =>
          cases chunk with
          | nil =>
              cases h
              obtain ⟨requests, request, hroom, hend, hwritten⟩ := hnow rfl
              exact ⟨requests, request, hroom, hend, hwritten, rfl⟩
          | cons byte tail =>
              dsimp only at h
              cases hbreaks : round.breaksAt with
              | some n =>
                  rw [hbreaks] at h
                  cases h
              | none =>
                  rw [hbreaks] at h
                  exact hagain h

theorem exportMessage_ok {sha256 : Text → Text} {db : Db} {address : Address} {messageId : Text}
    {opened : Except StoreError Unit} {rounds : List CopyRound} {written : Text} {total : Nat}
    (h : exportMessage sha256 db address messageId opened rounds = (written, some (.ok total))) :
    ∃ blob, db.exported? address messageId = some blob ∧ written.length = blob.sizeBytes
      ∧ sha256 written = blob.sha256 ∧ total = blob.sizeBytes := by
  unfold exportMessage at h
  by_cases hvalid : validId messageId = false
  · rw [if_pos hvalid] at h
    cases h
  rw [if_neg hvalid] at h
  cases hblob : db.exported? address messageId with
  | none =>
      rw [hblob] at h
      cases h
  | some blob =>
      rw [hblob] at h
      dsimp only at h
      have hcopied : ioCopy sha256 rounds (.new blob.sizeBytes blob.sha256) []
          = (written, some (.ok total)) := by
        split at h
        · cases h
        · cases h
        · exact h
      obtain ⟨requests, request, hroom, hend, rfl, rfl⟩ :=
        @ioCopy_ok sha256 rounds (.start blob.sizeBytes blob.sha256) written total hcopied
      have hsound := Readout.run_sound sha256 blob.sizeBytes blob.sha256 requests
      obtain ⟨hsize, hhash⟩ := hsound.ended hroom hend
      exact ⟨blob, rfl, hsize, hhash, hsize⟩

/-! ### The relay -/

namespace Client

open Dialogue

/-- The answers of the reader so far. -/
def pumpedBy (pumped : List Pumped) : (question : Ask) → question.Answer → List Pumped
  | .pump, answer => pumped ++ [answer]
  | _, _ => pumped

def pumped (seen : List (Σ question : Ask, question.Answer)) : List Pumped :=
  seen.foldl (fun pumped exchange => pumpedBy pumped exchange.1 exchange.2) []

/-- Pieces and a successful end. -/
def Whole (before after : List Pumped) : Prop :=
  ∃ chunks : List Text, after = before ++ chunks.map .bytes ++ [.bytes []]

theorem sendBody_pumps (message : Message) (rounds : Nat) (progress : BodyProgress)
    (before : List Pumped) :
    Always pumpedBy (fun _ _ => True) (fun _ after => Whole before after) (fun _ _ => True)
      (sendBody message rounds progress) before := by
  induction rounds generalizing progress before with
  | zero => trivial
  | succ rounds ih =>
      refine ⟨trivial, ?_⟩
      intro answer
      match answer with
      | .elapsed => trivial
      | .failed => trivial
      | .bytes [] =>
          refine Always.require ?_ fun _ => trivial
          intro _
          refine ⟨[], ?_⟩
          rw [List.map_nil, List.append_nil]
          rfl
      | .bytes (byte :: rest) =>
          refine Always.bind (Always.require ?_ fun _ => trivial)
          intro _
          refine Always.bind (Always.found ?_ trivial)
          intro sent _
          refine Always.bind (Always.mapError (Always.insist trivial ?_ fun _ => trivial))
          intro _ _
          refine (ih sent.1 (before ++ [.bytes (byte :: rest)])).imp ?_ fun _ _ _ => trivial
          rintro value after ⟨chunks, rfl⟩
          refine ⟨(byte :: rest) :: chunks, ?_⟩
          simp [List.append_assoc]

theorem pumpedBy_preliminary {s : List Pumped} (question : Ask) (h : question.preliminary = true)
    (answer : question.Answer) : pumpedBy s question answer = s := by
  cases question with
  | pump => cases h
  | _ => rfl

/-- **A delivery** has been read up to a successful end. -/
theorem delivered_pumps (client : SmtpClient) (message : Message) {code : Nat}
    {seen : List (Σ question : Ask, question.Answer)}
    (h : Reaches (client.tryAttempt message) seen (.done (.delivered code))) :
    Whole [] (pumped seen) := by
  have hrejected : ∀ (s : List Pumped) number, Always pumpedBy (fun _ _ => True)
      (fun result after => result = .delivered code → Whole [] after) (fun _ _ => True)
      (rejected number) s := by
    intro s number
    unfold rejected
    split_ifs
    · intro hresult
      cases hresult
    · intro hresult
      cases hresult
    · trivial
  have htransmit : Always pumpedBy (fun _ _ => True)
      (fun result after => result = .delivered code → Whole [] after) (fun _ _ => True)
      (transmit message) [] := by
    refine Always.bind (Always.insist trivial ?_ fun _ => trivial)
    intro _ _
    refine Always.then (sendBody_pumps message _ .start []) ?_
    intro _ after hwhole
    refine Always.bind (Always.mapError (Always.insist trivial ?_ fun _ => trivial))
    intro _ _
    have hreply : Always pumpedBy (fun _ _ => True) (fun _ last => last = after)
        (fun _ last => last = after) (lost (response .finalReply false)) after :=
      Always.ignoring (preliminary_response .finalReply false).lost (fun _ _ => trivial)
        pumpedBy_preliminary
    refine Always.bind (hreply.imp ?_ fun _ _ _ => trivial)
    rintro reply last rfl
    split_ifs
    · exact fun _ => hwhole
    · exact hrejected _ reply.code
  have hall := tryAttempt_always client message (fun _ _ => trivial) pumpedBy_preliminary
    (fun _ => trivial) (hrejected []) htransmit
  exact hall.reaches h rfl

/-- The pump hands on what the reader has returned, or gives up waiting for it. -/
def Pumps : Except ReadError Text → Pumped → Prop
  | .ok chunk, .bytes piece => piece = chunk
  | .error _, .failed => True
  | _, .elapsed => True
  | _, _ => False

/-- Reads that have been pumped as pieces and a successful end. -/
theorem results_of_pumps {results : List (Except ReadError Text)} {chunks : List Text}
    (h : List.Forall₂ Pumps results (chunks.map .bytes ++ [.bytes []])) :
    results = chunks.map .ok ++ [.ok []] := by
  induction chunks generalizing results with
  | nil =>
      obtain ⟨result, rest, hfirst, hrest, rfl⟩ := List.forall₂_cons_right_iff.1 h
      obtain rfl := List.forall₂_nil_right_iff.1 hrest
      cases result with
      | ok chunk =>
          rw [show [] = chunk from hfirst]
          rfl
      | error e => cases hfirst
  | cons chunk chunks ih =>
      obtain ⟨result, rest, hfirst, hrest, rfl⟩ := List.forall₂_cons_right_iff.1 h
      rw [ih hrest]
      cases result with
      | ok piece =>
          rw [show chunk = piece from hfirst]
          rfl
      | error e => cases hfirst

def Pumped.text : Pumped → Text
  | .bytes chunk => chunk
  | _ => []

/-- What the client has read is what was pumped. -/
theorem read_eq (seen : List (Σ question : Ask, question.Answer)) :
    (Transfer.after seen).read = (pumped seen).flatMap Pumped.text := by
  have hfold : ∀ (transfer : Transfer) (before : List Pumped),
      transfer.read = before.flatMap Pumped.text →
      (seen.foldl (fun transfer exchange => transfer.observe exchange.1 exchange.2) transfer).read
        = (seen.foldl (fun pumped exchange => pumpedBy pumped exchange.1 exchange.2) before).flatMap
          Pumped.text := by
    induction seen with
    | nil => exact fun _ _ h => h
    | cons exchange rest ih =>
        intro transfer before hread
        refine ih _ _ ?_
        obtain ⟨question, answer⟩ := exchange
        cases question with
        | pump =>
            change _ = (before ++ [answer]).flatMap Pumped.text
            rw [List.flatMap_append, List.flatMap_singleton, ← hread]
            cases answer with
            | bytes chunk =>
                cases chunk with
                | nil => exact (List.append_nil _).symm
                | cons byte tail => rfl
            | failed => exact (List.append_nil _).symm
            | elapsed => exact (List.append_nil _).symm
        | _ => exact hread
  exact hfold {} [] rfl

theorem delivered_verified {sha256 : Text → Text} {size : Nat} {hash : Text}
    (client : SmtpClient) (message : Message) {code : Nat}
    {seen : List (Σ question : Ask, question.Answer)} {requests : List ReadRequest}
    (hroom : ∀ request ∈ requests, 0 < request.capacity)
    (hpumps : List.Forall₂ Pumps ((Readout.start size hash).run sha256 requests).results (pumped seen))
    (h : Reaches (client.tryAttempt message) seen (.done (.delivered code))) :
    (Transfer.after seen).read.length = size ∧ sha256 (Transfer.after seen).read = hash := by
  obtain ⟨chunks, hwhole⟩ := delivered_pumps client message h
  rw [List.nil_append] at hwhole
  rw [hwhole] at hpumps
  have hresults := results_of_pumps hpumps
  have hread : (Transfer.after seen).read = chunks.flatten := by
    have hpieces : (chunks.map Pumped.bytes).flatMap Pumped.text = chunks.flatten := by
      rw [List.flatMap_map]
      exact List.flatMap_id'
    rw [read_eq, hwhole, List.flatMap_append, hpieces]
    exact List.append_nil _
  induction requests using List.reverseRecOn with
  | nil =>
      have hlength := congrArg List.length hresults
      simp [Readout.run, Readout.start] at hlength
  | append_singleton before last _ =>
      have hlast : (Readout.start size hash).run sha256 (before ++ [last])
          = ((Readout.start size hash).run sha256 before).next sha256 last := Runs.run_snoc _ _
      rw [hlast] at hresults
      obtain ⟨hbefore, hend⟩ := List.append_inj' hresults rfl
      have hcontent : ((Readout.start size hash).run sha256 before).content = chunks.flatten := by
        unfold Readout.content
        rw [hbefore, List.flatMap_map]
        exact List.flatMap_id'
      rw [hread, ← hcontent]
      exact (Readout.run_sound sha256 size hash before).ended
        (hroom last (List.mem_append_right _ List.mem_cons_self)) (List.singleton_inj.1 hend)

end Client

/-- **A verified end of file.** Whatever the file answers: a read into a buffer with room comes to a
successful end only when what has been returned is of the expected length and hash; never more than
that is returned; and after an integrity error such a read fails. A file that matches is read as it
is, to its end and not beyond. So neither `export` nor the relay succeeds with anything else. -/
theorem verified_end_of_file (sha256 : Text → Text) :
    (∀ size hash (requests : List ReadRequest) (request : ReadRequest),
      let readout := (Readout.start size hash).run sha256 requests
      readout.content.length ≤ size
        ∧ (0 < request.capacity → (readout.reader.read sha256 request).2 = .ok [] →
          readout.content.length = size ∧ sha256 readout.content = hash)
        ∧ (0 < request.capacity → Except.error ReadError.integrity ∈ readout.results →
          (readout.reader.read sha256 request).2 = .error .integrity))
      ∧ (∀ (content : Text) (before : List ReadRequest) (request : ReadRequest) (rest : List ReadRequest),
        content.length < 2 ^ 64 → Supplies content (before ++ request :: rest) →
        let readout := (Readout.start content.length (sha256 content)).run sha256 before
        readout.results = before.map (fun request => request.answer.mapError .file)
          ∧ readout.content <+: content
          ∧ (content.length ≤ (before.filter fun request => 0 < request.capacity).length →
            readout.content = content)
          ∧ (0 < request.capacity →
            ((readout.reader.read sha256 request).2 = .ok [] ↔ readout.content = content)))
      ∧ (∀ (db : Db) address messageId opened rounds written total,
        exportMessage sha256 db address messageId opened rounds = (written, some (.ok total)) →
        ∃ blob, db.exported? address messageId = some blob ∧ written.length = blob.sizeBytes
          ∧ sha256 written = blob.sha256 ∧ total = blob.sizeBytes)
      ∧ ∀ size hash (requests : List ReadRequest) (client : Client.SmtpClient)
          (message : Client.Message) code (seen : List (Σ question : Client.Ask, question.Answer)),
        (∀ request ∈ requests, 0 < request.capacity) →
        List.Forall₂ Client.Pumps ((Readout.start size hash).run sha256 requests).results
          (Client.pumped seen) →
        Dialogue.Reaches (client.tryAttempt message) seen (.done (.delivered code)) →
        (Client.Transfer.after seen).read.length = size
          ∧ sha256 (Client.Transfer.after seen).read = hash := by
  refine ⟨?_, ?_, ?_, ?_⟩
  · intro size hash requests request
    have hsound := Readout.run_sound sha256 size hash requests
    exact ⟨hsound.within, fun hroom hend => hsound.ended hroom hend,
      fun hroom hintegrity => hsound.refuses hintegrity hroom⟩
  · intro content before request rest hsmall hsupplies
    obtain ⟨left, halong, hrest, hresults, hprogress⟩ :=
      (Readout.Along.start sha256 content).run hsmall before hsupplies
    refine ⟨hresults, ⟨left, halong.split.symm⟩, ?_, fun hroom => ?_⟩
    · intro henough
      have hnone : left = [] := by
        rcases hprogress with hnone | hprogress
        · exact hnone
        · exact List.length_eq_zero_iff.1 (by omega)
      have hsplit := halong.split
      rw [hnone, List.append_nil] at hsplit
      exact hsplit.symm
    · exact halong.read_end hsmall hrest hroom
  · intro db address messageId opened rounds written total h
    exact exportMessage_ok h
  · intro size hash requests client message code seen hroom hpumps h
    exact Client.delivered_verified client message hroom hpumps h

namespace Sample

/-- A read that is given these bytes. -/
def gives (capacity : Nat) (chunk : Text) (h : chunk.length ≤ capacity) : ReadRequest :=
  ⟨capacity, .ok chunk, fun _ hanswer => Except.ok.inj hanswer ▸ h⟩

def digest (bytes : Text) : Text := [bytes.foldl (· + ·) 0]

/-- A short read, a read into no buffer, and the rest of three bytes. -/
def requests : List ReadRequest :=
  [gives 4 [7, 8] (Nat.le_of_ble_eq_true rfl), gives 0 [] (Nat.le_refl 0),
    gives 4 [9] (Nat.le_of_ble_eq_true rfl)]

def atEnd : ReadRequest := gives 4 [] (Nat.zero_le 4)

end Sample

/-- Three bytes are read to their end; had a fourth been expected, the end would not be one, and every
further read with room fails. -/
theorem verified_end_of_file_pieces :
    ((Readout.start 3 [24]).run Sample.digest Sample.requests).content = [7, 8, 9]
      ∧ (((Readout.start 3 [24]).run Sample.digest Sample.requests).reader.read Sample.digest
        Sample.atEnd).2 = .ok []
      ∧ (((Readout.start 4 [24]).run Sample.digest (Sample.requests ++ [Sample.atEnd])).reader.read
        Sample.digest Sample.atEnd).2 = .error .integrity := by
  obtain ⟨hany, hmatching, -, -⟩ := verified_end_of_file Sample.digest
  have hsupplies : Supplies [7, 8, 9] (Sample.requests ++ [Sample.atEnd]) := by
    refine ⟨[7, 8], [9], rfl, rfl, by simp, [], [9], rfl, rfl, fun _ => Or.inl rfl, [9], [], rfl, rfl,
      by simp, [], [], rfl, rfl, fun _ => Or.inr rfl, trivial⟩
  have hread := hmatching [7, 8, 9] Sample.requests Sample.atEnd [] (by decide) hsupplies
  have hcontent : ((Readout.start 3 [24]).run Sample.digest Sample.requests).content = [7, 8, 9] := by
    decide
  refine ⟨hcontent, (hread.2.2.2 (by decide)).2 hcontent, ?_⟩
  exact (hany 4 [24] (Sample.requests ++ [Sample.atEnd]) Sample.atEnd).2.2 (by decide) (by decide)

end Rustymail
