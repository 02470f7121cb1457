import Rustymail.Attempts
import Rustymail.Proof.FieldLemmas
import Rustymail.Proof.PlainText
import Rustymail.Server.Options
import Rustymail.Store.Notification

/-!
# What a report looks like

A report is rendered from typed addresses, checked domain names, identifiers and diagnostic classes,
so that its lines are printable and short whatever has failed.
-/

namespace Rustymail

open Checked

/-! ### The lines -/

theorem Failure.printable_status (f : Failure) : printable f.status = true ∧ f.status.length = 5 := by
  unfold Failure.status
  split_ifs <;> decide

theorem Failure.printable_diagnosticCode (f : Failure) :
    printable f.diagnosticCode = true ∧ f.diagnosticCode.length ≤ 40 := by
  unfold Failure.diagnosticCode
  split_ifs
  · decide
  · split
    · next code hcode =>
        obtain ⟨-, hrange⟩ := Option.filter_eq_some_iff.1 hcode
        rw [decide_eq_true_eq] at hrange
        have hlength : (decimal code).length ≤ 3 := decimal_length_le (by decide) (by omega)
        have hprintable : printable (decimal code) = true := printable_digits (by decide) (by decide) code
        constructor
        · rw [printable_append, printable_append, hprintable]
          decide
        · simp only [List.length_append]
          simp [ascii]
          omega
    · decide

theorem printable_reportLines {f : Failure} {plan : NotificationPlan} {policy : NotificationPolicy}
    (postmaster recipient : Address) {date : Text} (hid : printable f.id = true)
    (hmessage : printable f.messageId = true) (hhostname : printable policy.hostname = true)
    (hdate : printable date = true) :
    ∀ line ∈ reportLines f plan policy postmaster recipient date, printable line = true := by
  have hlocal : ∀ line ∈ if plan.isLocal then [ascii "Return-Path: <>"] else [],
      printable line = true := by
    split_ifs <;> decide
  simp only [reportLines, List.forall_mem_append, List.forall_mem_cons, printable_append,
    printable_address, printable_id plan.reportId.valid, f.printable_status.1,
    f.printable_diagnosticCode.1, hid, hmessage, hhostname, hdate]
  refine ⟨hlocal, ?_⟩
  decide +kernel

/-- Lines within given lengths, with their line ends. -/
theorem flatMap_crlf_length {lines : List Text} {bounds : List Nat}
    (h : List.Forall₂ (fun line bound => line.length ≤ bound) lines bounds) :
    (lines.flatMap (· ++ crlf)).length ≤ (bounds.map (· + 2)).sum := by
  induction h with
  | nil => exact Nat.zero_le _
  | @cons line bound lines bounds hline _ ih =>
      rw [List.flatMap_cons, List.length_append, List.length_append, List.map_cons, List.sum_cons]
      exact Nat.add_le_add (Nat.add_le_add_right hline 2) ih

/-- The longest that each line can be. -/
def reportBounds (isLocal : Bool) : List Nat :=
  (if isLocal then [16] else []) ++
    [286, 258, 46, 300, 25, 30, 62, 17, 60, 54, 0, 44, 42, 31, 0, 275, 56, 67, 53, 0, 44, 37, 0, 273, 0,
      279, 14, 13, 57, 46, 0, 46]

theorem reportLines_bounds {f : Failure} {plan : NotificationPlan} {policy : NotificationPolicy}
    (postmaster recipient : Address) {date : Text} (hid : f.id.length = 32)
    (hmessage : f.messageId.length = 32) (hhostname : policy.hostname.length ≤ 253)
    (hdate : date.length ≤ 40) :
    List.Forall₂ (fun line bound => line.length ≤ bound)
      (reportLines f plan policy postmaster recipient date) (reportBounds plan.isLocal) := by
  have hpostmaster := address_length postmaster
  have hrecipient := address_length recipient
  have hto := address_length plan.recipient
  have hreport := plan.reportId.length
  have hstatus := f.printable_status.2
  have hdiagnostic := f.printable_diagnosticCode.2
  unfold reportLines reportBounds
  refine List.rel_append ?_ ?_
  · split_ifs
    · exact .cons (by decide) .nil
    · exact .nil
  · simp only [List.forall₂_cons, List.length_append]
    simp [ascii]
    omega

theorem length_le_of_bounds {lines : List Text} {bounds : List Nat} {limit : Nat}
    (h : List.Forall₂ (fun line bound => line.length ≤ bound) lines bounds)
    (hbounds : ∀ bound ∈ bounds, bound ≤ limit) : ∀ line ∈ lines, line.length ≤ limit := by
  induction h with
  | nil => exact fun _ hmem => (List.not_mem_nil hmem).elim
  | cons hline _ ih =>
      rw [List.forall_mem_cons] at hbounds ⊢
      exact ⟨hline.trans hbounds.1, ih hbounds.2⟩

section Lengths

variable {f : Failure} {plan : NotificationPlan} {policy : NotificationPolicy}
  (postmaster recipient : Address) {date : Text} (hid : f.id.length = 32)
  (hmessage : f.messageId.length = 32) (hhostname : policy.hostname.length ≤ 253)
  (hdate : date.length ≤ 40)

include hid hmessage hhostname hdate

theorem reportLines_length :
    ∀ line ∈ reportLines f plan policy postmaster recipient date, line.length ≤ 998 := by
  refine length_le_of_bounds (reportLines_bounds postmaster recipient hid hmessage hhostname hdate) ?_
  cases plan.isLocal with
  | true => decide
  | false => decide

theorem reportLines_total :
    ((reportLines f plan policy postmaster recipient date).flatMap (· ++ crlf)).length ≤ 3072 := by
  calc
    ((reportLines f plan policy postmaster recipient date).flatMap (· ++ crlf)).length
      ≤ ((reportBounds plan.isLocal).map (· + 2)).sum :=
        flatMap_crlf_length (reportLines_bounds postmaster recipient hid hmessage hhostname hdate)
    _ ≤ 3072 := by
      cases plan.isLocal with
      | true => decide
      | false => decide

end Lengths

/-! ### The header -/

theorem BeginsField.append {start : Text} (h : BeginsField start) (rest : Text) :
    BeginsField (start ++ rest) := by
  obtain ⟨name, value, rfl, hname⟩ := h
  exact ⟨name, value ++ rest, by rw [List.append_assoc, List.cons_append], hname⟩

theorem beginsField_of_cut {start : Text}
    (h : (splitColon start).any (fun cut => !cut.1.isEmpty && cut.1.all fun b => 33 ≤ b && b ≤ 126)
      = true) : BeginsField start := by
  rw [beginsField_iff]
  cases hcut : splitColon start with
  | none =>
      rw [hcut] at h
      cases h
  | some cut =>
      rw [hcut, Option.any_some, Bool.and_eq_true] at h
      refine ⟨cut.1, cut.2, rfl, ?_⟩
      rw [not_or, Bool.not_eq_false]
      refine ⟨?_, h.2⟩
      intro hempty
      rw [hempty] at h
      cases h.1

/-- The header of a report, up to the first empty line. -/
theorem reportLines_header {f : Failure} {plan : NotificationPlan} {policy : NotificationPolicy}
    (postmaster recipient : Address) {date : Text}
    (hprintable : ∀ line ∈ reportLines f plan policy postmaster recipient date, printable line = true) :
    ∃ header body, reportLines f plan policy postmaster recipient date = header ++ [] :: body
      ∧ [] ∉ header
      ∧ WellFormedHeader header
      ∧ (header.head? = some (ascii "Return-Path: <>") ↔ plan.isLocal = true) := by
  dsimp only [reportLines] at hprintable ⊢
  refine ⟨_, _, (List.append_assoc _ [_, _, _, _, _, _, _, _, _, _] ([] :: _)).symm, ?_, ?_, ?_⟩
  · rw [List.mem_append, not_or]
    constructor
    · split_ifs <;> decide
    · simp [ascii]
  · refine ⟨?_, ?_, ?_⟩
    · intro line hmem b hb
      have hline : printable line = true := by
        refine hprintable line ?_
        rcases List.mem_append.1 hmem with hlocal | hrest
        · exact List.mem_append_left _ hlocal
        · exact List.mem_append_right _ (List.mem_append_left _ hrest)
      have hbyte := List.all_eq_true.1 hline b hb
      simp only [printableByte, Bool.and_eq_true, decide_eq_true_eq] at hbyte
      exact Or.inl hbyte
    · split_ifs
      · simp [continuation, ascii]
      · simp [continuation, ascii]
    · rw [List.forall_mem_append]
      constructor
      · split_ifs
        · rw [List.forall_mem_singleton]
          exact fun _ => beginsField_of_cut (by decide +kernel)
        · exact fun _ hmem => (List.not_mem_nil hmem).elim
      · simp only [List.forall_mem_cons]
        refine ⟨fun _ => ?_, fun _ => ?_, fun _ => ?_, fun _ => ?_, fun _ => ?_, fun _ => ?_, fun _ => ?_,
          fun _ => ?_, fun _ => ?_, fun hcontinues => ?_, fun _ hmem => (List.not_mem_nil hmem).elim⟩
        · exact ((beginsField_of_cut (by decide +kernel)).append _).append _
        · exact (beginsField_of_cut (by decide +kernel)).append _
        · exact (beginsField_of_cut (by decide +kernel)).append _
        · exact (((beginsField_of_cut (by decide +kernel)).append _).append _ |>.append _).append _
        · exact beginsField_of_cut (by decide +kernel)
        · exact beginsField_of_cut (by decide +kernel)
        · exact (beginsField_of_cut (by decide +kernel)).append _
        · exact beginsField_of_cut (by decide +kernel)
        · exact beginsField_of_cut (by decide +kernel)
        · simp [continuation, ascii] at hcontinues
  · split_ifs with hlocal
    · exact iff_of_true rfl hlocal
    · refine iff_of_false ?_ hlocal
      simp [ascii]

/-- A line whose first byte is no letter R names no return path. -/
theorem unnamed_of_head {line : Text} (h : line.head?.map lowercaseByte ≠ some 114) :
    named "Return-Path" line = false := by
  unfold named fieldName Server.eqIgnoreAsciiCase
  rw [beq_eq_false_iff_ne]
  intro heq
  cases line with
  | nil => exact absurd (congrArg List.length heq) (by decide)
  | cons b rest =>
      rw [List.takeWhile_cons] at heq
      split at heq
      · have hhead := congrArg List.head? heq
        simp only [lowercase, ascii, List.map_cons, List.head?_cons] at hhead
        exact h (hhead.trans (by decide))
      · exact absurd (congrArg List.length heq) (by decide)

theorem unnamed_reporting (rest : Text) :
    named "Return-Path" (ascii "Reporting-MTA: dns; " ++ rest) = false := by
  unfold named fieldName
  rw [show ascii "Reporting-MTA: dns; " = ascii "Reporting-MTA" ++ 58 :: ascii " dns; " from by
    decide +kernel, List.append_assoc, List.cons_append,
    List.takeWhile_append_of_pos (by decide +kernel), List.takeWhile_cons_of_neg (by decide),
    List.append_nil]
  decide +kernel

/-- A return path is on the first line, if it is there at all. -/
theorem reportLines_named (f : Failure) (plan : NotificationPlan) (policy : NotificationPolicy)
    (postmaster recipient : Address) (date : Text) :
    (reportLines f plan policy postmaster recipient date).filter (named "Return-Path")
      = if plan.isLocal then [ascii "Return-Path: <>"] else [] := by
  dsimp only [reportLines]
  rw [List.filter_append]
  have hlocal : (if plan.isLocal then [ascii "Return-Path: <>"] else []).filter (named "Return-Path")
      = if plan.isLocal then [ascii "Return-Path: <>"] else [] := by
    split_ifs <;> decide +kernel
  rw [hlocal]
  refine List.append_right_eq_self.2 (List.filter_eq_nil_iff.2 ?_)
  have hheads : ∀ (lines : List Text),
      (∀ line ∈ lines, line.head?.map lowercaseByte ≠ some 114
        ∨ ∃ rest, line = ascii "Reporting-MTA: dns; " ++ rest) →
      ∀ line ∈ lines, ¬ named "Return-Path" line = true := by
    intro lines h line hmem
    rw [Bool.not_eq_true]
    rcases h line hmem with hhead | ⟨rest, rfl⟩
    · exact unnamed_of_head hhead
    · exact unnamed_reporting rest
  refine hheads _ ?_
  simp only [List.forall_mem_cons]
  simp [ascii]
  decide

/-- The lines that begin like the boundary are the three delimiters. -/
theorem reportLines_delimiters (f : Failure) (plan : NotificationPlan) (policy : NotificationPolicy)
    (postmaster recipient : Address) (date : Text) :
    (reportLines f plan policy postmaster recipient date).filter
        (List.isPrefixOf (ascii "--" ++ (ascii "rustymail-" ++ plan.reportId.text)))
      = [ascii "--" ++ (ascii "rustymail-" ++ plan.reportId.text),
        ascii "--" ++ (ascii "rustymail-" ++ plan.reportId.text),
        ascii "--" ++ (ascii "rustymail-" ++ plan.reportId.text) ++ ascii "--"] := by
  dsimp only [reportLines]
  rw [List.filter_append]
  have hlocal : (if plan.isLocal then [ascii "Return-Path: <>"] else []).filter
      (List.isPrefixOf (ascii "--" ++ (ascii "rustymail-" ++ plan.reportId.text))) = [] := by
    split_ifs
    · simp [ascii]
    · rfl
  rw [hlocal, List.nil_append]
  simp [ascii]

/-! ### The report -/

theorem hostname_of_validate {policy : NotificationPolicy} {postmaster : Address}
    (h : policy.validate = .ok postmaster) : validDomain policy.hostname = true := by
  unfold NotificationPolicy.validate at h
  rw [bind_eq_ok] at h
  obtain ⟨_, hvalid, _⟩ := h
  exact (require_eq_ok.1 hvalid).1

/-- **Rendering is total, bounded and injection-free.** A report is always rendered, and small enough
for any store that the server opens; its lines are printable and short, its header is one that every
filter lets through, with a return path exactly if the recipient is local, and of its lines only the
delimiters begin like the boundary. -/
theorem render_total (date : Int → Option Text) (f : Failure) (plan : NotificationPlan)
    (policy : NotificationPolicy) (postmaster recipient : Address) (now : Int) (text : Text)
    (hpolicy : policy.validate = .ok postmaster) (hrecipient : f.recipient = recipient.asStr)
    (hid : validId f.id = true) (hmessage : validId f.messageId = true)
    (hdate : date (now / 1000) = some text) (hprintable : printable text = true)
    (hlength : text.length = 31) :
    ∃ bytes header body,
      render date f plan policy postmaster now = .ok bytes
        ∧ bytes = (header ++ [] :: body).flatMap (· ++ crlf)
        ∧ bytes.length ≤ 3072
        ∧ (∀ limits hvalid (store : Store),
          store.maxMessageBytes = (Server.storeOptions limits hvalid).maxMessageBytes →
          bytes.length ≤ maxReport ∧ bytes.length ≤ min store.maxMessageBytes maxReport)
        ∧ (∀ line ∈ header ++ [] :: body, (∀ b ∈ line, 32 ≤ b ∧ b ≤ 126) ∧ line.length ≤ 998)
        ∧ [] ∉ header
        ∧ WellFormedHeader header
        ∧ (∀ submission,
          ((HeaderFilter.initial submission).retainAll (header.map (· ++ crlf))).isSome = true)
        ∧ (header.head? = some (ascii "Return-Path: <>") ↔ plan.isLocal = true)
        ∧ (header ++ [] :: body).filter (named "Return-Path")
          = (if plan.isLocal then [ascii "Return-Path: <>"] else [])
        ∧ (header ++ [] :: body).filter
            (List.isPrefixOf (ascii "--" ++ (ascii "rustymail-" ++ plan.reportId.text)))
          = [ascii "--" ++ (ascii "rustymail-" ++ plan.reportId.text),
            ascii "--" ++ (ascii "rustymail-" ++ plan.reportId.text),
            ascii "--" ++ (ascii "rustymail-" ++ plan.reportId.text) ++ ascii "--"] := by
  have hhostname := hostname_of_validate hpolicy
  have hdomain := domain_length hhostname
  have hidLength := Uuid.length ⟨_, hid⟩
  have hmessageLength := Uuid.length ⟨_, hmessage⟩
  have hshort : text.length ≤ 40 := by omega
  have hlines := @printable_reportLines f plan policy postmaster recipient text (printable_id hid)
    (printable_id hmessage) (printable_domain hhostname) hprintable
  have hlengths := @reportLines_length f plan policy postmaster recipient text hidLength hmessageLength
    hdomain hshort
  have htotal := @reportLines_total f plan policy postmaster recipient text hidLength hmessageLength
    hdomain hshort
  have hfits : ((reportLines f plan policy postmaster recipient text).flatMap (· ++ crlf)).length
      ≤ maxReport := htotal.trans (by decide)
  have hrender : render date f plan policy postmaster now
      = .ok ((reportLines f plan policy postmaster recipient text).flatMap (· ++ crlf)) := by
    unfold render
    rw [hrecipient, Address.parse_asStr, hdate, found_some, bind_ok, found_some, bind_ok]
    dsimp only
    rw [require_of hfits, bind_ok]
    rfl
  obtain ⟨header, body, hsplit, hseparated, hwell, hreturn⟩ :=
    reportLines_header postmaster recipient hlines
  have hnamed := reportLines_named f plan policy postmaster recipient text
  have hdelimiters := reportLines_delimiters f plan policy postmaster recipient text
  rw [hsplit] at hlines hlengths htotal hfits hrender hnamed hdelimiters
  refine ⟨_, header, body, hrender, rfl, htotal, ?_, ?_, hseparated, hwell, ?_, hreturn, hnamed,
    hdelimiters⟩
  · intro limits hvalid store hstore
    have hroom := Server.storeOptions_room limits hvalid
    refine ⟨hfits, le_min ?_ hfits⟩
    rw [hstore]
    exact htotal.trans hroom
  · intro line hmem
    refine ⟨fun b hb => ?_, hlengths line hmem⟩
    have hbyte := List.all_eq_true.1 (hlines line hmem) b hb
    simpa only [printableByte, Bool.and_eq_true, decide_eq_true_eq] using hbyte
  · intro submission
    obtain ⟨filter, hretained⟩ := @HeaderFilter.retainAll_wellFormed header submission hwell
    rw [hretained]
    rfl

namespace Sample

def reportPolicy : NotificationPolicy := ⟨ascii "mx.b.c", [ascii "b.c"], 3600⟩

def postmaster : Address := ⟨ascii "postmaster@b.c", by decide +kernel, by decide +kernel⟩

def rejected : Failure where
  id := deliveryId.text
  messageId := messageId.text
  sender := ascii "x@b.c"
  recipient := ascii "a@b.c"
  source := .submission
  authenticated := true
  reason := none
  code := some 550

def rejectedPlan : NotificationPlan := ⟨deliveryId.text, operationId, postmaster, true, 3600⟩

theorem render_total_rejected :
    ∃ bytes, render (fun _ => some (ascii "Thu, 01 Jan 1970 00:00:00 +0000")) rejected rejectedPlan
        reportPolicy postmaster 0 = .ok bytes
      ∧ bytes.length ≤ 3072 := by
  have hpolicy : reportPolicy.validate = .ok postmaster := by decide +kernel
  obtain ⟨bytes, _, _, hrender, -, hlength, -⟩ :=
    render_total (fun _ => some (ascii "Thu, 01 Jan 1970 00:00:00 +0000")) rejected rejectedPlan
      reportPolicy postmaster recipient 0 _ hpolicy rfl deliveryId.valid messageId.valid rfl
      (by decide +kernel) (by decide +kernel)
  exact ⟨bytes, hrender, hlength⟩

end Sample

end Rustymail
