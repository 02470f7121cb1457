import Rustymail.Attempts
import Rustymail.Proof.AuthorityLemmas
import Rustymail.Server.Admin

/-!
# A page of credentials in its frame

A frame that was written is read back as it is, and a value that does not fit writes nothing. The
credentials of a store have labels and selectors that keep every page within the limit of a response,
even if each byte of each label is escaped.
-/

namespace Rustymail

open Checked

/-! ### The bytes of a label -/

theorem length_utf8 (s : String) : (utf8 s).length = s.utf8ByteSize := by
  have hbytes : s.toList.utf8Encode = s.toByteArray := String.utf8Encode_toList
  unfold List.utf8Encode at hbytes
  unfold utf8
  rw [← List.size_toByteArray, hbytes]
  rfl

/-- A control byte comes of a control character only. -/
theorem utf8EncodeChar_ge {c : Char} (h : 32 ≤ c.toNat) : ∀ b ∈ String.utf8EncodeChar c, 32 ≤ b := by
  have hbyte : ∀ n, 32 ≤ n → n < 256 → 32 ≤ UInt8.ofNat n := by
    intro n hlow hhigh
    rw [UInt8.le_iff_toNat_le, UInt8.toNat_ofNat']
    change 32 ≤ n % 256
    omega
  change 32 ≤ c.val.toNat at h
  fun_cases String.utf8EncodeChar c with
  | case1 v hshort =>
      intro b hb
      obtain rfl := List.mem_singleton.1 hb
      exact hbyte _ h (by omega)
  | case2 v =>
      intro b hb
      simp only [List.mem_cons, List.not_mem_nil, or_false] at hb
      rcases hb with rfl | rfl
      all_goals exact hbyte _ (by omega) (by omega)
  | case3 v =>
      intro b hb
      simp only [List.mem_cons, List.not_mem_nil, or_false] at hb
      rcases hb with rfl | rfl | rfl
      all_goals exact hbyte _ (by omega) (by omega)
  | case4 v =>
      intro b hb
      simp only [List.mem_cons, List.not_mem_nil, or_false] at hb
      rcases hb with rfl | rfl | rfl | rfl
      all_goals exact hbyte _ (by omega) (by omega)

/-! ### The credentials of a store -/

/-- What `create_credential` asks of a selector and of a label. -/
structure Credential.Named (row : Credential) : Prop where
  selector : validId row.selector = true
  short : row.label.utf8ByteSize ≤ 80
  clean : row.label.toList.any isControl = false

def Db.Named (db : Db) : Prop := ∀ row ∈ db.credentials, row.Named

/-- The selectors and the labels are those that were there. -/
def Db.KeepsNames (db db' : Db) : Prop :=
  ∀ row ∈ db'.credentials, ∃ old ∈ db.credentials,
    old.selector = row.selector ∧ old.label = row.label

theorem Db.KeepsNames.of_eq {db db' : Db} (h : db'.credentials = db.credentials) :
    db.KeepsNames db' := by
  intro row hrow
  rw [h] at hrow
  exact ⟨row, hrow, rfl, rfl⟩

theorem Db.KeepsNames.of_modify {κ : Type} [DecidableEq κ] {key : Credential → κ} {k : κ}
    {db db' : Db} {f : Credential → Credential}
    (h : db'.credentials = Keyed.modify key db.credentials k f)
    (hf : ∀ row, (f row).selector = row.selector ∧ (f row).label = row.label) :
    db.KeepsNames db' := by
  intro row hrow
  rw [h] at hrow
  obtain ⟨old, hold, rfl⟩ := List.mem_map.1 hrow
  refine ⟨old, hold, ?_⟩
  split
  · exact ⟨(hf old).1.symm, (hf old).2.symm⟩
  · exact ⟨rfl, rfl⟩

theorem Db.Named.kept {db db' : Db} (h : db.Named) (hkeeps : db.KeepsNames db') : db'.Named := by
  intro row hrow
  obtain ⟨old, hold, hselector, hlabel⟩ := hkeeps row hrow
  obtain ⟨hid, hshort, hclean⟩ := h old hold
  exact ⟨hselector ▸ hid, hlabel ▸ hshort, hlabel ▸ hclean⟩

variable {w : World} {op : Op} {db db' : Db}

/-- The operation may bring a credential in. -/
def Op.issues : Op → Bool
  | .createCredential .. => true
  | _ => false

theorem Commits.keepsNames (h : Commits w op db db') (hop : op.issues = false) :
    db.KeepsNames db' := by
  cases h with
  | createCredential htx => cases hop
  | createAccount _ htx => exact .of_eq (createAccountTx_eq_ok htx).1
  | setAccountQuota _ _ _ => exact .of_eq rfl
  | finishAuthentication htx =>
      unfold finishAuthenticationTx at htx
      simp only [bind_eq_ok, require_eq_ok, pure_eq_ok, Prod.mk.injEq, and_true] at htx
      obtain ⟨-, -, rfl⟩ := htx
      exact .of_modify rfl fun _ => ⟨rfl, rfl⟩
  | revokeCredential htx =>
      unfold revokeCredentialTx at htx
      simp only [bind_eq_ok, found_eq_ok, pure_eq_ok, Prod.mk.injEq] at htx
      obtain ⟨credential, hcredential, rfl, rfl⟩ := htx
      exact .of_modify rfl fun _ => ⟨rfl, rfl⟩
  | disableAccount htx =>
      unfold disableAccountTx at htx
      simp only [bind_eq_ok, found_eq_ok, pure_eq_ok, Prod.mk.injEq] at htx
      obtain ⟨owner, howner, rfl, rfl⟩ := htx
      exact .of_modify rfl fun _ => ⟨rfl, rfl⟩
  | setSendAs htx =>
      obtain ⟨owner, written, -, -, hwritten, rfl⟩ := setSendAsTx_eq_ok htx
      have hcredentials : written.credentials = db.credentials := upsertSendAs_credentials hwritten
      exact .of_eq hcredentials
  | insertAlias htx =>
      obtain ⟨-, rfl⟩ := Db.insertAddress_eq_ok.1 htx
      exact .of_eq rfl
  | acceptance hop hvalid hauth hnew htx =>
      have hbrings : Brings w _ db db' := .acceptance hop hvalid hauth hnew htx
      exact .of_eq hbrings.same.1
  | @enqueue ids message plan reading faults now _ _ hvalid hnew htx =>
      have hbrings : Brings w (.enqueue ids message plan reading faults) db db' :=
        .enqueued ⟨reading, faults, rfl⟩ hvalid hnew htx
      exact .of_eq hbrings.same.1
  | @report prepared delivery reading faults now _ _ hnew heligible htx =>
      have hbrings : Brings w (.notificationCommit prepared delivery reading faults) db db' :=
        .report ⟨reading, faults, rfl⟩ hnew heligible htx
      exact .of_eq hbrings.same.1
  | expire _ htx => exact .of_eq (expireTx_content htx).credentials
  | recover _ htx => exact .of_eq (recoverTx_content htx).credentials
  | claim htx => exact .of_eq (claimTx_content htx).credentials
  | renew _ htx => exact .of_eq (renewTx_content htx).credentials
  | markBody _ htx => exact .of_eq (markBodyTx_content htx).credentials
  | finish _ htx => exact .of_eq (finishTx_content htx).credentials
  | hold htx => exact .of_eq (holdTx_content htx).credentials
  | retry htx => exact .of_eq (retryTx_content htx).credentials
  | closeUnknown htx => exact .of_eq (closeUnknownTx_content htx).credentials
  | suppress => exact .of_eq rfl
  | postpone => exact .of_eq rfl

theorem Credential.Named.of_valid {row : Credential} {selector phc : Text} {label : String}
    (hvalid : validCredential selector label phc = true) (hselector : row.selector = selector)
    (hlabel : row.label = label) : row.Named := by
  subst hselector hlabel
  unfold validCredential at hvalid
  simp only [Bool.and_eq_true, decide_eq_true_eq, Bool.not_eq_true'] at hvalid
  obtain ⟨⟨⟨⟨⟨hid, -⟩, hshort⟩, hclean⟩, -⟩, -⟩ := hvalid
  exact ⟨hid, hshort, hclean⟩

theorem World.next_named (h : w.store.db.Named) (op : Op) : (w.next op).store.db.Named := by
  cases hissues : op.issues with
  | false =>
      have hall : CommitsAll w op w.store.db (w.next op).store.db := w.next_commits op
      refine Relation.ReflTransGen.trans_induction_on hall (fun _ h => h) ?_ ?_ h
      · exact fun hone h => h.kept (hone.keepsNames hissues)
      · exact fun _ _ hfirst hsecond h => hsecond (hfirst h)
  | true =>
      cases op with
      | createCredential login selector label scope phc reading =>
          unfold World.next World.step World.answer World.call
          split_ifs
          · have hleaves := createCredential_leaves (s := w.store) login selector label scope phc reading
            rcases hleaves.2 with hsame | ⟨row, hvalid, hselector, hlabel, hinsert⟩
            · exact hsame ▸ h
            · obtain ⟨-, hrows⟩ := Db.insertCredential_eq_ok.1 hinsert
              intro other hother
              rw [hrows] at hother
              rcases List.mem_append.1 hother with hold | hnew
              · exact h other hold
              · rw [List.mem_singleton.1 hnew]
                exact .of_valid hvalid hselector hlabel
          · exact h
      | _ => cases hissues

theorem World.Reachable.named (h : w.Reachable) : w.store.db.Named := by
  obtain ⟨root, maxMessageBytes, h⟩ := h
  exact h.invariant (fun w => w.store.db.Named) (fun _ hrow => absurd hrow List.not_mem_nil)
    fun _ op hw => World.next_named hw op

/-! ### What a page holds -/

/-- The column is read as it is. -/
def InI64 (n : Int) : Prop := -2 ^ 63 ≤ n ∧ n < 2 ^ 63

/-- A summary as the columns and `create_credential` bound it. -/
structure CredentialSummary.Bounded (summary : CredentialSummary) : Prop where
  id : InI64 summary.id
  short : summary.label.length ≤ 80
  clean : ∀ b ∈ summary.label, 32 ≤ b
  selector : validId summary.selector = true
  revokedAtMs : ∀ n ∈ summary.revokedAtMs, InI64 n
  lastUsedAtMs : ∀ n ∈ summary.lastUsedAtMs, InI64 n

theorem i64Column_eq_ok {n result : Int} (h : i64Column n = .ok result) : InI64 result := by
  unfold i64Column at h
  by_cases hrange : -2 ^ 63 ≤ n ∧ n < 2 ^ 63
  · rw [if_pos hrange] at h
    cases h
    exact hrange
  · rw [if_neg hrange] at h
    cases h

theorem optionalColumn_eq_ok {read result : Option Int} (h : read.mapM i64Column = .ok result) :
    ∀ n ∈ result, InI64 n := by
  intro n hn
  cases read with
  | none =>
      cases h
      cases hn
  | some m =>
      have hmap : (some m).mapM i64Column = some <$> i64Column m := rfl
      rw [hmap] at h
      cases hcolumn : i64Column m with
      | error e =>
          rw [hcolumn] at h
          cases h
      | ok value =>
          rw [hcolumn] at h
          cases h
          cases hn
          exact i64Column_eq_ok hcolumn

/-- The bytes of a label without control characters. -/
theorem utf8_clean {label : String} (h : label.toList.any isControl = false) :
    ∀ b ∈ utf8 label, 32 ≤ b := by
  intro b hb
  obtain ⟨c, hc, hbyte⟩ := List.mem_flatMap.1 hb
  have hcontrol := List.any_eq_false.1 h c hc
  unfold isControl at hcontrol
  simp only [Bool.or_eq_true, decide_eq_true_eq, not_or, Nat.not_lt] at hcontrol
  exact utf8EncodeChar_ge hcontrol.1 b hbyte

theorem Credential.Named.bounded {row : Credential} {summary : CredentialSummary} (h : row.Named)
    (hsummary : row.summary = .ok summary) : summary.Bounded := by
  unfold Credential.summary at hsummary
  simp only [bind_eq_ok, pure_eq_ok] at hsummary
  obtain ⟨id, hid, revoked, hrevoked, used, hused, rfl⟩ := hsummary
  exact ⟨i64Column_eq_ok hid, (length_utf8 row.label).trans_le h.short, utf8_clean h.clean,
    h.selector, optionalColumn_eq_ok hrevoked, optionalColumn_eq_ok hused⟩

/-- At most a hundred summaries, each of them bounded. -/
theorem listCredentials_bounded {login : Address} {afterId : Int} {limit : Nat}
    {page : List CredentialSummary} (h : db.Named)
    (hpage : listCredentials db login afterId limit = .ok page) :
    page.length ≤ 100 ∧ ∀ summary ∈ page, summary.Bounded := by
  unfold listCredentials at hpage
  by_cases hinvalid : afterId < 0 ∨ ¬ (1 ≤ limit ∧ limit ≤ 100)
  · rw [if_pos hinvalid] at hpage
    cases hpage
  · rw [if_neg hinvalid] at hpage
    rw [not_or, not_not] at hinvalid
    obtain ⟨hlength, hrows⟩ := mapM_eq_ok hpage
    constructor
    · rw [hlength, List.length_take]
      omega
    · intro summary hsummary
      obtain ⟨row, hrow, hread⟩ := hrows summary hsummary
      exact (h row (Keyed.mem_of_mem_scan hrow).1).bounded hread

namespace Server

variable (json : Json.Serializer) {summary : CredentialSummary}

theorem length_optionalNumber {read : Option Int} (h : ∀ n ∈ read, InI64 n) :
    (json.text (optionalNumber json read)).length ≤ 20 := by
  cases read with
  | none =>
      have hnull := json.length_null
      change (json.text json.null).length ≤ 20
      omega
  | some n =>
      obtain ⟨hlow, hhigh⟩ := h n rfl
      exact json.length_number hlow hhigh

theorem length_scopeName (scope : Scope) :
    (json.text (json.string (scopeName scope))).length ≤ 11 := by
  have hplain : ∀ b ∈ scopeName scope, b ≠ 34 ∧ b ≠ 92 ∧ 32 ≤ b := by
    cases scope with
    | mail => decide +kernel
    | readOnly => decide +kernel
  have hshort : (scopeName scope).length ≤ 9 := by
    cases scope with
    | mail => decide +kernel
    | readOnly => decide +kernel
  rw [json.length_string_plain hplain]
  omega

theorem length_selector {selector : Text} (h : validId selector = true) :
    (json.text (json.string selector)).length = 34 := by
  unfold validId at h
  rw [Bool.and_eq_true, beq_iff_eq, List.all_eq_true] at h
  obtain ⟨hlength, hdigits⟩ := h
  have hplain : ∀ b ∈ selector, b ≠ 34 ∧ b ≠ 92 ∧ 32 ≤ b := by
    intro b hb
    have hdigit := hdigits b hb
    refine ⟨?_, ?_, ?_⟩
    · rintro rfl
      exact absurd hdigit (by decide)
    · rintro rfl
      exact absurd hdigit (by decide)
    · unfold isAsciiDigit at hdigit
      simp only [Bool.or_eq_true, Bool.and_eq_true, decide_eq_true_eq] at hdigit
      rcases hdigit with hdecimal | hletter
      · exact UInt8.le_trans (by decide) hdecimal.1
      · exact UInt8.le_trans (by decide) hletter.1
  rw [json.length_string_plain hplain, hlength]

/-- The label may be escaped byte for byte. -/
theorem length_summary (h : summary.Bounded) :
    (json.text (json.object (summaryFields json summary))).length ≤ 341 := by
  have hordered : [ascii "id", ascii "label", ascii "last_used_at_ms", ascii "revoked_at_ms",
      ascii "scope", ascii "selector"].Pairwise (· < ·) := by decide
  have hobject := @Json.Serializer.length_object json (summaryFields json summary) hordered
  have hid := json.length_number h.id.1 h.id.2
  have hlabel := json.length_string h.clean
  have hshort := h.short
  have hused := length_optionalNumber json h.lastUsedAtMs
  have hrevoked := length_optionalNumber json h.revokedAtMs
  have hscope := length_scopeName json summary.scope
  have hselector := length_selector json h.selector
  unfold summaryFields at hobject ⊢
  simp only [List.map_cons, List.map_nil, List.sum_cons, List.sum_nil] at hobject
  rw [json.length_field (by decide +kernel), json.length_field (by decide +kernel),
    json.length_field (by decide +kernel), json.length_field (by decide +kernel),
    json.length_field (by decide +kernel), json.length_field (by decide +kernel)] at hobject
  have hnames : (ascii "id").length = 2 ∧ (ascii "label").length = 5
      ∧ (ascii "last_used_at_ms").length = 15 ∧ (ascii "revoked_at_ms").length = 13
      ∧ (ascii "scope").length = 5 ∧ (ascii "selector").length = 8 := by decide
  omega

theorem length_credentials {page : List CredentialSummary} (hfew : page.length ≤ 100)
    (h : ∀ summary ∈ page, summary.Bounded) :
    (json.text (credentialsValue json page)).length ≤ 34219 := by
  have hitems : ∀ item ∈ page.map fun summary => json.object (summaryFields json summary),
      (json.text item).length ≤ 341 := by
    intro item hitem
    obtain ⟨summary, hsummary, rfl⟩ := List.mem_map.1 hitem
    exact length_summary json (h summary hsummary)
  have harray := json.length_array hitems
  rw [List.length_map] at harray
  have hobject := @Json.Serializer.length_object json
    [(ascii "credentials",
      json.array (page.map fun summary => json.object (summaryFields json summary)))]
    (List.pairwise_singleton _ _)
  simp only [List.map_cons, List.map_nil, List.sum_cons, List.sum_nil] at hobject
  rw [json.length_field (by decide +kernel)] at hobject
  have hname : (ascii "credentials").length = 11 := by decide
  unfold credentialsValue
  omega

/-- A page and what is around it leave almost half of the frame. -/
theorem length_page {page : List CredentialSummary} (hfew : page.length ≤ 100)
    (h : ∀ summary ∈ page, summary.Bounded) :
    (json.text (succeeded json (credentialsValue json page))).length
      ≤ FrameKind.response.limit - 1 := by
  have hresult := length_credentials json hfew h
  have hordered : [ascii "ok", ascii "result"].Pairwise (· < ·) := by decide
  have hobject := @Json.Serializer.length_object json
    [(ascii "ok", json.bool true), (ascii "result", credentialsValue json page)] hordered
  have htrue := json.length_bool true
  simp only [List.map_cons, List.map_nil, List.sum_cons, List.sum_nil] at hobject
  rw [json.length_field (by decide +kernel), json.length_field (by decide +kernel)] at hobject
  have hnames : (ascii "ok").length = 2 ∧ (ascii "result").length = 6 := by decide
  have hlimit : FrameKind.response.limit - 1 = 65535 := by decide
  unfold succeeded
  omega

/-! ### Frames -/

variable {json}

theorem EncodedFrame.write_fits {frame : EncodedFrame} {piece : Text}
    (h : frame.bytes.length + piece.length ≤ frame.limit) :
    frame.write piece
      = .ok ⟨frame.bytes ++ piece, frame.limit, List.length_append.trans_le h⟩ := by
  unfold write
  rw [dif_neg (by omega)]

theorem EncodedFrame.write_exceeds {frame : EncodedFrame} {piece : Text}
    (h : frame.limit < frame.bytes.length + piece.length) :
    frame.write piece = .error (.other "management response exceeds frame limit") := by
  have hfits := frame.fits
  unfold write
  rw [dif_pos (by omega)]

/-- A value is encoded if its whole text fits, in whatever pieces it comes. -/
theorem encode_fits (pieces : List Text) (frame : EncodedFrame)
    (h : frame.bytes.length + pieces.flatten.length ≤ frame.limit) :
    ∃ after, pieces.foldlM EncodedFrame.write frame = .ok after
      ∧ after.bytes = frame.bytes ++ pieces.flatten := by
  induction pieces generalizing frame with
  | nil => exact ⟨frame, rfl, (List.append_nil _).symm⟩
  | cons piece rest ih =>
      rw [List.flatten_cons, List.length_append] at h
      rw [List.foldlM_cons, EncodedFrame.write_fits (by omega), bind_ok]
      have hroom : (frame.bytes ++ piece).length + rest.flatten.length ≤ frame.limit := by
        rw [List.length_append]
        omega
      obtain ⟨after, hafter, hbytes⟩ := ih ⟨frame.bytes ++ piece, frame.limit, _⟩ hroom
      exact ⟨after, hafter, by rw [hbytes, List.flatten_cons, List.append_assoc]⟩

theorem encode_exceeds (pieces : List Text) (frame : EncodedFrame)
    (h : frame.limit < frame.bytes.length + pieces.flatten.length) :
    pieces.foldlM EncodedFrame.write frame
      = .error (.other "management response exceeds frame limit") := by
  induction pieces generalizing frame with
  | nil =>
      have hfits := frame.fits
      rw [List.flatten_nil, List.length_nil] at h
      omega
  | cons piece rest ih =>
      rw [List.flatten_cons, List.length_append] at h
      rw [List.foldlM_cons]
      by_cases hroom : frame.bytes.length + piece.length ≤ frame.limit
      · rw [EncodedFrame.write_fits hroom, bind_ok]
        apply ih
        dsimp only
        rw [List.length_append]
        omega
      · rw [EncodedFrame.write_exceeds (by omega)]
        rfl

/-- A frame is read up to its newline, whatever arrives behind it. -/
theorem readUntil_frame {body more : Text} {room : Nat} {done : Text}
    (later : List (Except FrameError Text)) (hbody : 10 ∉ body) (hroom : body.length < room)
    (pieces : List Text) (hpieces : pieces.flatten = body ++ 10 :: more) :
    readUntil room done (pieces.map .ok ++ later) = .ok (done ++ (body ++ [10])) := by
  induction pieces generalizing body room done with
  | nil => exact absurd hpieces.symm (List.append_ne_nil_of_right_ne_nil _ (List.cons_ne_nil _ _))
  | cons piece rest ih =>
      rw [List.map_cons, List.cons_append, readUntil, if_neg (by omega)]
      dsimp only
      rw [List.flatten_cons] at hpieces
      have hwhole : ∀ todo, body = piece ++ todo → rest.flatten = todo ++ 10 :: more →
          (if 10 ∈ piece.take room then
              .ok (done ++ ((piece.take room).takeWhile (· ≠ 10) ++ [10]))
            else
              readUntil (room - (piece.take room).length) (done ++ piece.take room)
                (rest.map .ok ++ later))
            = (.ok (done ++ (body ++ [10])) : Except FrameError Text) := by
        rintro todo rfl hrest
        rw [List.length_append] at hroom
        rw [List.mem_append, not_or] at hbody
        rw [List.take_of_length_le (by omega), if_neg hbody.1, ih hbody.2 (by omega) hrest,
          List.append_assoc, List.append_assoc]
      rcases List.append_eq_append_iff.1 hpieces with ⟨todo, hsplit, hrest⟩ | ⟨todo, rfl, hmore⟩
      · exact hwhole todo hsplit hrest
      · cases todo with
        | nil => exact hwhole [] (by simp) hmore.symm
        | cons newline todo =>
            obtain ⟨rfl, -⟩ := List.cons.inj hmore
            have htaken : (body ++ 10 :: todo).take room
                = body ++ 10 :: todo.take (room - body.length - 1) := by
              rw [List.take_append, List.take_of_length_le (by omega)]
              obtain ⟨left, hleft⟩ : ∃ left, room - body.length = left + 1 :=
                ⟨room - body.length - 1, by omega⟩
              rw [hleft, List.take_succ_cons, Nat.add_sub_cancel]
            have hclean : ∀ b ∈ body, (decide (b ≠ 10)) = true := by
              intro b hb
              exact decide_eq_true fun h => hbody (h ▸ hb)
            rw [htaken, if_pos (List.mem_append_right _ List.mem_cons_self),
              List.takeWhile_append_of_pos hclean, List.takeWhile_cons_of_neg (by decide),
              List.append_nil]

theorem readFrame_frame {kind : FrameKind} {body more : Text} (later : List (Except FrameError Text))
    (hbody : 10 ∉ body) (hfits : body.length ≤ kind.limit - 1) {pieces : List Text}
    (hpieces : pieces.flatten = body ++ [10] ++ more) :
    readFrame kind (pieces.map .ok ++ later) = .ok (body ++ [10]) := by
  have hlimit : 0 < kind.limit := by
    cases kind with
    | request => decide
    | response => decide
  rw [List.append_assoc, List.singleton_append] at hpieces
  unfold readFrame
  rw [@readUntil_frame body more (kind.limit + 1) [] later hbody (by omega) pieces hpieces]
  dsimp only
  rw [List.nil_append, List.length_append, List.length_singleton, List.getLast?_concat]
  apply if_neg
  rintro (hlong | hlast)
  · omega
  · exact hlast rfl

theorem writeFrame_fits {value : json.Value} {kind : FrameKind} (sent : Text)
    (h : (json.text value).length ≤ kind.limit - 1) :
    writeFrame json sent value kind = (sent ++ (json.text value ++ [10]), .ok ()) := by
  obtain ⟨after, hafter, hbytes⟩ := encode_fits (json.pieces value) (.new (kind.limit - 1))
    ((Nat.zero_add _).trans_le h)
  unfold writeFrame
  rw [hafter]
  dsimp only
  rw [hbytes]
  rfl

theorem writeFrame_exceeds {value : json.Value} {kind : FrameKind} (sent : Text)
    (h : kind.limit - 1 < (json.text value).length) :
    writeFrame json sent value kind
      = (sent, .error (.other "management response exceeds frame limit")) := by
  unfold writeFrame
  rw [encode_exceeds (json.pieces value) (.new (kind.limit - 1))
    (h.trans_eq (Nat.zero_add _).symm)]

/-- **Credential pages fit their frame.** The page of any request that a reachable store accepts is
written, within the limit of a response, and read back as it was written, in whatever pieces it
arrives. Any value in any frame is either written so or not at all. -/
theorem credential_page_fits (json : Json.Serializer) :
    (∀ (w : World) (login : Address) (afterId : Int) (limit : Nat) (page : List CredentialSummary)
        (sent : Text), w.Reachable →
      listCredentials w.store.db login afterId limit = .ok page →
      ∃ frame, writeFrame json sent (succeeded json (credentialsValue json page)) .response
          = (sent ++ frame, .ok ())
        ∧ frame.length ≤ FrameKind.response.limit
        ∧ ∀ (pieces : List Text) (more : Text) (later : List (Except FrameError Text)),
          pieces.flatten = frame ++ more →
          readFrame .response (pieces.map .ok ++ later) = .ok frame)
      ∧ ∀ (value : json.Value) (kind : FrameKind) (sent : Text),
        (kind.limit - 1 < (json.text value).length
            ∧ ∃ e, writeFrame json sent value kind = (sent, .error e))
          ∨ ((json.text value).length ≤ kind.limit - 1 ∧ 10 ∉ json.text value
            ∧ writeFrame json sent value kind = (sent ++ (json.text value ++ [10]), .ok ())
            ∧ ∀ (pieces : List Text) (more : Text) (later : List (Except FrameError Text)),
              pieces.flatten = json.text value ++ [10] ++ more →
              readFrame kind (pieces.map .ok ++ later) = .ok (json.text value ++ [10])) := by
  constructor
  · intro w login afterId limit page sent hreach hpage
    obtain ⟨hfew, hbounded⟩ := listCredentials_bounded hreach.named hpage
    have hfits := length_page json hfew hbounded
    refine ⟨_, writeFrame_fits sent hfits, ?_, ?_⟩
    · have hlimit : FrameKind.response.limit = 65536 := by decide
      rw [List.length_append, List.length_singleton]
      omega
    · intro pieces more later hpieces
      exact readFrame_frame later (json.one_line _) hfits hpieces
  · intro value kind sent
    rcases Nat.lt_or_ge (kind.limit - 1) (json.text value).length with hlong | hfits
    · exact Or.inl ⟨hlong, _, writeFrame_exceeds sent hlong⟩
    · refine Or.inr ⟨hfits, json.one_line value, writeFrame_fits sent hfits, ?_⟩
      intro pieces more later hpieces
      exact readFrame_frame later (json.one_line value) hfits hpieces

namespace Sample

def credential (selector : Uuid) (label : String) (scope : Scope) : Op :=
  .createCredential Rustymail.Sample.recipient selector.text label scope (ascii "$argon2id$v=19$")
    Rustymail.Sample.reading

/-- Four credentials, one of them revoked, with labels that have to be escaped. -/
def labelled : World :=
  Rustymail.Sample.fresh.run
    [.createAccount Rustymail.Sample.recipient 100 Rustymail.Sample.reading (fun _ => 1) {},
      credential Rustymail.Sample.token "\"a\\é" .readOnly,
      credential Rustymail.Sample.messageId (String.ofList (List.replicate 64 '"')) .mail,
      credential Rustymail.Sample.blobId "C:\\mail" .mail,
      credential Rustymail.Sample.operationId "plain" .mail,
      .revokeCredential Rustymail.Sample.messageId.text Rustymail.Sample.reading {}]

end Sample

/-- A page of three credentials, in three pieces. -/
theorem credential_page_fits_three :
    ∃ page frame, listCredentials Sample.labelled.store.db Rustymail.Sample.recipient 1 3 = .ok page
      ∧ page.map CredentialSummary.label
        = [List.replicate 64 34, ascii "C:\\mail", ascii "plain"]
      ∧ writeFrame Json.compact [] (succeeded _ (credentialsValue _ page)) .response
        = (frame, .ok ())
      ∧ readFrame .response [.ok (frame.take 9), .ok [], .ok (frame.drop 9)] = .ok frame := by
  have hlabels : (listCredentials Sample.labelled.store.db Rustymail.Sample.recipient 1 3).toOption.map
      (List.map CredentialSummary.label)
        = some [List.replicate 64 34, ascii "C:\\mail", ascii "plain"] := by
    decide +kernel
  obtain ⟨page, hlisted, hpage⟩ := Option.map_eq_some_iff.1 hlabels
  have hok := toOption_eq_some.1 hlisted
  obtain ⟨frame, hwrite, -, hread⟩ := (credential_page_fits Json.compact).1 Sample.labelled
    Rustymail.Sample.recipient 1 3 page [] (Rustymail.Sample.reachable _) hok
  refine ⟨page, frame, hok, hpage, hwrite, ?_⟩
  exact hread [frame.take 9, [], frame.drop 9] [] [] (by simp)

end Server

end Rustymail
