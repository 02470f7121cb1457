import Rustymail.Authority
import Rustymail.Proof.Additions

/-!
# Authority only moves forward

An account's epoch never falls, and whatever takes authority from a credential raises the epoch of
its account in the same transaction. A principal that has been current and no longer is has therefore
been left behind by its account's epoch, for good.
-/

namespace Rustymail

open Checked Loops

/-- The account's epoch is higher in the second database. -/
def Db.Raised (db db' : Db) (id : Nat) : Prop :=
  ∀ account, db.account? id = some account →
    ∃ account', db'.account? id = some account' ∧ account.authEpoch < account'.authEpoch

/-- The two databases are in order of authority. -/
structure Db.Later (db db' : Db) : Prop where
  accounts : ∀ id account, db.account? id = some account → ∃ account',
    db'.account? id = some account' ∧ account.authEpoch ≤ account'.authEpoch
      ∧ (account'.authEpoch = account.authEpoch → account'.status = account.status)
  credentials : ∀ id credential, db.credential? id = some credential → ∃ credential',
    db'.credential? id = some credential' ∧ credential'.accountId = credential.accountId
      ∧ credential'.scope = credential.scope
      ∧ (credential'.revokedAtMs = credential.revokedAtMs
        ∨ db.Raised db' credential.accountId)
  addresses : ∀ key row, db.address? key = some row → ∃ row',
    db'.address? key = some row' ∧ row'.accountId = row.accountId

/-- The account's epoch has passed the principal's. -/
def Db.Passed (db : Db) (principal : Principal) : Prop :=
  ∃ account, db.account? principal.accountId = some account
    ∧ principal.authEpoch < account.authEpoch

theorem current_eq_true {db : Db} {principal : Principal} :
    current db principal = true ↔ ∃ credential account,
      db.credential? principal.credentialId = some credential
        ∧ db.account? principal.accountId = some account ∧ credential.accountId = account.id
        ∧ account.authEpoch = principal.authEpoch ∧ account.status = .active
        ∧ credential.revokedAtMs = none ∧ credential.scope = principal.scope := by
  unfold current
  cases db.credential? principal.credentialId with
  | none => simp
  | some credential =>
      cases db.account? principal.accountId with
      | none => simp
      | some account => simp

theorem Db.account?_id {db : Db} {id : Nat} {account : Account} (h : db.account? id = some account) :
    account.id = id :=
  Keyed.lookup_some_key h

theorem Db.Passed.not_current {db : Db} {principal : Principal} (h : db.Passed principal) :
    current db principal = false := by
  obtain ⟨account, haccount, hless⟩ := h
  rw [← Bool.not_eq_true, current_eq_true]
  rintro ⟨credential, same, -, hsame, -, hepoch, -⟩
  rw [haccount] at hsame
  cases hsame
  omega

namespace Db.Later

variable {db db' db'' : Db}

theorem refl (db : Db) : db.Later db where
  accounts := fun _ account haccount => ⟨account, haccount, Nat.le_refl _, fun _ => rfl⟩
  credentials := fun _ credential hcredential =>
    ⟨credential, hcredential, rfl, rfl, Or.inl rfl⟩
  addresses := fun _ row hrow => ⟨row, hrow, rfl⟩

theorem trans (h : db.Later db') (h' : db'.Later db'') : db.Later db'' where
  accounts := by
    intro id account haccount
    obtain ⟨account', haccount', hle, hstatus⟩ := h.accounts id account haccount
    obtain ⟨account'', haccount'', hle', hstatus'⟩ := h'.accounts id account' haccount'
    refine ⟨account'', haccount'', hle.trans hle', ?_⟩
    intro heq
    exact (hstatus' (by omega)).trans (hstatus (by omega))
  credentials := by
    intro id credential hcredential
    obtain ⟨credential', hcredential', haccount, hscope, hrevoked⟩ :=
      h.credentials id credential hcredential
    obtain ⟨credential'', hcredential'', haccount', hscope', hrevoked'⟩ :=
      h'.credentials id credential' hcredential'
    refine ⟨credential'', hcredential'', haccount'.trans haccount, hscope'.trans hscope, ?_⟩
    -- an epoch raised by either step is raised by both together
    rcases hrevoked with hsame | hraised
    · rcases hrevoked' with hsame' | hraised'
      · exact Or.inl (hsame'.trans hsame)
      · right
        intro account hfound
        obtain ⟨account', hfound', hle, -⟩ := h.accounts _ account hfound
        rw [haccount] at hraised'
        obtain ⟨account'', hfound'', hless⟩ := hraised' account' hfound'
        exact ⟨account'', hfound'', by omega⟩
    · right
      intro account hfound
      obtain ⟨account', hfound', hless⟩ := hraised account hfound
      obtain ⟨account'', hfound'', hle, -⟩ := h'.accounts _ account' hfound'
      exact ⟨account'', hfound'', by omega⟩
  addresses := by
    intro key row hrow
    obtain ⟨row', hrow', howner⟩ := h.addresses key row hrow
    obtain ⟨row'', hrow'', howner'⟩ := h'.addresses key row' hrow'
    exact ⟨row'', hrow'', howner'.trans howner⟩

/-- What was current is current still, or has been passed. -/
theorem current_or_passed (h : db.Later db') {principal : Principal}
    (hcurrent : current db principal = true) :
    current db' principal = true ∨ db'.Passed principal := by
  obtain ⟨credential, account, hcredential, haccount, howner, hepoch, hactive, hvalid, hscope⟩ :=
    current_eq_true.1 hcurrent
  obtain ⟨credential', hcredential', howner', hscope', hrevoked⟩ :=
    h.credentials _ credential hcredential
  obtain ⟨account', haccount', hle, hstatus⟩ := h.accounts _ account haccount
  by_cases hraised : account.authEpoch < account'.authEpoch
  · exact Or.inr ⟨account', haccount', by omega⟩
  · left
    have hsame : account'.authEpoch = account.authEpoch := by omega
    have hkept : credential'.revokedAtMs = credential.revokedAtMs := by
      rcases hrevoked with hkept | hmore
      · exact hkept
      · rw [howner, Db.account?_id haccount] at hmore
        obtain ⟨account'', haccount'', hless⟩ := hmore account haccount
        rw [haccount'] at haccount''
        cases haccount''
        exact absurd hless hraised
    refine current_eq_true.2 ⟨credential', account', hcredential', haccount', ?_, ?_, ?_, ?_, ?_⟩
    · rw [howner', howner, Db.account?_id haccount, Db.account?_id haccount']
    · rw [hsame, hepoch]
    · rw [hstatus hsame, hactive]
    · rw [hkept, hvalid]
    · rw [hscope', hscope]

theorem passed (h : db.Later db') {principal : Principal} (hpassed : db.Passed principal) :
    db'.Passed principal := by
  obtain ⟨account, haccount, hless⟩ := hpassed
  obtain ⟨account', haccount', hle, -⟩ := h.accounts _ account haccount
  exact ⟨account', haccount', by omega⟩

/-- Rows that are rewritten without losing their key are found under it, new rows or not. -/
theorem lookup_rewritten {α κ : Type} [DecidableEq κ] {key : α → κ} {table : List α} {k : κ} {row : α}
    (hrow : Keyed.lookup key table k = some row) {g : α → α} (hkey : ∀ row, key (g row) = key row)
    (more : List α) : Keyed.lookup key (table.map g ++ more) k = some (g row) := by
  refine Keyed.lookup_append_of_some ?_ more
  rw [Keyed.lookup_map hkey, hrow]
  rfl

/-- Every transaction rewrites rows in place and adds rows. -/
theorem of_tables (g : Account → Account) (h : Credential → Credential)
    (i : AddressRow → AddressRow) (accounts : List Account) (credentials : List Credential)
    (addresses : List AddressRow) (haccounts : db'.accounts = db.accounts.map g ++ accounts)
    (hcredentials : db'.credentials = db.credentials.map h ++ credentials)
    (haddresses : db'.addresses = db.addresses.map i ++ addresses)
    (hg : ∀ row, (g row).id = row.id ∧ row.authEpoch ≤ (g row).authEpoch
      ∧ ((g row).authEpoch = row.authEpoch → (g row).status = row.status))
    (hh : ∀ row, (h row).id = row.id ∧ (h row).accountId = row.accountId
      ∧ (h row).scope = row.scope)
    (hrevoked : ∀ row ∈ db.credentials, (h row).revokedAtMs = row.revokedAtMs
      ∨ ∀ account : Account, account.id = row.accountId →
        account.authEpoch < (g account).authEpoch)
    (hi : ∀ row, (i row).address = row.address ∧ (i row).accountId = row.accountId) :
    db.Later db' := by
  have haccount : ∀ id account, db.account? id = some account →
      db'.account? id = some (g account) := by
    intro id account hfound
    unfold Db.account?
    rw [haccounts]
    exact lookup_rewritten hfound (fun row => (hg row).1) accounts
  refine ⟨?_, ?_, ?_⟩
  · intro id account hfound
    exact ⟨g account, haccount id account hfound, (hg account).2⟩
  · intro id credential hfound
    refine ⟨h credential, ?_, (hh credential).2.1, (hh credential).2.2, ?_⟩
    · unfold Db.credential?
      rw [hcredentials]
      exact lookup_rewritten hfound (fun row => (hh row).1) credentials
    · refine (hrevoked credential (Keyed.mem_of_lookup hfound)).imp_right ?_
      intro hraised account hfound'
      exact ⟨g account, haccount _ account hfound', hraised account (Db.account?_id hfound')⟩
  · intro key row hfound
    refine ⟨i row, ?_, (hi row).2⟩
    unfold Db.address?
    rw [haddresses]
    exact lookup_rewritten hfound (fun row => (hi row).1) addresses

/-- Transactions that take no authority away. -/
theorem of_kept (g : Account → Account) (h : Credential → Credential) (i : AddressRow → AddressRow)
    (accounts : List Account) (credentials : List Credential) (addresses : List AddressRow)
    (haccounts : db'.accounts = db.accounts.map g ++ accounts)
    (hcredentials : db'.credentials = db.credentials.map h ++ credentials)
    (haddresses : db'.addresses = db.addresses.map i ++ addresses)
    (hg : ∀ row, (g row).id = row.id ∧ row.authEpoch ≤ (g row).authEpoch
      ∧ ((g row).authEpoch = row.authEpoch → (g row).status = row.status))
    (hh : ∀ row, (h row).id = row.id ∧ (h row).accountId = row.accountId
      ∧ (h row).scope = row.scope ∧ (h row).revokedAtMs = row.revokedAtMs)
    (hi : ∀ row, (i row).address = row.address ∧ (i row).accountId = row.accountId) :
    db.Later db' :=
  of_tables g h i accounts credentials addresses haccounts hcredentials haddresses hg
    (fun row => ⟨(hh row).1, (hh row).2.1, (hh row).2.2.1⟩)
    (fun row _ => Or.inl (hh row).2.2.2) hi

/-- Transactions that only add to the three tables. -/
theorem of_added (accounts : List Account) (credentials : List Credential)
    (addresses : List AddressRow) (haccounts : db'.accounts = db.accounts ++ accounts)
    (hcredentials : db'.credentials = db.credentials ++ credentials)
    (haddresses : db'.addresses = db.addresses ++ addresses) : db.Later db' := by
  refine of_kept id id id accounts credentials addresses ?_ ?_ ?_ ?_ ?_ ?_
  · rw [haccounts, List.map_id]
  · rw [hcredentials, List.map_id]
  · rw [haddresses, List.map_id]
  · exact fun row => ⟨rfl, Nat.le_refl _, fun _ => rfl⟩
  · exact fun row => ⟨rfl, rfl, rfl, rfl⟩
  · exact fun row => ⟨rfl, rfl⟩

/-- Databases that agree in the three tables. -/
theorem of_same (haccounts : db'.accounts = db.accounts)
    (hcredentials : db'.credentials = db.credentials) (haddresses : db'.addresses = db.addresses) :
    db.Later db' :=
  of_added [] [] [] (by rw [haccounts, List.append_nil]) (by rw [hcredentials, List.append_nil])
    (by rw [haddresses, List.append_nil])

end Db.Later

/-! ### Every commit -/

/-- An account rewritten without touching its authority. -/
theorem Account.kept_iff {f : Account → Account} (p : Account → Prop) [DecidablePred p]
    (hid : ∀ row, (f row).id = row.id) (hepoch : ∀ row, (f row).authEpoch = row.authEpoch)
    (hstatus : ∀ row, (f row).status = row.status) (row : Account) :
    (if p row then f row else row).id = row.id
      ∧ row.authEpoch ≤ (if p row then f row else row).authEpoch
      ∧ ((if p row then f row else row).authEpoch = row.authEpoch →
        (if p row then f row else row).status = row.status) := by
  split_ifs
  · exact ⟨hid row, (hepoch row).ge, fun _ => hstatus row⟩
  · exact ⟨rfl, Nat.le_refl _, fun _ => rfl⟩

/-- An account whose epoch is raised. -/
theorem Account.raised_iff {f : Account → Account} (id : Nat) (hid : ∀ row, (f row).id = row.id)
    (hepoch : ∀ row, (f row).authEpoch = row.authEpoch + 1) (row : Account) :
    (if row.id = id then f row else row).id = row.id
      ∧ row.authEpoch ≤ (if row.id = id then f row else row).authEpoch
      ∧ ((if row.id = id then f row else row).authEpoch = row.authEpoch →
        (if row.id = id then f row else row).status = row.status) := by
  split_ifs
  · refine ⟨hid row, ?_, ?_⟩
    · rw [hepoch]
      omega
    · intro heq
      rw [hepoch] at heq
      omega
  · exact ⟨rfl, Nat.le_refl _, fun _ => rfl⟩

variable {db db' : Db} {w : World} {op : Op}

theorem delivered_later (account : Account) (mailbox : Mailbox) (delivery : Uuid)
    (recipient message : Text) (size : Nat) (now : Int) :
    db.Later (db.delivered account mailbox delivery recipient message size now) := by
  refine Db.Later.of_kept _ id id [] [] [] (List.append_nil _).symm ?_ ?_
    (Account.kept_iff (fun row => row.id = account.id) (fun _ => rfl) (fun _ => rfl) fun _ => rfl)
    (fun _ => ⟨rfl, rfl, rfl, rfl⟩) (fun _ => ⟨rfl, rfl⟩)
  · rw [List.map_id, List.append_nil]
    rfl
  · rw [List.map_id, List.append_nil]
    rfl

theorem writeAcceptance_later {i : Intake} {now : Int}
    (h : writeAcceptance i.ids i.message i.plan i.identity i.relay now db = .ok db') :
    db.Later db' := by
  obtain ⟨-, delivered, hlocal, hrelay⟩ := writeAcceptance_eq_ok h
  have hstored : db.Later (db.withMessage (i.message.blobRow now)
      (acceptedRow i.ids i.message i.plan i.identity now)) := .of_same rfl rfl rfl
  have hdelivered : db.Later delivered := by
    refine hstored.trans ((sweep_foldlM hlocal).relates Db.Later .refl (fun _ _ _ => .trans) ?_)
    intro s recipient t _ hround
    obtain ⟨account, mailbox, -, rfl⟩ := deliver_eq_ok hround
    exact delivered_later account mailbox _ _ _ _ _
  rcases hrelay with ⟨-, rfl⟩ | ⟨r, -, hrelay⟩
  · exact hdelivered
  · obtain ⟨expires, -, rfl⟩ := insertRelay_all hrelay
    exact hdelivered.trans (.of_same rfl rfl rfl)

theorem writeReport_later {prepared : PreparedNotification} {delivery : Uuid} {now : Int}
    (h : writeReport delivery prepared now db = .ok db') : db.Later db' := by
  obtain ⟨-, placed, noted, hplaced, hnoted, rfl⟩ := writeReport_eq_ok h
  obtain ⟨-, rfl⟩ := Db.insertNotification_eq_ok.1 hnoted
  have hstored : db.Later (db.withMessage (prepared.message.blobRow now) (reportRow prepared now)) :=
    .of_same rfl rfl rfl
  have hplaced : db.Later placed := by
    rcases placeReport_eq_ok hplaced with ⟨account, mailbox, rfl⟩ | ⟨expires, rfl⟩
    · exact hstored.trans (delivered_later account mailbox _ _ _ _ _)
    · exact hstored.trans (.of_same rfl rfl rfl)
  exact hplaced.trans (.of_same rfl rfl rfl)

theorem Brings.later (h : Brings w op db db') : db.Later db' := by
  cases h with
  | acceptance hop hvalid hauth hnew htx => exact writeAcceptance_later htx
  | enqueued hop hvalid hnew htx =>
      obtain ⟨-, hrelay⟩ := writeEnqueue_eq_ok htx
      obtain ⟨expires, -, rfl⟩ := insertRelay_all hrelay
      exact .of_same rfl rfl rfl
  | report hop hnew heligible htx => exact writeReport_later htx

theorem insertAddress_later {row : AddressRow} (h : db.insertAddress row = .ok db') :
    db.Later db' := by
  obtain ⟨-, rfl⟩ := Db.insertAddress_eq_ok.1 h
  exact .of_added [] [] [row] (List.append_nil _).symm (List.append_nil _).symm rfl

theorem createAccountTx_later {address : Address} {quotaBytes : Nat} {now : Int}
    {uidvalidity : Text → Nat}
    (h : createAccountTx address quotaBytes now uidvalidity db = .ok (db', ())) : db.Later db' := by
  unfold createAccountTx at h
  simp only [bind_eq_ok, pure_eq_ok, Prod.mk.injEq, and_true] at h
  obtain ⟨db₁, haccount, db₂, haddress, db₃, hloop, rfl⟩ := h
  have hfirst : db.Later db₁ := by
    obtain ⟨-, rfl⟩ := Db.insertAccount_eq_ok.1 haccount
    exact .of_added _ [] [] rfl (List.append_nil _).symm (List.append_nil _).symm
  refine (hfirst.trans (insertAddress_later haddress)).trans ?_
  refine (sweep_foldlM hloop).relates Db.Later .refl (fun _ _ _ => .trans) ?_
  intro s name t _ hround
  obtain ⟨-, rfl⟩ := Db.insertMailbox_eq_ok.1 hround
  exact .of_same rfl rfl rfl

theorem setAccountQuota_later (login : Text) (bytes : Nat) :
    db.Later (db.updateAccountByLogin login fun row => { row with quotaBytes := bytes }) := by
  refine Db.Later.of_kept _ id id [] [] [] (List.append_nil _).symm ?_ ?_
    (Account.kept_iff (fun row => row.login = login) (fun _ => rfl) (fun _ => rfl) fun _ => rfl)
    (fun _ => ⟨rfl, rfl, rfl, rfl⟩) (fun _ => ⟨rfl, rfl⟩)
  · rw [List.map_id, List.append_nil]
    rfl
  · rw [List.map_id, List.append_nil]
    rfl

theorem finishAuthenticationTx_later {principal : Principal} {now : Int}
    (h : finishAuthenticationTx principal now db = .ok (db', ())) : db.Later db' := by
  unfold finishAuthenticationTx at h
  simp only [bind_eq_ok, require_eq_ok, pure_eq_ok, Prod.mk.injEq, and_true] at h
  obtain ⟨-, -, rfl⟩ := h
  refine Db.Later.of_kept id _ id [] [] [] ?_ (List.append_nil _).symm ?_
    (fun _ => ⟨rfl, Nat.le_refl _, fun _ => rfl⟩) ?_ (fun _ => ⟨rfl, rfl⟩)
  · rw [List.map_id, List.append_nil]
    rfl
  · rw [List.map_id, List.append_nil]
    rfl
  · intro row
    split_ifs
    · exact ⟨rfl, rfl, rfl, rfl⟩
    · exact ⟨rfl, rfl, rfl, rfl⟩

theorem revokeCredentialTx_later {selector : Text} {now : Int} {account : Nat}
    (hunique : Keyed.Unique Credential.selector db.credentials)
    (h : revokeCredentialTx selector now db = .ok (db', account)) : db.Later db' := by
  unfold revokeCredentialTx at h
  simp only [bind_eq_ok, found_eq_ok, pure_eq_ok, Prod.mk.injEq] at h
  obtain ⟨credential, hcredential, rfl, rfl⟩ := h
  refine Db.Later.of_tables _ _ id [] [] [] (List.append_nil _).symm (List.append_nil _).symm ?_
    (Account.raised_iff credential.accountId (fun _ => rfl) fun _ => rfl) ?_ ?_
    (fun _ => ⟨rfl, rfl⟩)
  · rw [List.map_id, List.append_nil]
    rfl
  · intro row
    split_ifs
    · exact ⟨rfl, rfl, rfl⟩
    · exact ⟨rfl, rfl, rfl⟩
  · -- the selector names one credential, and its account is the one that is raised
    intro row hrow
    by_cases hselector : row.selector = selector
    · right
      intro account haccount
      have hsame := (Keyed.lookup_eq_some_iff hunique).2 ⟨hrow, hselector⟩
      rw [Db.credentialBySelector?, hsame, Option.some.injEq] at hcredential
      rw [if_pos (by rw [haccount, hcredential])]
      exact Nat.lt_succ_self _
    · left
      rw [if_neg hselector]

theorem disableAccountTx_later {login : Address} {now : Int} {account : Nat}
    (h : disableAccountTx login now db = .ok (db', account)) : db.Later db' := by
  unfold disableAccountTx at h
  simp only [bind_eq_ok, found_eq_ok, pure_eq_ok, Prod.mk.injEq] at h
  obtain ⟨owner, howner, rfl, rfl⟩ := h
  refine Db.Later.of_tables _ _ id [] [] [] (List.append_nil _).symm (List.append_nil _).symm ?_
    (Account.raised_iff owner.id (fun _ => rfl) fun _ => rfl) ?_ ?_ (fun _ => ⟨rfl, rfl⟩)
  · rw [List.map_id, List.append_nil]
    rfl
  · intro row
    split_ifs
    · exact ⟨rfl, rfl, rfl⟩
    · exact ⟨rfl, rfl, rfl⟩
  · intro row hrow
    by_cases hof : row.accountId = owner.id
    · right
      intro account haccount
      rw [if_pos (haccount.trans hof)]
      exact Nat.lt_succ_self _
    · left
      rw [if_neg hof]

theorem bumpEpoch_later (account : Nat) :
    db.Later (db.updateAccount account Account.bumpEpoch) := by
  refine Db.Later.of_kept _ id id [] [] [] (List.append_nil _).symm ?_ ?_
    (Account.raised_iff account (fun _ => rfl) fun _ => rfl) (fun _ => ⟨rfl, rfl, rfl, rfl⟩)
    (fun _ => ⟨rfl, rfl⟩)
  · rw [List.map_id, List.append_nil]
    rfl
  · rw [List.map_id, List.append_nil]
    rfl

/-- What `set_send_as` does to the addresses, and for whom. -/
theorem setSendAsTx_eq_ok {login address : Address} {enabled : Bool} {account : Nat}
    (h : setSendAsTx login address enabled db = .ok (db', account)) :
    ∃ owner written, db.accountByLogin? login.localKey = some owner
      ∧ (∀ row, db.address? address.localKey = some row → row.accountId = owner.id)
      ∧ upsertSendAs db address.localKey owner.id enabled = .ok written
      ∧ db' = written.updateAccount owner.id Account.bumpEpoch := by
  unfold setSendAsTx at h
  simp only [bind_eq_ok, found_eq_ok, require_eq_ok, pure_eq_ok, Prod.mk.injEq] at h
  obtain ⟨owner, howner, -, -, -, hown, written, hwritten, rfl, rfl⟩ := h
  exact ⟨owner, written, howner, hown, hwritten, rfl⟩

theorem upsertSendAs_later {key : Text} {account : Nat} {enabled : Bool}
    (h : upsertSendAs db key account enabled = .ok db') : db.Later db' := by
  unfold upsertSendAs at h
  split at h
  · cases h
    refine Db.Later.of_kept id id _ [] [] [] ?_ ?_ (List.append_nil _).symm
      (fun _ => ⟨rfl, Nat.le_refl _, fun _ => rfl⟩) (fun _ => ⟨rfl, rfl, rfl, rfl⟩) ?_
    · rw [List.map_id, List.append_nil]
      rfl
    · rw [List.map_id, List.append_nil]
      rfl
    · intro row
      split_ifs
      · exact ⟨rfl, rfl⟩
      · exact ⟨rfl, rfl⟩
  · exact insertAddress_later h

/-- The transactions on accounts, credentials and addresses. -/
inductive Identifies (op : Op) (db : Db) : Db → Prop
  | created {address : Address} {quotaBytes : Nat} {now : Int} {uidvalidity : Text → Nat} {db' : Db}
      (htx : createAccountTx address quotaBytes now uidvalidity db = .ok (db', ())) :
      Identifies op db db'
  | resized (login : Text) (bytes : Nat) :
      Identifies op db (db.updateAccountByLogin login fun row => { row with quotaBytes := bytes })
  | authenticated {principal : Principal} {now : Int} {db' : Db}
      (htx : finishAuthenticationTx principal now db = .ok (db', ())) : Identifies op db db'
  | issued {row : Credential} {db' : Db} (htx : db.insertCredential row = .ok db') :
      Identifies op db db'
  | revoked {selector : Text} {now : Int} {account : Nat} {db' : Db}
      (hop : op.changesAuthority = true)
      (htx : revokeCredentialTx selector now db = .ok (db', account)) : Identifies op db db'
  | disabled {login : Address} {now : Int} {account : Nat} {db' : Db}
      (hop : op.changesAuthority = true)
      (htx : disableAccountTx login now db = .ok (db', account)) : Identifies op db db'
  | sendAs {login address : Address} {enabled : Bool} {faults : Faults} {account : Nat} {db' : Db}
      (hop : op = .setSendAs login address enabled faults)
      (htx : setSendAsTx login address enabled db = .ok (db', account)) : Identifies op db db'
  | aliased {key : Text} {account : Nat} {row : AddressRow} {db' : Db}
      (hop : op = .insertAlias key account) (htx : db.insertAddress row = .ok db') :
      Identifies op db db'

/-- A commit moves deliveries along, concerns identities, or brings a message in. -/
theorem Commits.cases_identity (h : Commits w op db db') :
    SameContent db db' ∨ Identifies op db db' ∨ Brings w op db db' := by
  cases h with
  | createAccount _ htx => exact Or.inr (Or.inl (.created htx))
  | setAccountQuota _ _ _ => exact Or.inr (Or.inl (.resized _ _))
  | finishAuthentication htx => exact Or.inr (Or.inl (.authenticated htx))
  | createCredential htx => exact Or.inr (Or.inl (.issued htx))
  | revokeCredential htx => exact Or.inr (Or.inl (.revoked rfl htx))
  | disableAccount htx => exact Or.inr (Or.inl (.disabled rfl htx))
  | setSendAs htx => exact Or.inr (Or.inl (.sendAs rfl htx))
  | insertAlias htx => exact Or.inr (Or.inl (.aliased rfl htx))
  | acceptance hop hvalid hauth hnew htx =>
      exact Or.inr (Or.inr (.acceptance hop hvalid hauth hnew htx))
  | enqueue hvalid hnew htx => exact Or.inr (Or.inr (.enqueued ⟨_, _, rfl⟩ hvalid hnew htx))
  | report hnew heligible htx => exact Or.inr (Or.inr (.report ⟨_, _, rfl⟩ hnew heligible htx))
  | expire _ htx => exact Or.inl (expireTx_content htx)
  | recover _ htx => exact Or.inl (recoverTx_content htx)
  | claim htx => exact Or.inl (claimTx_content htx)
  | renew _ htx => exact Or.inl (renewTx_content htx)
  | markBody _ htx => exact Or.inl (markBodyTx_content htx)
  | finish _ htx => exact Or.inl (finishTx_content htx)
  | hold htx => exact Or.inl (holdTx_content htx)
  | retry htx => exact Or.inl (retryTx_content htx)
  | closeUnknown htx => exact Or.inl (closeUnknownTx_content htx)
  | suppress => exact Or.inl (.updateDelivery _ (suppress_identity · _))
  | postpone => exact Or.inl (.updateDelivery _ (postponeReport_identity · _ _))

/-- The selectors of credentials are distinct. -/
def Db.Selectors (db : Db) : Prop := Keyed.Unique Credential.selector db.credentials

theorem Identifies.later (h : Identifies op db db') (hselectors : db.Selectors) : db.Later db' := by
  cases h with
  | created htx => exact createAccountTx_later htx
  | resized login bytes => exact setAccountQuota_later login bytes
  | authenticated htx => exact finishAuthenticationTx_later htx
  | issued htx =>
      obtain ⟨-, rfl⟩ := Db.insertCredential_eq_ok.1 htx
      exact .of_added [] _ [] (List.append_nil _).symm rfl (List.append_nil _).symm
  | revoked hop htx => exact revokeCredentialTx_later hselectors htx
  | disabled hop htx => exact disableAccountTx_later htx
  | sendAs hop htx =>
      obtain ⟨owner, written, -, -, hwritten, rfl⟩ := setSendAsTx_eq_ok htx
      exact (upsertSendAs_later hwritten).trans (bumpEpoch_later owner.id)
  | aliased hop htx => exact insertAddress_later htx

theorem Commits.later (h : Commits w op db db') (hselectors : db.Selectors) : db.Later db' := by
  rcases h.cases_identity with hcontent | hidentity | hbrings
  · exact .of_same hcontent.accounts hcontent.credentials hcontent.addresses
  · exact hidentity.later hselectors
  · exact hbrings.later

/-! ### Credentials and addresses -/

/-- Bringing a message in concerns no credential and no address. -/
theorem Brings.same (h : Brings w op db db') :
    db'.credentials = db.credentials ∧ db'.addresses = db.addresses := by
  cases h with
  | acceptance hop hvalid hauth hnew htx =>
      obtain ⟨-, delivered, hlocal, hrelay⟩ := writeAcceptance_eq_ok htx
      obtain ⟨hsame, -, -⟩ := deliver_all hlocal
      rcases hrelay with ⟨-, rfl⟩ | ⟨r, -, hrelay⟩
      · exact ⟨hsame.credentials, hsame.addresses⟩
      · obtain ⟨expires, -, rfl⟩ := insertRelay_all hrelay
        exact ⟨hsame.credentials, hsame.addresses⟩
  | enqueued hop hvalid hnew htx =>
      obtain ⟨-, hrelay⟩ := writeEnqueue_eq_ok htx
      obtain ⟨expires, -, rfl⟩ := insertRelay_all hrelay
      exact ⟨rfl, rfl⟩
  | report hop hnew heligible htx =>
      obtain ⟨-, placed, noted, hplaced, hnoted, rfl⟩ := writeReport_eq_ok htx
      obtain ⟨-, rfl⟩ := Db.insertNotification_eq_ok.1 hnoted
      rcases placeReport_eq_ok hplaced with ⟨account, mailbox, rfl⟩ | ⟨expires, rfl⟩
      · exact ⟨rfl, rfl⟩
      · exact ⟨rfl, rfl⟩

/-- A new account has one address, from which it may not send yet. -/
theorem createAccountTx_eq_ok {address : Address} {quotaBytes : Nat} {now : Int}
    {uidvalidity : Text → Nat}
    (h : createAccountTx address quotaBytes now uidvalidity db = .ok (db', ())) :
    db'.credentials = db.credentials ∧ ∃ row : AddressRow, row.sendEnabled = false
      ∧ db'.addresses = db.addresses ++ [row] := by
  unfold createAccountTx at h
  simp only [bind_eq_ok, pure_eq_ok, Prod.mk.injEq, and_true] at h
  obtain ⟨db₁, haccount, db₂, haddress, db₃, hloop, rfl⟩ := h
  obtain ⟨-, rfl⟩ := Db.insertAccount_eq_ok.1 haccount
  obtain ⟨-, rfl⟩ := Db.insertAddress_eq_ok.1 haddress
  let row : AddressRow :=
    ⟨address.localKey, nextRowId (db.accounts.map Account.id), true, false⟩
  have hsame : db₃.credentials = db.credentials ∧ db₃.addresses = db.addresses ++ [row] := by
    refine (sweep_foldlM hloop).keeps (fun s => s.credentials = db.credentials
      ∧ s.addresses = db.addresses ++ [row]) ?_ ⟨rfl, rfl⟩
    intro s name t _ hround hs
    obtain ⟨-, rfl⟩ := Db.insertMailbox_eq_ok.1 hround
    exact hs
  exact ⟨hsame.1, row, rfl, hsame.2⟩

theorem upsertSendAs_credentials {key : Text} {account : Nat} {enabled : Bool}
    (h : upsertSendAs db key account enabled = .ok db') : db'.credentials = db.credentials := by
  unfold upsertSendAs at h
  split at h
  · cases h
    rfl
  · obtain ⟨-, rfl⟩ := Db.insertAddress_eq_ok.1 h
    rfl

theorem Identifies.selectors (h : Identifies op db db') (hselectors : db.Selectors) :
    db'.Selectors := by
  unfold Db.Selectors at hselectors ⊢
  cases h with
  | created htx =>
      rw [(createAccountTx_eq_ok htx).1]
      exact hselectors
  | resized login bytes => exact hselectors
  | authenticated htx =>
      unfold finishAuthenticationTx at htx
      simp only [bind_eq_ok, require_eq_ok, pure_eq_ok, Prod.mk.injEq, and_true] at htx
      obtain ⟨-, -, rfl⟩ := htx
      exact Keyed.unique_modify (fun _ => rfl) hselectors
  | issued htx =>
      obtain ⟨⟨-, hfresh, -⟩, rfl⟩ := Db.insertCredential_eq_ok.1 htx
      exact Keyed.unique_append_singleton hselectors hfresh
  | revoked hop htx =>
      unfold revokeCredentialTx at htx
      simp only [bind_eq_ok, found_eq_ok, pure_eq_ok, Prod.mk.injEq] at htx
      obtain ⟨credential, hcredential, rfl, rfl⟩ := htx
      exact Keyed.unique_modify (fun _ => rfl) hselectors
  | disabled hop htx =>
      unfold disableAccountTx at htx
      simp only [bind_eq_ok, found_eq_ok, pure_eq_ok, Prod.mk.injEq] at htx
      obtain ⟨owner, howner, rfl, rfl⟩ := htx
      exact Keyed.unique_modify (fun _ => rfl) hselectors
  | sendAs hop htx =>
      obtain ⟨owner, written, -, -, hwritten, rfl⟩ := setSendAsTx_eq_ok htx
      change Keyed.Unique Credential.selector written.credentials
      rw [upsertSendAs_credentials hwritten]
      exact hselectors
  | aliased hop htx =>
      obtain ⟨-, rfl⟩ := Db.insertAddress_eq_ok.1 htx
      exact hselectors

theorem Commits.selectors (h : Commits w op db db') (hselectors : db.Selectors) :
    db'.Selectors := by
  rcases h.cases_identity with hcontent | hidentity | hbrings
  · unfold Db.Selectors
    rw [hcontent.credentials]
    exact hselectors
  · exact hidentity.selectors hselectors
  · unfold Db.Selectors
    rw [hbrings.same.1]
    exact hselectors

theorem World.Reachable.selectors (h : w.Reachable) : w.store.db.Selectors :=
  h.of_commits Db.Selectors List.nodup_nil fun _ _ _ _ => Commits.selectors

theorem World.next_later (h : w.Reachable) (op : Op) : w.store.db.Later (w.next op).store.db := by
  have hall : CommitsAll w op w.store.db (w.next op).store.db := w.next_commits op
  have hselectors := h.selectors
  revert hall
  generalize (w.next op).store.db = db'
  intro hall
  suffices hboth : w.store.db.Later db' ∧ db'.Selectors from hboth.1
  induction hall with
  | refl => exact ⟨.refl _, hselectors⟩
  | tail _ hlast ih => exact ⟨ih.1.trans (hlast.later ih.2), hlast.selectors ih.2⟩

theorem World.run_later (h : w.Reachable) (ops : List Op) :
    w.store.db.Later (w.run ops).store.db := by
  induction ops generalizing w with
  | nil => exact .refl _
  | cons op rest ih => exact (World.next_later h op).trans (ih (h.next op))

/-- An address added to the others is found besides them. -/
theorem address?_append {key : Text} {row row' : AddressRow}
    (h : Keyed.lookup AddressRow.address (db.addresses ++ [row]) key = some row') :
    db.address? key = some row' ∨ (row' = row ∧ row.address = key) := by
  rw [Keyed.lookup_append] at h
  cases hold : Keyed.lookup AddressRow.address db.addresses key with
  | some old =>
      rw [hold] at h
      exact Or.inl (hold.trans h)
  | none =>
      rw [hold, Option.none_or] at h
      obtain rfl := List.mem_singleton.1 (Keyed.mem_of_lookup h)
      exact Or.inr ⟨rfl, Keyed.lookup_some_key h⟩

theorem upsertSendAs_address {key other : Text} {account : Nat} {enabled : Bool} {row' : AddressRow}
    (hown : ∀ row, db.address? key = some row → row.accountId = account)
    (h : upsertSendAs db key account enabled = .ok db') (hrow : db'.address? other = some row') :
    db.address? other = some row'
      ∨ (other = key ∧ row'.accountId = account ∧ row'.sendEnabled = enabled) := by
  unfold upsertSendAs at h
  split at h
  · next row hfound =>
      cases h
      change Keyed.lookup AddressRow.address (Keyed.modify AddressRow.address db.addresses key _) other
        = some row' at hrow
      have hkept : ∀ row : AddressRow, AddressRow.address { row with sendEnabled := enabled }
          = row.address := fun _ => rfl
      rw [Keyed.lookup_modify hkept] at hrow
      split_ifs at hrow with hkey
      · subst hkey
        change (db.address? other).map _ = some row' at hrow
        rw [hfound] at hrow
        cases hrow
        exact Or.inr ⟨rfl, hown row hfound, rfl⟩
      · exact Or.inl hrow
  · obtain ⟨-, rfl⟩ := Db.insertAddress_eq_ok.1 h
    rcases address?_append hrow with hold | ⟨rfl, rfl⟩
    · exact Or.inl hold
    · exact Or.inr ⟨rfl, rfl, rfl⟩

/-- Only its owner makes an address sendable. -/
theorem Identifies.sends (h : Identifies op db db')
    (halias : ∀ key account, op ≠ .insertAlias key account) {key : Text} {row' : AddressRow}
    (hrow : db'.address? key = some row') (hsends : row'.sendEnabled = true) :
    db.address? key = some row' ∨ Enables db op key row'.accountId := by
  cases h with
  | created htx =>
      obtain ⟨-, row, hdisabled, haddresses⟩ := createAccountTx_eq_ok htx
      unfold Db.address? at hrow
      rw [haddresses] at hrow
      rcases address?_append hrow with hold | ⟨rfl, -⟩
      · exact Or.inl hold
      · rw [hdisabled] at hsends
        cases hsends
  | resized login bytes => exact Or.inl hrow
  | authenticated htx =>
      unfold finishAuthenticationTx at htx
      simp only [bind_eq_ok, require_eq_ok, pure_eq_ok, Prod.mk.injEq, and_true] at htx
      obtain ⟨-, -, rfl⟩ := htx
      exact Or.inl hrow
  | issued htx =>
      obtain ⟨-, rfl⟩ := Db.insertCredential_eq_ok.1 htx
      exact Or.inl hrow
  | revoked hop htx =>
      unfold revokeCredentialTx at htx
      simp only [bind_eq_ok, found_eq_ok, pure_eq_ok, Prod.mk.injEq] at htx
      obtain ⟨credential, hcredential, rfl, rfl⟩ := htx
      exact Or.inl hrow
  | disabled hop htx =>
      unfold disableAccountTx at htx
      simp only [bind_eq_ok, found_eq_ok, pure_eq_ok, Prod.mk.injEq] at htx
      obtain ⟨owner, howner, rfl, rfl⟩ := htx
      exact Or.inl hrow
  | @sendAs login address enabled faults account _ hop htx =>
      obtain ⟨owner, written, howner, hown, hwritten, rfl⟩ := setSendAsTx_eq_ok htx
      change written.address? key = some row' at hrow
      rcases upsertSendAs_address hown hwritten hrow with hold | ⟨rfl, haccount, henabled⟩
      · exact Or.inl hold
      · rw [hsends] at henabled
        subst henabled
        exact Or.inr ⟨login, address, faults, owner, hop, rfl, howner, haccount.symm⟩
  | aliased hop htx => exact absurd hop (halias _ _)

end Rustymail
