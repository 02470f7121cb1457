import Rustymail.Proof.Accounting
import Rustymail.Proof.AuthorityLemmas
import Rustymail.Proof.CredentialPage

/-!
# The life of a credential

A credential is created once, keeps what it was created with, and is good until it is withdrawn. What
one operation can do to the accounts and credentials is said once, and everything else follows.
-/

namespace Rustymail

open Checked Loops

/-- What is fixed about a credential from its creation on. -/
structure Grant where
  id : Nat
  accountId : Nat
  login : Text
  selector : Text
  phc : Text
  scope : Scope

/-- The rows behind a grant. -/
structure Db.Backs (db : Db) (grant : Grant) (credential : Credential) (account : Account) : Prop where
  listed : db.credentialBySelector? grant.selector = some credential
  opened : db.account? grant.accountId = some account
  id : credential.id = grant.id
  owner : credential.accountId = grant.accountId
  login : account.login = grant.login
  phc : credential.passwordPhc = grant.phc
  scope : credential.scope = grant.scope

/-- A credential with which its account can log in. -/
def Live (credential : Credential) (account : Account) : Prop :=
  account.status = .active ∧ credential.revokedAtMs = none

def Db.Granted (db : Db) (grant : Grant) : Prop :=
  ∃ credential account, db.Backs grant credential account

def Db.Usable (db : Db) (grant : Grant) : Prop :=
  ∃ credential account, db.Backs grant credential account ∧ Live credential account

/-- The operation withdraws credentials, and this one may be among them. -/
def Op.withdraws (op : Op) (selector login : Text) : Bool :=
  match op with
  | .revokeCredential other _ _ => decide (other = selector)
  | .disableAccount address _ _ => decide (address.localKey = login)
  | _ => false

/-! ### What an operation does to accounts and credentials -/

/-- The rows are rewritten in place and keep what is fixed about them. Nothing becomes usable again,
and a grant that does not end stays as usable as it was. -/
structure Db.Rewrites (ends : Text → Text → Prop) (db db' : Db) (f : Account → Account)
    (g : Credential → Credential) (accounts : List Account) (credentials : List Credential) : Prop
    where
  accounts : db'.accounts = db.accounts.map f ++ accounts
  credentials : db'.credentials = db.credentials.map g ++ credentials
  account : ∀ row, (f row).id = row.id ∧ (f row).login = row.login
    ∧ ((f row).status = .active → row.status = .active)
  credential : ∀ row, (g row).id = row.id ∧ (g row).accountId = row.accountId
    ∧ (g row).selector = row.selector ∧ (g row).passwordPhc = row.passwordPhc
    ∧ (g row).scope = row.scope ∧ ((g row).revokedAtMs = none → row.revokedAtMs = none)
  spared : ∀ grant credential account, db.Backs grant credential account →
    ¬ ends grant.selector grant.login → Live credential account → Live (g credential) (f account)

section Rewrites

variable {ends : Text → Text → Prop} {db db' : Db}

/-- A grant is not lost; it does not become usable again, and stays usable unless it ends. -/
def Db.Carries (ends : Text → Text → Prop) (db db' : Db) : Prop :=
  ∀ grant credential account, db.Backs grant credential account →
    ∃ credential' account', db'.Backs grant credential' account'
      ∧ (Live credential' account' → Live credential account)
      ∧ (¬ ends grant.selector grant.login → Live credential account →
        Live credential' account')

theorem Db.Carries.refl (db : Db) : db.Carries ends db :=
  fun _ credential account h => ⟨credential, account, h, id, fun _ => id⟩

theorem Db.Carries.trans {db'' : Db} (h : db.Carries ends db') (h' : db'.Carries ends db'') :
    db.Carries ends db'' := by
  intro grant credential account hbacks
  obtain ⟨credential', account', hbacks', hback, hkept⟩ := h grant credential account hbacks
  obtain ⟨credential'', account'', hbacks'', hback', hkept'⟩ := h' grant _ _ hbacks'
  exact ⟨credential'', account'', hbacks'', fun husable => hback (hback' husable),
    fun hends husable => hkept' hends (hkept hends husable)⟩

theorem Db.Rewrites.carries {f : Account → Account} {g : Credential → Credential}
    {accounts : List Account} {credentials : List Credential}
    (h : db.Rewrites ends db' f g accounts credentials) : db.Carries ends db' := by
  intro grant credential account hbacks
  obtain ⟨-, howner, hselector, hphc, hscope, hrevoked⟩ := h.credential credential
  refine ⟨g credential, f account, ?_, ?_, ?_⟩
  · refine ⟨?_, ?_, (h.credential credential).1.trans hbacks.id, howner.trans hbacks.owner,
      (h.account account).2.1.trans hbacks.login, hphc.trans hbacks.phc,
      hscope.trans hbacks.scope⟩
    · unfold Db.credentialBySelector?
      rw [h.credentials]
      exact Db.Later.lookup_rewritten hbacks.listed (fun row => (h.credential row).2.2.1) _
    · unfold Db.account?
      rw [h.accounts]
      exact Db.Later.lookup_rewritten hbacks.opened (fun row => (h.account row).1) _
  · rintro ⟨hactive, hlive⟩
    exact ⟨(h.account account).2.2 hactive, hrevoked hlive⟩
  · exact h.spared grant credential account hbacks

/-- Databases that agree in both tables, up to new accounts. -/
theorem Db.Rewrites.of_same {accounts : List Account}
    (haccounts : db'.accounts = db.accounts ++ accounts)
    (hcredentials : db'.credentials = db.credentials) :
    db.Rewrites ends db' id id accounts [] where
  accounts := by rw [haccounts, List.map_id]
  credentials := by rw [hcredentials, List.map_id, List.append_nil]
  account _ := ⟨rfl, rfl, id⟩
  credential _ := ⟨rfl, rfl, rfl, rfl, rfl, id⟩
  spared _ _ _ _ _ := id

/-- Transactions on accounts that change neither login nor status. -/
theorem Db.Rewrites.of_accounts {f : Account → Account}
    (haccounts : db'.accounts = db.accounts.map f) (hcredentials : db'.credentials = db.credentials)
    (hf : ∀ row, (f row).id = row.id ∧ (f row).login = row.login ∧ (f row).status = row.status) :
    db.Rewrites ends db' f id [] [] where
  accounts := by rw [haccounts, List.append_nil]
  credentials := by rw [hcredentials, List.map_id, List.append_nil]
  account row := ⟨(hf row).1, (hf row).2.1, fun h => (hf row).2.2 ▸ h⟩
  credential _ := ⟨rfl, rfl, rfl, rfl, rfl, id⟩
  spared _ _ account _ _ husable := ⟨(hf account).2.2.trans husable.1, husable.2⟩

end Rewrites

/-! ### Every commit -/

section Commits

variable {w : World} {op : Op} {db db' : Db}

/-- The accounts are rewritten without touching what a login reads. -/
def Db.KeepsLogins (db db' : Db) : Prop :=
  ∃ f : Account → Account, db'.accounts = db.accounts.map f
    ∧ ∀ row, (f row).id = row.id ∧ (f row).login = row.login ∧ (f row).status = row.status

theorem Db.KeepsLogins.of_eq (h : db'.accounts = db.accounts) : db.KeepsLogins db' :=
  ⟨id, by rw [h, List.map_id], fun _ => ⟨rfl, rfl, rfl⟩⟩

theorem Db.KeepsLogins.trans {db'' : Db} (h : db.KeepsLogins db') (h' : db'.KeepsLogins db'') :
    db.KeepsLogins db'' := by
  obtain ⟨f, haccounts, hf⟩ := h
  obtain ⟨f', haccounts', hf'⟩ := h'
  refine ⟨f' ∘ f, by rw [haccounts', haccounts, List.map_map], fun row => ?_⟩
  obtain ⟨hid, hlogin, hstatus⟩ := hf row
  obtain ⟨hid', hlogin', hstatus'⟩ := hf' (f row)
  exact ⟨hid'.trans hid, hlogin'.trans hlogin, hstatus'.trans hstatus⟩

theorem Db.KeepsLogins.of_modify {κ : Type} [DecidableEq κ] {key : Account → κ} {k : κ}
    {f : Account → Account} (h : db'.accounts = Keyed.modify key db.accounts k f)
    (hf : ∀ row, (f row).id = row.id ∧ (f row).login = row.login ∧ (f row).status = row.status) :
    db.KeepsLogins db' := by
  refine ⟨_, h, fun row => ?_⟩
  split_ifs
  · exact hf row
  · exact ⟨rfl, rfl, rfl⟩

theorem delivered_logins (account : Account) (mailbox : Mailbox) (delivery : Uuid)
    (recipient message : Text) (size : Nat) (now : Int) :
    db.KeepsLogins (db.delivered account mailbox delivery recipient message size now) :=
  .of_modify rfl fun _ => ⟨rfl, rfl, rfl⟩

theorem Brings.logins (h : Brings w op db db') : db.KeepsLogins db' := by
  cases h with
  | @acceptance i now hop hvalid hauth hnew htx =>
      obtain ⟨-, delivered, hlocal, hrelay⟩ := writeAcceptance_eq_ok htx
      have hdelivered : (db.withMessage (i.message.blobRow now)
          (acceptedRow i.ids i.message i.plan i.identity now)).KeepsLogins delivered := by
        refine (sweep_foldlM hlocal).relates Db.KeepsLogins (fun _ => .of_eq rfl)
          (fun _ _ _ => .trans) ?_
        intro s recipient t _ hround
        obtain ⟨account, mailbox, -, rfl⟩ := deliver_eq_ok hround
        exact delivered_logins account mailbox _ _ _ _ _
      rcases hrelay with ⟨-, rfl⟩ | ⟨r, -, hrelay⟩
      · exact hdelivered
      · obtain ⟨expires, -, rfl⟩ := insertRelay_all hrelay
        exact hdelivered
  | enqueued hop hvalid hnew htx =>
      obtain ⟨-, hrelay⟩ := writeEnqueue_eq_ok htx
      obtain ⟨expires, -, rfl⟩ := insertRelay_all hrelay
      exact .of_eq rfl
  | @report prepared delivery now hop hnew heligible htx =>
      obtain ⟨-, placed, noted, hplaced, hnoted, rfl⟩ := writeReport_eq_ok htx
      obtain ⟨-, rfl⟩ := Db.insertNotification_eq_ok.1 hnoted
      have hstored : db.KeepsLogins
          (db.withMessage (prepared.message.blobRow now) (reportRow prepared now)) := .of_eq rfl
      have hkept : db.KeepsLogins placed := by
        rcases placeReport_eq_ok hplaced with ⟨account, mailbox, rfl⟩ | ⟨expires, rfl⟩
        · exact hstored.trans (delivered_logins account mailbox _ _ _ _ _)
        · exact hstored.trans (.of_eq rfl)
      exact hkept.trans (.of_eq rfl)

/-- What a commit leaves of the two tables. -/
def Db.Rewritten (op : Op) (db db' : Db) : Prop :=
  ∃ f g accounts credentials,
    db.Rewrites (fun selector login => op.withdraws selector login = true) db' f g accounts credentials
      ∧ credentials.length ≤ 1
      ∧ ∀ row ∈ credentials, op.issues = true ∧ (db.account? row.accountId).isSome
        ∧ db.credential? row.id = none

theorem Db.KeepsLogins.rewritten (h : db.KeepsLogins db')
    (hcredentials : db'.credentials = db.credentials) : db.Rewritten op db' := by
  obtain ⟨f, haccounts, hf⟩ := h
  exact ⟨f, id, [], [], .of_accounts haccounts hcredentials hf, Nat.zero_le 1, List.forall_mem_nil _⟩

theorem Db.Rewritten.of_same (haccounts : db'.accounts = db.accounts)
    (hcredentials : db'.credentials = db.credentials) : db.Rewritten op db' :=
  (Db.KeepsLogins.of_eq haccounts).rewritten hcredentials

theorem createAccountTx_rewritten {address : Address} {quotaBytes : Nat} {now : Int}
    {uidvalidity : Text → Nat}
    (h : createAccountTx address quotaBytes now uidvalidity db = .ok (db', ())) :
    db.Rewritten op db' := by
  have hcredentials := (createAccountTx_eq_ok h).1
  unfold createAccountTx at h
  simp only [bind_eq_ok, pure_eq_ok, Prod.mk.injEq, and_true] at h
  obtain ⟨db₁, haccount, db₂, haddress, db₃, hloop, rfl⟩ := h
  obtain ⟨-, rfl⟩ := Db.insertAccount_eq_ok.1 haccount
  obtain ⟨-, rfl⟩ := Db.insertAddress_eq_ok.1 haddress
  have haccounts : ∃ rows, db₃.accounts = db.accounts ++ rows := by
    refine (sweep_foldlM hloop).keeps (fun s => ∃ rows, s.accounts = db.accounts ++ rows) ?_
      ⟨_, rfl⟩
    intro s name t _ hround hs
    obtain ⟨-, rfl⟩ := Db.insertMailbox_eq_ok.1 hround
    exact hs
  obtain ⟨rows, haccounts⟩ := haccounts
  exact ⟨id, id, rows, [], .of_same haccounts hcredentials, Nat.zero_le 1, List.forall_mem_nil _⟩

theorem finishAuthenticationTx_rewritten {principal : Principal} {now : Int}
    (h : finishAuthenticationTx principal now db = .ok (db', ())) : db.Rewritten op db' := by
  unfold finishAuthenticationTx at h
  simp only [bind_eq_ok, require_eq_ok, pure_eq_ok, Prod.mk.injEq, and_true] at h
  obtain ⟨-, -, rfl⟩ := h
  refine ⟨id, _, [], [], ⟨?_, (List.append_nil _).symm, fun _ => ⟨rfl, rfl, id⟩, ?_, ?_⟩, Nat.zero_le 1, List.forall_mem_nil _⟩
  · rw [List.map_id, List.append_nil]
    rfl
  · intro row
    dsimp only
    split_ifs
    · exact ⟨rfl, rfl, rfl, rfl, rfl, id⟩
    · exact ⟨rfl, rfl, rfl, rfl, rfl, id⟩
  · intro grant credential account _ _ hlive
    dsimp only
    split_ifs
    · exact hlive
    · exact hlive

theorem Credential.revoke_fixed (now : Int) (row : Credential) :
    (row.revoke now).id = row.id ∧ (row.revoke now).accountId = row.accountId
      ∧ (row.revoke now).selector = row.selector ∧ (row.revoke now).passwordPhc = row.passwordPhc
      ∧ (row.revoke now).scope = row.scope
      ∧ ((row.revoke now).revokedAtMs = none → row.revokedAtMs = none) := by
  refine ⟨rfl, rfl, rfl, rfl, rfl, fun h => ?_⟩
  exact (Option.or_eq_none_iff.1 h).1

theorem revokeCredentialTx_rewritten {selector : Text} {now : Int} {account : Nat} {reading : Reading}
    {faults : Faults} (h : revokeCredentialTx selector now db = .ok (db', account)) :
    db.Rewritten (.revokeCredential selector reading faults) db' := by
  unfold revokeCredentialTx at h
  simp only [bind_eq_ok, found_eq_ok, pure_eq_ok, Prod.mk.injEq] at h
  obtain ⟨credential, hcredential, rfl, rfl⟩ := h
  refine ⟨_, _, [], [], ⟨(List.append_nil _).symm, (List.append_nil _).symm, ?_, ?_, ?_⟩, Nat.zero_le 1, List.forall_mem_nil _⟩
  · intro row
    split_ifs
    · exact ⟨rfl, rfl, id⟩
    · exact ⟨rfl, rfl, id⟩
  · intro row
    split_ifs
    · exact row.revoke_fixed now
    · exact ⟨rfl, rfl, rfl, rfl, rfl, id⟩
  · intro grant row account hbacks hends hlive
    have hother : row.selector ≠ selector := by
      intro heq
      have hselector : row.selector = grant.selector := Keyed.lookup_some_key hbacks.listed
      exact hends (decide_eq_true (heq.symm.trans hselector))
    rw [if_neg hother]
    split_ifs
    · exact hlive
    · exact hlive

theorem disableAccountTx_rewritten {login : Address} {now : Int} {account : Nat} {reading : Reading}
    {faults : Faults} (hids : Keyed.Unique Account.id db.accounts)
    (h : disableAccountTx login now db = .ok (db', account)) :
    db.Rewritten (.disableAccount login reading faults) db' := by
  unfold disableAccountTx at h
  simp only [bind_eq_ok, found_eq_ok, pure_eq_ok, Prod.mk.injEq] at h
  obtain ⟨owner, howner, rfl, rfl⟩ := h
  refine ⟨_, _, [], [], ⟨(List.append_nil _).symm, (List.append_nil _).symm, ?_, ?_, ?_⟩, Nat.zero_le 1, List.forall_mem_nil _⟩
  · intro row
    split_ifs
    · exact ⟨rfl, rfl, fun hactive => by cases hactive⟩
    · exact ⟨rfl, rfl, id⟩
  · intro row
    split_ifs
    · exact row.revoke_fixed now
    · exact ⟨rfl, rfl, rfl, rfl, rfl, id⟩
  · -- the account of another login is another account
    intro grant row account hbacks hends hlive
    have hother : account.id ≠ owner.id := by
      intro heq
      have hsame : account = owner := List.inj_on_of_nodup_map hids
        (Keyed.mem_of_lookup hbacks.opened) (Keyed.mem_of_lookup howner) heq
      have hlogin : owner.login = login.localKey := Keyed.lookup_some_key howner
      exact hends (decide_eq_true (hlogin.symm.trans (hsame ▸ hbacks.login)))
    have hid : account.id = grant.accountId := Db.account?_id hbacks.opened
    rw [if_neg hother, if_neg (by rw [hbacks.owner, ← hid]; exact hother)]
    exact hlive

theorem setSendAsTx_rewritten {login address : Address} {enabled : Bool} {account : Nat}
    (h : setSendAsTx login address enabled db = .ok (db', account)) : db.Rewritten op db' := by
  obtain ⟨owner, written, -, -, hwritten, rfl⟩ := setSendAsTx_eq_ok h
  have haccounts : written.accounts = db.accounts := by
    unfold upsertSendAs at hwritten
    split at hwritten
    · cases hwritten
      rfl
    · obtain ⟨-, rfl⟩ := Db.insertAddress_eq_ok.1 hwritten
      rfl
  have hkeeps : written.KeepsLogins (written.updateAccount owner.id Account.bumpEpoch) :=
    .of_modify rfl fun _ => ⟨rfl, rfl, rfl⟩
  have hwrote : written.credentials = db.credentials := upsertSendAs_credentials hwritten
  have hcredentials : (written.updateAccount owner.id Account.bumpEpoch).credentials
      = db.credentials := hwrote
  exact ((Db.KeepsLogins.of_eq haccounts).trans hkeeps).rewritten hcredentials

theorem setAccountQuota_logins (login : Text) (bytes : Nat) :
    db.KeepsLogins (db.updateAccountByLogin login fun row => { row with quotaBytes := bytes }) :=
  .of_modify rfl fun _ => ⟨rfl, rfl, rfl⟩

theorem insertCredential_rewritten {login : Address} {selector phc : Text} {label : String}
    {scope : Scope} {reading : Reading} {row : Credential} (h : db.insertCredential row = .ok db') :
    db.Rewritten (.createCredential login selector label scope phc reading) db' := by
  obtain ⟨⟨hfresh, -, howner⟩, rfl⟩ := Db.insertCredential_eq_ok.1 h
  refine ⟨id, id, [], [row], ⟨?_, ?_, fun _ => ⟨rfl, rfl, id⟩,
    fun _ => ⟨rfl, rfl, rfl, rfl, rfl, id⟩, fun _ _ _ _ _ => id⟩, Nat.le_refl 1, ?_⟩
  · rw [List.map_id, List.append_nil]
  · rw [List.map_id]
  · intro other hmem
    rw [List.mem_singleton.1 hmem]
    exact ⟨rfl, howner, hfresh⟩

theorem SameContent.rewritten (h : SameContent db db') : db.Rewritten op db' :=
  .of_same h.accounts h.credentials

theorem Brings.rewritten (h : Brings w op db db') : db.Rewritten op db' :=
  h.logins.rewritten h.same.1

/-- Everything but a new credential rewrites the two tables in place. -/
theorem Commits.rewritten (h : Commits w op db db') (hids : Keyed.Unique Account.id db.accounts) :
    db.Rewritten op db' := by
  cases h with
  | createAccount _ htx => exact createAccountTx_rewritten htx
  | @setAccountQuota address bytes account _ _ _ _ =>
      exact (setAccountQuota_logins address.localKey bytes).rewritten rfl
  | finishAuthentication htx => exact finishAuthenticationTx_rewritten htx
  | createCredential htx => exact insertCredential_rewritten htx
  | revokeCredential htx => exact revokeCredentialTx_rewritten htx
  | disableAccount htx => exact disableAccountTx_rewritten hids htx
  | setSendAs htx => exact setSendAsTx_rewritten htx
  | insertAlias htx =>
      obtain ⟨-, rfl⟩ := Db.insertAddress_eq_ok.1 htx
      exact .of_same rfl rfl
  | acceptance hop hvalid hauth hnew htx =>
      have hbrings : Brings w op db db' := .acceptance hop hvalid hauth hnew htx
      exact hbrings.rewritten
  | @enqueue ids message plan reading faults now _ _ hvalid hnew htx =>
      have hbrings : Brings w (.enqueue ids message plan reading faults) db db' :=
        .enqueued ⟨reading, faults, rfl⟩ hvalid hnew htx
      exact hbrings.rewritten
  | @report prepared delivery reading faults now _ _ hnew heligible htx =>
      have hbrings : Brings w (.notificationCommit prepared delivery reading faults) db db' :=
        .report ⟨reading, faults, rfl⟩ hnew heligible htx
      exact hbrings.rewritten
  | expire _ htx => exact (expireTx_content htx).rewritten
  | recover _ htx => exact (recoverTx_content htx).rewritten
  | claim htx => exact (claimTx_content htx).rewritten
  | renew _ htx => exact (renewTx_content htx).rewritten
  | markBody _ htx => exact (markBodyTx_content htx).rewritten
  | finish _ htx => exact (finishTx_content htx).rewritten
  | hold htx => exact (holdTx_content htx).rewritten
  | retry htx => exact (retryTx_content htx).rewritten
  | closeUnknown htx => exact (closeUnknownTx_content htx).rewritten
  | suppress => exact .of_same rfl rfl
  | postpone => exact .of_same rfl rfl

theorem Db.Rewritten.carries (h : db.Rewritten op db') :
    db.Carries (fun selector login => op.withdraws selector login = true) db' := by
  obtain ⟨f, g, accounts, credentials, hrewrites, -⟩ := h
  exact hrewrites.carries

/-- The accounts of credentials are there. -/
def Db.Owners (db : Db) : Prop :=
  ∀ row ∈ db.credentials, (db.account? row.accountId).isSome

theorem Db.Rewritten.owners (h : db.Rewritten op db') (howners : db.Owners) : db'.Owners := by
  obtain ⟨f, g, accounts, credentials, hrewrites, -, hnew⟩ := h
  have hkept : ∀ id, (db.account? id).isSome → (db'.account? id).isSome := by
    intro id hsome
    obtain ⟨account, haccount⟩ := Option.isSome_iff_exists.1 hsome
    unfold Db.account?
    rw [hrewrites.accounts,
      Db.Later.lookup_rewritten haccount (fun row => (hrewrites.account row).1) accounts]
    rfl
  intro row hrow
  rw [hrewrites.credentials] at hrow
  rcases List.mem_append.1 hrow with hold | hadded
  · obtain ⟨old, hmem, rfl⟩ := List.mem_map.1 hold
    rw [(hrewrites.credential old).2.1]
    exact hkept _ (howners old hmem)
  · exact hkept _ (hnew row hadded).2.1

theorem Db.Rewritten.ids (h : db.Rewritten op db')
    (hids : Keyed.Unique Credential.id db.credentials) :
    Keyed.Unique Credential.id db'.credentials := by
  obtain ⟨f, g, accounts, credentials, hrewrites, hlength, hnew⟩ := h
  have hsame : (db.credentials.map g).map Credential.id = db.credentials.map Credential.id := by
    rw [List.map_map]
    exact List.map_congr_left fun row _ => (hrewrites.credential row).1
  unfold Keyed.Unique at hids ⊢
  rw [hrewrites.credentials, List.map_append, hsame]
  cases credentials with
  | nil =>
      rw [List.map_nil, List.append_nil]
      exact hids
  | cons row rest =>
      have hlast : rest = [] := List.length_eq_zero_iff.1 (Nat.le_zero.1 (Nat.le_of_succ_le_succ hlength))
      have hfresh := (hnew row List.mem_cons_self).2.2
      rw [hlast, ← List.map_append]
      exact Keyed.unique_append_singleton hids hfresh

end Commits

/-! ### Every operation -/

namespace World

variable {w : World} {op : Op} {grant : Grant} {credential : Credential} {account : Account}

/-- What every commit keeps that rewrites the two tables in place. -/
theorem Reachable.of_rewritten (h : w.Reachable) (inv : Db → Prop) (hinit : inv {})
    (hkeep : ∀ op db db', db.Rewritten op db' → inv db → inv db') : inv w.store.db := by
  refine (h.of_commits (fun db => (db.Books ∧ db.Coherent) ∧ inv db) ⟨⟨.empty, .empty⟩, hinit⟩ ?_).2
  intro w op db db' hcommit hw
  exact ⟨⟨hcommit.books hw.1.1 hw.1.2, hcommit.coherent hw.1.2⟩,
    hkeep op db db' (hcommit.rewritten hw.1.1.accountIds) hw.2⟩

theorem Reachable.owners (h : w.Reachable) : w.store.db.Owners :=
  h.of_rewritten Db.Owners (fun _ hmem => absurd hmem List.not_mem_nil) fun _ _ _ => Db.Rewritten.owners

theorem Reachable.credentialIds (h : w.Reachable) :
    Keyed.Unique Credential.id w.store.db.credentials :=
  h.of_rewritten (fun db => Keyed.Unique Credential.id db.credentials) List.nodup_nil
    fun _ _ _ => Db.Rewritten.ids

/-- What survives every rewriting of the two tables survives an operation. -/
theorem next_keeps (h : w.Reachable) (inv : Db → Prop)
    (hkeep : ∀ db db', db.Rewritten op db' → inv db → inv db') (hw : inv w.store.db) :
    inv (w.next op).store.db := by
  have hall : CommitsAll w op w.store.db (w.next op).store.db := w.next_commits op
  have hbooks := h.books
  have hcoherent := h.coherent
  revert hall
  generalize (w.next op).store.db = db'
  intro hall
  suffices hboth : inv db' ∧ db'.Books ∧ db'.Coherent from hboth.1
  induction hall with
  | refl => exact ⟨hw, hbooks, hcoherent⟩
  | tail _ hlast ih =>
      obtain ⟨hdb, hbooks, hcoherent⟩ := ih
      exact ⟨hkeep _ _ (hlast.rewritten hbooks.accountIds) hdb, hlast.books hbooks hcoherent,
        hlast.coherent hcoherent⟩

theorem next_carries (h : w.Reachable) (op : Op) :
    w.store.db.Carries (fun selector login => op.withdraws selector login = true)
      (w.next op).store.db :=
  next_keeps h _ (fun _ _ hrewritten hcarries => hcarries.trans hrewritten.carries) (.refl _)

/-- Selectors come from nowhere but new credentials. -/
theorem next_keepsNames (w : World) (hissues : op.issues = false) :
    w.store.db.KeepsNames (w.next op).store.db := by
  have hall : CommitsAll w op w.store.db (w.next op).store.db := w.next_commits op
  refine Relation.ReflTransGen.trans_induction_on hall
    (fun db row hrow => ⟨row, hrow, rfl, rfl⟩) (fun hone => hone.keepsNames hissues) ?_
  intro db db' db'' _ _ hfirst hsecond row hrow
  obtain ⟨middle, hmiddle, hselector, hlabel⟩ := hsecond row hrow
  obtain ⟨old, hold, hselector', hlabel'⟩ := hfirst middle hmiddle
  exact ⟨old, hold, hselector'.trans hselector, hlabel'.trans hlabel⟩

/-- A grant under a selector that was there has been there. -/
theorem granted_of_listed (h : w.Reachable)
    (hlisted : (w.store.db.credentialBySelector? grant.selector).isSome)
    (hbacks : (w.next op).store.db.Backs grant credential account) : w.store.db.Granted grant := by
  obtain ⟨old, hold⟩ := Option.isSome_iff_exists.1 hlisted
  obtain ⟨owner, howner⟩ :=
    Option.isSome_iff_exists.1 (h.owners old (Keyed.mem_of_lookup hold))
  have hbacks' : w.store.db.Backs
      ⟨old.id, old.accountId, owner.login, grant.selector, old.passwordPhc, old.scope⟩ old owner :=
    ⟨hold, howner, rfl, rfl, rfl, rfl, rfl⟩
  obtain ⟨credential', account', hnext, -⟩ := next_carries h op _ _ _ hbacks'
  obtain rfl := Option.some.inj (hbacks.listed.symm.trans hnext.listed)
  have hid : grant.accountId = old.accountId := hbacks.owner.symm.trans hnext.owner
  have hopened := hbacks.opened
  rw [hid] at hopened
  obtain rfl := Option.some.inj (hopened.symm.trans hnext.opened)
  refine ⟨old, owner, hold, hid ▸ howner, ?_, hid.symm, ?_, ?_, ?_⟩
  · exact hnext.id.symm.trans hbacks.id
  · exact hnext.login.symm.trans hbacks.login
  · exact hnext.phc.symm.trans hbacks.phc
  · exact hnext.scope.symm.trans hbacks.scope

end World

/-! ### Creation and withdrawal -/

/-- The operation creates this credential, and says so. -/
def Issues (w : World) (op : Op) (grant : Grant) : Prop :=
  ∃ login label reading,
    op = .createCredential login grant.selector label grant.scope grant.phc reading
      ∧ login.localKey = grant.login ∧ grant.phc.length ≤ 512
      ∧ (w.step op).2 = .number (.ok grant.id)

/-- The operation withdraws credentials, and says so. -/
def Withdraws (w : World) (op : Op) (grant : Grant) : Prop :=
  op.withdraws grant.selector grant.login = true ∧ ∃ account, (w.step op).2 = .number (.ok account)

section Steps

variable {w : World} {op : Op} {grant : Grant} {credential : Credential} {account : Account}
  {db db' : Db}

theorem Db.Backs.unique {credential' : Credential} {account' : Account}
    (h : db.Backs grant credential account) (h' : db.Backs grant credential' account') :
    credential' = credential ∧ account' = account :=
  ⟨Option.some.inj (h'.listed.symm.trans h.listed), Option.some.inj (h'.opened.symm.trans h.opened)⟩

theorem Db.Carries.granted {ends : Text → Text → Prop} (h : db.Carries ends db')
    (hgranted : db.Granted grant) : db'.Granted grant := by
  obtain ⟨credential, account, hbacks⟩ := hgranted
  obtain ⟨credential', account', hbacks', -⟩ := h grant credential account hbacks
  exact ⟨credential', account', hbacks'⟩

/-- What is usable has been usable since it was there. -/
theorem Db.Carries.usable_back {ends : Text → Text → Prop} (h : db.Carries ends db')
    (hgranted : db.Granted grant) (husable : db'.Usable grant) : db.Usable grant := by
  obtain ⟨credential, account, hbacks⟩ := hgranted
  obtain ⟨credential', account', hbacks', hback, -⟩ := h grant credential account hbacks
  obtain ⟨credential'', account'', hbacks'', hlive⟩ := husable
  obtain ⟨rfl, rfl⟩ := hbacks'.unique hbacks''
  exact ⟨credential, account, hbacks, hback hlive⟩

theorem Db.Carries.usable {ends : Text → Text → Prop} (h : db.Carries ends db')
    (hends : ¬ ends grant.selector grant.login) (husable : db.Usable grant) : db'.Usable grant := by
  obtain ⟨credential, account, hbacks, hlive⟩ := husable
  obtain ⟨credential', account', hbacks', -, hkept⟩ := h grant credential account hbacks
  exact ⟨credential', account', hbacks', hkept hends hlive⟩

/-- Creating a credential adds one row, if it says so, and changes nothing otherwise. -/
theorem createCredential_cases (store : Store) (login : Address) (selector : Text) (label : String)
    (scope : Scope) (phc : Text) (reading : Reading) :
    (∃ e, createCredential store login selector label scope phc reading = (store, .error e))
      ∨ ∃ row owner db, store.db.insertCredential row = .ok db
        ∧ createCredential store login selector label scope phc reading
          = ({ store with db := db }, .ok row.id)
        ∧ store.db.accountByLogin? login.localKey = some owner ∧ owner.status = .active
        ∧ row.accountId = owner.id ∧ row.selector = selector ∧ row.passwordPhc = phc
        ∧ row.scope = scope ∧ row.revokedAtMs = none ∧ phc.length ≤ 512 := by
  unfold createCredential
  split_ifs with hvalid
  · cases howner : store.db.accountByLogin? login.localKey with
    | none => exact Or.inl ⟨_, rfl⟩
    | some owner =>
        dsimp only
        split_ifs with hactive
        · exact Or.inl ⟨_, rfl⟩
        · cases hnow : reading.nowMs with
          | error e => exact Or.inl ⟨_, rfl⟩
          | ok now =>
              dsimp only
              split
              · exact Or.inl ⟨_, rfl⟩
              · next db hinsert =>
                  have hlength : phc.length ≤ 512 := by
                    unfold validCredential at hvalid
                    simp only [Bool.and_eq_true, decide_eq_true_eq] at hvalid
                    exact hvalid.1.2
                  exact Or.inr ⟨_, owner, db, hinsert, rfl, rfl, not_not.1 hactive, rfl, rfl, rfl,
                    rfl, rfl, hlength⟩
  · exact Or.inl ⟨_, rfl⟩

/-- The row of a new credential is the only one under its selector. -/
theorem issued_row {row : Credential} (hinsert : db.insertCredential row = .ok db')
    (hbacks : db'.Backs grant credential account)
    (hnot : ¬ (db.credentialBySelector? grant.selector).isSome) :
    credential = row ∧ db.account? grant.accountId = some account := by
  obtain ⟨-, rfl⟩ := Db.insertCredential_eq_ok.1 hinsert
  refine ⟨?_, hbacks.opened⟩
  have hlisted : Keyed.lookup Credential.selector (db.credentials ++ [row]) grant.selector
      = some credential := hbacks.listed
  have hnone : Keyed.lookup Credential.selector db.credentials grant.selector = none :=
    Option.not_isSome_iff_eq_none.1 hnot
  rw [Keyed.lookup_append, hnone, Option.none_or] at hlisted
  exact List.mem_singleton.1 (Keyed.mem_of_lookup hlisted)

theorem World.step_createCredential (w : World) (login : Address) (selector : Text) (label : String)
    (scope : Scope) (phc : Text) (reading : Reading) :
    w.step (.createCredential login selector label scope phc reading)
      = World.answer .number (w.call fun s =>
        createCredential s login selector label scope phc reading) := rfl

/-- A grant that was not there has just been created, and can be used. -/
theorem World.next_new_grant (h : w.Reachable)
    (hbacks : (w.next op).store.db.Backs grant credential account)
    (hnew : ¬ w.store.db.Granted grant) : Issues w op grant ∧ Live credential account := by
  have hnot : ¬ (w.store.db.credentialBySelector? grant.selector).isSome := fun hlisted =>
    hnew (World.granted_of_listed h hlisted hbacks)
  have hchanged : (w.next op).store.db ≠ w.store.db := fun hsame =>
    hnew ⟨credential, account, hsame ▸ hbacks⟩
  cases hissues : op.issues with
  | false =>
      -- the selector would have been there
      obtain ⟨old, hold, hselector, -⟩ := World.next_keepsNames w hissues credential
        (Keyed.mem_of_lookup hbacks.listed)
      refine absurd ?_ hnot
      have hkey : credential.selector = grant.selector := Keyed.lookup_some_key hbacks.listed
      exact Keyed.lookup_isSome_iff.2 ⟨old, hold, hselector.trans hkey⟩
  | true =>
      cases op with
      | createCredential login selector label scope phc reading =>
          have hstep := w.step_createCredential login selector label scope phc reading
          unfold World.next at hbacks hchanged
          by_cases hopen : w.opened = true
          · rcases createCredential_cases w.store login selector label scope phc reading with
              ⟨e, herror⟩ | ⟨row, owner, db, hinsert, hcall, howner, hactive, hof, rfl, rfl, rfl,
                hrevoked, hlength⟩
            · refine absurd ?_ hchanged
              rw [hstep, World.call_opened hopen, herror]
              rfl
            · rw [World.call_opened hopen, hcall] at hstep
              rw [hstep] at hbacks
              obtain ⟨rfl, hopened⟩ := issued_row hinsert hbacks hnot
              have hid : account.id = grant.accountId := Db.account?_id hopened
              obtain rfl : account = owner := List.inj_on_of_nodup_map h.books.accountIds
                (Keyed.mem_of_lookup hopened) (Keyed.mem_of_lookup howner)
                (hid.trans (hbacks.owner.symm.trans hof))
              have hlogin : account.login = login.localKey := Keyed.lookup_some_key howner
              have hselector : credential.selector = grant.selector :=
                Keyed.lookup_some_key hbacks.listed
              refine ⟨⟨login, label, reading, ?_, hlogin.symm.trans hbacks.login,
                hbacks.phc ▸ hlength, ?_⟩, hactive, hrevoked⟩
              · rw [hselector, hbacks.scope, hbacks.phc]
              · rw [hstep, ← hbacks.id]
                rfl
          · refine absurd ?_ hchanged
            rw [hstep, World.call_closed hopen]
            rfl
      | _ => cases hissues

/-- A credential that was created can be used. -/
theorem World.next_created (h : w.Reachable) {login : Address} {selector phc : Text}
    {label : String} {scope : Scope} {reading : Reading} {id : Nat}
    (hreply : (w.step (.createCredential login selector label scope phc reading)).2
      = .number (.ok id)) :
    ∃ accountId, (w.next (.createCredential login selector label scope phc reading)).store.db.Usable
      ⟨id, accountId, login.localKey, selector, phc, scope⟩ ∧ phc.length ≤ 512 := by
  have hstep := w.step_createCredential login selector label scope phc reading
  unfold World.next
  by_cases hopen : w.opened = true
  · rw [World.call_opened hopen] at hstep
    rcases createCredential_cases w.store login selector label scope phc reading with
      ⟨e, herror⟩ | ⟨row, owner, db, hinsert, hcall, howner, hactive, hof, rfl, rfl, rfl,
        hrevoked, hlength⟩
    · rw [hstep, herror] at hreply
      cases hreply
    · rw [hcall] at hstep
      rw [hstep] at hreply ⊢
      obtain rfl : row.id = id := Except.ok.inj (Rustymail.Reply.number.inj hreply)
      obtain ⟨⟨-, hfresh, -⟩, rfl⟩ := Db.insertCredential_eq_ok.1 hinsert
      refine ⟨owner.id, ⟨row, owner, ⟨?_, ?_, rfl, hof, Keyed.lookup_some_key howner, rfl, rfl⟩,
        hactive, hrevoked⟩, hlength⟩
      · exact (Keyed.lookup_append_singleton hfresh).trans (if_pos rfl)
      · exact Keyed.lookup_of_mem h.books.accountIds (Keyed.mem_of_lookup howner)
  · rw [World.call_closed hopen] at hstep
    rw [hstep] at hreply
    cases hreply

/-- What a transaction committed and reported is what its body made. -/
theorem transaction_commitPlain_ok {α : Type} {body : Db → Except StoreError (Db × α)}
    {faults : Faults} {store : Store} {value : α}
    (h : (store.transaction body (Store.commitPlain faults)).2 = .ok value) :
    ∃ db, body store.db = .ok (db, value)
      ∧ (store.transaction body (Store.commitPlain faults)).1.db = db := by
  unfold Store.transaction at h ⊢
  cases hbody : body store.db with
  | error e =>
      rw [hbody] at h
      cases h
  | ok result =>
      obtain ⟨db, value'⟩ := result
      rw [hbody] at h
      unfold Store.commitPlain at h ⊢
      cases hreport : faults.report with
      | ok =>
          rw [hreport] at h
          cases h
          exact ⟨db, rfl, rfl⟩
      | failed =>
          rw [hreport] at h
          cases h
      | failedButApplied =>
          rw [hreport] at h
          cases h

theorem revokeCredentialTx_unusable {selector : Text} {now : Int} {owner : Nat}
    (h : revokeCredentialTx selector now db = .ok (db', owner)) (hselector : grant.selector = selector) :
    ¬ db'.Usable grant := by
  unfold revokeCredentialTx at h
  simp only [bind_eq_ok, found_eq_ok, pure_eq_ok, Prod.mk.injEq] at h
  obtain ⟨credential, hcredential, rfl, rfl⟩ := h
  rintro ⟨row, account, hbacks, -, hlive⟩
  have hlisted : Keyed.lookup Credential.selector (Keyed.modify Credential.selector db.credentials
      selector (Credential.revoke now)) grant.selector = some row := hbacks.listed
  have hkey : ∀ row : Credential, (row.revoke now).selector = row.selector := fun _ => rfl
  rw [Keyed.lookup_modify hkey, if_pos hselector, hselector] at hlisted
  obtain ⟨old, -, rfl⟩ := Option.map_eq_some_iff.1 hlisted
  cases (Option.or_eq_none_iff.1 hlive).2

theorem disableAccountTx_unusable {login : Address} {now : Int} {owner : Nat}
    (hlogins : Keyed.Unique Account.login db.accounts)
    (h : disableAccountTx login now db = .ok (db', owner)) (hlogin : grant.login = login.localKey) :
    ¬ db'.Usable grant := by
  unfold disableAccountTx at h
  simp only [bind_eq_ok, found_eq_ok, pure_eq_ok, Prod.mk.injEq] at h
  obtain ⟨owner, howner, rfl, rfl⟩ := h
  rintro ⟨row, account, hbacks, hactive, -⟩
  have hkey : ∀ row : Account, ({ row.bumpEpoch with status := .disabled } : Account).id = row.id :=
    fun _ => rfl
  have hopened : Keyed.lookup Account.id (Keyed.modify Account.id db.accounts owner.id fun row =>
      { row.bumpEpoch with status := .disabled }) grant.accountId = some account := hbacks.opened
  rw [Keyed.lookup_modify hkey] at hopened
  split_ifs at hopened with hid
  · obtain ⟨old, -, rfl⟩ := Option.map_eq_some_iff.1 hopened
    cases hactive
  · -- the account of this login is the one that was disabled
    have hsame : account = owner := List.inj_on_of_nodup_map hlogins
      (Keyed.mem_of_lookup hopened) (Keyed.mem_of_lookup howner)
      (hbacks.login.trans (hlogin.trans (Keyed.lookup_some_key howner).symm))
    have hkept : account.id = grant.accountId := Keyed.lookup_some_key hopened
    exact hid (hkept.symm.trans (congrArg Account.id hsame))

/-- What a call answers with a number, if it does, the operation has answered. -/
theorem call_number_ok {operation : Store → Store × Except StoreError Nat} {n : Nat}
    (h : (World.answer .number (w.call operation)).2 = .number (.ok n)) :
    (operation w.store).2 = .ok n
      ∧ (World.answer .number (w.call operation)).1.store.db = (operation w.store).1.db := by
  by_cases hopened : w.opened = true
  · rw [World.call_opened hopened] at h ⊢
    exact ⟨Rustymail.Reply.number.inj h, rfl⟩
  · rw [World.call_closed hopened] at h
    cases h

theorem World.next_revokeCredential {selector : Text} {reading : Reading} {faults : Faults}
    {owner : Nat}
    (h : (w.step (.revokeCredential selector reading faults)).2 = .number (.ok owner)) :
    ∃ now, revokeCredentialTx selector now w.store.db
      = .ok ((w.next (.revokeCredential selector reading faults)).store.db, owner) := by
  obtain ⟨hok, hdb⟩ := @call_number_ok w (fun s => revokeCredential s selector reading faults)
    owner h
  change (w.next (.revokeCredential selector reading faults)).store.db = _ at hdb
  rw [hdb]
  unfold revokeCredential at hok ⊢
  split_ifs at hok ⊢
  cases hnow : reading.nowMs with
  | error e =>
      rw [hnow] at hok
      cases hok
  | ok now =>
      rw [hnow] at hok
      obtain ⟨db, hbody, hsame⟩ := transaction_commitPlain_ok hok
      exact ⟨now, hsame ▸ hbody⟩

theorem World.next_disableAccount {login : Address} {reading : Reading} {faults : Faults}
    {owner : Nat} (h : (w.step (.disableAccount login reading faults)).2 = .number (.ok owner)) :
    ∃ now, disableAccountTx login now w.store.db
      = .ok ((w.next (.disableAccount login reading faults)).store.db, owner) := by
  obtain ⟨hok, hdb⟩ := @call_number_ok w (fun s => disableAccount s login reading faults)
    owner h
  change (w.next (.disableAccount login reading faults)).store.db = _ at hdb
  rw [hdb]
  unfold disableAccount at hok ⊢
  cases hnow : reading.nowMs with
  | error e =>
      rw [hnow] at hok
      cases hok
  | ok now =>
      rw [hnow] at hok
      obtain ⟨db, hbody, hsame⟩ := transaction_commitPlain_ok hok
      exact ⟨now, hsame ▸ hbody⟩

/-- A withdrawal that was reported is in effect. -/
theorem World.next_withdrawn (h : w.Reachable) (hwithdraws : Withdraws w op grant) :
    ¬ (w.next op).store.db.Usable grant := by
  obtain ⟨hop, owner, hreply⟩ := hwithdraws
  cases op with
  | revokeCredential selector reading faults =>
      obtain ⟨now, hbody⟩ := World.next_revokeCredential hreply
      exact revokeCredentialTx_unusable hbody (of_decide_eq_true hop).symm
  | disableAccount login reading faults =>
      obtain ⟨now, hbody⟩ := World.next_disableAccount hreply
      exact disableAccountTx_unusable h.books.logins hbody (of_decide_eq_true hop).symm
  | _ => cases hop

end Steps

/-! ### Runs -/

section Runs

variable {w : World} {grant : Grant}

theorem Db.Carries.weaken {ends ends' : Text → Text → Prop} {db db' : Db} (h : db.Carries ends db')
    (hends : ∀ selector login, ends selector login → ends' selector login) :
    db.Carries ends' db' := by
  intro grant credential account hbacks
  obtain ⟨credential', account', hbacks', hback, hkept⟩ := h grant credential account hbacks
  exact ⟨credential', account', hbacks', hback, fun hnot => hkept fun hends' => hnot (hends _ _ hends')⟩

/-- No grant is lost, and none comes to life again. -/
theorem World.run_carries (h : w.Reachable) (ops : List Op) :
    w.store.db.Carries (fun _ _ => True) (w.run ops).store.db := by
  induction ops generalizing w with
  | nil => exact .refl _
  | cons op rest ih =>
      exact ((World.next_carries h op).weaken fun _ _ _ => trivial).trans (ih (h.next op))

/-- **Until it is withdrawn, a credential can be used.** -/
theorem World.run_usable (h : w.Reachable) (husable : w.store.db.Usable grant) (ops : List Op)
    (hnone : ∀ op ∈ ops, op.withdraws grant.selector grant.login = false) :
    (w.run ops).store.db.Usable grant := by
  induction ops generalizing w with
  | nil => exact husable
  | cons op rest ih =>
      have hfirst := hnone op List.mem_cons_self
      refine ih (h.next op) ((World.next_carries h op).usable ?_ husable) fun other hmem =>
        hnone other (List.mem_cons_of_mem op hmem)
      rw [hfirst]
      exact Bool.false_ne_true

/-- **A withdrawn credential is not used again.** -/
theorem World.run_never_withdrawn (h : w.Reachable) (hgranted : w.store.db.Granted grant)
    {ops : List Op} (husable : (w.run ops).store.db.Usable grant) {before after : List Op} {op : Op}
    (hops : ops = before ++ op :: after) : ¬ Withdraws (w.run before) op grant := by
  intro hwithdraws
  have hreach : (w.run before).Reachable := h.run before
  have hunusable := World.next_withdrawn hreach hwithdraws
  have hgranted' := (World.next_carries hreach op).granted
    ((World.run_carries h before).granted hgranted)
  have hrest := World.run_carries (hreach.next op) after
  have hrun : w.run ops = ((w.run before).next op).run after := by
    rw [hops]
    exact Runs.run_append before (op :: after)
  rw [hrun] at husable
  exact hunusable (hrest.usable_back hgranted' husable)

/-- **Every credential was created.** -/
theorem World.run_issued (root : Text) (maxMessageBytes : Nat) (ops : List Op)
    (hgranted : ((World.init root maxMessageBytes).run ops).store.db.Granted grant) :
    ∃ before op after, ops = before ++ op :: after
      ∧ Issues ((World.init root maxMessageBytes).run before) op grant
      ∧ ((World.init root maxMessageBytes).run (before ++ [op])).store.db.Granted grant := by
  induction ops using List.reverseRecOn with
  | nil =>
      obtain ⟨credential, account, hbacks⟩ := hgranted
      cases hbacks.listed
  | append_singleton ops op ih =>
      have hlast : (World.init root maxMessageBytes).run (ops ++ [op])
          = ((World.init root maxMessageBytes).run ops).next op := Runs.run_snoc ops op
      by_cases hold : ((World.init root maxMessageBytes).run ops).store.db.Granted grant
      · obtain ⟨before, earlier, after, rfl, hissues, hdone⟩ := ih hold
        exact ⟨before, earlier, after ++ [op], by simp, hissues, hdone⟩
      · obtain ⟨credential, account, hbacks⟩ := hgranted
        have hreach := World.reachable_run root maxMessageBytes ops
        have hissued := World.next_new_grant hreach (hlast ▸ hbacks) hold
        exact ⟨ops, op, [], rfl, hissued.1, ⟨credential, account, hbacks⟩⟩

end Runs

/-! ### Disabled accounts -/

section Closed

variable {w : World} {db db' : Db} {op : Op} {login : Text} {id : Nat}

/-- The account of this login is there, and disabled. -/
def Db.Closed (db : Db) (login : Text) (id : Nat) : Prop :=
  ∃ account, db.accountByLogin? login = some account ∧ account.id = id
    ∧ account.status ≠ .active

theorem disableAccountTx_closed {address : Address} {now : Int} {owner : Nat}
    (h : disableAccountTx address now db = .ok (db', owner)) : db'.Closed address.localKey owner := by
  unfold disableAccountTx at h
  simp only [bind_eq_ok, found_eq_ok, pure_eq_ok, Prod.mk.injEq] at h
  obtain ⟨account, haccount, rfl, rfl⟩ := h
  refine ⟨{ account.bumpEpoch with status := .disabled }, ?_, rfl, AccountStatus.noConfusion⟩
  unfold Db.accountByLogin? at haccount ⊢
  change Keyed.lookup Account.login (Keyed.modify Account.id db.accounts account.id fun row =>
    { row.bumpEpoch with status := .disabled }) address.localKey = _
  unfold Keyed.modify
  rw [Keyed.lookup_map, haccount]
  · exact congrArg some (if_pos rfl)
  · intro row
    split_ifs
    · rfl
    · rfl

theorem Db.Rewritten.closed (h : db.Rewritten op db') (hclosed : db.Closed login id) :
    db'.Closed login id := by
  obtain ⟨f, g, accounts, credentials, hrewrites, -⟩ := h
  obtain ⟨account, haccount, hid, hdisabled⟩ := hclosed
  have hrow := hrewrites.account account
  refine ⟨f account, ?_, hrow.1.trans hid, fun hactive => hdisabled (hrow.2.2 hactive)⟩
  unfold Db.accountByLogin? at haccount ⊢
  rw [hrewrites.accounts]
  exact Db.Later.lookup_rewritten haccount (fun row => (hrewrites.account row).2.1) accounts

/-- **A disabled account stays disabled.** -/
theorem World.run_closed (h : w.Reachable) (hclosed : w.store.db.Closed login id) (ops : List Op) :
    (w.run ops).store.db.Closed login id := by
  induction ops generalizing w with
  | nil => exact hclosed
  | cons op rest ih =>
      exact ih (h.next op)
        (World.next_keeps h _ (fun _ _ hrewritten => hrewritten.closed) hclosed)

end Closed

end Rustymail
