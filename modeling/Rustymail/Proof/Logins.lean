import Rustymail.Proof.AuthPlain
import Rustymail.Proof.Grants
import Rustymail.Proof.NoLostRevocation
import Rustymail.Proof.Startup
import Rustymail.Server.Login

/-!
# Who logs in

A login is the work of a credential that was created for this account and not withdrawn, with a token
that its string verifies. And a credential that was created lets its token log in until it is
withdrawn.
-/

namespace Rustymail

theorem credentialLookup_eq_some {db : Db} {login : Address} {selector : Text}
    {record : CredentialRecord} :
    credentialLookup db login selector = some record ↔ validId selector = true
      ∧ ∃ grant credential account, db.Backs grant credential account ∧ Live credential account
        ∧ grant.selector = selector ∧ grant.login = login.localKey
        ∧ record = ⟨⟨grant.accountId, grant.id, account.authEpoch, grant.scope⟩, grant.phc.take 513⟩ := by
  unfold credentialLookup
  constructor
  · intro h
    split_ifs at h with hvalid
    · cases hcredential : db.credentialBySelector? selector with
      | none =>
          rw [hcredential] at h
          cases h
      | some credential =>
          rw [hcredential] at h
          dsimp only at h
          cases haccount : db.account? credential.accountId with
          | none =>
              rw [haccount] at h
              cases h
          | some account =>
              rw [haccount] at h
              dsimp only at h
              split_ifs at h with hlive
              · obtain ⟨hlogin, hactive, hrevoked⟩ := hlive
                refine ⟨hvalid, ⟨credential.id, credential.accountId, account.login, selector,
                  credential.passwordPhc, credential.scope⟩, credential, account,
                  ⟨hcredential, haccount, rfl, rfl, rfl, rfl, rfl⟩, ⟨hactive, hrevoked⟩, rfl, hlogin, ?_⟩
                rw [← Option.some.inj h, Db.account?_id haccount]
  · rintro ⟨hvalid, grant, credential, account, hbacks, hlive, rfl, hlogin, rfl⟩
    have hopened : db.account? credential.accountId = some account :=
      hbacks.owner ▸ hbacks.opened
    rw [if_pos hvalid, hbacks.listed]
    dsimp only
    rw [hopened]
    dsimp only
    rw [if_pos ⟨hbacks.login.trans hlogin, hlive.1, hlive.2⟩, hbacks.id, hbacks.phc, hbacks.scope,
      Db.account?_id hbacks.opened]

namespace Server

variable {service : AuthService} {w w' : World} {credentials : PlainCredentials} {input : LoginInput}
  {principal : Principal}

/-- What a successful login has gone through. -/
theorem authenticate_eq_ok
    (h : service.authenticate w credentials input = (w', .ok principal)) :
    ∃ record, credentialLookup w.store.db credentials.login (selectorOf credentials.token) = some record
      ∧ record.principal = principal
      ∧ verifyToken service.argon2 service.settings credentials.token record.passwordPhc = true
      ∧ (w.run input.meanwhile).step (.finishAuthentication principal input.reading input.faults)
        = (w', .unit (.ok ())) := by
  unfold AuthService.authenticate at h
  split_ifs at h with hadmitted hjoined
  · unfold AuthService.settle at h
    cases hrecord : credentialLookup w.store.db credentials.login (selectorOf credentials.token) with
    | none =>
        rw [hrecord] at h
        cases h
    | some record =>
        rw [hrecord] at h
        dsimp only [Option.elim_some] at h
        cases hverify : verifyToken service.argon2 service.settings credentials.token
            record.passwordPhc with
        | false =>
            rw [hverify] at h
            cases h
        | true =>
            have hkept : ((some record).map CredentialRecord.principal).filter (fun _ => true)
                = some record.principal := rfl
            rw [hverify, hkept] at h
            dsimp only at h
            split at h
            · next w'' _ hstep =>
                cases h
                exact ⟨record, rfl, rfl, hverify, hstep⟩
            · cases h
            · cases h
  · cases h
  · cases h

/-- A principal that is current belongs to a grant that can be used. -/
theorem usable_of_current {db : Db} {grant : Grant} {epoch : Nat}
    (hids : Keyed.Unique Credential.id db.credentials) (hgranted : db.Granted grant)
    (hcurrent : current db ⟨grant.accountId, grant.id, epoch, grant.scope⟩ = true) :
    db.Usable grant := by
  obtain ⟨credential, account, hbacks⟩ := hgranted
  obtain ⟨credential', account', hcredential, haccount, -, -, hactive, hrevoked, -⟩ :=
    current_eq_true.1 hcurrent
  have hfound : db.credential? grant.id = some credential :=
    hbacks.id ▸ Keyed.lookup_of_mem hids (Keyed.mem_of_lookup hbacks.listed)
  obtain rfl := Option.some.inj (hfound.symm.trans hcredential)
  obtain rfl := Option.some.inj (hbacks.opened.symm.trans haccount)
  exact ⟨credential, account, hbacks, hactive, hrevoked⟩

/-- A principal that is current at the end has not been withdrawn on the way. -/
theorem not_withdrawn {grant : Grant} {epoch : Nat} (h : w.Reachable)
    (hgranted : w.store.db.Granted grant) {ops : List Op} {last : Op}
    (hcurrent : current (w.run (ops ++ [last])).store.db
      ⟨grant.accountId, grant.id, epoch, grant.scope⟩ = true)
    {first second : List Op} {other : Op} (hops : ops = first ++ other :: second) :
    ¬ Withdraws (w.run first) other grant := by
  have hgranted' := (World.run_carries h (ops ++ [last])).granted hgranted
  have husable := usable_of_current (h.run (ops ++ [last])).credentialIds hgranted' hcurrent
  have hsplit : ops ++ [last] = first ++ other :: (second ++ [last]) := by
    rw [hops, List.append_assoc]
    rfl
  exact World.run_never_withdrawn h hgranted husable hsplit

/-- **Nobody logs in but with a credential.** If a login succeeds, at whatever moment of a run and
whatever the store does while the hash is computed, then an earlier operation has created the
credential, for this account and scope; its string verifies the token; no operation has withdrawn it
since; and the principal is still current. -/
theorem logins_have_credentials (service : AuthService) (root : Text) (maxMessageBytes : Nat)
    (ops : List Op) (credentials : PlainCredentials) (input : LoginInput) {w' : World}
    {principal : Principal}
    (h : service.authenticate ((World.init root maxMessageBytes).run ops) credentials input
      = (w', .ok principal)) :
    (∃ grant before op after, ops = before ++ op :: after
      ∧ Issues ((World.init root maxMessageBytes).run before) op grant
      ∧ grant.login = credentials.login.localKey
      ∧ grant.selector = selectorOf credentials.token
      ∧ verifyToken service.argon2 service.settings credentials.token grant.phc = true
      ∧ principal = ⟨grant.accountId, grant.id, principal.authEpoch, grant.scope⟩
      ∧ ∀ first other second, after ++ input.meanwhile = first ++ other :: second →
        ¬ Withdraws ((World.init root maxMessageBytes).run (before ++ op :: first)) other grant)
      ∧ current w'.store.db principal = true := by
  obtain ⟨record, hlookup, rfl, hverify, hstep⟩ := authenticate_eq_ok h
  obtain ⟨-, grant, credential, account, hbacks, -, hselector, hlogin, rfl⟩ :=
    credentialLookup_eq_some.1 hlookup
  obtain ⟨before, op, after, rfl, hissues, hgranted⟩ :=
    World.run_issued root maxMessageBytes ops ⟨credential, account, hbacks⟩
  have hlength : grant.phc.length ≤ 513 := by
    obtain ⟨-, -, -, -, -, hlength, -⟩ := hissues
    omega
  rw [List.take_of_length_le hlength] at hverify
  dsimp only at hstep
  have hreach := World.reachable_run root maxMessageBytes (before ++ op :: after)
  have hhashed := hreach.run input.meanwhile
  have hcurrent := finishAuthentication_current hhashed (congrArg Prod.snd hstep)
  unfold World.next at hcurrent
  rw [hstep] at hcurrent
  refine ⟨⟨grant, before, op, after, rfl, hissues, hlogin, hselector, hverify, rfl, ?_⟩, hcurrent⟩
  -- the run from the creation to the end of the login
  have hcreated := World.reachable_run root maxMessageBytes (before ++ [op])
  have hend : ∀ last, (((World.init root maxMessageBytes).run (before ++ op :: after)).run
      input.meanwhile).next last = ((World.init root maxMessageBytes).run (before ++ [op])).run
        (after ++ input.meanwhile ++ [last]) := by
    intro last
    unfold World.run
    have hops : before ++ op :: after ++ input.meanwhile
        = before ++ [op] ++ (after ++ input.meanwhile) := by
      simp only [List.append_assoc, List.cons_append, List.nil_append]
    rw [← Runs.run_append, ← Runs.run_append, ← List.append_assoc, Runs.run_snoc, hops]
  have hlast := congrArg Prod.fst hstep
  change World.next _ _ = w' at hlast
  rw [← hlast, hend] at hcurrent
  intro first other second hops
  have hrun : ((World.init root maxMessageBytes).run (before ++ [op])).run first
      = (World.init root maxMessageBytes).run (before ++ op :: first) := by
    unfold World.run
    rw [← Runs.run_append, List.append_assoc, List.singleton_append]
  rw [← hrun]
  exact not_withdrawn hcreated hgranted hcurrent hops

/-! ### Credentials that were made here -/

/-- A string that was made under the settings verifies its token under them. -/
theorem verifyToken_hashToken {argon2 : Argon2} {settings : Core.Authentication}
    {salt : Except AuthError Text} {token phc : Text} (hworks : argon2.Works)
    (hhashing : settings.Hashing) (hlength : phc.length ≤ 512)
    (hphc : hashToken argon2 settings salt token = .ok phc) :
    verifyToken argon2 settings token phc = true := by
  unfold hashToken at hphc
  cases salt with
  | error e => cases hphc
  | ok salt =>
      dsimp only at hphc
      cases hhash : argon2.hashPassword settings.argon2MemoryKib settings.argon2Iterations
          settings.argon2Lanes token salt with
      | none =>
          rw [hhash] at hphc
          cases hphc
      | some made =>
          rw [hhash] at hphc
          obtain rfl := Except.ok.inj hphc
          obtain ⟨hash, h32, hparse⟩ := hworks.reads hhash
          have haccepted : Phc.accepted ⟨ascii "argon2id", some 19, settings.argon2MemoryKib,
              settings.argon2Iterations, settings.argon2Lanes, some hash⟩ settings = true := by
            unfold Phc.accepted
            simp [hhashing.memory, hhashing.iterations, hhashing.lanes, h32]
          unfold verifyToken
          rw [if_neg (by omega), hparse]
          dsimp only
          rw [if_pos haccepted]
          exact hworks.verifies hhash

/-- A current principal passes, unless the clock or the commit fails. -/
theorem finishAuthentication_passes {reading : Reading} {faults : Faults} {now : Int}
    (hopen : w.opened = true) (hcurrent : current w.store.db principal = true)
    (hreading : reading.nowMs = .ok now) (hreport : faults.report = .ok) :
    (w.step (.finishAuthentication principal reading faults)).2 = .unit (.ok ()) := by
  change (World.answer .unit (w.call fun s =>
    Rustymail.finishAuthentication s principal reading faults)).2 = .unit (.ok ())
  rw [World.call_opened hopen]
  unfold World.answer Rustymail.finishAuthentication Store.transaction
  dsimp only
  rw [hreading]
  dsimp only
  have htx : finishAuthenticationTx principal now w.store.db
      = .ok (w.store.db.updateCredential principal.credentialId fun row =>
        { row with lastUsedAtMs := some now }, ()) := by
    unfold finishAuthenticationTx
    exact Checked.bind_eq_ok.2 ⟨(), Checked.require_eq_ok.2 hcurrent, rfl⟩
  rw [htx]
  dsimp only
  unfold Store.commitPlain
  rw [hreport]

theorem run_current (h : w.Reachable) {ops : List Op} (hquiet : ∀ op ∈ ops, op.changesAuthority = false)
    (hcurrent : current w.store.db principal = true) :
    current (w.run ops).store.db principal = true := by
  induction ops generalizing w with
  | nil => exact hcurrent
  | cons op rest ih =>
      exact ih (h.next op) (fun other hmem => hquiet other (List.mem_cons_of_mem op hmem))
        (World.next_current h (hquiet op List.mem_cons_self) hcurrent)

/-- A usable credential with a token that its string verifies logs in. -/
theorem authenticate_usable {grant : Grant} {now : Int} (h : w.Reachable) (hopen : w.opened = true)
    (husable : w.store.db.Usable grant) (hselector : selectorOf credentials.token = grant.selector)
    (hvalid : validId grant.selector = true) (hlogin : credentials.login.localKey = grant.login)
    (hlength : grant.phc.length ≤ 512)
    (hverify : verifyToken service.argon2 service.settings credentials.token grant.phc = true)
    (hadmitted : input.admitted = true) (hjoined : input.joined = true)
    (hquiet : ∀ op ∈ input.meanwhile, op.changesAuthority = false)
    (hopen' : (w.run input.meanwhile).opened = true)
    (hreading : input.reading.nowMs = .ok now) (hreport : input.faults.report = .ok) :
    ∃ w' epoch, service.authenticate w credentials input
      = (w', .ok ⟨grant.accountId, grant.id, epoch, grant.scope⟩) := by
  obtain ⟨credential, account, hbacks, hlive⟩ := husable
  have hlookup : credentialLookup w.store.db credentials.login (selectorOf credentials.token)
      = some ⟨⟨grant.accountId, grant.id, account.authEpoch, grant.scope⟩, grant.phc⟩ := by
    refine credentialLookup_eq_some.2 ⟨hselector ▸ hvalid, grant, credential, account, hbacks, hlive,
      hselector.symm, hlogin.symm, ?_⟩
    rw [List.take_of_length_le (by omega)]
  have hcurrent : current w.store.db ⟨grant.accountId, grant.id, account.authEpoch, grant.scope⟩
      = true := by
    refine current_eq_true.2 ⟨credential, account, ?_, hbacks.opened, ?_, rfl, hlive.1, hlive.2,
      hbacks.scope⟩
    · exact hbacks.id ▸ Keyed.lookup_of_mem h.credentialIds (Keyed.mem_of_lookup hbacks.listed)
    · exact hbacks.owner.trans (Db.account?_id hbacks.opened).symm
  have hpasses := finishAuthentication_passes hopen' (run_current h hquiet hcurrent) hreading hreport
  unfold AuthService.authenticate
  rw [hadmitted, hopen, hlookup, hjoined]
  have hboth : (true && true) = true := rfl
  dsimp only [Option.elim_some]
  rw [if_pos hboth, if_pos rfl, hverify]
  unfold AuthService.settle
  have hkept : ((some (⟨⟨grant.accountId, grant.id, account.authEpoch, grant.scope⟩, grant.phc⟩ :
      CredentialRecord)).map CredentialRecord.principal).filter (fun _ => true)
      = some ⟨grant.accountId, grant.id, account.authEpoch, grant.scope⟩ := rfl
  rw [hkept]
  dsimp only
  cases hstep : (w.run input.meanwhile).step (.finishAuthentication
      ⟨grant.accountId, grant.id, account.authEpoch, grant.scope⟩ input.reading input.faults) with
  | mk w' reply =>
      rw [hstep] at hpasses
      dsimp only at hpasses
      subst hpasses
      exact ⟨w', account.authEpoch, rfl⟩

/-- **A credential made by the server logs in until it is withdrawn.** Under a valid configuration, a
token that was made and stored by the server lets its account log in, after whatever the store has
done in between, unless an operation tried to withdraw the credential, or authority changes or the
store fails during the login itself. -/
theorem made_credentials_log_in {config : Core.Config} (hvalid : config.validate = .ok ())
    {service : AuthService} (hsettings : service.settings = config.authentication)
    (hworks : service.argon2.Works) (h : w.Reachable)
    {first : Except AuthError (Vector UInt8 16)} {second : Except AuthError (Vector UInt8 32)}
    {salt : Except AuthError Text} {selector token phc : Text}
    (hmade : generateCredential first second (hashToken service.argon2 service.settings salt)
      = .ok (selector, token, phc))
    {login again : Address} {label : String} {scope : Scope} {reading : Reading} {id : Nat}
    (hcreated : (w.step (.createCredential login selector label scope phc reading)).2
      = .number (.ok id))
    {ops : List Op} (hkept : ∀ op ∈ ops, op.withdraws selector login.localKey = false)
    (hagain : again.localKey = login.localKey) {input : LoginInput} {now : Int}
    (hadmitted : input.admitted = true) (hjoined : input.joined = true)
    (hquiet : ∀ op ∈ input.meanwhile, op.changesAuthority = false)
    (hopen : (w.run (.createCredential login selector label scope phc reading :: ops)).opened = true)
    (hopen' : (w.run (.createCredential login selector label scope phc reading :: ops
      ++ input.meanwhile)).opened = true)
    (hreading : input.reading.nowMs = .ok now) (hreport : input.faults.report = .ok) :
    ∃ w' principal, service.authenticate
        (w.run (.createCredential login selector label scope phc reading :: ops)) ⟨again, token⟩ input
        = (w', .ok principal)
      ∧ principal.credentialId = id ∧ principal.scope = scope := by
  have hissued := generateCredential_issues hmade
  have hphc : hashToken service.argon2 service.settings salt token = .ok phc := by
    unfold generateCredential at hmade
    simp only [Checked.bind_eq_ok, Checked.pure_eq_ok] at hmade
    obtain ⟨_, -, _, -, made, hmade, heq⟩ := hmade
    cases heq
    exact hmade
  obtain ⟨accountId, husable, hlength⟩ := World.next_created h hcreated
  have hverify := verifyToken_hashToken hworks (hsettings ▸ Core.Config.hashing_of_validate hvalid) hlength hphc
  have hreach := h.next (.createCredential login selector label scope phc reading)
  have hlast := World.run_usable hreach husable ops hkept
  have hrun : w.run (.createCredential login selector label scope phc reading :: ops
      ++ input.meanwhile) = (w.run (.createCredential login selector label scope phc reading
        :: ops)).run input.meanwhile := Runs.run_append _ _
  rw [hrun] at hopen'
  have hlogin : ∀ credentials : PlainCredentials, credentials = ⟨again, token⟩ →
      ∃ w' epoch, service.authenticate
        (w.run (.createCredential login selector label scope phc reading :: ops)) credentials input
        = (w', .ok ⟨accountId, id, epoch, scope⟩) := by
    rintro credentials rfl
    exact authenticate_usable (hreach.run ops) hopen hlast hissued.selector_found
      hissued.selector_valid hagain hlength hverify hadmitted hjoined hquiet hopen' hreading hreport
  obtain ⟨w', epoch, hlogin⟩ := hlogin ⟨again, token⟩ rfl
  exact ⟨w', _, hlogin, rfl, rfl⟩

namespace Sample

def prefixed : Text := ascii "$argon2id$v=19$m=65536,t=3,p=4$"

/-- A hash that can be read off its string, for the settings of the example. -/
def argon2 : Argon2 where
  hashPassword m t p password _ :=
    if m = 65536 ∧ t = 3 ∧ p = 4 then some (prefixed ++ password) else none
  parse phc :=
    if prefixed.isPrefixOf phc then
      some ⟨ascii "argon2id", some 19, 65536, 3, 4, some (List.replicate 32 0)⟩
    else none
  verifyPassword password phc := phc == prefixed ++ password

theorem argon2_works : argon2.Works where
  reads := by
    intro m t p password salt phc h
    unfold argon2 at h
    dsimp only at h
    split_ifs at h with hsettings
    obtain ⟨rfl, rfl, rfl⟩ := hsettings
    obtain rfl := Option.some.inj h
    have hprefix : prefixed.isPrefixOf (prefixed ++ password) = true :=
      List.isPrefixOf_iff_prefix.2 (List.prefix_append _ _)
    refine ⟨List.replicate 32 0, List.length_replicate, ?_⟩
    unfold argon2
    dsimp only
    rw [if_pos hprefix]
  verifies := by
    intro m t p password salt phc h
    unfold argon2 at h
    dsimp only at h
    split_ifs at h
    exact beq_of_eq (Option.some.inj h).symm

def verifier : AuthService := ⟨argon2, Rustymail.Sample.config.authentication, []⟩

def selector : Text := randomHex (List.replicate 16 0)

def token : Text := selector ++ 46 :: randomHex (List.replicate 32 1)

def account : Op :=
  .createAccount Rustymail.Sample.recipient 100 Rustymail.Sample.reading (fun _ => 1) {}

/-- A store with one account. -/
def opened : World := Rustymail.Sample.fresh.run [account]

theorem opened_reachable : opened.Reachable := Rustymail.Sample.reachable [account]

def creation : Op :=
  .createCredential Rustymail.Sample.recipient selector "laptop" .mail (prefixed ++ token)
    Rustymail.Sample.reading

def attempt : LoginInput := ⟨true, [], true, Rustymail.Sample.reading, {}⟩

theorem made : generateCredential (.ok (Vector.replicate 16 0)) (.ok (Vector.replicate 32 1))
    (hashToken verifier.argon2 verifier.settings (.ok [])) = .ok (selector, token, prefixed ++ token) := by
  decide +kernel

theorem created : (opened.step creation).2 = .number (.ok 1) := by
  have hopen : opened.opened = true := by decide +kernel
  have hresult : (createCredential opened.store Rustymail.Sample.recipient selector "laptop" .mail
    (prefixed ++ token) Rustymail.Sample.reading).2.toOption = some 1 := by decide +kernel
  unfold creation
  rw [World.step_createCredential, World.call_opened hopen]
  unfold World.answer
  dsimp only
  rw [Checked.toOption_eq_some.1 hresult]

theorem logged_in : (verifier.authenticate ((World.init [] 1000).run [account, creation])
    ⟨Rustymail.Sample.recipient, token⟩ attempt).2.toOption = some ⟨1, 1, 1, .mail⟩ := by
  decide +kernel

theorem outcome {α : Type} {result : World × Except AuthError α} {value : α}
    (h : result.2.toOption = some value) : result = (result.1, .ok value) :=
  Prod.ext rfl (Checked.toOption_eq_some.1 h)

/-- The credential of a login is the one that was created. -/
theorem laptop_was_created : ∃ grant before op after, [account, creation] = before ++ op :: after
    ∧ Issues ((World.init [] 1000).run before) op grant ∧ grant.id = 1 := by
  obtain ⟨⟨grant, before, op, after, hops, hissues, -, -, -, hprincipal, -⟩, -⟩ :=
    logins_have_credentials verifier [] 1000 [account, creation] ⟨Rustymail.Sample.recipient, token⟩
      attempt (outcome logged_in)
  exact ⟨grant, before, op, after, hops, hissues, (congrArg Principal.credentialId hprincipal).symm⟩

/-- The laptop logs in, with another quota set in between. -/
theorem laptop_logs_in : ∃ w' principal, verifier.authenticate
    (opened.run [creation, .setAccountQuota Rustymail.Sample.recipient 200])
      ⟨Rustymail.Sample.recipient, token⟩ attempt = (w', .ok principal)
    ∧ principal.credentialId = 1 ∧ principal.scope = .mail :=
  made_credentials_log_in (by decide +kernel) rfl argon2_works opened_reachable made
    created (by decide) rfl rfl rfl (by decide) (by decide +kernel) (by decide +kernel) rfl rfl

end Sample

end Server

end Rustymail
