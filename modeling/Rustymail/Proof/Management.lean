import Rustymail.Proof.Logins
import Rustymail.Server.Management

/-!
# Management requests

In the owner's turn a request comes to one event of the watch or to none, and its answer says which.
So an authority change that is asked for over the socket is published like any other, and what was
withdrawn by a request stays withdrawn, whatever sessions and other events follow.
-/

namespace Rustymail.Server

open Checked

/-! ### What a request comes to -/

/-- The event of a request that passes the checks before the store. -/
def AdminRequest.events (config : Config) (input : AdminInput) : AdminRequest → List Watch.Event
  | credentialCreate login label scope =>
      match (credentialCreate login label scope).prepare config input.generated,
        localAddress login config, scopeNamed scope with
      | .ok (some made), .ok address, some scope =>
          [.call (.createCredential address made.selector label scope made.phc input.reading) rfl]
      | _, _, _ => []
  | credentialRevoke selector =>
      [.change (.revokeCredential selector input.reading input.committed)]
  | accountDisable login =>
      match localAddress login config with
      | .ok address => [.change (.disableAccount address input.reading input.committed)]
      | .error _ => []
  | sendAs login address enabled =>
      match localAddress login config, localAddress address config with
      | .ok login, .ok address => [.change (.setSendAs login address enabled input.committed)]
      | _, _ => []
  | _ => []

/-- The watch afterwards and an answer. A change or a new credential is answered with a result exactly
if the store says that it is done. -/
inductive Watch.Comes {ε α : Type} (watch : Watch) : List Event → Watch × Except ε α → Prop
  | nothing (answer : Except ε α) : watch.Comes [] (watch, answer)
  | changed (change : AuthorityChange) (answer : Except ε α)
      (hanswer : (∃ value, answer = .ok value)
        ↔ ∃ n, (watch.world.step change.op).2 = .number (.ok n)) :
      watch.Comes [.change change] (watch.changeAuthority change, answer)
  | created (op : Op) (hop : op.changesAuthority = false) (answer : Except ε α)
      (hissues : op.issues = true)
      (hanswer : (∃ value, answer = .ok value) ↔ ∃ n, (watch.world.step op).2 = .number (.ok n)) :
      watch.Comes [.call op hop] ({ watch with world := watch.world.next op }, answer)

section Comes

variable {α : Type} {watch : Watch}

theorem mapError_eq_ok {ε ε' : Type} {answer : Except ε α} {f : ε → ε'} {value : α} :
    answer.mapError f = .ok value ↔ answer = .ok value := by
  cases answer with
  | error e =>
      constructor
      · intro h
        cases h
      · intro h
        cases h
  | ok other => exact ⟨fun h => congrArg _ (Except.ok.inj h), fun h => congrArg _ (Except.ok.inj h)⟩

namespace Watch

theorem Comes.of_same {ε : Type} {result : Watch × Except ε α} (h : result.1 = watch) :
    watch.Comes [] result := by
  obtain ⟨watch', answer⟩ := result
  obtain rfl : watch' = watch := h
  exact .nothing answer

theorem Comes.mapError {ε ε' : Type} {events : List Event} {result : Watch × Except ε α}
    (h : watch.Comes events result) (f : ε → ε') :
    watch.Comes events (result.1, result.2.mapError f) := by
  cases h with
  | nothing answer => exact .nothing _
  | changed change answer hanswer =>
      exact .changed change _ ((exists_congr fun _ => mapError_eq_ok).trans hanswer)
  | created op hop answer hissues hanswer =>
      exact .created op hop _ hissues ((exists_congr fun _ => mapError_eq_ok).trans hanswer)

/-- A question leaves the store alone. -/
theorem ask_same {operation : Store → Store × Except StoreError α}
    (h : ∀ store, (operation store).1 = store) : watch.Comes [] (watch.ask false operation) := by
  refine .of_same ?_
  unfold ask
  by_cases hopen : watch.world.opened = true
  · rw [World.call_opened hopen, h]
    cases (operation watch.world.store).2 with
    | error e => rfl
    | ok value => rfl
  · rw [World.call_closed hopen]

/-- So does what the store refuses, whichever way it is asked. -/
theorem ask_refused (authority : Bool) (e : StoreError) :
    watch.Comes [] (watch.ask authority fun store => (store, (.error e : Except StoreError α))) := by
  refine .of_same ?_
  unfold ask
  by_cases hopen : watch.world.opened = true
  · rw [World.call_opened hopen]
  · rw [World.call_closed hopen]

variable {operation : Store → Store × Except StoreError Nat}

/-- What the owner answers to an operation whose result is a number. -/
theorem ask_number (authority : Bool) (f : Nat → α) :
    watch.ask authority (fun store => ((operation store).1, (operation store).2.map f))
      = ({ watch with
          world := (watch.world.call operation).1
          version := if authority && (watch.world.call operation).2.toOption.isSome then
            watch.version + 1 else watch.version }, (watch.world.call operation).2.map f) := by
  unfold ask
  by_cases hopen : watch.world.opened = true
  · rw [World.call_opened hopen, World.call_opened hopen]
    cases hanswer : (operation watch.world.store).2 with
    | error e =>
        dsimp only [Except.map]
        rw [Except.toOption, Option.isSome_none, Bool.and_false, if_neg Bool.false_ne_true]
    | ok n =>
        dsimp only [Except.map]
        rw [Except.toOption, Option.isSome_some, Bool.and_true]
  · rw [World.call_closed hopen, World.call_closed hopen]
    dsimp only [Except.map]
    rw [Except.toOption, Option.isSome_none, Bool.and_false, if_neg Bool.false_ne_true]

theorem map_isOk (f : Nat → α) (result : Except StoreError Nat) :
    (∃ value, result.map f = .ok value)
      ↔ ∃ n, Rustymail.Reply.number result = .number (.ok n) := by
  cases result with
  | error e =>
      constructor
      · rintro ⟨value, h⟩
        cases h
      · rintro ⟨n, h⟩
        cases h
  | ok n => exact ⟨fun _ => ⟨n, rfl⟩, fun _ => ⟨f n, rfl⟩⟩

/-- An authority change is published with its answer. -/
theorem ask_change (change : AuthorityChange) (f : Nat → α)
    (h : watch.world.step change.op = World.answer .number (watch.world.call operation)) :
    watch.Comes [.change change]
      (watch.ask true fun store => ((operation store).1, (operation store).2.map f)) := by
  have hanswer := map_isOk f (watch.world.call operation).2
  have hchanged : watch.ask true (fun store => ((operation store).1, (operation store).2.map f))
      = (watch.changeAuthority change, (watch.world.call operation).2.map f) := by
    rw [ask_number]
    unfold changeAuthority
    rw [h]
    unfold World.answer
    cases (watch.world.call operation).2 with
    | error e => rfl
    | ok n => rfl
  rw [hchanged]
  refine .changed change _ (hanswer.trans ?_)
  rw [h]
  exact Iff.rfl

theorem ask_created (op : Op) (hop : op.changesAuthority = false) (hissues : op.issues = true)
    (f : Nat → α) (h : watch.world.step op = World.answer .number (watch.world.call operation)) :
    watch.Comes [.call op hop]
      (watch.ask false fun store => ((operation store).1, (operation store).2.map f)) := by
  have hworld : (watch.world.call operation).1 = watch.world.next op := by
    unfold World.next
    rw [h]
    rfl
  have hanswer := map_isOk f (watch.world.call operation).2
  rw [ask_number, hworld, Bool.false_and, if_neg Bool.false_ne_true]
  refine .created op hop _ hissues (hanswer.trans ?_)
  rw [h]
  exact Iff.rfl

variable {json : Json.Serializer} {setting : AdminSetting} {request : AdminRequest}
  {input : AdminInput}

/-- Every request comes to its event. -/
theorem dispatch_comes : watch.Comes (request.events setting.config input)
    (watch.dispatch json setting request input) := by
  cases request with
  | status => exact (ask_same fun _ => rfl).mapError _
  | credentialCreate login label scope =>
      unfold AdminRequest.events dispatch
      dsimp only
      cases (AdminRequest.credentialCreate login label scope).prepare setting.config
          input.generated with
      | error e => exact .nothing _
      | ok credential =>
          unfold AdminRequest.apply
          cases credential with
          | none => exact (ask_refused _ _).mapError _
          | some made =>
              dsimp only
              cases localAddress login setting.config with
              | error e => exact (ask_refused _ _).mapError _
              | ok address =>
                  cases scopeNamed scope with
                  | none => exact (ask_refused _ _).mapError _
                  | some scope =>
                      dsimp only
                      exact (ask_created (.createCredential address made.selector label scope made.phc
                        input.reading) rfl rfl _ rfl).mapError _
  | credentialList login afterId limit =>
      refine (ask_same fun store => ?_).mapError _
      unfold AdminRequest.apply
      dsimp only
      split
      · rfl
      · rfl
  | credentialRevoke selector =>
      exact (ask_change (.revokeCredential selector input.reading input.committed) _ rfl).mapError _
  | accountDisable login =>
      unfold AdminRequest.events dispatch AdminRequest.apply
      dsimp only
      cases localAddress login setting.config with
      | error e => exact (ask_refused _ _).mapError _
      | ok address =>
          exact (ask_change (.disableAccount address input.reading input.committed) _ rfl).mapError _
  | sendAs login address enabled =>
      unfold AdminRequest.events dispatch AdminRequest.apply
      dsimp only
      cases localAddress login setting.config with
      | error e => exact (ask_refused _ _).mapError _
      | ok login =>
          cases localAddress address setting.config with
          | error e => exact (ask_refused _ _).mapError _
          | ok address =>
              dsimp only
              exact (ask_change (.setSendAs login address enabled input.committed) _ rfl).mapError _
  | reloadTls => exact .nothing _

/-! ### What an event leaves -/

theorem changeAuthority_world (change : AuthorityChange) :
    (watch.changeAuthority change).world = watch.world.next change.op := by
  unfold changeAuthority World.next
  split
  · next hstep => rw [hstep]
  · next hstep => rw [hstep]

theorem changeAuthority_published {change : AuthorityChange} {n : Nat}
    (h : (watch.world.step change.op).2 = .number (.ok n)) :
    (watch.changeAuthority change).version = watch.version + 1 := by
  unfold changeAuthority
  split
  · rfl
  · next hother hstep =>
      rw [hstep] at h
      exact absurd h (hother n)

theorem changeAuthority_unpublished {change : AuthorityChange}
    (h : ¬ ∃ n, (watch.world.step change.op).2 = .number (.ok n)) :
    (watch.changeAuthority change).version = watch.version := by
  unfold changeAuthority
  split
  · next n hstep =>
      rw [hstep] at h
      exact absurd ⟨n, rfl⟩ h
  · rfl

/-- A credential that is not reported is not there. -/
theorem issued_or_same (w : World) {op : Op} (h : op.issues = true) :
    (∃ n, (w.step op).2 = .number (.ok n)) ∨ (w.next op).store.db = w.store.db := by
  cases op with
  | createCredential login selector label scope phc reading =>
      have hstep := w.step_createCredential login selector label scope phc reading
      unfold World.next
      rw [hstep]
      by_cases hopen : w.opened = true
      · rw [World.call_opened hopen]
        rcases createCredential_cases w.store login selector label scope phc reading with
          ⟨e, herror⟩ | ⟨row, owner, db, -, hcall, -⟩
        · rw [herror]
          exact Or.inr rfl
        · rw [hcall]
          exact Or.inl ⟨row.id, rfl⟩
      · rw [World.call_closed hopen]
        exact Or.inr rfl
  | _ => cases h

variable {ε : Type} {events : List Event} {result : Watch × Except ε α}

theorem Comes.run (h : watch.Comes events result) : result.1 = watch.run events := by
  cases h with
  | nothing answer => rfl
  | changed change answer hanswer => rfl
  | created op hop answer hissues hanswer => rfl

/-- A request that is not answered with a result has changed nothing. -/
theorem Comes.failed (h : watch.Comes events result)
    (hfailed : ¬ ∃ value, result.2 = .ok value) :
    result.1.world.store.db = watch.world.store.db ∧ result.1.version = watch.version := by
  cases h with
  | nothing answer => exact ⟨rfl, rfl⟩
  | changed change answer hanswer =>
      have hsilent := fun hdone => hfailed (hanswer.2 hdone)
      refine ⟨?_, changeAuthority_unpublished hsilent⟩
      rw [changeAuthority_world]
      rcases change.published_or_same watch.world with hdone | hsame
      · exact absurd hdone hsilent
      · exact hsame
  | created op hop answer hissues hanswer =>
      rcases issued_or_same watch.world hissues with hdone | hsame
      · exact absurd (hanswer.2 hdone) hfailed
      · exact ⟨hsame, rfl⟩

/-- A request that takes authority from a principal is published and answered with a result. -/
theorem Comes.lost (h : watch.Comes events result) (hreach : watch.world.Reachable)
    {principal : Principal} (hbefore : current watch.world.store.db principal = true)
    (hafter : current result.1.world.store.db principal = false) :
    result.1.version = watch.version + 1 ∧ ∃ value, result.2 = .ok value := by
  have hchanged : result.1.world.store.db ≠ watch.world.store.db := by
    intro hsame
    rw [hsame, hbefore] at hafter
    cases hafter
  have hdone : ∃ value, result.2 = .ok value := by
    by_contra hfailed
    exact hchanged (h.failed hfailed).1
  refine ⟨?_, hdone⟩
  cases h with
  | nothing answer => exact absurd rfl hchanged
  | changed change answer hanswer =>
      obtain ⟨n, hstep⟩ := hanswer.1 hdone
      exact changeAuthority_published hstep
  | created op hop answer hissues hanswer =>
      have hkept := World.next_current hreach hop hbefore
      rw [hafter] at hkept
      cases hkept

/-- A change that is answered with a result is done. -/
theorem Comes.done {change : AuthorityChange} {value : α} (h : watch.Comes events result)
    (hevents : events = [.change change]) (hvalue : result.2 = .ok value) :
    result.1.world = watch.world.next change.op
      ∧ ∃ n, (watch.world.step change.op).2 = .number (.ok n) := by
  cases h with
  | nothing answer => cases hevents
  | changed other answer hanswer =>
      cases hevents
      exact ⟨changeAuthority_world change, hanswer.1 ⟨value, hvalue⟩⟩
  | created op hop answer hissues hanswer => cases hevents

/-- The login of an account that is disabled belongs to a local domain. -/
theorem dispatch_accountDisable_local {login : Text} {value : json.Value}
    (h : (watch.dispatch json setting (.accountDisable login) input).2 = .ok value) :
    ∃ address, localAddress login setting.config = .ok address := by
  unfold dispatch AdminRequest.apply at h
  dsimp only at h
  cases hlocal : localAddress login setting.config with
  | ok address => exact ⟨address, rfl⟩
  | error e =>
      rw [hlocal] at h
      have hrefused : (watch.ask true fun store =>
          (store, (.error e : Except StoreError json.Value))).2 = .ok value := mapError_eq_ok.1 h
      unfold ask at hrefused
      by_cases hopen : watch.world.opened = true
      · rw [World.call_opened hopen] at hrefused
        cases hrefused
      · rw [World.call_closed hopen] at hrefused
        cases hrefused

/-! ### Runs of the store -/

/-- An event is a run of the store. -/
theorem step_world (watch : Watch) (event : Event) :
    ∃ ops, (watch.step event).world = watch.world.run ops := by
  cases event with
  | change change => exact ⟨[change.op], changeAuthority_world change⟩
  | call op hop => exact ⟨[op], rfl⟩
  | subscribe =>
      refine ⟨[], ?_⟩
      unfold Watch.step
      dsimp only
      split
      · rfl
      · rfl
  | prove principal reading faults =>
      refine ⟨[.finishAuthentication principal reading faults], ?_⟩
      change (watch.finishAuthentication principal reading faults).world = watch.world.next _
      unfold finishAuthentication World.next
      split
      · next hstep =>
          rw [hstep]
          rfl
      · next hstep => rw [hstep]
  | _ => exact ⟨[], rfl⟩

theorem run_world (watch : Watch) (events : List Event) :
    ∃ ops, (watch.run events).world = watch.world.run ops := by
  induction events generalizing watch with
  | nil => exact ⟨[], rfl⟩
  | cons event rest ih =>
      obtain ⟨first, hfirst⟩ := step_world watch event
      obtain ⟨others, hrest⟩ := ih (watch.step event)
      refine ⟨first ++ others, ?_⟩
      have hrun : watch.run (event :: rest) = (watch.step event).run rest := Runs.run_cons event rest
      rw [hrun, hrest, hfirst]
      exact (Runs.run_append first others).symm

end Watch

end Comes

/-! ### Sessions among other events -/

namespace Management

/-- A session does nothing and answers nothing, or says that it got no request, or carries one
out. -/
theorem session_cases (management : Management) (watch : Watch) (visit : Visit) :
    management.session watch visit = (watch, [])
      ∨ management.session watch visit = (watch, (writeFrame management.json []
          (refused management.json "invalid management request") .response).1)
      ∨ ∃ bytes request, visit.peer.allowed management.daemon = true
        ∧ readFrame .request visit.arrivals = .ok bytes ∧ management.decode bytes = some request
        ∧ management.session watch visit
          = ((management.dispatch watch request visit.input).1,
            if visit.input.awaited then (writeFrame management.json []
              (response management.json (management.dispatch watch request visit.input).2)
                .response).1
            else []) := by
  unfold session adminSession
  by_cases hallowed : visit.peer.allowed management.daemon = true
  · rw [if_pos hallowed]
    cases hread : readFrame .request visit.arrivals with
    | error e => exact Or.inl rfl
    | ok bytes =>
        dsimp only
        cases hdecode : management.decode bytes with
        | none => exact Or.inr (Or.inl rfl)
        | some request =>
            refine Or.inr (Or.inr ⟨bytes, request, hallowed, rfl, hdecode, ?_⟩)
            unfold dispatch
            dsimp only
            split_ifs
            · rfl
            · rfl
  · rw [if_neg hallowed]
    exact Or.inl rfl

theorem step_events (management : Management) (watch : Watch) (turn : Managed) :
    ∃ events, management.step watch turn = watch.run events := by
  cases turn with
  | other event => exact ⟨[event], rfl⟩
  | session visit =>
      change ∃ events, (management.session watch visit).1 = watch.run events
      rcases session_cases management watch visit with
        hsilent | hinvalid | ⟨bytes, request, -, -, -, hsession⟩
      · rw [hsilent]
        exact ⟨[], rfl⟩
      · rw [hinvalid]
        exact ⟨[], rfl⟩
      · rw [hsession]
        exact ⟨request.events management.setting.config visit.input, Watch.dispatch_comes.run⟩

/-- Sessions lead nowhere that events do not lead to. -/
theorem run_events (management : Management) (watch : Watch) (turns : List Managed) :
    ∃ events, management.run watch turns = watch.run events := by
  induction turns generalizing watch with
  | nil => exact ⟨[], rfl⟩
  | cons turn rest ih =>
      obtain ⟨first, hfirst⟩ := step_events management watch turn
      obtain ⟨others, hrest⟩ := ih (management.step watch turn)
      refine ⟨first ++ others, ?_⟩
      have hrun : management.run watch (turn :: rest)
        = management.run (management.step watch turn) rest := Runs.run_cons turn rest
      rw [hrun, hrest, hfirst]
      exact (Runs.run_append first others).symm

theorem past_sound (management : Management) (root : Text) (maxMessageBytes : Nat)
    (turns : List Managed) : (management.past root maxMessageBytes turns).Sound := by
  obtain ⟨events, hevents⟩ := run_events management (Watch.init root maxMessageBytes) turns
  unfold past
  rw [hevents]
  exact (Watch.Sound.init root maxMessageBytes).run events

/-- Offline a request comes to the same, save that there is no certificate to load. -/
theorem offline_same (management : Management) (watch : Watch) {request : AdminRequest} (input : AdminInput)
    (hrequest : request ≠ .reloadTls) :
    offlineManagement management.json management.setting watch.world request input
      = ((management.dispatch watch request input).1.world,
        (management.dispatch watch request input).2) := by
  have hask : ∀ (authority : Bool) (operation : Store → Store × Except StoreError
      management.json.Value), watch.world.call operation
        = ((watch.ask authority operation).1.world, (watch.ask authority operation).2) := by
    intro authority operation
    unfold Watch.ask
    by_cases hopen : watch.world.opened = true
    · rw [World.call_opened hopen]
      cases (operation watch.world.store).2 with
      | error e => rfl
      | ok value => rfl
    · rw [World.call_closed hopen]
  unfold offlineManagement dispatch Watch.dispatch
  cases request with
  | reloadTls => exact absurd rfl hrequest
  | _ =>
      dsimp only
      split
      · rfl
      · rw [hask]

end Management

/-! ### Withdrawal -/

/-- Such principals are not current, and such credentials do not log in. -/
structure Dismissed (w : World) (whom : Principal → Prop) (which : PlainCredentials → Prop) :
    Prop where
  lapsed : ∀ principal, whom principal → current w.store.db principal = false
  barred : ∀ (service : AuthService) credentials input w' principal, which credentials →
    service.authenticate w credentials input ≠ (w', .ok principal)

section Dismissed

variable {w : World} {owner : Nat}

/-- **A revoked credential is dismissed for good.** -/
theorem revoked_dismissed (h : w.Reachable) {selector : Text} {reading : Reading} {faults : Faults}
    (hreply : (w.step (.revokeCredential selector reading faults)).2 = .number (.ok owner))
    (ops : List Op) :
    ∃ credential, w.store.db.credentialBySelector? selector = some credential
      ∧ Dismissed ((w.next (.revokeCredential selector reading faults)).run ops)
        (fun principal => principal.credentialId = credential.id)
        (fun credentials => selectorOf credentials.token = selector) := by
  obtain ⟨now, htx⟩ := World.next_revokeCredential hreply
  unfold revokeCredentialTx at htx
  simp only [bind_eq_ok, found_eq_ok] at htx
  obtain ⟨credential, hlisted, -⟩ := htx
  obtain ⟨account, haccount⟩ := Option.isSome_iff_exists.1
    (h.owners credential (Keyed.mem_of_lookup hlisted))
  obtain ⟨grant, hgrant, hid, hbacks⟩ : ∃ grant : Grant, grant.selector = selector
      ∧ grant.id = credential.id ∧ w.store.db.Backs grant credential account :=
    ⟨⟨credential.id, credential.accountId, account.login, selector, credential.passwordPhc,
      credential.scope⟩, rfl, rfl, hlisted, haccount, rfl, rfl, rfl, rfl, rfl⟩
  have hreach := (h.next (.revokeCredential selector reading faults)).run ops
  obtain ⟨credential', account', hbacks', -⟩ :=
    World.run_carries h (.revokeCredential selector reading faults :: ops) grant _ _ hbacks
  have hrun : w.run (.revokeCredential selector reading faults :: ops)
    = (w.next (.revokeCredential selector reading faults)).run ops := Runs.run_cons _ ops
  rw [hrun] at hbacks'
  have hdead : ¬ Live credential' account' := by
    intro hlive
    have husable : (w.run (.revokeCredential selector reading faults :: ops)).store.db.Usable grant :=
      ⟨credential', account', hrun ▸ hbacks', hlive⟩
    refine World.run_never_withdrawn h ⟨credential, account, hbacks⟩ husable
      (List.nil_append _).symm ⟨?_, owner, hreply⟩
    exact decide_eq_true hgrant.symm
  refine ⟨credential, hlisted, ?_, ?_⟩
  · intro principal hprincipal
    rw [← Bool.not_eq_true, current_eq_true]
    rintro ⟨row, other, hrow, hother, hof, -, hactive, hrevoked, -⟩
    have hfound := Keyed.lookup_of_mem hreach.credentialIds (Keyed.mem_of_lookup hbacks'.listed)
    rw [hbacks'.id, hid, ← hprincipal] at hfound
    obtain rfl := Option.some.inj (hrow.symm.trans hfound)
    have howner : principal.accountId = grant.accountId := by
      rw [← Db.account?_id hother, ← hof, hbacks'.owner]
    rw [howner] at hother
    obtain rfl := Option.some.inj (hother.symm.trans hbacks'.opened)
    exact hdead ⟨hactive, hrevoked⟩
  · intro service credentials input w' principal hselector hlogin
    obtain ⟨record, hlookup, -⟩ := authenticate_eq_ok hlogin
    obtain ⟨-, other, row, account'', hbacks'', hlive, hsame, -⟩ := credentialLookup_eq_some.1 hlookup
    have hrow := hbacks''.listed
    have hkept := hbacks'.listed
    rw [hsame, hselector] at hrow
    rw [hgrant] at hkept
    obtain rfl := Option.some.inj (hrow.symm.trans hkept)
    have hopened := hbacks''.opened
    rw [← hbacks''.owner, hbacks'.owner] at hopened
    obtain rfl := Option.some.inj (hopened.symm.trans hbacks'.opened)
    exact hdead hlive

/-- **A disabled account is dismissed for good**, with credentials that nobody can make for it. -/
theorem disabled_dismissed (h : w.Reachable) {login : Address} {reading : Reading} {faults : Faults}
    (hreply : (w.step (.disableAccount login reading faults)).2 = .number (.ok owner))
    (ops : List Op) :
    ∃ account, w.store.db.accountByLogin? login.localKey = some account
      ∧ Dismissed ((w.next (.disableAccount login reading faults)).run ops)
        (fun principal => principal.accountId = account.id)
        (fun credentials => credentials.login.localKey = login.localKey) := by
  obtain ⟨now, htx⟩ := World.next_disableAccount hreply
  have hafter := h.next (.disableAccount login reading faults)
  have hreach := hafter.run ops
  obtain ⟨row, hrow, hid, hdisabled⟩ := World.run_closed hafter (disableAccountTx_closed htx) ops
  unfold disableAccountTx at htx
  simp only [bind_eq_ok, found_eq_ok, pure_eq_ok, Prod.mk.injEq] at htx
  obtain ⟨account, haccount, -, rfl⟩ := htx
  refine ⟨account, haccount, ?_, ?_⟩
  · intro principal hprincipal
    rw [← Bool.not_eq_true, current_eq_true]
    rintro ⟨credential, other, -, hother, -, -, hactive, -⟩
    have hfound := Keyed.lookup_of_mem hreach.books.accountIds (Keyed.mem_of_lookup hrow)
    rw [hid, ← hprincipal] at hfound
    obtain rfl := Option.some.inj (hother.symm.trans hfound)
    exact hdisabled hactive
  · intro service credentials input w' principal hlogin hok
    obtain ⟨record, hlookup, -⟩ := authenticate_eq_ok hok
    obtain ⟨-, grant, credential, other, hbacks, hlive, -, hgrant, -⟩ :=
      credentialLookup_eq_some.1 hlookup
    have hkey : other.login = row.login := by
      rw [hbacks.login, hgrant, hlogin]
      exact (Keyed.lookup_some_key hrow).symm
    obtain rfl := List.inj_on_of_nodup_map hreach.books.logins (Keyed.mem_of_lookup hbacks.opened)
      (Keyed.mem_of_lookup hrow) hkey
    exact hdisabled hlive.1

end Dismissed

/-! ### Answers -/

section Answers

variable (json : Json.Serializer)

/-- Both texts fit with ease. -/
theorem length_refused {error : String} (hplain : ∀ b ∈ ascii error, b ≠ 34 ∧ b ≠ 92 ∧ 32 ≤ b)
    (hshort : (ascii error).length ≤ 100) :
    (json.text (refused json error)).length ≤ FrameKind.response.limit - 1 := by
  have hordered : [ascii "error", ascii "ok"].Pairwise (· < ·) := by decide
  have hobject := @Json.Serializer.length_object json
    [(ascii "error", json.string (ascii error)), (ascii "ok", json.bool false)] hordered
  have hfalse := json.length_bool false
  simp only [List.map_cons, List.map_nil, List.sum_cons, List.sum_nil] at hobject
  rw [json.length_field (by decide +kernel), json.length_field (by decide +kernel),
    json.length_string_plain hplain] at hobject
  have hnames : (ascii "error").length = 5 ∧ (ascii "ok").length = 2 := by decide
  have hlimit : FrameKind.response.limit - 1 = 65535 := by decide
  unfold refused
  omega

/-- The frame of a value, as a peer reads it. -/
def Frames (value : json.Value) (frame : Text) : Prop :=
  frame = json.text value ++ [10] ∧ frame.length ≤ FrameKind.response.limit
    ∧ ∀ (pieces : List Text) (more : Text) (later : List (Except FrameError Text)),
      pieces.flatten = frame ++ more → readFrame .response (pieces.map .ok ++ later) = .ok frame

variable {json} {value : json.Value}

theorem frames_of_fits (h : (json.text value).length ≤ FrameKind.response.limit - 1) :
    Frames json value (writeFrame json [] value .response).1 := by
  rw [writeFrame_fits [] h, List.nil_append]
  have hlimit : FrameKind.response.limit = 65536 := by decide
  refine ⟨rfl, ?_, fun pieces more later => readFrame_frame later (json.one_line value) h⟩
  rw [List.length_append, List.length_singleton]
  omega

/-- A value is sent in a frame, or nothing is. -/
theorem writeFrame_frames (value : json.Value) :
    (writeFrame json [] value .response).1 = []
      ∨ Frames json value (writeFrame json [] value .response).1 := by
  rcases Nat.lt_or_ge (FrameKind.response.limit - 1) (json.text value).length with hlong | hfits
  · rw [writeFrame_exceeds [] hlong]
    exact Or.inl rfl
  · exact Or.inr (frames_of_fits hfits)

end Answers

namespace Management

/-- **What a peer is told.** A session does nothing for a peer that may not ask, and otherwise carries
out the request that the frame holds. It sends nothing, or one frame that is read as it was sent, in
whatever pieces it arrives: with a result only if the request had it, and otherwise with one of two
texts. Every request without a result is answered with the same text, whatever the reason. -/
theorem session_answers (management : Management) (watch : Watch) (visit : Visit) :
    (visit.peer.allowed management.daemon = false →
        management.session watch visit = (watch, []))
      ∧ ((management.session watch visit).1 ≠ watch → ∃ bytes request,
          readFrame .request visit.arrivals = .ok bytes ∧ management.decode bytes = some request
          ∧ (management.session watch visit).1
            = (management.dispatch watch request visit.input).1)
      ∧ ((management.session watch visit).2 = []
        ∨ ∃ value, Frames management.json value (management.session watch visit).2
          ∧ (value = refused management.json "invalid management request"
            ∨ value = refused management.json "management request failed"
            ∨ ∃ bytes request result, readFrame .request visit.arrivals = .ok bytes
              ∧ management.decode bytes = some request
              ∧ (management.dispatch watch request visit.input).2 = .ok result
              ∧ value = succeeded management.json result))
      ∧ ∀ bytes request, visit.peer.allowed management.daemon = true →
        readFrame .request visit.arrivals = .ok bytes → management.decode bytes = some request →
        (¬ ∃ result, (management.dispatch watch request visit.input).2 = .ok result) →
        visit.input.awaited = true →
        Frames management.json (refused management.json "management request failed")
          (management.session watch visit).2 := by
  refine ⟨?_, ?_, ?_, ?_⟩
  · intro hstranger
    unfold session adminSession
    rw [if_neg (Bool.eq_false_iff.1 hstranger)]
  · intro hmoved
    rcases session_cases management watch visit with
      hsilent | hinvalid | ⟨bytes, request, -, hread, hdecode, hsession⟩
    · rw [hsilent] at hmoved
      exact absurd rfl hmoved
    · rw [hinvalid] at hmoved
      exact absurd rfl hmoved
    · exact ⟨bytes, request, hread, hdecode, congrArg Prod.fst hsession⟩
  · rcases session_cases management watch visit with
      hsilent | hinvalid | ⟨bytes, request, -, hread, hdecode, hsession⟩
    · rw [hsilent]
      exact Or.inl rfl
    · rw [hinvalid]
      exact (writeFrame_frames _).imp_right fun hframe => ⟨_, hframe, Or.inl rfl⟩
    · rw [hsession]
      dsimp only
      split_ifs
      · refine (writeFrame_frames _).imp_right fun hframe => ⟨_, hframe, ?_⟩
        cases hresult : (management.dispatch watch request visit.input).2 with
        | error e => exact Or.inr (Or.inl rfl)
        | ok result => exact Or.inr (Or.inr ⟨bytes, request, result, hread, hdecode, hresult, rfl⟩)
      · exact Or.inl rfl
  · intro bytes request hallowed hread hdecode hfailed hawaited
    have hsession : (management.session watch visit).2 = (writeFrame management.json []
        (response management.json (management.dispatch watch request visit.input).2)
          .response).1 := by
      unfold session adminSession
      rw [if_pos hallowed, hread]
      dsimp only
      rw [hdecode]
      dsimp only
      rw [if_pos hawaited]
      rfl
    rw [hsession]
    cases hresult : (management.dispatch watch request visit.input).2 with
    | ok result => exact absurd ⟨result, hresult⟩ hfailed
    | error e =>
        exact frames_of_fits (length_refused management.json (by decide +kernel) (by decide))

/-- **What a request withdraws stays withdrawn.** If the revocation of a credential is answered with a
result, then after any further sessions and events no principal of the credential is current, and
nobody logs in with its selector. The same holds of all principals and all logins of an account that
is disabled. -/
theorem withdrawn_for_good (management : Management) (root : Text) (maxMessageBytes : Nat)
    (turns later : List Managed) (request : AdminRequest) (input : AdminInput)
    {value : management.json.Value}
    (h : (management.dispatch (management.past root maxMessageBytes turns) request input).2
      = .ok value) :
    let watch := management.past root maxMessageBytes turns
    let last := management.run (management.dispatch watch request input).1 later
    (∀ selector, request = .credentialRevoke selector →
        ∃ credential, watch.world.store.db.credentialBySelector? selector = some credential
          ∧ Dismissed last.world (fun principal => principal.credentialId = credential.id)
            (fun credentials => selectorOf credentials.token = selector))
      ∧ ∀ login, request = .accountDisable login →
        ∃ address account, localAddress login management.setting.config = .ok address
          ∧ watch.world.store.db.accountByLogin? address.localKey = some account
          ∧ Dismissed last.world (fun principal => principal.accountId = account.id)
            (fun credentials => credentials.login.localKey = address.localKey) := by
  intro watch last
  have hreach : watch.world.Reachable :=
    (past_sound management root maxMessageBytes turns).reachable
  obtain ⟨events, hevents⟩ := run_events management (management.dispatch watch request input).1 later
  obtain ⟨ops, hops⟩ := Watch.run_world (management.dispatch watch request input).1 events
  rw [← hevents] at hops
  change last.world = (management.dispatch watch request input).1.world.run ops at hops
  rw [hops]
  constructor
  · rintro selector rfl
    obtain ⟨hworld, owner, hreply⟩ := Watch.dispatch_comes.done rfl h
    change (management.dispatch watch (.credentialRevoke selector) input).1.world = _ at hworld
    rw [hworld]
    exact revoked_dismissed hreach hreply ops
  · rintro login rfl
    obtain ⟨address, hlocal⟩ := Watch.dispatch_accountDisable_local h
    have hevents : (AdminRequest.accountDisable login).events management.setting.config input
        = [.change (.disableAccount address input.reading input.committed)] := by
      unfold AdminRequest.events
      dsimp only
      rw [hlocal]
    obtain ⟨hworld, owner, hreply⟩ := Watch.dispatch_comes.done hevents h
    change (management.dispatch watch (.accountDisable login) input).1.world = _ at hworld
    rw [hworld]
    obtain ⟨account, haccount, hdismissed⟩ := disabled_dismissed hreach hreply ops
    exact ⟨address, account, hlocal, haccount, hdismissed⟩

end Management

namespace Sample

/-- A daemon that understands one request. -/
def management : Management where
  json := Json.compact
  decode bytes := if bytes = ascii "revoke\n" then some (.credentialRevoke selector) else none
  setting := ⟨⟨[ascii "b.c"], 3600, 8⟩, ascii "0.1.0", ascii "lab"⟩
  daemon := ⟨1, 1⟩

def surroundings : AdminInput := ⟨.error .busy, Rustymail.Sample.reading, true, true, true⟩

/-- The request of a peer, in two pieces. -/
def revocation (peer : PeerCred) : Managed :=
  .session ⟨peer, [.ok (ascii "rev"), .ok (ascii "oke\n")], surroundings⟩

/-- The laptop is created, and somebody who may not ask for it wants it revoked. -/
def early : List Managed :=
  [.other (.call account rfl), .other (.call creation rfl), revocation ⟨7, 7⟩]

/-- The laptop logged in, and does not after its revocation, nor after it is revoked again. -/
theorem laptop_is_locked_out :
    (verifier.authenticate (management.past [] 1000 early).world
        ⟨Rustymail.Sample.recipient, token⟩ attempt).2.toOption = some ⟨1, 1, 1, .mail⟩
      ∧ ∀ w' principal, verifier.authenticate
        (management.run (management.dispatch (management.past [] 1000 early)
          (.credentialRevoke selector) surroundings).1 [revocation ⟨1, 1⟩]).world
        ⟨Rustymail.Sample.recipient, token⟩ attempt ≠ (w', .ok principal) := by
  refine ⟨by decide +kernel, ?_⟩
  have hdone : (management.dispatch (management.past [] 1000 early)
      (.credentialRevoke selector) surroundings).2.toOption.isSome = true := by decide +kernel
  obtain ⟨value, hvalue⟩ := Option.isSome_iff_exists.1 hdone
  obtain ⟨credential, -, hdismissed⟩ := (Management.withdrawn_for_good management [] 1000 early
    [revocation ⟨1, 1⟩] (.credentialRevoke selector) surroundings
      (Checked.toOption_eq_some.1 hvalue)).1 selector rfl
  intro w' principal
  exact hdismissed.barred verifier ⟨Rustymail.Sample.recipient, token⟩ attempt w' principal
    (by decide +kernel)

end Sample

end Rustymail.Server
