import Rustymail.Server.Revocation
import Rustymail.Proof.Epochs

/-!
# No revocation is lost

The owner publishes with every change, so that a session whose principal has been passed has either
not seen a version yet or has a check pending. A check that is cancelled stays pending; one that
succeeds was made before any version that is still unseen.
-/

namespace Rustymail.Server

/-! ### The owner -/

theorem committed_or_same {α : Type} (body : Db → Except StoreError (Db × α)) (committed : Bool)
    (store : Store) :
    (∃ value, (store.transaction body (Store.commitPlain (reported committed))).2 = .ok value)
      ∨ (store.transaction body (Store.commitPlain (reported committed))).1 = store := by
  unfold Store.transaction
  cases body store.db with
  | error e => exact Or.inr rfl
  | ok result =>
      obtain ⟨db, value⟩ := result
      cases committed with
      | true => exact Or.inl ⟨value, rfl⟩
      | false => exact Or.inr rfl

theorem call_number {operation : Store → Store × Except StoreError Nat} {w : World}
    (h : (∃ value, (operation w.store).2 = .ok value) ∨ (operation w.store).1 = w.store) :
    (∃ value, (w.call operation).2 = .ok value)
      ∨ (w.call operation).1.store.db = w.store.db := by
  unfold World.call
  split_ifs
  · rcases h with hok | hsame
    · exact Or.inl hok
    · right
      change (operation w.store).1.db = w.store.db
      rw [hsame]
  · exact Or.inr rfl

/-- A change that is not published has changed nothing. -/
theorem AuthorityChange.published_or_same (change : AuthorityChange) (w : World) :
    (∃ value, (w.step change.op).2 = .number (.ok value))
      ∨ (w.step change.op).1.store.db = w.store.db := by
  have hanswer : ∀ operation : Store → Store × Except StoreError Nat,
      ((∃ value, (operation w.store).2 = .ok value) ∨ (operation w.store).1 = w.store) →
      (∃ value, (World.answer .number (w.call operation)).2 = .number (.ok value))
        ∨ (World.answer .number (w.call operation)).1.store.db = w.store.db := by
    intro operation h
    rcases call_number h with ⟨value, hok⟩ | hsame
    · exact Or.inl ⟨value, congrArg Rustymail.Reply.number hok⟩
    · exact Or.inr hsame
  cases change with
  | revokeCredential selector reading committed =>
      refine hanswer _ ?_
      unfold Rustymail.revokeCredential
      split_ifs
      · split
        · exact Or.inr rfl
        · exact committed_or_same _ committed w.store
      · exact Or.inr rfl
  | disableAccount login reading committed =>
      refine hanswer _ ?_
      unfold Rustymail.disableAccount
      split
      · exact Or.inr rfl
      · exact committed_or_same _ committed w.store
  | setSendAs login address enabled committed =>
      exact hanswer _ (committed_or_same _ committed w.store)

/-- What has passed `finish_authentication` is current. -/
theorem finishAuthentication_current {w : World} (hreach : w.Reachable) {principal : Principal}
    {reading : Reading} {faults : Faults}
    (h : (w.step (.finishAuthentication principal reading faults)).2 = .unit (.ok ())) :
    current (w.next (.finishAuthentication principal reading faults)).store.db principal = true := by
  refine World.next_current hreach rfl ?_
  have hcall : (w.call fun s => Rustymail.finishAuthentication s principal reading faults).2
      = .ok () := Rustymail.Reply.unit.inj h
  unfold World.call at hcall
  split_ifs at hcall
  change (Rustymail.finishAuthentication w.store principal reading faults).2 = .ok () at hcall
  unfold Rustymail.finishAuthentication Store.transaction at hcall
  split at hcall
  · cases hcall
  · next now hnow =>
      cases hbody : finishAuthenticationTx principal now w.store.db with
      | error e =>
          rw [hbody] at hcall
          cases hcall
      | ok result =>
          unfold finishAuthenticationTx at hbody
          rw [Checked.bind_eq_ok] at hbody
          obtain ⟨_, hcurrent, -⟩ := hbody
          exact Checked.require_eq_ok.1 hcurrent

/-! ### The invariant -/

/-- What is known about a principal the session has proven. -/
structure Known (db : Db) (version : Nat) (session : Guarded) (principal : Principal) : Prop where
  passed : current db principal = true ∨ db.Passed principal
  noticed : current db principal = true ∨ session.revocations.pending = true
    ∨ session.revocations.seen < version ∨ ∃ why, session.wait = .returned why

/-- What is known at each await point. A check that found the principal current is older than every
version that is still unseen. -/
def Guarded.Fits (db : Db) (version : Nat) (closed : Bool) (session : Guarded) : Wait → Prop
  | .idle => True
  | .changed => session.revocations.pending = false
  | .sending => session.revocations.pending = true
  | .asked none => session.revocations.pending = true
  | .asked (some true) => session.revocations.pending = true ∧ ∀ principal,
      session.principal = some principal →
      current db principal = true ∨ session.revocations.seen < version
  | .asked (some false) => session.revocations.pending = true ∧ ∀ principal,
      session.principal = some principal → db.Passed principal
  | .returned .revoked => ∀ principal, session.principal = some principal → db.Passed principal
  | .returned .closed => closed = true
  | .returned .unavailable => True

/-- The session keeps up with the channel. -/
structure Guarded.Sound (db : Db) (version : Nat) (closed : Bool) (session : Guarded) : Prop where
  seen_le : session.revocations.seen ≤ version
  known : ∀ principal, session.principal = some principal ∨ session.proven = some principal →
    Known db version session principal
  alone : session.principal = none → session.wait = .idle
  once : session.proven.isSome → session.principal = none
  fits : session.Fits db version closed session.wait

/-- The store is one that runs lead to, and the session is sound. -/
structure Watch.Sound (watch : Watch) : Prop where
  reachable : watch.world.Reachable
  session : ∀ session, watch.session = some session →
    session.Sound watch.world.store.db watch.version watch.closed

namespace Guarded.Sound

variable {db db' : Db} {version version' : Nat} {closed closed' : Bool} {session other : Guarded}

/-- The database moves on, and either nobody loses authority or the version moves on too. -/
theorem moves (h : session.Sound db version closed) (hlater : db.Later db')
    (hversion : version ≤ version') (hclosed : closed = true → closed' = true)
    (hkept : (∀ principal, current db principal = true → current db' principal = true)
      ∨ version < version') : session.Sound db' version' closed' where
  seen_le := h.seen_le.trans hversion
  known := by
    intro principal hprincipal
    obtain ⟨hpassed, hnoticed⟩ := h.known principal hprincipal
    constructor
    · rcases hpassed with hcurrent | hpassed
      · exact hlater.current_or_passed hcurrent
      · exact Or.inr (hlater.passed hpassed)
    · have hle := h.seen_le
      rcases hkept with hkept | hmore
      · rcases hnoticed with hcurrent | hpending | hunseen | hreturned
        · exact Or.inl (hkept principal hcurrent)
        · exact Or.inr (Or.inl hpending)
        · exact Or.inr (Or.inr (Or.inl (by omega)))
        · exact Or.inr (Or.inr (Or.inr hreturned))
      · exact Or.inr (Or.inr (Or.inl (by omega)))
  alone := h.alone
  once := h.once
  fits := by
    have hfits := h.fits
    have hle := h.seen_le
    revert hfits
    generalize session.wait = wait
    intro hfits
    cases wait with
    | idle => trivial
    | changed => exact hfits
    | sending => exact hfits
    | asked answer =>
        cases answer with
        | none => exact hfits
        | some answer =>
            cases answer with
            | true =>
                refine ⟨hfits.1, ?_⟩
                intro principal hprincipal
                rcases hkept with hkept | hmore
                · rcases hfits.2 principal hprincipal with hcurrent | hunseen
                  · exact Or.inl (hkept principal hcurrent)
                  · exact Or.inr (by omega)
                · exact Or.inr (by omega)
            | false =>
                refine ⟨hfits.1, ?_⟩
                intro principal hprincipal
                exact hlater.passed (hfits.2 principal hprincipal)
    | returned why =>
        cases why with
        | closed => exact hclosed hfits
        | unavailable => trivial
        | revoked =>
            intro principal hprincipal
            exact hlater.passed (hfits principal hprincipal)

theorem subscribe (db : Db) (version : Nat) (closed : Bool) :
    (Guarded.subscribe version).Sound db version closed where
  seen_le := Nat.le_refl version
  known := by
    rintro principal (h | h)
    · cases h
    · cases h
  alone _ := rfl
  once h := by cases h
  fits := trivial

theorem prove (h : session.Sound db version closed) {principal : Principal}
    (hcurrent : current db principal = true) :
    (session.prove principal).Sound db version closed := by
  unfold Guarded.prove
  split_ifs with hnone
  · rw [Bool.and_eq_true, Option.isNone_iff_eq_none, Option.isNone_iff_eq_none] at hnone
    have hidle := h.alone hnone.1
    refine ⟨h.seen_le, ?_, fun _ => hidle, fun _ => hnone.1, ?_⟩
    · rintro other (hother | hother)
      · change session.principal = some other at hother
        rw [hnone.1] at hother
        cases hother
      · cases hother
        exact ⟨Or.inl hcurrent, Or.inl hcurrent⟩
    · change Fits db version closed _ session.wait
      rw [hidle]
      trivial
  · exact h

theorem authenticate (h : session.Sound db version closed) :
    session.authenticate.Sound db version closed := by
  unfold Guarded.authenticate
  cases hproven : session.proven with
  | none => exact h
  | some principal =>
      have hidle := h.alone (h.once (by rw [hproven]; rfl))
      refine ⟨h.seen_le, ?_, fun _ => hidle, (fun hsome => by cases hsome), ?_⟩
      · rintro other (hother | hother)
        · cases hother
          obtain ⟨hpassed, hnoticed⟩ := h.known principal (Or.inr hproven)
          exact ⟨hpassed, hnoticed⟩
        · cases hother
      · change Fits db version closed _ session.wait
        rw [hidle]
        trivial

/-- A step of `wait` itself, which keeps the principals. -/
theorem steps (h : session.Sound db version closed) (hrunning : session.principal.isSome)
    (revocations : Revocations) (wait : Wait) (hseen : revocations.seen ≤ version)
    (hnoticed : ∀ principal, session.principal = some principal →
      current db principal = true ∨ revocations.pending = true ∨ revocations.seen < version
        ∨ ∃ why, wait = .returned why)
    (hfits : ({ session with revocations := revocations, wait := wait } : Guarded).Fits db version
      closed wait) :
    ({ session with revocations := revocations, wait := wait } : Guarded).Sound db version
      closed where
  seen_le := hseen
  known := by
    rintro principal (hthis | hthis)
    · exact ⟨(h.known principal (Or.inl hthis)).passed, hnoticed principal hthis⟩
    · have hnone := h.once (Option.isSome_iff_exists.2 ⟨principal, hthis⟩)
      rw [hnone] at hrunning
      cases hrunning
  alone := by
    intro hnone
    change session.principal = none at hnone
    rw [hnone] at hrunning
    cases hrunning
  once := h.once
  fits := hfits

theorem running (h : session.Sound db version closed) (hwait : session.wait ≠ .idle) :
    session.principal.isSome := by
  rw [Option.isSome_iff_ne_none]
  intro hnone
  exact hwait (h.alone hnone)

/-- As long as `wait` runs, what it has to notice is pending or unseen. -/
theorem noticed (h : session.Sound db version closed) {principal : Principal}
    (hprincipal : session.principal = some principal)
    (hrunning : ∀ why, session.wait ≠ .returned why) :
    current db principal = true ∨ session.revocations.pending = true
      ∨ session.revocations.seen < version := by
  rcases (h.known principal (Or.inl hprincipal)).noticed with
    hcurrent | hpending | hunseen | ⟨why, hreturned⟩
  · exact Or.inl hcurrent
  · exact Or.inr (Or.inl hpending)
  · exact Or.inr (Or.inr hunseen)
  · exact absurd hreturned (hrunning why)

theorem abandon (h : session.Sound db version closed) :
    session.abandon.Sound db version closed where
  seen_le := h.seen_le
  known := by
    rintro principal (hprincipal | hproven)
    · obtain ⟨hpassed, hnoticed⟩ := h.known principal (Or.inl hprincipal)
      exact ⟨hpassed, hnoticed⟩
    · cases hproven
  alone := h.alone
  once hsome := by cases hsome
  fits := by
    have hfits := h.fits
    unfold Guarded.abandon
    revert hfits
    cases session.wait with
    | asked answer =>
        cases answer with
        | none => exact id
        | some answer => cases answer <;> exact id
    | returned why => cases why <;> exact id
    | _ => exact id

theorem enter (h : session.Sound db version closed) : session.enter.Sound db version closed := by
  unfold Guarded.enter
  split
  · next principal hprincipal hidle =>
      have hrunning : ∀ why, session.wait ≠ .returned why := by
        intro why hwait
        rw [hidle] at hwait
        cases hwait
      refine h.steps (by rw [hprincipal]; rfl) session.revocations _ h.seen_le ?_ ?_
      · intro other hother
        rcases h.noticed hother hrunning with hcurrent | hpending | hunseen
        · exact Or.inl hcurrent
        · exact Or.inr (Or.inl hpending)
        · exact Or.inr (Or.inr (Or.inl hunseen))
      · split_ifs with hpending
        · exact hpending
        · rw [Bool.not_eq_true] at hpending
          exact hpending
  · exact h

theorem poll (h : session.Sound db version closed) :
    (session.poll version closed).Sound db version closed := by
  have hfits := h.fits
  unfold Guarded.poll
  split
  · next hwait =>
      have hrunning := h.running (by rw [hwait]; exact Wait.noConfusion)
      split_ifs with hunseen hclosed
      · exact h.steps hrunning ⟨version, true⟩ .sending (Nat.le_refl _)
          (fun _ _ => Or.inr (Or.inl rfl)) rfl
      · exact h.steps hrunning session.revocations (.returned .closed) h.seen_le
          (fun _ _ => Or.inr (Or.inr (Or.inr ⟨_, rfl⟩))) hclosed
      · exact h
  · next hwait =>
      rw [hwait] at hfits
      exact h.steps (h.running (by rw [hwait]; exact Wait.noConfusion)) session.revocations
        (.asked none) h.seen_le (fun _ _ => Or.inr (Or.inl hfits)) hfits
  · next hwait =>
      rw [hwait] at hfits
      refine h.steps (h.running (by rw [hwait]; exact Wait.noConfusion)) ⟨_, false⟩ .changed h.seen_le
        ?_ rfl
      intro principal hprincipal
      rcases hfits.2 principal hprincipal with hcurrent | hunseen
      · exact Or.inl hcurrent
      · exact Or.inr (Or.inr (Or.inl hunseen))
  · next hwait =>
      rw [hwait] at hfits
      exact h.steps (h.running (by rw [hwait]; exact Wait.noConfusion)) session.revocations
        (.returned .revoked) h.seen_le (fun _ _ => Or.inr (Or.inr (Or.inr ⟨_, rfl⟩))) hfits.2
  · exact h

theorem serve (h : session.Sound db version closed) : (session.serve db).Sound db version closed := by
  have hfits := h.fits
  unfold Guarded.serve
  split
  · next principal hprincipal hwait =>
      rw [hwait] at hfits
      refine h.steps (by rw [hprincipal]; rfl) session.revocations _ h.seen_le
        (fun _ _ => Or.inr (Or.inl hfits)) ?_
      cases hcurrent : current db principal with
      | true =>
          refine ⟨hfits, ?_⟩
          intro other hother
          change session.principal = some other at hother
          rw [hprincipal] at hother
          cases hother
          exact Or.inl hcurrent
      | false =>
          refine ⟨hfits, ?_⟩
          intro other hother
          change session.principal = some other at hother
          rw [hprincipal] at hother
          cases hother
          rcases (h.known principal (Or.inl hprincipal)).passed with hstill | hpassed
          · rw [hcurrent] at hstill
            cases hstill
          · exact hpassed
  · exact h

theorem refuse (h : session.Sound db version closed) : session.refuse.Sound db version closed := by
  have hreturns : session.wait ≠ .idle →
      ({ session with wait := .returned .unavailable } : Guarded).Sound db version closed := by
    intro hwait
    exact h.steps (h.running hwait) session.revocations (.returned .unavailable) h.seen_le
      (fun _ _ => Or.inr (Or.inr (Or.inr ⟨_, rfl⟩))) trivial
  unfold Guarded.refuse
  split
  · next hwait => exact hreturns (by rw [hwait]; exact Wait.noConfusion)
  · next hwait => exact hreturns (by rw [hwait]; exact Wait.noConfusion)
  · exact h

theorem cancel (h : session.Sound db version closed) : session.cancel.Sound db version closed := by
  have hidle : (∀ why, session.wait ≠ .returned why) →
      ({ session with wait := .idle } : Guarded).Sound db version closed := by
    intro hrunning
    refine ⟨h.seen_le, ?_, fun _ => rfl, h.once, trivial⟩
    intro principal hprincipal
    obtain ⟨hpassed, hnoticed⟩ := h.known principal hprincipal
    refine ⟨hpassed, ?_⟩
    rcases hnoticed with hcurrent | hpending | hunseen | ⟨why, hreturned⟩
    · exact Or.inl hcurrent
    · exact Or.inr (Or.inl hpending)
    · exact Or.inr (Or.inr (Or.inl hunseen))
    · exact absurd hreturned (hrunning why)
  unfold Guarded.cancel
  split
  · exact h
  · next hother => exact hidle hother

end Guarded.Sound

/-! ### Every run -/

namespace Watch

variable {watch : Watch}

theorem Sound.init (root : Text) (maxMessageBytes : Nat) : (init root maxMessageBytes).Sound where
  reachable := World.reachable_run root maxMessageBytes []
  session := by
    intro session h
    cases h

/-- A step of the session alone. -/
theorem Sound.on (h : watch.Sound) (f : Guarded → Guarded)
    (hf : ∀ session : Guarded, session.Sound watch.world.store.db watch.version watch.closed →
      (f session).Sound watch.world.store.db watch.version watch.closed) : (watch.on f).Sound where
  reachable := h.reachable
  session := by
    intro session hsession
    change watch.session.map f = some session at hsession
    obtain ⟨old, hold, rfl⟩ := Option.map_eq_some_iff.1 hsession
    exact hf old (h.session old hold)

/-- The owner runs something that leaves authority alone. -/
theorem Sound.called (h : watch.Sound) {op : Op} (hop : op.changesAuthority = false) :
    ({ watch with world := watch.world.next op } : Watch).Sound where
  reachable := h.reachable.next op
  session := by
    intro session hsession
    exact (h.session session hsession).moves (World.next_later h.reachable op) (Nat.le_refl _) id
      (Or.inl fun _ => World.next_current h.reachable hop)

theorem Sound.changeAuthority (h : watch.Sound) (change : AuthorityChange) :
    (watch.changeAuthority change).Sound := by
  have hlater := World.next_later h.reachable change.op
  have hreach := h.reachable.next change.op
  have hpublished := change.published_or_same watch.world
  unfold World.next at hlater hreach
  unfold Watch.changeAuthority
  split
  · next world account hstep =>
      rw [hstep] at hlater hreach
      refine ⟨hreach, ?_⟩
      intro session hsession
      exact (h.session session hsession).moves hlater (Nat.le_succ _) id
        (Or.inr (Nat.lt_succ_self _))
  · next world reply hother hstep =>
      rw [hstep] at hlater hreach hpublished
      have hsame : world.store.db = watch.world.store.db := by
        rcases hpublished with ⟨value, hreply⟩ | hsame
        · exact absurd hreply (hother value)
        · exact hsame
      refine ⟨hreach, ?_⟩
      intro session hsession
      refine (h.session session hsession).moves hlater (Nat.le_refl _) id (Or.inl ?_)
      intro principal hcurrent
      change current world.store.db principal = true
      rw [hsame]
      exact hcurrent

theorem Sound.finishAuthentication (h : watch.Sound) (principal : Principal) (reading : Reading)
    (faults : Faults) : (watch.finishAuthentication principal reading faults).Sound := by
  have hcalled : ({ watch with
      world := watch.world.next (.finishAuthentication principal reading faults) } : Watch).Sound :=
    h.called rfl
  have hcurrent := @finishAuthentication_current watch.world h.reachable principal reading faults
  unfold World.next at hcalled hcurrent
  unfold Watch.finishAuthentication
  split
  · next world done hstep =>
      rw [hstep] at hcalled hcurrent
      exact hcalled.on _ fun session hsession => hsession.prove (hcurrent rfl)
  · next world reply hother hstep =>
      rw [hstep] at hcalled
      exact hcalled

theorem Sound.step (h : watch.Sound) (event : Event) : (watch.step event).Sound := by
  cases event with
  | change change => exact h.changeAuthority change
  | call op hop => exact h.called hop
  | close =>
      refine ⟨h.reachable, ?_⟩
      intro session hsession
      exact (h.session session hsession).moves (.refl _) (Nat.le_refl _) (fun _ => rfl)
        (Or.inl fun _ => id)
  | subscribe =>
      unfold Watch.step
      dsimp only
      split
      · refine ⟨h.reachable, ?_⟩
        intro session hsession
        cases hsession
        exact .subscribe _ _ _
      · exact h
  | prove principal reading faults => exact h.finishAuthentication principal reading faults
  | authenticate => exact h.on _ fun _ => .authenticate
  | abandon => exact h.on _ fun _ => .abandon
  | enter => exact h.on _ fun _ => .enter
  | poll => exact h.on _ fun _ => .poll
  | serve => exact h.on _ fun _ => .serve
  | refuse => exact h.on _ fun _ => .refuse
  | cancel => exact h.on _ fun _ => .cancel

theorem Sound.run (h : watch.Sound) (events : List Event) : (watch.run events).Sound :=
  Runs.invariant Sound h (fun _ event hwatch => hwatch.step event) events

end Watch

/-! ### An uninterrupted wait returns -/

/-- How far `wait` is from its return, once the principal has been passed. -/
def Wait.distance : Wait → Nat
  | .idle => 6
  | .asked (some true) => 5
  | .changed => 4
  | .sending => 3
  | .asked none => 2
  | .asked (some false) => 1
  | .returned _ => 0

theorem Wait.distance_le {wait : Wait} (h : wait ≠ .idle) : wait.distance ≤ 5 := by
  cases wait with
  | idle => exact absurd rfl h
  | changed => decide
  | sending => decide
  | asked answer =>
      cases answer with
      | none => decide
      | some answer => cases answer <;> decide
  | returned why => exact Nat.zero_le 5

theorem Wait.returned_of_distance {wait : Wait} (h : wait.distance ≤ 0) :
    ∃ why, wait = .returned why := by
  cases wait with
  | returned why => exact ⟨why, rfl⟩
  | asked answer =>
      cases answer with
      | none => exact absurd h (by decide)
      | some answer => cases answer <;> exact absurd h (by decide)
  | _ => exact absurd h (by decide)

namespace Watch

variable {watch : Watch} {n : Nat}

/-- `wait` runs for a principal that has been passed, and is at most so far from its return. -/
def Within (watch : Watch) (n : Nat) : Prop :=
  ∃ session principal, watch.session = some session ∧ session.principal = some principal
    ∧ watch.world.store.db.Passed principal ∧ session.wait.distance ≤ n

theorem Within.mono {m : Nat} (h : watch.Within n) (hle : n ≤ m) : watch.Within m := by
  obtain ⟨session, principal, hsession, hprincipal, hpassed, hdistance⟩ := h
  exact ⟨session, principal, hsession, hprincipal, hpassed, hdistance.trans hle⟩

/-- A step of the session that keeps its principal. -/
theorem Within.on {m : Nat} (h : watch.Within n) (f : Guarded → Guarded)
    (hprincipal : ∀ session principal, session.principal = some principal →
      (f session).principal = some principal)
    (hdistance : ∀ session principal, watch.session = some session →
      session.principal = some principal → watch.world.store.db.Passed principal →
      session.wait.distance ≤ n → (f session).wait.distance ≤ m) : (watch.on f).Within m := by
  obtain ⟨session, principal, hsession, hthis, hpassed, hwithin⟩ := h
  refine ⟨f session, principal, ?_, hprincipal session principal hthis, hpassed,
    hdistance session principal hsession hthis hpassed hwithin⟩
  change watch.session.map f = _
  rw [hsession]
  rfl

theorem Within.moves (h : watch.Within n) {world : World} {version : Nat} {closed : Bool}
    (hlater : watch.world.store.db.Later world.store.db) :
    (⟨world, version, closed, watch.session⟩ : Watch).Within n := by
  obtain ⟨session, principal, hsession, hprincipal, hpassed, hdistance⟩ := h
  exact ⟨session, principal, hsession, hprincipal, hlater.passed hpassed, hdistance⟩

theorem poll_principal (version : Nat) (closed : Bool) (session : Guarded) :
    (session.poll version closed).principal = session.principal := by
  unfold Guarded.poll
  split
  · split_ifs
    · rfl
    · rfl
    · rfl
  · rfl
  · rfl
  · rfl
  · rfl

/-- A poll brings `wait` nearer to its return, unless the owner has to reply first. -/
theorem poll_distance {session : Guarded} {principal : Principal} (hsound : watch.Sound)
    (hsession : watch.session = some session) (hprincipal : session.principal = some principal)
    (hpassed : watch.world.store.db.Passed principal) (hdistance : session.wait.distance ≤ 5) :
    (session.poll watch.version watch.closed).wait.distance ≤ session.wait.distance - 1
      ∨ (session.wait = .asked none
        ∧ (session.poll watch.version watch.closed).wait = .asked none) := by
  have hsession := hsound.session session hsession
  have hfits := hsession.fits
  unfold Guarded.poll
  cases hwait : session.wait with
  | idle =>
      rw [hwait] at hdistance
      exact absurd hdistance (by decide)
  | changed =>
      -- nothing is pending here, so that the version that took the authority is still unseen
      have hunseen : session.revocations.seen < watch.version := by
        rw [hwait] at hfits
        rcases hsession.noticed hprincipal (by rw [hwait]; intro why h; cases h) with
          hcurrent | hpending | hunseen
        · rw [hpassed.not_current] at hcurrent
          cases hcurrent
        · rw [hfits] at hpending
          cases hpending
        · exact hunseen
      dsimp only
      rw [if_pos hunseen]
      exact Or.inl (Nat.le_refl 3)
  | sending => exact Or.inl (Nat.le_refl 2)
  | asked answer =>
      cases answer with
      | none => exact Or.inr ⟨rfl, hwait⟩
      | some answer =>
          cases answer with
          | true => exact Or.inl (Nat.le_refl 4)
          | false => exact Or.inl (Nat.le_refl 0)
  | returned why =>
      left
      dsimp only
      rw [hwait]
      exact Nat.le_refl 0

theorem Within.poll (h : watch.Within n) (hn : n ≤ 5) (hsound : watch.Sound) :
    (watch.step .poll).Within (n - 1) ∨ (2 ≤ n ∧ (watch.step .poll).Within 2) := by
  obtain ⟨session, principal, hsession, hprincipal, hpassed, hdistance⟩ := h
  have hpolled : (watch.step .poll).session = some (session.poll watch.version watch.closed) := by
    change watch.session.map _ = _
    rw [hsession]
    rfl
  have hkept := (poll_principal watch.version watch.closed session).trans hprincipal
  rcases poll_distance hsound hsession hprincipal hpassed (hdistance.trans hn) with
    hless | ⟨hwait, hsame⟩
  · exact Or.inl ⟨_, principal, hpolled, hkept, hpassed, by omega⟩
  · rw [hwait] at hdistance
    refine Or.inr ⟨hdistance, _, principal, hpolled, hkept, hpassed, ?_⟩
    rw [hsame]
    exact Nat.le_refl 2

theorem serve_principal (db : Db) (session : Guarded) :
    (session.serve db).principal = session.principal := by
  unfold Guarded.serve
  split
  · rfl
  · rfl

/-- The owner's reply brings `wait` before its return. -/
theorem serve_distance {db : Db} {session : Guarded} {principal : Principal}
    (hprincipal : session.principal = some principal) (hpassed : db.Passed principal) :
    (session.serve db).wait.distance
      ≤ if session.wait = .asked none then 1 else session.wait.distance := by
  unfold Guarded.serve
  rw [hprincipal]
  split
  · next hsome hwait =>
      cases hsome
      rw [if_pos hwait, hpassed.not_current]
      exact Nat.le_refl 1
  · next hother =>
      rw [if_neg (fun hwait => hother principal rfl hwait)]

theorem Within.serve (h : watch.Within 2) : (watch.step .serve).Within 1 := by
  refine h.on _ (fun session _ => (serve_principal _ session).trans) ?_
  intro session principal _ hprincipal hpassed hdistance
  refine (serve_distance hprincipal hpassed).trans ?_
  split_ifs with hwait
  · exact Nat.le_refl 1
  · cases hcase : session.wait with
    | asked answer =>
        rw [hcase] at hdistance hwait
        cases answer with
        | none => exact absurd rfl hwait
        | some answer =>
            cases answer with
            | true => exact absurd hdistance (by decide)
            | false => exact Nat.le_refl 1
    | returned why => exact Nat.zero_le 1
    | _ =>
        rw [hcase] at hdistance
        exact absurd hdistance (by decide)

theorem refuse_distance (session : Guarded) :
    session.refuse.wait.distance ≤ session.wait.distance := by
  unfold Guarded.refuse
  split
  · exact Nat.zero_le _
  · exact Nat.zero_le _
  · exact Nat.le_refl _

/-- Whatever happens, short of a cancellation, `wait` does not fall back. -/
theorem Within.step (h : watch.Within n) (hn : n ≤ 5) (hsound : watch.Sound) {event : Event}
    (hevent : event ≠ .cancel) : (watch.step event).Within n := by
  cases event with
  | change change =>
      have hlater := World.next_later hsound.reachable change.op
      unfold World.next at hlater
      change (watch.changeAuthority change).Within n
      unfold Watch.changeAuthority
      split
      · next world account hstep =>
          rw [hstep] at hlater
          exact h.moves hlater
      · next world reply hother hstep =>
          rw [hstep] at hlater
          exact h.moves hlater
  | call op hop => exact h.moves (World.next_later hsound.reachable op)
  | close => exact h.moves (.refl _)
  | subscribe =>
      obtain ⟨session, principal, hsession, hrest⟩ := h
      unfold Watch.step
      dsimp only
      rw [hsession]
      exact ⟨session, principal, hsession, hrest⟩
  | prove principal reading faults =>
      have hlater := World.next_later hsound.reachable (.finishAuthentication principal reading faults)
      unfold World.next at hlater
      change (watch.finishAuthentication principal reading faults).Within n
      unfold Watch.finishAuthentication
      split
      · next world done hstep =>
          rw [hstep] at hlater
          have hmoved : ({ watch with world := world } : Watch).Within n := h.moves hlater
          refine hmoved.on _ ?_ ?_
          · intro session other hprincipal
            unfold Guarded.prove
            rw [hprincipal]
            exact hprincipal
          · intro session other _ hprincipal _ hdistance
            unfold Guarded.prove
            rw [hprincipal]
            exact hdistance
      · next world reply hother hstep =>
          rw [hstep] at hlater
          exact h.moves hlater
  | authenticate =>
      obtain ⟨session, principal, hsession, hprincipal, hrest⟩ := h
      have hproven : session.proven = none := by
        by_contra hsome
        have hnone := (hsound.session session hsession).once (Option.isSome_iff_ne_none.2 hsome)
        rw [hprincipal] at hnone
        cases hnone
      have hsame : session.authenticate = session := by
        unfold Guarded.authenticate
        rw [hproven]
      refine ⟨session, principal, ?_, hprincipal, hrest⟩
      change watch.session.map Guarded.authenticate = some session
      rw [hsession, Option.map_some, hsame]
  | abandon => exact h.on _ (fun _ _ => id) fun _ _ _ _ _ => id
  | enter =>
      refine h.on _ ?_ ?_
      · intro session principal hprincipal
        unfold Guarded.enter
        split
        · exact hprincipal
        · exact hprincipal
      · intro session principal _ hprincipal _ hdistance
        unfold Guarded.enter
        split
        · next hidle =>
            rw [hidle] at hdistance
            exact absurd (hdistance.trans hn) (by decide)
        · exact hdistance
  | poll =>
      rcases h.poll hn hsound with hless | ⟨htwo, hsame⟩
      · exact hless.mono (by omega)
      · exact hsame.mono htwo
  | serve =>
      refine h.on _ (fun session _ => (serve_principal _ session).trans) ?_
      intro session principal _ hprincipal hpassed hdistance
      refine (serve_distance hprincipal hpassed).trans ?_
      split_ifs with hwait
      · rw [hwait] at hdistance
        exact (by decide : (1 : Nat) ≤ 2).trans hdistance
      · exact hdistance
  | refuse =>
      refine h.on _ ?_ ?_
      · intro session principal hprincipal
        unfold Guarded.refuse
        split
        · exact hprincipal
        · exact hprincipal
        · exact hprincipal
      · intro session principal _ _ _ hdistance
        exact (refuse_distance session).trans hdistance
  | cancel => exact absurd rfl hevent

theorem Within.run (h : watch.Within n) (hn : n ≤ 5) (hsound : watch.Sound) {events : List Event}
    (hevents : .cancel ∉ events) : (watch.run events).Within n := by
  induction events generalizing watch with
  | nil => exact h
  | cons event rest ih =>
      rw [List.mem_cons, not_or] at hevents
      exact ih (h.step hn hsound (Ne.symm hevents.1)) (hsound.step event) hevents.2

/-- Once more the session is polled and the owner replies, among other things. -/
def round (noise : List Event × List Event) : List Event :=
  noise.1 ++ .poll :: (noise.2 ++ [.serve])

theorem Within.after_round (h : watch.Within (n + 1)) (hn : n + 1 ≤ 5) (hsound : watch.Sound)
    {noise : List Event × List Event} (hfirst : .cancel ∉ noise.1) (hsecond : .cancel ∉ noise.2) :
    (watch.run (round noise)).Within n := by
  have hbefore := h.run hn hsound hfirst
  have hsound := hsound.run noise.1
  have hrun : watch.run (Watch.round noise)
      = (((watch.run noise.1).step .poll).run noise.2).step .serve := by
    unfold Watch.run Watch.round
    rw [Runs.run_append, Runs.run_cons, Runs.run_snoc]
  rw [hrun]
  rcases hbefore.poll hn hsound with hless | ⟨htwo, hsame⟩
  · have hle : n ≤ 5 := by omega
    have hafter := Within.run (n := n) hless hle (hsound.step .poll) hsecond
    exact hafter.step hle ((hsound.step .poll).run noise.2) (by intro h; cases h)
  · have hafter := hsame.run (by omega) (hsound.step .poll) hsecond
    exact hafter.serve.mono (by omega)

theorem Within.after_rounds {rounds : List (List Event × List Event)} (h : watch.Within n)
    (hn : n ≤ 5) (hsound : watch.Sound) (hlong : n ≤ rounds.length)
    (hnoise : ∀ noise ∈ rounds, .cancel ∉ noise.1 ∧ .cancel ∉ noise.2) :
    (watch.run (rounds.flatMap Watch.round)).Within 0 := by
  induction rounds generalizing watch n with
  | nil => exact h.mono hlong
  | cons noise rounds ih =>
      obtain ⟨hfirst, hsecond⟩ := hnoise noise List.mem_cons_self
      have hrun : watch.run ((noise :: rounds).flatMap Watch.round)
          = (watch.run (Watch.round noise)).run (rounds.flatMap Watch.round) := by
        unfold Watch.run
        rw [List.flatMap_cons, Runs.run_append]
      rw [hrun]
      rw [List.length_cons] at hlong
      have hnoise' : ∀ noise ∈ rounds, .cancel ∉ noise.1 ∧ .cancel ∉ noise.2 :=
        fun noise hmem => hnoise noise (List.mem_cons_of_mem _ hmem)
      have hnext : (watch.run (Watch.round noise)).Within (n - 1) := by
        cases n with
        | zero =>
            refine h.run hn hsound ?_
            unfold Watch.round
            simp only [List.mem_append, List.mem_cons, List.not_mem_nil, or_false, not_or]
            exact ⟨hfirst, (by intro heq; cases heq), hsecond, (by intro heq; cases heq)⟩
        | succ n => exact h.after_round hn hsound hfirst hsecond
      exact ih hnext (by omega) (hsound.run _) (by omega) hnoise'

/-- What a session has outlived it has not overlooked. -/
theorem Outlived.noticed {session : Guarded} {principal : Principal}
    (h : watch.Outlived session principal) (hsound : watch.Sound) :
    session.revocations.pending = true ∨ session.revocations.seen < watch.version := by
  obtain ⟨hsession, hprincipal, hrevoked, hrunning⟩ := h
  rcases (hsound.session session hsession).noticed hprincipal hrunning with
    hcurrent | hpending | hunseen
  · rw [hrevoked] at hcurrent
    cases hcurrent
  · exact Or.inl hpending
  · exact Or.inr hunseen

theorem Outlived.enter {session : Guarded} {principal : Principal} (hsound : watch.Sound)
    (h : watch.Outlived session principal) : (watch.step .enter).Within 5 := by
  obtain ⟨hsession, hprincipal, hrevoked, hrunning⟩ := h
  have hpassed : watch.world.store.db.Passed principal := by
    rcases ((hsound.session session hsession).known principal (Or.inl hprincipal)).passed with
      hcurrent | hpassed
    · rw [hrevoked] at hcurrent
      cases hcurrent
    · exact hpassed
  have hentered : (watch.step .enter).session = some session.enter := by
    change watch.session.map Guarded.enter = _
    rw [hsession]
    rfl
  refine ⟨session.enter, principal, hentered, ?_, hpassed, ?_⟩
  · unfold Guarded.enter
    split
    · exact hprincipal
    · exact hprincipal
  · refine Wait.distance_le ?_
    unfold Guarded.enter
    rw [hprincipal]
    split
    · dsimp only
      split_ifs
      · exact Wait.noConfusion
      · exact Wait.noConfusion
    · next hother => exact hother principal rfl

end Watch

/-- In every state that events lead to: a session whose principal is no longer current has a pending
check or an unseen version, unless `wait` has returned; called again and left alone, `wait` returns
after a few polls and replies, whatever else happens; and it does not return for a principal that is
current unless the store is unavailable or the channel closed. An authority change is taken to be
reported truthfully, so that its version is published exactly if it is committed. -/
theorem no_lost_revocation (root : Text) (maxMessageBytes : Nat) (events : List Watch.Event) :
    (∀ session principal,
        ((Watch.init root maxMessageBytes).run events).Outlived session principal →
        session.revocations.pending = true
          ∨ session.revocations.seen < ((Watch.init root maxMessageBytes).run events).version)
      ∧ (∀ session principal (rounds : List (List Watch.Event × List Watch.Event)),
        ((Watch.init root maxMessageBytes).run events).Outlived session principal →
        5 ≤ rounds.length → (∀ noise ∈ rounds, .cancel ∉ noise.1 ∧ .cancel ∉ noise.2) →
        ∃ session' why,
          ((Watch.init root maxMessageBytes).run
            (events ++ .enter :: rounds.flatMap Watch.round)).session = some session'
          ∧ session'.wait = .returned why)
      ∧ ∀ session principal why,
        ((Watch.init root maxMessageBytes).run events).session = some session →
        session.principal = some principal → session.wait = .returned why →
        current ((Watch.init root maxMessageBytes).run events).world.store.db principal = true →
        why = .unavailable
          ∨ (why = .closed ∧ ((Watch.init root maxMessageBytes).run events).closed = true) := by
  have hsound := (Watch.Sound.init root maxMessageBytes).run events
  refine ⟨?_, ?_, ?_⟩
  · intro session principal houtlived
    exact houtlived.noticed hsound
  · intro session principal rounds houtlived hlong hnoise
    have hrun : (Watch.init root maxMessageBytes).run
          (events ++ .enter :: rounds.flatMap Watch.round)
        = ((((Watch.init root maxMessageBytes).run events).step .enter).run
          (rounds.flatMap Watch.round)) := by
      unfold Watch.run
      rw [Runs.run_append, Runs.run_cons]
    obtain ⟨session', principal', hsession', -, -, hdistance⟩ :=
      (houtlived.enter hsound).after_rounds (Nat.le_refl 5) (hsound.step .enter) hlong hnoise
    obtain ⟨why, hwait⟩ := Wait.returned_of_distance hdistance
    rw [hrun]
    exact ⟨session', why, hsession', hwait⟩
  · intro session principal why hsession hprincipal hwait hcurrent
    have hfits := (hsound.session session hsession).fits
    rw [hwait] at hfits
    cases why with
    | closed => exact Or.inr ⟨rfl, hfits⟩
    | unavailable => exact Or.inl rfl
    | revoked =>
        rw [(hfits principal hprincipal).not_current] at hcurrent
        cases hcurrent

end Rustymail.Server
