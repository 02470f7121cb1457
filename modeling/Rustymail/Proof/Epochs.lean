import Rustymail.Proof.AuthorityLemmas

/-!
# What keeps a principal current

Only the three operations that `change_authority` runs raise an epoch; under everything else a
current principal stays current.
-/

namespace Rustymail

open Checked Loops

/-- Every account keeps its epoch. -/
def Db.SameEpochs (db db' : Db) : Prop :=
  ∀ id account, db.account? id = some account →
    ∃ account', db'.account? id = some account' ∧ account'.authEpoch = account.authEpoch

variable {db db' db'' : Db} {w : World} {op : Op}

namespace Db.SameEpochs

theorem refl (db : Db) : db.SameEpochs db := fun _ account h => ⟨account, h, rfl⟩

theorem trans (h : db.SameEpochs db') (h' : db'.SameEpochs db'') : db.SameEpochs db'' := by
  intro id account haccount
  obtain ⟨account', haccount', hepoch⟩ := h id account haccount
  obtain ⟨account'', haccount'', hepoch'⟩ := h' id account' haccount'
  exact ⟨account'', haccount'', hepoch'.trans hepoch⟩

theorem of_tables (g : Account → Account) (accounts : List Account)
    (haccounts : db'.accounts = db.accounts.map g ++ accounts)
    (hg : ∀ row, (g row).id = row.id ∧ (g row).authEpoch = row.authEpoch) : db.SameEpochs db' := by
  intro id account hfound
  refine ⟨g account, ?_, (hg account).2⟩
  unfold Db.account?
  rw [haccounts]
  exact Db.Later.lookup_rewritten hfound (fun row => (hg row).1) accounts

theorem of_added (accounts : List Account) (haccounts : db'.accounts = db.accounts ++ accounts) :
    db.SameEpochs db' :=
  of_tables id accounts (by rw [List.map_id, haccounts]) fun _ => ⟨rfl, rfl⟩

theorem of_same (haccounts : db'.accounts = db.accounts) : db.SameEpochs db' :=
  of_added [] (by rw [List.append_nil, haccounts])

end Db.SameEpochs

theorem delivered_epochs (account : Account) (mailbox : Mailbox) (delivery : Uuid)
    (recipient message : Text) (size : Nat) (now : Int) :
    db.SameEpochs (db.delivered account mailbox delivery recipient message size now) := by
  refine .of_tables _ [] (List.append_nil _).symm ?_
  intro row
  split_ifs
  · exact ⟨rfl, rfl⟩
  · exact ⟨rfl, rfl⟩

theorem Brings.epochs (h : Brings w op db db') : db.SameEpochs db' := by
  cases h with
  | acceptance hop hvalid hauth hnew htx =>
      obtain ⟨-, delivered, hlocal, hrelay⟩ := writeAcceptance_eq_ok htx
      have hdelivered : db.SameEpochs delivered := by
        refine Db.SameEpochs.trans (.of_same rfl)
          ((sweep_foldlM hlocal).relates Db.SameEpochs .refl (fun _ _ _ => .trans) ?_)
        intro s recipient t _ hround
        obtain ⟨account, mailbox, -, rfl⟩ := deliver_eq_ok hround
        exact delivered_epochs account mailbox _ _ _ _ _
      rcases hrelay with ⟨-, rfl⟩ | ⟨r, -, hrelay⟩
      · exact hdelivered
      · obtain ⟨expires, -, rfl⟩ := insertRelay_all hrelay
        exact hdelivered.trans (.of_same rfl)
  | enqueued hop hvalid hnew htx =>
      obtain ⟨-, hrelay⟩ := writeEnqueue_eq_ok htx
      obtain ⟨expires, -, rfl⟩ := insertRelay_all hrelay
      exact .of_same rfl
  | @report prepared delivery now hop hnew heligible htx =>
      obtain ⟨-, placed, noted, hplaced, hnoted, rfl⟩ := writeReport_eq_ok htx
      obtain ⟨-, rfl⟩ := Db.insertNotification_eq_ok.1 hnoted
      have hstored : db.SameEpochs
          (db.withMessage (prepared.message.blobRow now) (reportRow prepared now)) := .of_same rfl
      have hplaced : db.SameEpochs placed := by
        rcases placeReport_eq_ok hplaced with ⟨account, mailbox, rfl⟩ | ⟨expires, rfl⟩
        · exact hstored.trans (delivered_epochs account mailbox _ _ _ _ _)
        · exact hstored.trans (.of_same rfl)
      exact hplaced.trans (.of_same rfl)

theorem Identifies.epochs (h : Identifies op db db') (hop : op.changesAuthority = false) :
    db.SameEpochs db' := by
  cases h with
  | created htx =>
      unfold createAccountTx at htx
      simp only [bind_eq_ok, pure_eq_ok, Prod.mk.injEq, and_true] at htx
      obtain ⟨db₁, haccount, db₂, haddress, db₃, hloop, rfl⟩ := htx
      obtain ⟨-, rfl⟩ := Db.insertAccount_eq_ok.1 haccount
      obtain ⟨-, rfl⟩ := Db.insertAddress_eq_ok.1 haddress
      refine Db.SameEpochs.trans (.of_added _ rfl)
        ((sweep_foldlM hloop).relates Db.SameEpochs .refl (fun _ _ _ => .trans) ?_)
      intro s name t _ hround
      obtain ⟨-, rfl⟩ := Db.insertMailbox_eq_ok.1 hround
      exact .of_same rfl
  | resized login bytes =>
      refine .of_tables _ [] (List.append_nil _).symm ?_
      intro row
      split_ifs
      · exact ⟨rfl, rfl⟩
      · exact ⟨rfl, rfl⟩
  | authenticated htx =>
      unfold finishAuthenticationTx at htx
      simp only [bind_eq_ok, require_eq_ok, pure_eq_ok, Prod.mk.injEq, and_true] at htx
      obtain ⟨-, -, rfl⟩ := htx
      exact .of_same rfl
  | issued htx =>
      obtain ⟨-, rfl⟩ := Db.insertCredential_eq_ok.1 htx
      exact .of_same rfl
  | revoked hchanges htx =>
      rw [hop] at hchanges
      cases hchanges
  | disabled hchanges htx =>
      rw [hop] at hchanges
      cases hchanges
  | sendAs heq htx =>
      rw [heq] at hop
      cases hop
  | aliased heq htx =>
      obtain ⟨-, rfl⟩ := Db.insertAddress_eq_ok.1 htx
      exact .of_same rfl

theorem Commits.epochs (h : Commits w op db db') (hop : op.changesAuthority = false) :
    db.SameEpochs db' := by
  rcases h.cases_identity with hcontent | hidentity | hbrings
  · exact .of_same hcontent.accounts
  · exact hidentity.epochs hop
  · exact hbrings.epochs

theorem World.next_epochs (w : World) (hop : op.changesAuthority = false) :
    w.store.db.SameEpochs (w.next op).store.db := by
  have hall : CommitsAll w op w.store.db (w.next op).store.db := w.next_commits op
  revert hall
  generalize (w.next op).store.db = db'
  intro hall
  induction hall with
  | refl => exact .refl _
  | tail _ hlast ih => exact ih.trans (hlast.epochs hop)

/-- A current principal whose account keeps its epoch stays current. -/
theorem Db.Later.current (h : db.Later db') (hepochs : db.SameEpochs db') {principal : Principal}
    (hcurrent : Rustymail.current db principal = true) :
    Rustymail.current db' principal = true := by
  rcases h.current_or_passed hcurrent with hstill | ⟨account', haccount', hless⟩
  · exact hstill
  · obtain ⟨-, account, -, haccount, -, hepoch, -⟩ := current_eq_true.1 hcurrent
    obtain ⟨same, hsame, heq⟩ := hepochs _ account haccount
    rw [haccount'] at hsame
    cases hsame
    omega

theorem World.next_current (h : w.Reachable) (hop : op.changesAuthority = false)
    {principal : Principal} (hcurrent : current w.store.db principal = true) :
    current (w.next op).store.db principal = true :=
  (World.next_later h op).current (w.next_epochs hop) hcurrent

end Rustymail
