import BrivoUsbs.Properties.EventLog
import BrivoUsbs.Properties.Screening

/-!
# Frozen accounts

An account that the lists of the token and the lists of the manager both report as blocked or as
sanctioned is frozen.  Each path enforces this somewhere else: the hub screens who subscribes and
whom an entry is written for, the loop of `claimRedemption` screens each user it pays, and where
the hub screens nobody, in `requestRedemption` and in `claimMint`, the hook of the token does.

`frozen_throughout` follows a frozen account through a run: its USBS stay where they are, it moves
nobody else's, the manager moves no collateral to or from it, and it gets no entries.
-/

namespace BrivoUsbs

/-! ## Transfers of the collateral -/

namespace ERC20

variable {token token' : ERC20} {a b c : Address} {amount : Uint256}
  {P Q : Address → Address → Prop}

/-- The transfers on the way from `token` to `token'` have sources and destinations as in `P`. -/
def TransfersOnly (P : Address → Address → Prop) (token token' : ERC20) : Prop :=
  ∃ events, token'.log = token.log ++ events ∧
    ∀ source dest value, .transfer source dest value ∈ events → P source dest

lemma TransfersOnly.refl (token : ERC20) : TransfersOnly P token token :=
  ⟨[], by simp, by simp⟩

lemma TransfersOnly.trans {token₁ token₂ token₃ : ERC20} (h : TransfersOnly P token₁ token₂)
    (h' : TransfersOnly P token₂ token₃) : TransfersOnly P token₁ token₃ := by
  obtain ⟨events, hlog, hevents⟩ := h
  obtain ⟨events', hlog', hevents'⟩ := h'
  refine ⟨events ++ events', by rw [hlog', hlog, List.append_assoc], ?_⟩
  intro source dest value hmem
  rcases List.mem_append.mp hmem with hmem | hmem
  · exact hevents source dest value hmem
  · exact hevents' source dest value hmem

lemma spendAllowance_transfers (h : token.spendAllowance a b amount = .ok token') :
    TransfersOnly P token token' := by
  unfold spendAllowance at h
  split at h
  · cases h
    exact .refl token
  · simp only [internalApprove, bind_eq_ok, require_eq_ok, pure_eq_ok, exists_const] at h
    obtain ⟨-, -, -, rfl⟩ := h
    exact ⟨[_], rfl, by simp⟩

lemma safeTransferFrom_transfers (h : safeTransferFrom token c a b amount = .ok token')
    (hP : P a b) : TransfersOnly P token token' := by
  have hmoved := safeTransferFrom_erc20 h
  simp only [transferFrom, bind_eq_ok] at hmoved
  obtain ⟨spent, hspent, hmoved⟩ := hmoved
  refine (spendAllowance_transfers hspent).trans ?_
  simp only [internalTransfer, bind_eq_ok, require_eq_ok, pure_eq_ok, exists_const] at hmoved
  obtain ⟨-, -, _, -, -, _, -, rfl⟩ := hmoved
  refine ⟨[.transfer a b amount], rfl, ?_⟩
  intro source dest value hmem
  obtain ⟨rfl, rfl, -⟩ : source = a ∧ dest = b ∧ value = amount := by simpa using hmem
  exact hP

end ERC20

namespace RWAHub

lemma transferFees_transfers {hub : RWAHub} {token token' : ERC20} {self source : Address}
    {fees : Uint256} {P : Address → Address → Prop}
    (h : hub.transferFees token self source fees = .ok token')
    (hP : P source hub.params.feeRecipient) : ERC20.TransfersOnly P token token' := by
  unfold transferFees at h
  split at h
  · exact ERC20.safeTransferFrom_transfers h hP
  · cases h
    exact .refl token

end RWAHub

/-! ## Restrictions of the manager -/

namespace USBSManager

variable {manager : USBSManager} {lists : Lists} {account : Address}

/-- The lists of the manager report the account as blocked or as sanctioned. -/
def Listed (manager : USBSManager) (lists : Lists) (account : Address) : Prop :=
  askList lists.blocklists manager.managerParams.blocklist account = .ok true ∨
    askList lists.sanctionsLists manager.managerParams.sanctionsList account = .ok true

instance (manager : USBSManager) (lists : Lists) (account : Address) :
    Decidable (manager.Listed lists account) :=
  inferInstanceAs (Decidable (_ ∨ _))

lemma not_listed_of_checkRestrictions {u : Unit}
    (h : manager.checkRestrictions lists account = .ok u) : ¬ manager.Listed lists account := by
  simp only [checkRestrictions, bind_eq_ok, revertIf_eq_ok, exists_const] at h
  obtain ⟨blocked, hblocked, hfalse, sanctioned, hsanctioned, hfalse'⟩ := h
  rintro (hlisted | hlisted)
  · rw [hlisted] at hblocked
    exact hfalse (Except.ok.inj hblocked).symm
  · rw [hlisted] at hsanctioned
    exact hfalse' (Except.ok.inj hsanctioned).symm

end USBSManager

/-! ## What an action is about -/

namespace Action

variable {κ : Type}

/-- The user a call writes an entry for, and that the hub screens. -/
def screenedUser : Action κ → Option Address
  | .manager sender (.requestSubscription _) => some sender
  | .manager _ (.addProof _ user _ _ _) => some user
  | .manager _ (.overwriteDepositor _ user _ _) => some user
  | .manager _ (.overwriteRedeemer _ user _ _) => some user
  | _ => none

/-- The account from which the token's `transferFrom` or `burnFrom` is called; the manager at
`self` calls the latter for redemptions. -/
def spender (self : Address) : Action κ → Option Address
  | .usbs sender (.holder (.transferFrom ..)) => some sender
  | .usbs sender (.holder (.burnFrom ..)) => some sender
  | .manager _ (.requestRedemption _) => some self
  | .manager _ (.requestRedemptionServicedOffchain ..) => some self
  | _ => none

end Action

/-! ## Entries -/

/-- Whom a deposit names, and for how much. -/
def Depositor.claimant (entry : Depositor) : Address × Uint256 :=
  (entry.user, entry.amountDepositedMinusFees)

/-- Whom a redemption names, and for how much. -/
def Redeemer.claimant (entry : Redeemer) : Address × Uint256 :=
  (entry.user, entry.amountRwaTokenBurned)

/-- An entry that names the account named it before for the same amount, or is empty. -/
def Kept (account : Address) (old new : Address × Uint256) : Prop :=
  new.1 = account → old = new ∨ new = (0, 0)

namespace Kept

variable {account : Address} {old new : Address × Uint256}

lemma refl (old : Address × Uint256) : Kept account old old := fun _ => .inl rfl

lemma other (hne : new.1 ≠ account) : Kept account old new := fun hnamed => absurd hnamed hne

lemma emptied : Kept account old (0, 0) := fun _ => .inr rfl

/-- Writing an entry of a table. -/
lemma update {ι β : Type} [DecidableEq ι] {claimant : β → Address × Uint256} {table : ι → β}
    {i id : ι} {entry : β} (h : Kept account old (claimant (table id)))
    (hentry : id = i → Kept account old (claimant entry)) :
    Kept account old (claimant (Function.update table i entry id)) := by
  by_cases hsame : id = i
  · subst hsame
    rw [Function.update_self]
    exact hentry rfl
  · rwa [Function.update_of_ne hsame]

end Kept

namespace World

section

variable {κ : Type} [IERC20 κ] {w₀ w w' : World κ} {a : Action κ} {account : Address}

/-- The lists of the token and those of the manager report the account. -/
structure Frozen (w : World κ) (account : Address) : Prop where
  token : w.usbs.Listed w.lists account
  manager : w.manager.Listed w.lists account

omit [IERC20 κ] in
instance (w : World κ) (account : Address) : Decidable (w.Frozen account) :=
  decidable_of_iff (w.usbs.Listed w.lists account ∧ w.manager.Listed w.lists account)
    ⟨fun h => ⟨h.1, h.2⟩, fun h => ⟨h.token, h.manager⟩⟩

/-- The hub lets nobody through whom its lists report. -/
lemma Step.screenedUser (h : w.Step a w') {user : Address} (huser : user ∈ a.screenedUser) :
    ¬ w.manager.Listed w.lists user := by
  obtain ⟨-, hexec⟩ := h
  unfold Action.screenedUser at huser
  split at huser
  · obtain rfl := Option.some.inj huser
    simp only [exec, execManager, RWAHub.requestSubscription, bind_eq_ok, revertIf_eq_ok] at hexec
    obtain ⟨_, ⟨_, -, _, hcheck, -⟩, -⟩ := hexec
    exact USBSManager.not_listed_of_checkRestrictions hcheck
  · obtain rfl := Option.some.inj huser
    simp only [exec, execManager, RWAHub.addProof, bind_eq_ok] at hexec
    obtain ⟨_, ⟨_, -, _, hcheck, -⟩, -⟩ := hexec
    exact USBSManager.not_listed_of_checkRestrictions hcheck
  · obtain rfl := Option.some.inj huser
    simp only [exec, execManager, RWAHub.overwriteDepositor, bind_eq_ok] at hexec
    obtain ⟨_, ⟨_, -, _, hcheck, -⟩, -⟩ := hexec
    exact USBSManager.not_listed_of_checkRestrictions hcheck
  · obtain rfl := Option.some.inj huser
    simp only [exec, execManager, RWAHub.overwriteRedeemer, bind_eq_ok] at hexec
    obtain ⟨_, ⟨_, -, _, hcheck, -⟩, -⟩ := hexec
    exact USBSManager.not_listed_of_checkRestrictions hcheck
  · cases huser

/-- The burn of a redemption request is a movement of its sender's USBS. -/
lemma step_requestRedemption_movement {sender : Address} {amount : Uint256}
    (h : w.Step (.manager sender (.requestRedemption amount)) w') :
    w.usbs.Movement w.lists w.self sender 0 w'.usbs := by
  obtain ⟨-, hexec⟩ := h
  simp only [exec, execManager, bind_eq_ok, pure_eq_ok, Prod.exists] at hexec
  obtain ⟨hub', usbs', hcall, rfl⟩ := hexec
  obtain ⟨-, -, -, -, hburn⟩ := RWAHub.requestRedemption_spec w.prices hcall
  exact USBS.burnFrom_movement hburn

lemma step_requestRedemptionServicedOffchain_movement {sender : Address} {amount : Uint256}
    {destination : Bytes32}
    (h : w.Step (.manager sender (.requestRedemptionServicedOffchain amount destination)) w') :
    w.usbs.Movement w.lists w.self sender 0 w'.usbs := by
  obtain ⟨-, hexec⟩ := h
  simp only [exec, execManager, bind_eq_ok, pure_eq_ok, Prod.exists] at hexec
  obtain ⟨manager', usbs', hcall, rfl⟩ := hexec
  obtain ⟨e, -, -, -, -, -, hburn⟩ :=
    USBSManager.requestRedemptionServicedOffchain_spec w.prices hcall
  exact USBS.burnFrom_movement hburn

/-! ## One step -/

omit [IERC20 κ] in
/-- A batch of mints leaves the balance of a listed account alone. -/
lemma claimMint_balance {ids : List Bytes32} {manager' : USBSManager} {usbs' : USBS}
    (h : w.manager.claimMint w.usbs w.lists w.pricers w.self w.timestamp ids =
      .ok (manager', usbs')) (hlisted : w.usbs.Listed w.lists account) :
    usbs'.erc20.balances account = w.usbs.erc20.balances account := by
  simp only [USBSManager.claimMint, bind_eq_ok, revertIf_eq_ok, exists_const] at h
  have hloop := foldlM_invariant (P := fun s : USBSManager × USBS =>
    s.2.Listed w.lists account ∧
      s.2.erc20.balances account = w.usbs.erc20.balances account) ?_ ⟨hlisted, rfl⟩ h.2
  · exact hloop.2
  · rintro id - ⟨manager, usbs⟩ ⟨manager', usbs'⟩ ⟨hlisted, hsame⟩ hentry
    obtain ⟨out, price, -, -, -, -, -, hmint⟩ :=
      RWAHub.internalClaimMint_spec (USBSManager.internalClaimMint_hub hentry)
    have hmovement := USBS.mint_movement hmint
    refine ⟨(USBS.mint_listed hmint).mpr hlisted, ?_⟩
    exact (hmovement.balance_eq hlisted).trans hsame

/-- **No step changes the balance of a listed account.** -/
lemma Step.balance_eq (h : w.Step a w') (hlisted : w.usbs.Listed w.lists account) :
    w'.usbs.erc20.balances account = w.usbs.erc20.balances account := by
  have hexec := h.2
  cases a with
  | manager sender call =>
      cases call with
      | claimMint ids =>
          simp only [exec, execManager, bind_eq_ok, pure_eq_ok, Prod.exists] at hexec
          obtain ⟨manager', usbs', hcall, rfl⟩ := hexec
          exact claimMint_balance hcall hlisted
      | requestRedemption amount => exact (step_requestRedemption_movement h).balance_eq hlisted
      | requestRedemptionServicedOffchain amount destination =>
          exact (step_requestRedemptionServicedOffchain_movement h).balance_eq hlisted
      | _ =>
          simp only [exec, execManager, bind_eq_ok, pure_eq_ok] at hexec
          obtain ⟨_, -, rfl⟩ := hexec
          rfl
  | usbs sender call =>
      simp only [exec, bind_eq_ok, pure_eq_ok] at hexec
      obtain ⟨usbs', hcall, rfl⟩ := hexec
      have heffect := USBS.exec_effect hcall
      generalize call.parties sender = parties at heffect
      cases heffect with
      | idle hsame => exact congrFun hsame account
      | moves hmoves => exact hmoves.balance_eq hlisted
  | _ => rw [(exec_manager_eq (by simp) hexec).2.2 (by simp)]

/-- The token lets the movement of a call pass. -/
lemma step_usbs_passes {sender source dest : Address} {call : USBS.Call}
    (h : w.Step (.usbs sender call) w') (hparties : call.parties sender = some (source, dest)) :
    w.usbs.Passes w.lists sender source dest := by
  obtain ⟨-, hexec⟩ := h
  simp only [exec, bind_eq_ok, pure_eq_ok] at hexec
  obtain ⟨usbs', hcall, rfl⟩ := hexec
  have heffect := USBS.exec_effect hcall
  rw [hparties] at heffect
  cases heffect with
  | moves hmoves => exact hmoves.passes

/-- No listed account spends. -/
lemma Step.spender (h : w.Step a w') {spender : Address} (hspender : spender ∈ a.spender w.self)
    (hne : spender ≠ 0) : ¬ w.usbs.Listed w.lists spender := by
  unfold Action.spender at hspender
  split at hspender
  · obtain rfl := Option.some.inj hspender
    exact (step_usbs_passes h rfl).not_listed hne
  · obtain rfl := Option.some.inj hspender
    exact (step_usbs_passes h rfl).not_listed hne
  · obtain rfl := Option.some.inj hspender
    exact (step_requestRedemption_movement h).passes.not_listed hne
  · obtain rfl := Option.some.inj hspender
    exact (step_requestRedemptionServicedOffchain_movement h).passes.not_listed hne
  · cases hspender

/-- An entry is only written for somebody the manager's lists do not report. -/
lemma Step.deposits_kept (h : w.Step a w') (hlisted : w.manager.Listed w.lists account)
    (id : Bytes32) :
    Kept account (w.hub.depositIdToDepositor id).claimant
      (w'.hub.depositIdToDepositor id).claimant := by
  have hscreened : ∀ user ∈ a.screenedUser, user ≠ account := by
    rintro user huser rfl
    exact h.screenedUser huser hlisted
  refine (Step.emits h).invariant
    (P := fun b : Books => Kept account (w.books.deposits id).claimant (b.deposits id).claimant)
    (.refl _) ?_
  rintro b e b' hb ⟨hstep, hattributed⟩
  cases hstep with
  | mintRequested =>
      cases hattributed
      exact hb.update fun _ => .other (hscreened _ rfl)
  | depositProofAdded =>
      cases hattributed
      exact hb.update fun _ => .other (hscreened _ rfl)
  | priceIdSetForDeposit => exact hb.update fun hsame => hsame ▸ hb
  | mintCompleted => exact hb.update fun _ => .emptied
  | depositorOverwritten =>
      cases hattributed
      exact hb.update fun _ => .other (hscreened _ rfl)
  | _ => exact hb

lemma Step.redemptions_kept (h : w.Step a w') (hfrozen : w.Frozen account) (id : Bytes32) :
    Kept account (w.hub.redemptionIdToRedeemer id).claimant
      (w'.hub.redemptionIdToRedeemer id).claimant := by
  have hscreened : ∀ user ∈ a.screenedUser, user ≠ account := by
    rintro user huser rfl
    exact h.screenedUser huser hfrozen.manager
  refine (Step.emits h).invariant
    (P := fun b : Books =>
      Kept account (w.books.redemptions id).claimant (b.redemptions id).claimant)
    (.refl _) ?_
  rintro b e b' hb ⟨hstep, hattributed⟩
  cases hstep with
  | redemptionRequested huser =>
      cases hattributed
      -- Here only the token screens the sender.
      refine hb.update fun _ => .other ?_
      rintro rfl
      exact ((step_requestRedemption_movement h).passes.source huser).not_listed hfrozen.token
  | priceIdSetForRedemption => exact hb.update fun hsame => hsame ▸ hb
  | redemptionCompleted => exact hb.update fun _ => .emptied
  | redeemerOverwritten =>
      cases hattributed
      exact hb.update fun _ => .other (hscreened _ rfl)
  | _ => exact hb

end

/-! ## The collateral -/

section

variable {w₀ w w' : World ERC20} {a : Action ERC20} {account : Address}
  {tr : List (Transition (World ERC20) (Action ERC20))}

/-- The parties the manager may move collateral between, as far as `account` is concerned. -/
def CollateralSpares (params : Parameters) (account source dest : Address) : Prop :=
  (source = account → account = params.assetSender) ∧
    (dest = account → account = params.feeRecipient ∨ account = assetRecipient)

/-- What users deposit comes from users the manager's lists do not report. -/
lemma requestSubscription_collateral {hub' : RWAHub} {sender self : Address} {amount : Uint256}
    {hub : RWAHub} {token token' : ERC20} {manager : USBSManager} {lists : Lists}
    (hlisted : manager.Listed lists account)
    (h : hub.requestSubscription token self sender (manager.checkRestrictions lists) amount =
      .ok (hub', token')) :
    ERC20.TransfersOnly (CollateralSpares hub.params account) token token' := by
  simp only [RWAHub.requestSubscription, bind_eq_ok, revertIf_eq_ok, pure_eq_ok, Prod.mk.injEq,
    exists_const] at h
  obtain ⟨-, _, hcheck, -, fee, -, after, -, next, -, paid, hfees, moved, hmoved, -, rfl⟩ := h
  have hsender : sender ≠ account := by
    rintro rfl
    exact USBSManager.not_listed_of_checkRestrictions hcheck hlisted
  have hfee : CollateralSpares hub.params account sender hub.params.feeRecipient :=
    ⟨fun hsource => absurd hsource hsender, fun hdest => .inl hdest.symm⟩
  have hdeposit : CollateralSpares hub.params account sender assetRecipient :=
    ⟨fun hsource => absurd hsource hsender, fun hdest => .inr hdest.symm⟩
  exact (RWAHub.transferFees_transfers hfees hfee).trans
    (ERC20.safeTransferFrom_transfers hmoved hdeposit)

/-- What redeemers are paid goes to users the manager's lists do not report. -/
lemma claimRedemption_collateral {ids : List Bytes32} {hub' : RWAHub} {self : Address}
    {hub : RWAHub} {token token' : ERC20} {manager : USBSManager} {lists : Lists}
    {pricers : Address → Option Pricer} (hlisted : manager.Listed lists account)
    (h : hub.claimRedemption token pricers self (manager.checkRestrictions lists) ids =
      .ok (hub', token')) :
    ERC20.TransfersOnly (CollateralSpares hub.params account) token token' := by
  simp only [RWAHub.claimRedemption, bind_eq_ok, revertIf_eq_ok, pure_eq_ok, Prod.mk.injEq,
    exists_const] at h
  obtain ⟨-, batch, hloop, paid, hfees, -, rfl⟩ := h
  have hbatch := foldlM_invariant (P := fun s : RWAHub.RedemptionBatch ERC20 =>
    s.hub.params = hub.params ∧
      ERC20.TransfersOnly (CollateralSpares hub.params account) token s.token) ?_
    ⟨rfl, .refl token⟩ hloop
  · obtain ⟨hparams, htransfers⟩ := hbatch
    have hfee : CollateralSpares hub.params account batch.hub.params.assetSender
        batch.hub.params.feeRecipient := by
      rw [hparams]
      exact ⟨fun hsource => hsource.symm, fun hdest => .inl hdest.symm⟩
    exact htransfers.trans (RWAHub.transferFees_transfers hfees hfee)
  · rintro id - batch batch' ⟨hparams, htransfers⟩ hentry
    obtain ⟨net, price, fee, -, -, -, hparams', -, -, -, hpaid⟩ :=
      RWAHub.claimRedemptionEntry_spec hentry
    refine ⟨hparams'.trans hparams, htransfers.trans ?_⟩
    refine ERC20.safeTransferFrom_transfers hpaid ⟨fun hsource => ?_, fun hdest => ?_⟩
    · rw [← hparams]
      exact hsource.symm
    · simp only [RWAHub.claimRedemptionEntry, bind_eq_ok] at hentry
      obtain ⟨_, hcheck, -⟩ := hentry
      exact absurd (hdest ▸ hlisted) (USBSManager.not_listed_of_checkRestrictions hcheck)

lemma execManager_collateral {sender : Address} {call : USBSManager.Call}
    (hlisted : w.manager.Listed w.lists account) (h : w.execManager sender call = .ok w') :
    ERC20.TransfersOnly (CollateralSpares w.hub.params account) w.collateral w'.collateral := by
  cases call with
  | requestSubscription amount =>
      simp only [execManager, bind_eq_ok, pure_eq_ok, Prod.exists] at h
      obtain ⟨hub', token', hcall, rfl⟩ := h
      exact requestSubscription_collateral hlisted hcall
  | claimRedemption ids =>
      simp only [execManager, bind_eq_ok, pure_eq_ok, Prod.exists] at h
      obtain ⟨hub', token', hcall, rfl⟩ := h
      exact claimRedemption_collateral hlisted hcall
  | _ =>
      simp only [execManager, bind_eq_ok, pure_eq_ok] at h
      obtain ⟨_, -, rfl⟩ := h
      exact .refl _

/-! ## Runs -/

/-- What one transition spares a frozen account. -/
structure Spares (account : Address) (t : Transition (World ERC20) (Action ERC20)) : Prop where
  balance : t.post.usbs.erc20.balances account = t.pre.usbs.erc20.balances account
  /-- Nothing is spent by the account; nobody is the zero address. -/
  spends : account ∈ t.label.spender t.pre.self → account = 0
  collateral : ∀ sender call, t.label = .manager sender call →
    ERC20.TransfersOnly (CollateralSpares t.pre.hub.params account) t.pre.collateral
      t.post.collateral
  deposits : ∀ id, Kept account (t.pre.hub.depositIdToDepositor id).claimant
    (t.post.hub.depositIdToDepositor id).claimant
  redemptions : ∀ id, Kept account (t.pre.hub.redemptionIdToRedeemer id).claimant
    (t.post.hub.redemptionIdToRedeemer id).claimant

lemma Frozen.spares (hfrozen : w.Frozen account) (h : w.Step a w') :
    Spares account ⟨w, a, w'⟩ where
  balance := h.balance_eq hfrozen.token
  spends hspender := by
    by_contra hne
    exact h.spender hspender hne hfrozen.token
  collateral sender call hcall := by
    obtain rfl : a = .manager sender call := hcall
    exact execManager_collateral hfrozen.manager h.2
  deposits := h.deposits_kept hfrozen.manager
  redemptions := h.redemptions_kept hfrozen

/-- **A frozen account stays frozen across the whole system.**  Whoever calls the token and the
manager, while an account is reported to both its USBS balance is what it was, and every
transition spares it. -/
theorem frozen_throughout (hrun : Run Step w₀ tr w)
    (hfrozen : ∀ s, Run.Visits tr w s → s.Frozen account) :
    (∀ s, Run.Visits tr w s →
      s.usbs.erc20.balances account = w₀.usbs.erc20.balances account) ∧
      ∀ t ∈ tr, Spares account t := by
  have hspares : ∀ t ∈ tr, Spares account t := by
    intro t ht
    have hstep := hrun.step_of_mem ht
    exact (hfrozen t.pre (Run.visits_pre ht)).spares hstep
  refine ⟨fun s hs => ?_, hspares⟩
  exact hrun.invariant_visits
    (P := fun s => s.usbs.erc20.balances account = w₀.usbs.erc20.balances account) rfl
    (fun t ht hpre _ => (hspares t ht).balance.trans hpre) hs

end

end World

namespace Sample

/-- A holder of USBS on the blocklist. -/
def suspect : Address := 0x0B

/-- The world with the suspect on the blocklist of the token and the manager. -/
def freezing : World ERC20 := { world with
  usbs := { usbs with
    erc20 := { ERC20.empty with
      balances := Function.update ERC20.empty.balances suspect 5000000000000000000
      totalSupply := 5000000000000000000 } }
  lists := { lists with
    blocklists := Function.update lists.blocklists 0x56 (some fun account => account = suspect) } }

/-- The suspect tries to get rid of its USBS and to get others', and the operator to burn them. -/
def attempts : List (Action ERC20) := mintAndRedeem ++ [
  .usbs suspect (.holder (.transfer customer 0)),
  .usbs suspect (.holder (.transferFrom customer operator 0)),
  .usbs customer (.holder (.transfer suspect 1)),
  .manager suspect (.requestRedemption 1000000000000000000),
  .manager operator (.addProof 0xDCBA suspect 50000000 0 999999),
  .usbs operator (.access (.grantRole .burnerRole operator)),
  .usbs operator (.holder (.adminBurn suspect 1))]

end Sample

namespace World

open Sample in
theorem frozen_throughout_sample :
    (play next freezing attempts).usbs.erc20.balances suspect = 5000000000000000000 ∧
      ∀ t ∈ playTrace next freezing attempts, Spares suspect t := by
  have hend : (play next freezing attempts).Frozen suspect := by decide +kernel
  have hsteps : ∀ t ∈ playTrace next freezing attempts,
      t.pre.Frozen suspect ∧ t.post.Frozen suspect := by
    decide +kernel
  have hfrozen : ∀ s, Run.Visits (playTrace next freezing attempts)
      (play next freezing attempts) s → s.Frozen suspect := by
    rintro s (rfl | ⟨t, ht, rfl | rfl⟩)
    · exact hend
    · exact (hsteps t ht).1
    · exact (hsteps t ht).2
  obtain ⟨hbalance, hspares⟩ :=
    frozen_throughout (run_play (fun _ _ _ => step_of_next) freezing attempts) hfrozen
  exact ⟨(hbalance _ (.inl rfl)).trans (by decide +kernel), hspares⟩

end World

end BrivoUsbs
