import BrivoUsbs.Properties.TokenJournal

/-!
# The journal of the manager

The events of the manager are a complete and truthful record of it.  Replaying them from what the
constructor wrote gives both tables with their counters, the claimable timestamps and every
parameter, and replaying the events of access control gives every role; and each event agrees with
the record it is added to: it repeats the entry it settles or overwrites and the old value of the
parameter it reports as changed, and the id it issues is the next one.

`apply` says what each event records, and `Admits` what it presupposes.  They are read off the
events alone, without the prices, lists and tokens the manager consults.
-/

namespace BrivoUsbs

namespace USBSManager

/-! ## What the events record -/

/-- The storage the events record: all of it but the roles, which have events of their own. -/
def storage (manager : USBSManager) : USBSManager :=
  { manager with hub := { manager.hub with access := .empty, log := [] } }

def mapHub (manager : USBSManager) (f : RWAHub → RWAHub) : USBSManager :=
  { manager with hub := f manager.hub }

def mapParams (manager : USBSManager) (f : Parameters → Parameters) : USBSManager :=
  manager.mapHub fun hub => { hub with params := f hub.params }

def mapManagerParams (manager : USBSManager) (f : ManagerParameters → ManagerParameters) :
    USBSManager :=
  { manager with managerParams := f manager.managerParams }

/-- Write an entry of the deposit table. -/
def writeDeposit (manager : USBSManager) (id : Bytes32) (entry : Depositor) : USBSManager :=
  manager.mapHub fun hub => { hub with
    depositIdToDepositor := Function.update hub.depositIdToDepositor id entry }

/-- Write an entry of the redemption table. -/
def writeRedemption (manager : USBSManager) (id : Bytes32) (entry : Redeemer) : USBSManager :=
  manager.mapHub fun hub => { hub with
    redemptionIdToRedeemer := Function.update hub.redemptionIdToRedeemer id entry }

def writeTimestamp (manager : USBSManager) (id : Bytes32) (timestamp : Uint256) : USBSManager :=
  { manager with depositIdToClaimableTimestamp :=
      Function.update manager.depositIdToClaimableTimestamp id timestamp }

def depositor (manager : USBSManager) (id : Bytes32) : Depositor :=
  manager.hub.depositIdToDepositor id

def redeemer (manager : USBSManager) (id : Bytes32) : Redeemer :=
  manager.hub.redemptionIdToRedeemer id

def applyParameter (manager : USBSManager) : ParameterEvent → USBSManager
  | .feeRecipientSet _ new => manager.mapParams ({ · with feeRecipient := new })
  | .assetSenderSet _ new => manager.mapParams ({ · with assetSender := new })
  | .minimumDepositAmountSet _ new => manager.mapParams ({ · with minimumDepositAmount := new })
  | .minimumRedemptionAmountSet _ new =>
      manager.mapParams ({ · with minimumRedemptionAmount := new })
  | .mintFeeSet _ new => manager.mapParams ({ · with mintFee := new })
  | .redemptionFeeSet _ new => manager.mapParams ({ · with redemptionFee := new })
  | .newPricerSet _ new => manager.mapParams ({ · with pricer := new })
  | .subscriptionPaused _ => manager.mapParams ({ · with subscriptionPaused := true })
  | .redemptionPaused _ => manager.mapParams ({ · with redemptionPaused := true })
  | .subscriptionUnpaused _ => manager.mapParams ({ · with subscriptionPaused := false })
  | .redemptionUnpaused _ => manager.mapParams ({ · with redemptionPaused := false })
  | .offChainRedemptionPaused _ =>
      manager.mapManagerParams ({ · with offChainRedemptionPaused := true })
  | .offChainRedemptionUnpaused _ =>
      manager.mapManagerParams ({ · with offChainRedemptionPaused := false })
  | .offChainRedemptionMinimumSet _ new =>
      manager.mapManagerParams ({ · with minimumOffChainRedemptionAmount := new })
  | .blocklistSet _ new => manager.mapManagerParams ({ · with blocklist := new })
  | .sanctionsListSet _ new => manager.mapManagerParams ({ · with sanctionsList := new })

/-- What an event records. -/
def apply (manager : USBSManager) : HubEvent → USBSManager
  | .mintRequested user id _ after _ =>
      (manager.writeDeposit id ⟨user, after, 0⟩).mapHub
        ({ · with subscriptionRequestCounter := id + 1 })
  | .mintCompleted _ id _ _ _ _ => (manager.writeDeposit id .null).writeTimestamp id 0
  | .redemptionRequested user id amount =>
      (manager.writeRedemption id ⟨user, amount, 0⟩).mapHub
        ({ · with redemptionRequestCounter := id + 1 })
  | .redemptionCompleted _ id _ _ _ => manager.writeRedemption id .null
  | .depositProofAdded txHash user after _ _ => manager.writeDeposit txHash ⟨user, after, 0⟩
  | .priceIdSetForDeposit id priceId =>
      manager.writeDeposit id { manager.depositor id with priceId := priceId }
  | .priceIdSetForRedemption id priceId =>
      manager.writeRedemption id { manager.redeemer id with priceId := priceId }
  | .depositorOverwritten id _ user _ priceId _ amount =>
      manager.writeDeposit id ⟨user, amount, priceId⟩
  | .redeemerOverwritten id _ user _ priceId _ amount =>
      manager.writeRedemption id ⟨user, amount, priceId⟩
  | .redemptionRequestedServicedOffChain _ id _ _ =>
      manager.mapHub ({ · with redemptionRequestCounter := id + 1 })
  | .claimableTimestampSet claimTimestamp id => manager.writeTimestamp id claimTimestamp
  | .parameterSet event => manager.applyParameter event

/-- What an event about a parameter presupposes: the old value it names. -/
def AdmitsParameter (manager : USBSManager) : ParameterEvent → Prop
  | .feeRecipientSet old _ => manager.hub.params.feeRecipient = old
  | .assetSenderSet old _ => manager.hub.params.assetSender = old
  | .minimumDepositAmountSet old _ => manager.hub.params.minimumDepositAmount = old
  | .minimumRedemptionAmountSet old _ => manager.hub.params.minimumRedemptionAmount = old
  | .mintFeeSet old _ => manager.hub.params.mintFee = old
  | .redemptionFeeSet old _ => manager.hub.params.redemptionFee = old
  | .newPricerSet old _ => manager.hub.params.pricer = old
  | .offChainRedemptionMinimumSet old _ =>
      manager.managerParams.minimumOffChainRedemptionAmount = old
  | .blocklistSet old _ => manager.managerParams.blocklist = old
  | .sanctionsListSet old _ => manager.managerParams.sanctionsList = old
  | _ => True

/-- The collateral due for an amount of RWA, fee included. -/
def due (manager : USBSManager) (amount price : Uint256) : ℕ :=
  amount.toNat * price.toNat / 10 ^ 18 / manager.hub.decimalsMultiplier.toNat

/-- What an event presupposes. -/
def Admits (manager : USBSManager) : HubEvent → Prop
  | .mintRequested user id amount after fee =>
      id = manager.hub.subscriptionRequestCounter ∧ user ≠ 0 ∧
        fee.toNat = amount.toNat * manager.hub.params.mintFee.toNat / 10000 ∧
        after.toNat + fee.toNat = amount.toNat
  | .mintCompleted user id out amount price priceId =>
      manager.depositor id = ⟨user, amount, priceId⟩ ∧ user ≠ 0 ∧ priceId ≠ 0 ∧ price ≠ 0 ∧
        out.toNat = amount.toNat * manager.hub.decimalsMultiplier.toNat * 10 ^ 18 / price.toNat ∧
        manager.depositIdToClaimableTimestamp id ≠ 0
  | .redemptionRequested user id _ => id = manager.hub.redemptionRequestCounter ∧ user ≠ 0
  | .redemptionCompleted user id amount net price =>
      (manager.redeemer id).user = user ∧ (manager.redeemer id).amountRwaTokenBurned = amount ∧
        (manager.redeemer id).priceId ≠ 0 ∧
        net.toNat + manager.due amount price * manager.hub.params.redemptionFee.toNat / 10000 =
          manager.due amount price
  | .depositProofAdded txHash _ _ _ _ => (manager.depositor txHash).user = 0
  | .priceIdSetForDeposit id _ =>
      (manager.depositor id).user ≠ 0 ∧ (manager.depositor id).priceId = 0
  | .priceIdSetForRedemption id _ => (manager.redeemer id).priceId = 0
  | .depositorOverwritten id user _ priceId _ amount _ =>
      manager.depositor id = ⟨user, amount, priceId⟩
  | .redeemerOverwritten id user _ priceId _ amount _ =>
      manager.redeemer id = ⟨user, amount, priceId⟩
  | .redemptionRequestedServicedOffChain _ id _ _ => id = manager.hub.redemptionRequestCounter
  | .claimableTimestampSet .. => True
  | .parameterSet event => manager.AdmitsParameter event

/-- The record before the constructor sets the lists, which it reports as a change from nothing. -/
def beforeLists (manager : USBSManager) : USBSManager :=
  manager.storage.mapManagerParams ({ · with blocklist := 0, sanctionsList := 0 })

/-- One more event of the record. -/
def Records (manager : USBSManager) (e : HubEvent) (manager' : USBSManager) : Prop :=
  manager.Admits e ∧ manager' = manager.apply e

/-- `manager'` is `manager` after events that record what happened to it. -/
abbrev Journaled (manager manager' : USBSManager) : Prop :=
  Emits Records storage (fun manager => manager.hub.log) manager manager'

/-! ## What each call records -/

section

variable {κ : Type} [IERC20 κ] {manager manager' : USBSManager} {hub' : RWAHub} {token token' : κ}
  {usbs usbs' : USBS} {lists : Lists} {pricers : Address → Option Pricer}
  {self sender user : Address} {check : Address → Tx Error Unit} {timestamp amount : Uint256}
  {id : Bytes32}

lemma requestSubscription_journaled (hsender : sender ≠ 0)
    (h : manager.hub.requestSubscription token self sender check amount = .ok (hub', token')) :
    Journaled manager { manager with hub := hub' } := by
  simp only [RWAHub.requestSubscription, bind_eq_ok, revertIf_eq_ok, pure_eq_ok, checkedSub_eq_ok,
    checkedAdd_eq_ok, Prod.mk.injEq, exists_const] at h
  obtain ⟨-, _, -, -, fee, hfee, after, hafter, next, hnext, _, -, _, -, rfl, -⟩ := h
  refine .single rfl ⟨⟨rfl, hsender, RWAHub.getMintFees_eq_ok hfee, hafter⟩, ?_⟩
  rw [eq_add_of_toNat hnext]
  rfl

lemma internalClaimMint_journaled
    (h : manager.internalClaimMint usbs lists pricers self timestamp id = .ok (manager', usbs')) :
    Journaled manager manager' := by
  simp only [internalClaimMint, bind_eq_ok, revertIf_eq_ok, pure_eq_ok, Prod.mk.injEq,
    exists_const] at h
  obtain ⟨hreleased, -, ⟨hub', usbs'⟩, hclaimed, rfl, rfl⟩ := h
  simp only [RWAHub.internalClaimMint, bind_eq_ok, revertIf_eq_ok, pure_eq_ok, Prod.mk.injEq,
    exists_const] at hclaimed
  obtain ⟨hset, price, -, out, hout, minted, hmint, rfl, rfl⟩ := hclaimed
  obtain ⟨hdefined, hout⟩ := RWAHub.getMintAmountForPrice_eq_ok hout
  obtain ⟨-, huser, -⟩ := USBS.mint_spec hmint
  exact .single rfl ⟨⟨rfl, huser, hset, hdefined, hout, hreleased⟩, rfl⟩

lemma claimMint_journaled {ids : List Bytes32}
    (h : manager.claimMint usbs lists pricers self timestamp ids = .ok (manager', usbs')) :
    Journaled manager manager' := by
  simp only [claimMint, bind_eq_ok, revertIf_eq_ok, exists_const] at h
  refine foldlM_invariant (P := fun s => Journaled manager s.1) ?_ (.refl _) h.2
  rintro id - ⟨before, usbs⟩ ⟨after, usbs'⟩ hbefore hentry
  exact hbefore.trans (internalClaimMint_journaled hentry)

lemma requestRedemption_journaled
    (h : manager.hub.requestRedemption usbs lists self sender amount = .ok (hub', usbs')) :
    Journaled manager { manager with hub := hub' } := by
  simp only [RWAHub.requestRedemption, bind_eq_ok, revertIf_eq_ok, pure_eq_ok, checkedAdd_eq_ok,
    Prod.mk.injEq, exists_const] at h
  obtain ⟨-, -, next, hnext, burned, hburn, rfl, rfl⟩ := h
  obtain ⟨huser, -⟩ := USBS.burnFrom_spec hburn
  refine .single rfl ⟨⟨rfl, huser⟩, ?_⟩
  rw [eq_add_of_toNat hnext]
  rfl

lemma claimRedemptionEntry_journaled {batch batch' : RWAHub.RedemptionBatch κ}
    (h : RWAHub.claimRedemptionEntry pricers self check batch id = .ok batch') :
    Journaled { manager with hub := batch.hub } { manager with hub := batch'.hub } := by
  simp only [RWAHub.claimRedemptionEntry, bind_eq_ok, revertIf_eq_ok, pure_eq_ok, checkedSub_eq_ok,
    checkedAdd_eq_ok, exists_const] at h
  obtain ⟨_, -, hset, price, -, collateralDue, hdue, fee, hfee, net, hnet, _, -, _, -, rfl⟩ := h
  obtain ⟨-, hdue⟩ := RWAHub.getRedemptionAmountForRwa_eq_ok hdue
  rw [RWAHub.getRedemptionFees_eq_ok hfee, hdue] at hnet
  exact .single rfl ⟨⟨rfl, rfl, hset, hnet⟩, rfl⟩

lemma claimRedemption_journaled {ids : List Bytes32}
    (h : manager.hub.claimRedemption token pricers self check ids = .ok (hub', token')) :
    Journaled manager { manager with hub := hub' } := by
  simp only [RWAHub.claimRedemption, bind_eq_ok, revertIf_eq_ok, pure_eq_ok, exists_const,
    Prod.mk.injEq] at h
  obtain ⟨-, batch, hloop, _, -, rfl, -⟩ := h
  refine foldlM_invariant (P := fun batch => Journaled manager { manager with hub := batch.hub })
    ?_ (.refl _) hloop
  intro id _ batch batch' hbefore hentry
  exact hbefore.trans (claimRedemptionEntry_journaled hentry)

lemma requestRedemptionServicedOffchain_journaled {destination : Bytes32}
    (h : manager.requestRedemptionServicedOffchain usbs lists self sender amount destination =
      .ok (manager', usbs')) : Journaled manager manager' := by
  simp only [requestRedemptionServicedOffchain, bind_eq_ok, revertIf_eq_ok, pure_eq_ok,
    checkedAdd_eq_ok, Prod.mk.injEq, exists_const] at h
  obtain ⟨-, -, next, hnext, _, -, rfl, rfl⟩ := h
  refine .single rfl ⟨rfl, ?_⟩
  rw [eq_add_of_toNat hnext]
  rfl

lemma addProof_journaled {txHash : Bytes32} {after fee depositedAt : Uint256}
    (h : manager.hub.addProof sender check txHash user after fee depositedAt = .ok hub') :
    Journaled manager { manager with hub := hub' } := by
  simp only [RWAHub.addProof, bind_eq_ok, revertIf_eq_ok, pure_eq_ok, not_not, exists_const] at h
  obtain ⟨_, -, _, -, hfree, rfl⟩ := h
  exact .single rfl ⟨hfree, rfl⟩

lemma setPriceIdForDeposits_journaled {ids : List Bytes32} {priceIds : List Uint256}
    (h : manager.hub.setPriceIdForDeposits sender ids priceIds = .ok hub') :
    Journaled manager { manager with hub := hub' } := by
  simp only [RWAHub.setPriceIdForDeposits, bind_eq_ok, revertIf_eq_ok, exists_const] at h
  obtain ⟨_, -, -, hloop⟩ := h
  refine foldlM_invariant (P := fun hub => Journaled manager { manager with hub := hub })
    ?_ (.refl _) hloop
  rintro ⟨id, priceId⟩ - hub hub' hbefore hentry
  refine hbefore.trans ?_
  simp only [RWAHub.setPriceIdForDeposit, bind_eq_ok, revertIf_eq_ok, pure_eq_ok, not_not,
    exists_const] at hentry
  obtain ⟨hlive, hunset, rfl⟩ := hentry
  exact .single rfl ⟨⟨hlive, hunset⟩, rfl⟩

lemma setPriceIdForRedemptions_journaled {ids : List Bytes32} {priceIds : List Uint256}
    (h : manager.hub.setPriceIdForRedemptions sender ids priceIds = .ok hub') :
    Journaled manager { manager with hub := hub' } := by
  simp only [RWAHub.setPriceIdForRedemptions, bind_eq_ok, revertIf_eq_ok, exists_const] at h
  obtain ⟨_, -, -, hloop⟩ := h
  refine foldlM_invariant (P := fun hub => Journaled manager { manager with hub := hub })
    ?_ (.refl _) hloop
  rintro ⟨id, priceId⟩ - hub hub' hbefore hentry
  refine hbefore.trans ?_
  simp only [RWAHub.setPriceIdForRedemption, bind_eq_ok, revertIf_eq_ok, pure_eq_ok, not_not,
    exists_const] at hentry
  obtain ⟨hunset, rfl⟩ := hentry
  exact .single rfl ⟨hunset, rfl⟩

lemma overwriteDepositor_journaled {after priceId : Uint256}
    (h : manager.hub.overwriteDepositor sender check id user after priceId = .ok hub') :
    Journaled manager { manager with hub := hub' } := by
  simp only [RWAHub.overwriteDepositor, bind_eq_ok, pure_eq_ok] at h
  obtain ⟨_, -, _, -, rfl⟩ := h
  exact .single rfl ⟨rfl, rfl⟩

lemma overwriteRedeemer_journaled {priceId : Uint256}
    (h : manager.hub.overwriteRedeemer sender check id user amount priceId = .ok hub') :
    Journaled manager { manager with hub := hub' } := by
  simp only [RWAHub.overwriteRedeemer, bind_eq_ok, pure_eq_ok] at h
  obtain ⟨_, -, _, -, rfl⟩ := h
  exact .single rfl ⟨rfl, rfl⟩

lemma setClaimableTimestamp_journaled {claimTimestamp : Uint256} {ids : List Bytes32}
    (h : manager.setClaimableTimestamp sender timestamp claimTimestamp ids = .ok manager') :
    Journaled manager manager' := by
  simp only [setClaimableTimestamp, bind_eq_ok, revertIf_eq_ok, pure_eq_ok, exists_const] at h
  obtain ⟨_, -, -, rfl⟩ := h
  induction ids generalizing manager with
  | nil => exact .refl _
  | cons id ids ih =>
      rw [List.foldl_cons]
      refine Emits.trans ?_ ih
      exact .single (e := .claimableTimestampSet claimTimestamp id) rfl ⟨trivial, rfl⟩

lemma execAdmin_journaled {call : RWAHub.AdminCall}
    (h : manager.hub.execAdmin sender call = .ok hub') :
    Journaled manager { manager with hub := hub' } := by
  cases call <;>
  · simp only [RWAHub.execAdmin, RWAHub.setMinimumRedemptionAmount,
      RWAHub.setMinimumDepositAmount, RWAHub.setMintFee, RWAHub.setRedemptionFee, RWAHub.setPricer,
      RWAHub.setFeeRecipient, RWAHub.setAssetSender, RWAHub.pauseSubscription,
      RWAHub.pauseRedemption, RWAHub.unpauseSubscription, RWAHub.unpauseRedemption] at h
    obtain rfl := RWAHub.adminSet_spec h
    exact .single rfl ⟨by constructor, rfl⟩

lemma execManagerSet_journaled {call : ManagerCall}
    (h : manager.execManagerSet sender call = .ok manager') : Journaled manager manager' := by
  cases call <;>
  · simp only [execManagerSet, pauseOffChainRedemption, unpauseOffChainRedemption,
      setOffChainRedemptionMinimum, setBlocklist, setSanctionsList, managerSet, bind_eq_ok,
      pure_eq_ok] at h
    obtain ⟨_, -, _, -, rfl⟩ := h
    exact .single rfl ⟨by constructor, rfl⟩

end

/-- Replaying the logs of the manager from the record `first` gives the manager, and each event is
admitted by the record of those before it. -/
structure Replayed (first manager : USBSManager) : Prop where
  storage : manager.storage = manager.hub.log.foldl apply first
  admitted : ∀ before e after, manager.hub.log = before ++ e :: after →
    (before.foldl apply first).Admits e
  access : manager.hub.access.storage =
    manager.hub.access.log.foldl AccessControl.apply .empty

/-- The constructor records what it does as well. -/
lemma replayed_of_deploy {args : Arguments} {manager : USBSManager}
    (h : deploy args = .ok manager) :
    Path Records manager.beforeLists manager.hub.log manager.storage ∧
      AccessControl.Journaled .empty manager.hub.access := by
  simp only [deploy, RWAHub.deploy, bind_eq_ok, revertIf_eq_ok, pure_eq_ok, exists_const] at h
  obtain ⟨hub, ⟨-, -, -, -, _, -, _, -, rfl⟩, -, -, rfl⟩ := h
  constructor
  · show Path Records _ ([.parameterSet (.blocklistSet 0 args.blocklist)] ++
      [.parameterSet (.sanctionsListSet 0 args.sanctionsList)]) _
    refine Path.snoc (Path.single ⟨?_, rfl⟩) ⟨?_, rfl⟩
    · rfl
    · rfl
  · refine Journals.trans (Journals.trans (Journals.trans (Journals.trans (Journals.trans
      AccessControl.internalGrantRole_journaled AccessControl.internalGrantRole_journaled)
      AccessControl.internalGrantRole_journaled) AccessControl.setRoleAdmin_journaled)
      AccessControl.setRoleAdmin_journaled) AccessControl.setRoleAdmin_journaled

end USBSManager

/-! ## The system -/

namespace World

variable {κ : Type} [IERC20 κ] {w₀ w w' : World κ} {tr : List (Transition (World κ) (Action κ))}
  {a : Action κ} {sender : Address}

/-- A call of the manager records what it does. -/
lemma execManager_journaled {call : USBSManager.Call} (hsender : sender ≠ 0)
    (h : w.execManager sender call = .ok w') : USBSManager.Journaled w.manager w'.manager := by
  cases call <;> simp only [execManager, bind_eq_ok, pure_eq_ok] at h <;>
    obtain ⟨_, hcall, rfl⟩ := h
  case requestSubscription => exact USBSManager.requestSubscription_journaled hsender hcall
  case claimMint => exact USBSManager.claimMint_journaled hcall
  case requestRedemption => exact USBSManager.requestRedemption_journaled hcall
  case claimRedemption => exact USBSManager.claimRedemption_journaled hcall
  case requestRedemptionServicedOffchain =>
    exact USBSManager.requestRedemptionServicedOffchain_journaled hcall
  case addProof => exact USBSManager.addProof_journaled hcall
  case setPriceIdForDeposits => exact USBSManager.setPriceIdForDeposits_journaled hcall
  case setPriceIdForRedemptions => exact USBSManager.setPriceIdForRedemptions_journaled hcall
  case overwriteDepositor => exact USBSManager.overwriteDepositor_journaled hcall
  case overwriteRedeemer => exact USBSManager.overwriteRedeemer_journaled hcall
  case setClaimableTimestamp => exact USBSManager.setClaimableTimestamp_journaled hcall
  case admin => exact USBSManager.execAdmin_journaled hcall
  case manager => exact USBSManager.execManagerSet_journaled hcall
  case access => exact ⟨[], (List.append_nil _).symm, .nil⟩

/-- The roles record what is done to them. -/
lemma Step.access_journaled (h : w.Step a w') :
    AccessControl.Journaled w.hub.access w'.hub.access := by
  obtain ⟨hcaller, hexec⟩ := h
  by_cases ha : ∃ sender call, a = .manager sender call
  · obtain ⟨sender, call, rfl⟩ := ha
    rcases execManager_access (hcaller sender rfl).1 hexec with hsame | ⟨access, -, haccess⟩
    · rw [hsame]
      exact .refl _
    · exact AccessControl.exec_journaled haccess
  · have hsame : w'.manager = w.manager :=
      (exec_manager_eq (fun sender call heq => ha ⟨sender, call, heq⟩) hexec).1
    show AccessControl.Journaled w.manager.hub.access w'.manager.hub.access
    rw [hsame]
    exact .refl _

lemma Step.manager_journaled (h : w.Step a w') : USBSManager.Journaled w.manager w'.manager := by
  obtain ⟨hcaller, hexec⟩ := h
  by_cases ha : ∃ sender call, a = .manager sender call
  · obtain ⟨sender, call, rfl⟩ := ha
    exact execManager_journaled (hcaller sender rfl).1 hexec
  · have hsame : w'.manager = w.manager :=
      (exec_manager_eq (fun sender call heq => ha ⟨sender, call, heq⟩) hexec).1
    rw [hsame]
    exact .refl _

/-- **The manager's events are a complete and truthful record of it**, from its construction on,
whoever calls it and the contracts around it. -/
theorem manager_replayed (hdeployed : w₀.Deployed) (hrun : Run Step w₀ tr w) :
    USBSManager.Replayed w₀.manager.beforeLists w.manager := by
  obtain ⟨args, hdeploy⟩ := hdeployed
  obtain ⟨hbefore, hroles⟩ := USBSManager.replayed_of_deploy hdeploy
  have hreached : Path USBSManager.Records w₀.manager.beforeLists w.log w.manager.storage ∧
      AccessControl.Journaled .empty w.hub.access := by
    refine (hrun.invariant (P := fun w => Path USBSManager.Records w₀.manager.beforeLists w.log
      w.manager.storage ∧ AccessControl.Journaled .empty w.hub.access) ⟨hbefore, hroles⟩ ?_).1
    rintro t - ⟨hpath, haccess⟩ hstep
    exact ⟨hstep.manager_journaled.replay hpath, haccess.trans hstep.access_journaled⟩
  obtain ⟨hstorage, hadmitted⟩ := hreached.1.replayed fun _ _ _ h => h
  exact ⟨hstorage, hadmitted, hreached.2.replay rfl⟩

end World

open Sample in
theorem World.manager_replayed_sample : USBSManager.Replayed world.manager.beforeLists
    (play next world mintAndRedeem).manager :=
  manager_replayed world_deployed (run_play (fun _ _ _ => step_of_next) _ _)

end BrivoUsbs
