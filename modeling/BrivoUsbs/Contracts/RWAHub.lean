import BrivoUsbs.Contracts.USBS
import BrivoUsbs.Contracts.Pricer

/-!
# The RWA hub

`RWAHub` takes deposits of collateral and redemptions of the RWA token, attaches price ids to
them, and settles them at the price behind the id.

Each function takes exactly the contracts it calls, so what it cannot touch is read off its type.
The abstract `_checkRestrictions` of the source is the parameter `checkRestrictions`, and `self`
is the hub's own address, the `msg.sender` of the calls it makes.  Neither the tokens nor the
lists call back into the hub here, so the reentrancy guard never fires; the module on
`ReentrancyGuard` lets them.

The hub's storage is split into the two tables with their counters and the settable
`Parameters`: the setters that write one parameter are one `adminSet` over the latter.
-/

namespace BrivoUsbs

structure Depositor where
  user : Address
  amountDepositedMinusFees : Uint256
  priceId : Uint256
  deriving DecidableEq

structure Redeemer where
  user : Address
  amountRwaTokenBurned : Uint256
  priceId : Uint256
  deriving DecidableEq

/-- `delete depositIdToDepositor[id]` leaves this entry, as does never writing it. -/
def Depositor.null : Depositor := ⟨0, 0, 0⟩

/-- `delete redemptionIdToRedeemer[id]` leaves this entry, as does never writing it. -/
def Redeemer.null : Redeemer := ⟨0, 0, 0⟩

/-- The events of the admin setters. -/
inductive ParameterEvent
  | feeRecipientSet (oldFeeRecipient newFeeRecipient : Address)
  | assetSenderSet (oldAssetSender newAssetSender : Address)
  | minimumDepositAmountSet (oldMinimum newMinimum : Uint256)
  | minimumRedemptionAmountSet (oldRedemptionMin newRedemptionMin : Uint256)
  | mintFeeSet (oldFee newFee : Uint256)
  | redemptionFeeSet (oldFee newFee : Uint256)
  | newPricerSet (oldPricer newPricer : Address)
  | subscriptionPaused (caller : Address)
  | redemptionPaused (caller : Address)
  | subscriptionUnpaused (caller : Address)
  | redemptionUnpaused (caller : Address)
  | offChainRedemptionPaused (caller : Address)
  | offChainRedemptionUnpaused (caller : Address)
  | offChainRedemptionMinimumSet (oldMinimum newMinimum : Uint256)
  | blocklistSet (oldBlocklist newBlocklist : Address)
  | sanctionsListSet (oldSanctionsList newSanctionsList : Address)
  deriving DecidableEq

inductive HubEvent
  | mintRequested (user : Address) (depositId : Bytes32)
      (collateralAmountDeposited depositAmountAfterFee feeAmount : Uint256)
  | mintCompleted (user : Address) (depositId : Bytes32)
      (rwaAmountOut collateralAmountDeposited price priceId : Uint256)
  | redemptionRequested (user : Address) (redemptionId : Bytes32) (rwaAmountIn : Uint256)
  | redemptionCompleted (user : Address) (redemptionId : Bytes32)
      (rwaAmountRequested collateralAmountReturned price : Uint256)
  | depositProofAdded (txHash : Bytes32) (user : Address)
      (depositAmountAfterFee feeAmount timestamp : Uint256)
  | priceIdSetForDeposit (depositIdSet : Bytes32) (priceIdSet : Uint256)
  | priceIdSetForRedemption (redemptionIdSet : Bytes32) (priceIdSet : Uint256)
  | depositorOverwritten (depositId : Bytes32) (oldDepositor newDepositor : Address)
      (oldPriceId newPriceId oldDepositAmount newDepositAmount : Uint256)
  | redeemerOverwritten (redemptionId : Bytes32) (oldRedeemer newRedeemer : Address)
      (oldPriceId newPriceId oldRWATokenAmountBurned newRWATokenAmountBurned : Uint256)
  | redemptionRequestedServicedOffChain (user : Address) (redemptionId : Bytes32)
      (rwaTokenAmountIn : Uint256) (offChainDestination : Bytes32)
  | claimableTimestampSet (claimTimestamp : Uint256) (depositId : Bytes32)
  | parameterSet (event : ParameterEvent)
  deriving DecidableEq

/-- The storage the admin setters of the hub write. -/
structure Parameters where
  pricer : Address
  assetSender : Address
  feeRecipient : Address
  minimumDepositAmount : Uint256
  minimumRedemptionAmount : Uint256
  mintFee : Uint256
  redemptionFee : Uint256
  redemptionPaused : Bool
  subscriptionPaused : Bool

structure RWAHub where
  rwa : Address
  collateral : Address
  decimalsMultiplier : Uint256
  params : Parameters
  depositIdToDepositor : Bytes32 → Depositor
  redemptionIdToRedeemer : Bytes32 → Redeemer
  subscriptionRequestCounter : Uint256
  redemptionRequestCounter : Uint256
  access : AccessControl
  log : List HubEvent

/-- The address that receives deposits. -/
def assetRecipient : Address := 0xbDa73A0F13958ee444e0782E1768aB4B76EdaE28

/-- `BPS_DENOMINATOR` -/
def bpsDenominator : Uint256 := 10000

/-- `1e18` -/
def oneE18 : Uint256 := 1000000000000000000

/-- A call of `getPrice` on the pricer at an address. -/
def askPrice (pricers : Address → Option Pricer) (pricer : Address) (priceId : Uint256) :
    Tx Error Uint256 :=
  match pricers pricer with
  | none => .error .empty
  | some contract => .ok (contract.getPrice priceId)

namespace RWAHub

/-! ## Construction -/

/-- The constructor, given the decimals the two tokens report. -/
def deploy (deployer collateral rwa managerAdmin pauser assetSender feeRecipient : Address)
    (minimumDepositAmount minimumRedemptionAmount : Uint256)
    (rwaDecimals collateralDecimals : BitVec 8) : Tx Error RWAHub := do
  revertIf (collateral = 0) .collateralCannotBeZero
  revertIf (rwa = 0) .rwaCannotBeZero
  revertIf (assetSender = 0) .assetSenderCannotBeZero
  revertIf (feeRecipient = 0) .feeRecipientCannotBeZero
  -- `uint8` subtraction, checked.
  let exponent ← checkedSub (rwaDecimals.setWidth 256) (collateralDecimals.setWidth 256)
  let decimalsMultiplier ← checkedPow 10 exponent.toNat
  let access := AccessControl.empty.internalGrantRole deployer .defaultAdminRole managerAdmin
  let access := access.internalGrantRole deployer .managerAdmin managerAdmin
  let access := access.internalGrantRole deployer .pauserAdmin pauser
  let access := access.setRoleAdmin .pauserAdmin .managerAdmin
  let access := access.setRoleAdmin .priceIdSetterRole .managerAdmin
  let access := access.setRoleAdmin .relayerRole .managerAdmin
  return {
    rwa := rwa
    collateral := collateral
    decimalsMultiplier := decimalsMultiplier
    params := {
      pricer := 0
      assetSender := assetSender
      feeRecipient := feeRecipient
      minimumDepositAmount := minimumDepositAmount
      minimumRedemptionAmount := minimumRedemptionAmount
      mintFee := 0
      redemptionFee := 0
      redemptionPaused := false
      subscriptionPaused := false }
    depositIdToDepositor := fun _ => .null
    redemptionIdToRedeemer := fun _ => .null
    subscriptionRequestCounter := 1
    redemptionRequestCounter := 1
    access := access
    log := [] }

/-! ## Math -/

def getMintFees (hub : RWAHub) (collateralAmount : Uint256) : Tx Error Uint256 := do
  let product ← checkedMul collateralAmount hub.params.mintFee
  checkedDiv product bpsDenominator

def getRedemptionFees (hub : RWAHub) (collateralAmount : Uint256) : Tx Error Uint256 := do
  let product ← checkedMul collateralAmount hub.params.redemptionFee
  checkedDiv product bpsDenominator

def scaleUp (hub : RWAHub) (amount : Uint256) : Tx Error Uint256 :=
  checkedMul amount hub.decimalsMultiplier

def scaleDown (hub : RWAHub) (amount : Uint256) : Tx Error Uint256 :=
  checkedDiv amount hub.decimalsMultiplier

def getMintAmountForPrice (hub : RWAHub) (depositAmt price : Uint256) : Tx Error Uint256 := do
  let scaled ← hub.scaleUp depositAmt
  let amountE36 ← checkedMul scaled oneE18
  -- Reverts with a division by zero if the price is not defined for a price id.
  checkedDiv amountE36 price

def getRedemptionAmountForRwa (hub : RWAHub) (rwaTokenAmountBurned price : Uint256) :
    Tx Error Uint256 := do
  let amountE36 ← checkedMul rwaTokenAmountBurned price
  let amount ← checkedDiv amountE36 oneE18
  hub.scaleDown amount

/-! ## Subscriptions and redemptions -/

variable {κ : Type} [IERC20 κ]

/-- `if (fees > 0) collateral.safeTransferFrom(source, feeRecipient, fees);` -/
def transferFees (hub : RWAHub) (token : κ) (self source : Address) (fees : Uint256) :
    Tx Error κ :=
  if 0 < fees then safeTransferFrom token self source hub.params.feeRecipient fees
  else .ok token

def requestSubscription (hub : RWAHub) (token : κ) (self msgSender : Address)
    (checkRestrictions : Address → Tx Error Unit) (amount : Uint256) :
    Tx Error (RWAHub × κ) := do
  revertIf (hub.params.subscriptionPaused = true) .featurePaused
  checkRestrictions msgSender
  revertIf (amount < hub.params.minimumDepositAmount) .depositTooSmall
  let feesInCollateral ← hub.getMintFees amount
  let depositAmountAfterFee ← checkedSub amount feesInCollateral
  let depositId : Bytes32 := hub.subscriptionRequestCounter
  let counter ← checkedAdd hub.subscriptionRequestCounter 1
  let hub := { hub with
    subscriptionRequestCounter := counter
    depositIdToDepositor := Function.update hub.depositIdToDepositor depositId
      ⟨msgSender, depositAmountAfterFee, 0⟩ }
  let token ← hub.transferFees token self msgSender feesInCollateral
  let token ← safeTransferFrom token self msgSender assetRecipient depositAmountAfterFee
  return ({ hub with
    log := hub.log ++
      [.mintRequested msgSender depositId amount depositAmountAfterFee feesInCollateral] }, token)

/-- `_claimMint` -/
def internalClaimMint (hub : RWAHub) (rwa : USBS) (lists : Lists)
    (pricers : Address → Option Pricer) (self : Address) (depositId : Bytes32) :
    Tx Error (RWAHub × USBS) := do
  let depositor := hub.depositIdToDepositor depositId
  revertIf (depositor.priceId = 0) .priceIdNotSet
  let price ← askPrice pricers hub.params.pricer depositor.priceId
  let rwaOwed ← hub.getMintAmountForPrice depositor.amountDepositedMinusFees price
  let hub := { hub with
    depositIdToDepositor := Function.update hub.depositIdToDepositor depositId .null }
  let rwa ← rwa.mint lists self depositor.user rwaOwed
  return ({ hub with
    log := hub.log ++ [.mintCompleted depositor.user depositId rwaOwed
      depositor.amountDepositedMinusFees price depositor.priceId] }, rwa)

def requestRedemption (hub : RWAHub) (rwa : USBS) (lists : Lists) (self msgSender : Address)
    (amount : Uint256) : Tx Error (RWAHub × USBS) := do
  revertIf (hub.params.redemptionPaused = true) .featurePaused
  revertIf (amount < hub.params.minimumRedemptionAmount) .redemptionTooSmall
  let redemptionId : Bytes32 := hub.redemptionRequestCounter
  let counter ← checkedAdd hub.redemptionRequestCounter 1
  let hub := { hub with
    redemptionRequestCounter := counter
    redemptionIdToRedeemer := Function.update hub.redemptionIdToRedeemer redemptionId
      ⟨msgSender, amount, 0⟩ }
  let rwa ← rwa.burnFrom lists self msgSender amount
  return ({ hub with log := hub.log ++ [.redemptionRequested msgSender redemptionId amount] },
    rwa)

/-- The variables of the loop of `claimRedemption`. -/
structure RedemptionBatch (κ : Type) where
  hub : RWAHub
  token : κ
  fees : Uint256

/-- The body of the loop of `claimRedemption`. -/
def claimRedemptionEntry (pricers : Address → Option Pricer) (self : Address)
    (checkRestrictions : Address → Tx Error Unit) (batch : RedemptionBatch κ)
    (redemptionId : Bytes32) : Tx Error (RedemptionBatch κ) := do
  let hub := batch.hub
  let member := hub.redemptionIdToRedeemer redemptionId
  checkRestrictions member.user
  revertIf (member.priceId = 0) .priceIdNotSet
  let price ← askPrice pricers hub.params.pricer member.priceId
  let collateralDue ← hub.getRedemptionAmountForRwa member.amountRwaTokenBurned price
  let fee ← hub.getRedemptionFees collateralDue
  let collateralDuePostFees ← checkedSub collateralDue fee
  let fees ← checkedAdd batch.fees fee
  let hub := { hub with
    redemptionIdToRedeemer := Function.update hub.redemptionIdToRedeemer redemptionId .null }
  let token ← safeTransferFrom batch.token self hub.params.assetSender member.user
    collateralDuePostFees
  return {
    hub := { hub with
      log := hub.log ++ [.redemptionCompleted member.user redemptionId
        member.amountRwaTokenBurned collateralDuePostFees price] }
    token := token
    fees := fees }

def claimRedemption (hub : RWAHub) (token : κ) (pricers : Address → Option Pricer)
    (self : Address) (checkRestrictions : Address → Tx Error Unit)
    (redemptionIds : List Bytes32) : Tx Error (RWAHub × κ) := do
  revertIf (hub.params.redemptionPaused = true) .featurePaused
  let batch ← redemptionIds.foldlM (claimRedemptionEntry pricers self checkRestrictions)
    ⟨hub, token, 0⟩
  let token ← batch.hub.transferFees batch.token self batch.hub.params.assetSender batch.fees
  return (batch.hub, token)

/-! ## Relayer -/

def addProof (hub : RWAHub) (msgSender : Address) (checkRestrictions : Address → Tx Error Unit)
    (txHash : Bytes32) (user : Address) (depositAmountAfterFee feeAmount timestamp : Uint256) :
    Tx Error RWAHub := do
  hub.access.checkRole .relayerRole msgSender
  checkRestrictions user
  revertIf ((hub.depositIdToDepositor txHash).user ≠ 0) .depositProofAlreadyExists
  return { hub with
    depositIdToDepositor := Function.update hub.depositIdToDepositor txHash
      ⟨user, depositAmountAfterFee, 0⟩
    log := hub.log ++ [.depositProofAdded txHash user depositAmountAfterFee feeAmount timestamp] }

/-! ## Price id setters -/

/-- The body of the loop of `setPriceIdForDeposits`. -/
def setPriceIdForDeposit (hub : RWAHub) (assignment : Bytes32 × Uint256) : Tx Error RWAHub := do
  let (depositId, priceId) := assignment
  revertIf ((hub.depositIdToDepositor depositId).user = 0) .depositorNull
  revertIf ((hub.depositIdToDepositor depositId).priceId ≠ 0) .priceIdAlreadySet
  return { hub with
    depositIdToDepositor := Function.update hub.depositIdToDepositor depositId
      { hub.depositIdToDepositor depositId with priceId := priceId }
    log := hub.log ++ [.priceIdSetForDeposit depositId priceId] }

def setPriceIdForDeposits (hub : RWAHub) (msgSender : Address) (depositIds : List Bytes32)
    (priceIds : List Uint256) : Tx Error RWAHub := do
  hub.access.checkRole .priceIdSetterRole msgSender
  revertIf (depositIds.length ≠ priceIds.length) .arraySizeMismatch
  (depositIds.zip priceIds).foldlM setPriceIdForDeposit hub

/-- The body of the loop of `setPriceIdForRedemptions`, which does not look at the user. -/
def setPriceIdForRedemption (hub : RWAHub) (assignment : Bytes32 × Uint256) :
    Tx Error RWAHub := do
  let (redemptionId, priceId) := assignment
  revertIf ((hub.redemptionIdToRedeemer redemptionId).priceId ≠ 0) .priceIdAlreadySet
  return { hub with
    redemptionIdToRedeemer := Function.update hub.redemptionIdToRedeemer redemptionId
      { hub.redemptionIdToRedeemer redemptionId with priceId := priceId }
    log := hub.log ++ [.priceIdSetForRedemption redemptionId priceId] }

def setPriceIdForRedemptions (hub : RWAHub) (msgSender : Address)
    (redemptionIds : List Bytes32) (priceIds : List Uint256) : Tx Error RWAHub := do
  hub.access.checkRole .priceIdSetterRole msgSender
  revertIf (redemptionIds.length ≠ priceIds.length) .arraySizeMismatch
  (redemptionIds.zip priceIds).foldlM setPriceIdForRedemption hub

/-! ## Admin setters -/

def overwriteDepositor (hub : RWAHub) (msgSender : Address)
    (checkRestrictions : Address → Tx Error Unit) (depositIdToOverwrite : Bytes32)
    (user : Address) (depositAmountAfterFee priceId : Uint256) : Tx Error RWAHub := do
  hub.access.checkRole .managerAdmin msgSender
  checkRestrictions user
  let oldDepositor := hub.depositIdToDepositor depositIdToOverwrite
  return { hub with
    depositIdToDepositor := Function.update hub.depositIdToDepositor depositIdToOverwrite
      ⟨user, depositAmountAfterFee, priceId⟩
    log := hub.log ++ [.depositorOverwritten depositIdToOverwrite oldDepositor.user user
      oldDepositor.priceId priceId oldDepositor.amountDepositedMinusFees depositAmountAfterFee] }

def overwriteRedeemer (hub : RWAHub) (msgSender : Address)
    (checkRestrictions : Address → Tx Error Unit) (redemptionIdToOverwrite : Bytes32)
    (user : Address) (rwaTokenAmountBurned priceId : Uint256) : Tx Error RWAHub := do
  hub.access.checkRole .managerAdmin msgSender
  checkRestrictions user
  let oldRedeemer := hub.redemptionIdToRedeemer redemptionIdToOverwrite
  return { hub with
    redemptionIdToRedeemer := Function.update hub.redemptionIdToRedeemer redemptionIdToOverwrite
      ⟨user, rwaTokenAmountBurned, priceId⟩
    log := hub.log ++ [.redeemerOverwritten redemptionIdToOverwrite oldRedeemer.user user
      oldRedeemer.priceId priceId oldRedeemer.amountRwaTokenBurned rwaTokenAmountBurned] }

/-- The shape of the remaining setters: check a role, check the new value, write a parameter and
log it. -/
def adminSet (hub : RWAHub) (msgSender : Address) (role : Role) (check : Tx Error Unit)
    (write : Parameters → Parameters) (event : ParameterEvent) : Tx Error RWAHub := do
  hub.access.checkRole role msgSender
  check
  return { hub with params := write hub.params, log := hub.log ++ [.parameterSet event] }

def setMinimumRedemptionAmount (hub : RWAHub) (msgSender : Address) (amount : Uint256) :
    Tx Error RWAHub :=
  hub.adminSet msgSender .managerAdmin (revertIf (amount < bpsDenominator) .amountTooSmall)
    ({ · with minimumRedemptionAmount := amount })
    (.minimumRedemptionAmountSet hub.params.minimumRedemptionAmount amount)

def setMinimumDepositAmount (hub : RWAHub) (msgSender : Address) (amount : Uint256) :
    Tx Error RWAHub :=
  hub.adminSet msgSender .managerAdmin (revertIf (amount < bpsDenominator) .amountTooSmall)
    ({ · with minimumDepositAmount := amount })
    (.minimumDepositAmountSet hub.params.minimumDepositAmount amount)

def setMintFee (hub : RWAHub) (msgSender : Address) (fee : Uint256) : Tx Error RWAHub :=
  hub.adminSet msgSender .managerAdmin (revertIf (bpsDenominator < fee) .feeTooLarge)
    ({ · with mintFee := fee }) (.mintFeeSet hub.params.mintFee fee)

def setRedemptionFee (hub : RWAHub) (msgSender : Address) (fee : Uint256) : Tx Error RWAHub :=
  hub.adminSet msgSender .managerAdmin (revertIf (bpsDenominator < fee) .feeTooLarge)
    ({ · with redemptionFee := fee }) (.redemptionFeeSet hub.params.redemptionFee fee)

def setPricer (hub : RWAHub) (msgSender newPricer : Address) : Tx Error RWAHub :=
  hub.adminSet msgSender .managerAdmin (.ok ()) ({ · with pricer := newPricer })
    (.newPricerSet hub.params.pricer newPricer)

def setFeeRecipient (hub : RWAHub) (msgSender newFeeRecipient : Address) : Tx Error RWAHub :=
  hub.adminSet msgSender .managerAdmin (.ok ()) ({ · with feeRecipient := newFeeRecipient })
    (.feeRecipientSet hub.params.feeRecipient newFeeRecipient)

def setAssetSender (hub : RWAHub) (msgSender newAssetSender : Address) : Tx Error RWAHub :=
  hub.adminSet msgSender .managerAdmin (.ok ()) ({ · with assetSender := newAssetSender })
    (.assetSenderSet hub.params.assetSender newAssetSender)

def pauseSubscription (hub : RWAHub) (msgSender : Address) : Tx Error RWAHub :=
  hub.adminSet msgSender .pauserAdmin (.ok ()) ({ · with subscriptionPaused := true })
    (.subscriptionPaused msgSender)

def pauseRedemption (hub : RWAHub) (msgSender : Address) : Tx Error RWAHub :=
  hub.adminSet msgSender .pauserAdmin (.ok ()) ({ · with redemptionPaused := true })
    (.redemptionPaused msgSender)

def unpauseSubscription (hub : RWAHub) (msgSender : Address) : Tx Error RWAHub :=
  hub.adminSet msgSender .managerAdmin (.ok ()) ({ · with subscriptionPaused := false })
    (.subscriptionUnpaused msgSender)

def unpauseRedemption (hub : RWAHub) (msgSender : Address) : Tx Error RWAHub :=
  hub.adminSet msgSender .managerAdmin (.ok ()) ({ · with redemptionPaused := false })
    (.redemptionUnpaused msgSender)

/-- The setters that write one parameter. -/
inductive AdminCall
  | setMinimumRedemptionAmount (amount : Uint256)
  | setMinimumDepositAmount (amount : Uint256)
  | setMintFee (fee : Uint256)
  | setRedemptionFee (fee : Uint256)
  | setPricer (newPricer : Address)
  | setFeeRecipient (newFeeRecipient : Address)
  | setAssetSender (newAssetSender : Address)
  | pauseSubscription
  | pauseRedemption
  | unpauseSubscription
  | unpauseRedemption

def execAdmin (hub : RWAHub) (msgSender : Address) : AdminCall → Tx Error RWAHub
  | .setMinimumRedemptionAmount amount => hub.setMinimumRedemptionAmount msgSender amount
  | .setMinimumDepositAmount amount => hub.setMinimumDepositAmount msgSender amount
  | .setMintFee fee => hub.setMintFee msgSender fee
  | .setRedemptionFee fee => hub.setRedemptionFee msgSender fee
  | .setPricer newPricer => hub.setPricer msgSender newPricer
  | .setFeeRecipient newFeeRecipient => hub.setFeeRecipient msgSender newFeeRecipient
  | .setAssetSender newAssetSender => hub.setAssetSender msgSender newAssetSender
  | .pauseSubscription => hub.pauseSubscription msgSender
  | .pauseRedemption => hub.pauseRedemption msgSender
  | .unpauseSubscription => hub.unpauseSubscription msgSender
  | .unpauseRedemption => hub.unpauseRedemption msgSender

end RWAHub

end BrivoUsbs
