import BrivoUsbs.Contracts.RWAHub

/-!
# The USBS manager

`USBSManager` is the deployed hub.  It adds redemptions serviced off chain (from
`RWAHubOffChainRedemptions`), screens accounts against a blocklist and a sanctions list, and
holds a mint back until the claimable timestamp of its deposit.
-/

namespace BrivoUsbs

/-- The storage the manager's own setters write. -/
structure ManagerParameters where
  offChainRedemptionPaused : Bool
  minimumOffChainRedemptionAmount : Uint256
  blocklist : Address
  sanctionsList : Address

structure USBSManager where
  hub : RWAHub
  managerParams : ManagerParameters
  depositIdToClaimableTimestamp : Bytes32 → Uint256

namespace USBSManager

/-! ## Construction -/

/-- The constructor arguments, with the deployer and the decimals the two tokens report. -/
structure Arguments where
  deployer : Address
  collateral : Address
  rwa : Address
  managerAdmin : Address
  pauser : Address
  assetSender : Address
  feeRecipient : Address
  minimumDepositAmount : Uint256
  minimumRedemptionAmount : Uint256
  blocklist : Address
  sanctionsList : Address
  rwaDecimals : BitVec 8
  collateralDecimals : BitVec 8

def deploy (args : Arguments) : Tx Error USBSManager := do
  let hub ← RWAHub.deploy args.deployer args.collateral args.rwa args.managerAdmin args.pauser
    args.assetSender args.feeRecipient args.minimumDepositAmount args.minimumRedemptionAmount
    args.rwaDecimals args.collateralDecimals
  revertIf (args.blocklist = 0) .blocklistZeroAddress
  revertIf (args.sanctionsList = 0) .sanctionsListZeroAddress
  return {
    hub := { hub with
      log := hub.log ++ [.parameterSet (.blocklistSet 0 args.blocklist),
        .parameterSet (.sanctionsListSet 0 args.sanctionsList)] }
    managerParams := {
      offChainRedemptionPaused := false
      minimumOffChainRedemptionAmount := args.minimumRedemptionAmount
      blocklist := args.blocklist
      sanctionsList := args.sanctionsList }
    depositIdToClaimableTimestamp := fun _ => 0 }

/-! ## Functions -/

/-- `_checkRestrictions` -/
def checkRestrictions (manager : USBSManager) (lists : Lists) (account : Address) :
    Tx Error Unit := do
  let blocked ← askList lists.blocklists manager.managerParams.blocklist account
  revertIf (blocked = true) .blockedAccount
  let sanctioned ← askList lists.sanctionsLists manager.managerParams.sanctionsList account
  revertIf (sanctioned = true) .sanctionedAccount

/-- `_claimMint`, overriding and calling the hub's. -/
def internalClaimMint (manager : USBSManager) (rwa : USBS) (lists : Lists)
    (pricers : Address → Option Pricer) (self : Address) (timestamp : Uint256)
    (depositId : Bytes32) : Tx Error (USBSManager × USBS) := do
  revertIf (manager.depositIdToClaimableTimestamp depositId = 0) .claimableTimestampNotSet
  revertIf (timestamp < manager.depositIdToClaimableTimestamp depositId) .mintNotYetClaimable
  let claimed ← manager.hub.internalClaimMint rwa lists pricers self depositId
  return ({ manager with
    hub := claimed.1
    depositIdToClaimableTimestamp :=
      Function.update manager.depositIdToClaimableTimestamp depositId 0 }, claimed.2)

def claimMint (manager : USBSManager) (rwa : USBS) (lists : Lists)
    (pricers : Address → Option Pricer) (self : Address) (timestamp : Uint256)
    (depositIds : List Bytes32) : Tx Error (USBSManager × USBS) := do
  revertIf (manager.hub.params.subscriptionPaused = true) .featurePaused
  depositIds.foldlM
    (fun state depositId =>
      state.1.internalClaimMint state.2 lists pricers self timestamp depositId)
    (manager, rwa)

def requestRedemptionServicedOffchain (manager : USBSManager) (rwa : USBS) (lists : Lists)
    (self msgSender : Address) (amountRWATokenToRedeem : Uint256)
    (offChainDestination : Bytes32) : Tx Error (USBSManager × USBS) := do
  revertIf (manager.managerParams.offChainRedemptionPaused = true) .featurePaused
  revertIf (amountRWATokenToRedeem < manager.managerParams.minimumOffChainRedemptionAmount)
    .redemptionTooSmall
  let redemptionId : Bytes32 := manager.hub.redemptionRequestCounter
  let counter ← checkedAdd manager.hub.redemptionRequestCounter 1
  let rwa ← rwa.burnFrom lists self msgSender amountRWATokenToRedeem
  return ({ manager with
    hub := { manager.hub with
      redemptionRequestCounter := counter
      log := manager.hub.log ++ [.redemptionRequestedServicedOffChain msgSender redemptionId
        amountRWATokenToRedeem offChainDestination] } }, rwa)

/-- The body of the loop of `setClaimableTimestamp`. -/
def setClaimableTimestampEntry (claimTimestamp : Uint256) (manager : USBSManager)
    (depositId : Bytes32) : USBSManager :=
  { manager with
    hub := { manager.hub with
      log := manager.hub.log ++ [.claimableTimestampSet claimTimestamp depositId] }
    depositIdToClaimableTimestamp :=
      Function.update manager.depositIdToClaimableTimestamp depositId claimTimestamp }

def setClaimableTimestamp (manager : USBSManager) (msgSender : Address) (timestamp : Uint256)
    (claimTimestamp : Uint256) (depositIds : List Bytes32) : Tx Error USBSManager := do
  manager.hub.access.checkRole .timestampSetterRole msgSender
  revertIf (claimTimestamp < timestamp) .claimableTimestampInPast
  return depositIds.foldl (setClaimableTimestampEntry claimTimestamp) manager

/-! ## Setters -/

/-- The shape of the manager's own setters, as `RWAHub.adminSet` is of the hub's. -/
def managerSet (manager : USBSManager) (msgSender : Address) (role : Role)
    (check : Tx Error Unit) (write : ManagerParameters → ManagerParameters)
    (event : ParameterEvent) : Tx Error USBSManager := do
  manager.hub.access.checkRole role msgSender
  check
  return { manager with
    hub := { manager.hub with log := manager.hub.log ++ [.parameterSet event] }
    managerParams := write manager.managerParams }

def pauseOffChainRedemption (manager : USBSManager) (msgSender : Address) :
    Tx Error USBSManager :=
  manager.managerSet msgSender .pauserAdmin (.ok ())
    ({ · with offChainRedemptionPaused := true }) (.offChainRedemptionPaused msgSender)

def unpauseOffChainRedemption (manager : USBSManager) (msgSender : Address) :
    Tx Error USBSManager :=
  manager.managerSet msgSender .managerAdmin (.ok ())
    ({ · with offChainRedemptionPaused := false }) (.offChainRedemptionUnpaused msgSender)

def setOffChainRedemptionMinimum (manager : USBSManager) (msgSender : Address)
    (minimum : Uint256) : Tx Error USBSManager :=
  manager.managerSet msgSender .managerAdmin (.ok ())
    ({ · with minimumOffChainRedemptionAmount := minimum })
    (.offChainRedemptionMinimumSet manager.managerParams.minimumOffChainRedemptionAmount minimum)

def setBlocklist (manager : USBSManager) (msgSender blocklist : Address) :
    Tx Error USBSManager :=
  manager.managerSet msgSender .managerAdmin (revertIf (blocklist = 0) .blocklistZeroAddress)
    ({ · with blocklist := blocklist })
    (.blocklistSet manager.managerParams.blocklist blocklist)

def setSanctionsList (manager : USBSManager) (msgSender sanctionsList : Address) :
    Tx Error USBSManager :=
  manager.managerSet msgSender .managerAdmin
    (revertIf (sanctionsList = 0) .sanctionsListZeroAddress)
    ({ · with sanctionsList := sanctionsList })
    (.sanctionsListSet manager.managerParams.sanctionsList sanctionsList)

/-- The manager's own setters. -/
inductive ManagerCall
  | pauseOffChainRedemption
  | unpauseOffChainRedemption
  | setOffChainRedemptionMinimum (minimum : Uint256)
  | setBlocklist (blocklist : Address)
  | setSanctionsList (sanctionsList : Address)

def execManagerSet (manager : USBSManager) (msgSender : Address) :
    ManagerCall → Tx Error USBSManager
  | .pauseOffChainRedemption => manager.pauseOffChainRedemption msgSender
  | .unpauseOffChainRedemption => manager.unpauseOffChainRedemption msgSender
  | .setOffChainRedemptionMinimum minimum => manager.setOffChainRedemptionMinimum msgSender minimum
  | .setBlocklist blocklist => manager.setBlocklist msgSender blocklist
  | .setSanctionsList sanctionsList => manager.setSanctionsList msgSender sanctionsList

/-- The entry points of the manager. -/
inductive Call
  | requestSubscription (amount : Uint256)
  | claimMint (depositIds : List Bytes32)
  | requestRedemption (amount : Uint256)
  | claimRedemption (redemptionIds : List Bytes32)
  | requestRedemptionServicedOffchain (amountRWATokenToRedeem : Uint256)
      (offChainDestination : Bytes32)
  | addProof (txHash : Bytes32) (user : Address)
      (depositAmountAfterFee feeAmount timestamp : Uint256)
  | setPriceIdForDeposits (depositIds : List Bytes32) (priceIds : List Uint256)
  | setPriceIdForRedemptions (redemptionIds : List Bytes32) (priceIds : List Uint256)
  | overwriteDepositor (depositIdToOverwrite : Bytes32) (user : Address)
      (depositAmountAfterFee priceId : Uint256)
  | overwriteRedeemer (redemptionIdToOverwrite : Bytes32) (user : Address)
      (rwaTokenAmountBurned priceId : Uint256)
  | setClaimableTimestamp (claimTimestamp : Uint256) (depositIds : List Bytes32)
  | admin (call : RWAHub.AdminCall)
  | manager (call : ManagerCall)
  | access (call : AccessControl.Call)

end USBSManager

end BrivoUsbs
