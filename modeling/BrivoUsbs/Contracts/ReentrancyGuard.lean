import BrivoUsbs.Contracts.World

/-!
# Reentrancy

In `World` the collateral does nothing but move its tokens.  Here it may be any contract: whenever
the manager calls it, it makes any transactions it likes, before and after it moves the tokens, and
those may call the manager again.  What stands against this is the `nonReentrant` modifier of
`ReentrancyGuard` on the five entry points that issue and settle requests.

`requestSubscription` and `claimRedemption` are the functions that call the collateral, so they are
cut into pieces at these calls.  A call is given in a step relation, since it is not the manager
that decides what happens during it; `StepAt` bounds the depth to which calls nest, as the EVM does,
and `Step` leaves the bound open.
-/

namespace BrivoUsbs

/-! ## The pieces of the functions that call the collateral -/

namespace RWAHub

/-- The variables of `requestSubscription` that outlive its calls of the collateral. -/
structure Subscription where
  depositId : Bytes32
  feesInCollateral : Uint256
  depositAmountAfterFee : Uint256

/-- `requestSubscription` up to its first call of the collateral. -/
def openSubscription (hub : RWAHub) (msgSender : Address)
    (checkRestrictions : Address → Tx Error Unit) (amount : Uint256) :
    Tx Error (RWAHub × Subscription) := do
  revertIf (hub.params.subscriptionPaused = true) .featurePaused
  checkRestrictions msgSender
  revertIf (amount < hub.params.minimumDepositAmount) .depositTooSmall
  let feesInCollateral ← hub.getMintFees amount
  let depositAmountAfterFee ← checkedSub amount feesInCollateral
  let depositId : Bytes32 := hub.subscriptionRequestCounter
  let counter ← checkedAdd hub.subscriptionRequestCounter 1
  return ({ hub with
    subscriptionRequestCounter := counter
    depositIdToDepositor := Function.update hub.depositIdToDepositor depositId
      ⟨msgSender, depositAmountAfterFee, 0⟩ },
    ⟨depositId, feesInCollateral, depositAmountAfterFee⟩)

/-- The event `requestSubscription` ends with. -/
def Subscription.event (subscription : Subscription) (msgSender : Address) (amount : Uint256) :
    HubEvent :=
  .mintRequested msgSender subscription.depositId amount subscription.depositAmountAfterFee
    subscription.feesInCollateral

/-- The variables of the loop body of `claimRedemption` that outlive its call of the collateral,
and the fees so far. -/
structure ClaimedRedemption where
  member : Redeemer
  price : Uint256
  collateralDuePostFees : Uint256
  fees : Uint256

/-- The loop body of `claimRedemption` up to its call of the collateral. -/
def closeRedemption (hub : RWAHub) (pricers : Address → Option Pricer)
    (checkRestrictions : Address → Tx Error Unit) (redemptionId : Bytes32) (fees : Uint256) :
    Tx Error (RWAHub × ClaimedRedemption) := do
  let member := hub.redemptionIdToRedeemer redemptionId
  checkRestrictions member.user
  revertIf (member.priceId = 0) .priceIdNotSet
  let price ← askPrice pricers hub.params.pricer member.priceId
  let collateralDue ← hub.getRedemptionAmountForRwa member.amountRwaTokenBurned price
  let fee ← hub.getRedemptionFees collateralDue
  let collateralDuePostFees ← checkedSub collateralDue fee
  let fees ← checkedAdd fees fee
  return ({ hub with
    redemptionIdToRedeemer := Function.update hub.redemptionIdToRedeemer redemptionId .null },
    ⟨member, price, collateralDuePostFees, fees⟩)

/-- The event the loop body of `claimRedemption` ends with. -/
def ClaimedRedemption.event (claimed : ClaimedRedemption) (redemptionId : Bytes32) : HubEvent :=
  .redemptionCompleted claimed.member.user redemptionId claimed.member.amountRwaTokenBurned
    claimed.collateralDuePostFees claimed.price

end RWAHub

/-! ## The guard -/

/-- The entry points with the `nonReentrant` modifier. -/
def Action.isNonReentrant {κ : Type} : Action κ → Bool
  | .manager _ (.requestSubscription _) => true
  | .manager _ (.claimMint _) => true
  | .manager _ (.requestRedemption _) => true
  | .manager _ (.claimRedemption _) => true
  | .manager _ (.requestRedemptionServicedOffchain ..) => true
  | _ => false

/-- The system with the `_status` of the manager's reentrancy guard. -/
structure Guarded (κ : Type) where
  world : World κ
  status : Uint256

namespace Guarded

/-- `_NOT_ENTERED` -/
def notEntered : Uint256 := 1

/-- `_ENTERED` -/
def entered : Uint256 := 2

variable {κ : Type} [IERC20 κ]

/-- Replace the hub of the manager. -/
def withHub (g : Guarded κ) (hub : RWAHub) : Guarded κ :=
  { g with world := { g.world with manager := { g.world.manager with hub := hub } } }

def withCollateral (g : Guarded κ) (token : κ) : Guarded κ :=
  { g with world := { g.world with collateral := token } }

/-- Emit an event of the hub. -/
def emit (g : Guarded κ) (e : HubEvent) : Guarded κ :=
  g.withHub { g.world.hub with log := g.world.hub.log ++ [e] }

/-- The restrictions as they are now. -/
def checkRestrictions (g : Guarded κ) : Address → Tx Error Unit :=
  g.world.manager.checkRestrictions g.world.lists

/-- A call of the collateral: it moves the tokens, and makes transactions before and after. -/
def Transfers (step : Guarded κ → Action κ → Guarded κ → Prop) (source dest : Address)
    (value : Uint256) (g g' : Guarded κ) : Prop :=
  ∃ (before after : List (Action κ)) (mid : Guarded κ) (token : κ), Path step g before mid ∧
    safeTransferFrom mid.world.collateral mid.world.self source dest value = .ok token ∧
    Path step (mid.withCollateral token) after g'

/-- `if (fees > 0) collateral.safeTransferFrom(source, feeRecipient, fees);` -/
def TransfersFees (step : Guarded κ → Action κ → Guarded κ → Prop) (source : Address)
    (fees : Uint256) (g g' : Guarded κ) : Prop :=
  if 0 < fees then Transfers step source g.world.hub.params.feeRecipient fees g g' else g' = g

/-- The loop of `claimRedemption`, from some fees and a state to others. -/
inductive Settles (step : Guarded κ → Action κ → Guarded κ → Prop) :
    List Bytes32 → Uint256 → Guarded κ → Uint256 → Guarded κ → Prop
  | nil {fees : Uint256} {g : Guarded κ} : Settles step [] fees g fees g
  | cons {redemptionId : Bytes32} {redemptionIds : List Bytes32} {fees fees' : Uint256}
      {g paid g' : Guarded κ} {hub : RWAHub} {claimed : RWAHub.ClaimedRedemption}
      (hclose : g.world.hub.closeRedemption g.world.pricers g.checkRestrictions redemptionId
        fees = .ok (hub, claimed))
      (hpay : Transfers step hub.params.assetSender claimed.member.user
        claimed.collateralDuePostFees (g.withHub hub) paid)
      (hrest : Settles step redemptionIds claimed.fees
        (paid.emit (claimed.event redemptionId)) fees' g') :
      Settles step (redemptionId :: redemptionIds) fees g fees' g'

/-- The body of an entry point, without the modifier. -/
def Body (step : Guarded κ → Action κ → Guarded κ → Prop) (g : Guarded κ) :
    Action κ → Guarded κ → Prop
  | .manager msgSender (.requestSubscription amount), g' =>
      ∃ (hub : RWAHub) (subscription : RWAHub.Subscription) (paidFees paid : Guarded κ),
        g.world.hub.openSubscription msgSender g.checkRestrictions amount =
          .ok (hub, subscription) ∧
        TransfersFees step msgSender subscription.feesInCollateral (g.withHub hub) paidFees ∧
        Transfers step msgSender assetRecipient subscription.depositAmountAfterFee paidFees paid ∧
        g' = paid.emit (subscription.event msgSender amount)
  | .manager _ (.claimRedemption redemptionIds), g' =>
      g.world.hub.params.redemptionPaused = false ∧
        ∃ (fees : Uint256) (settled : Guarded κ),
          Settles step redemptionIds 0 g fees settled ∧
          TransfersFees step settled.world.hub.params.assetSender fees settled g'
  -- The other functions do not call the collateral.
  | a, g' => g.world.exec a = .ok g'.world ∧ g'.status = g.status

/-- One transaction, during which calls nest less than `depth` deep. -/
def StepAt : ℕ → Guarded κ → Action κ → Guarded κ → Prop
  | 0 => fun _ _ _ => False
  | depth + 1 => fun g a g' =>
      (∀ caller ∈ a.caller, caller ≠ 0 ∧ caller ≠ g.world.self) ∧
        if a.isNonReentrant then
          g.status ≠ entered ∧
            ∃ left, Body (StepAt depth) { g with status := entered } a left ∧
              g' = { left with status := notEntered }
        else Body (StepAt depth) g a g'

/-- One transaction of the system. -/
def Step (g : Guarded κ) (a : Action κ) (g' : Guarded κ) : Prop := ∃ depth, StepAt depth g a g'

end Guarded

end BrivoUsbs
