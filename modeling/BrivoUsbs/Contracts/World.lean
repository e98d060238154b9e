import BrivoUsbs.Contracts.USBSManager
import BrivoUsbs.Framework.Path

/-!
# The system

`World` is the manager together with everything it talks to: the USBS token, its collateral, the
pricers and list contracts on the chain, and the clock.  `Step` is one transaction against any of
them, or a move of the environment; a run is any sequence of these, by any callers, so it covers
every interleaving.  Rejected transactions change nothing and take no step.

What others do with the collateral or the list contracts is not constrained: the environment may
replace them by any others.
-/

namespace BrivoUsbs

/-- The manager at address `self` and its surroundings, over a collateral token `κ`. -/
structure World (κ : Type) where
  self : Address
  timestamp : Uint256
  manager : USBSManager
  usbs : USBS
  collateral : κ
  pricers : Address → Option Pricer
  lists : Lists

inductive Action (κ : Type)
  | manager (msgSender : Address) (call : USBSManager.Call)
  | usbs (msgSender : Address) (call : USBS.Call)
  | pricer (address msgSender : Address) (call : Pricer.Call)
  | deployPricer (address msgSender admin pricer : Address)
  /-- Others use the collateral. -/
  | collateral (token : κ)
  /-- The list contracts change. -/
  | lists (lists : Lists)
  /-- Blocks pass. -/
  | wait (timestamp : Uint256)

/-- The account a transaction is sent from. -/
def Action.caller {κ : Type} : Action κ → Option Address
  | .manager msgSender _ => some msgSender
  | .usbs msgSender _ => some msgSender
  | .pricer _ msgSender _ => some msgSender
  | .deployPricer _ msgSender _ _ => some msgSender
  | .collateral _ | .lists _ | .wait _ => none

namespace Action

variable {κ : Type}

/-- `overwriteDepositor` -/
def isOverwriteDepositor : Action κ → Bool
  | .manager _ (.overwriteDepositor ..) => true
  | _ => false

/-- `overwriteRedeemer` -/
def isOverwriteRedeemer : Action κ → Bool
  | .manager _ (.overwriteRedeemer ..) => true
  | _ => false

/-- The deposits a call of `claimMint` names. -/
def claimedDeposits : Action κ → List Bytes32
  | .manager _ (.claimMint depositIds) => depositIds
  | _ => []

/-- The proof a call of `addProof` adds: the transaction hash and the user. -/
def addedProofs : Action κ → List (Bytes32 × Address)
  | .manager _ (.addProof txHash user _ _ _) => [(txHash, user)]
  | _ => []

/-- `requestSubscription` -/
def isRequestSubscription : Action κ → Bool
  | .manager _ (.requestSubscription _) => true
  | _ => false

/-- `addProof` of a transaction hash, for some user -/
def creditsProof (txHash : Bytes32) : Action κ → Bool
  | .manager _ (.addProof h user _ _ _) => h = txHash ∧ user ≠ 0
  | _ => false

/-- The redemptions a call of `claimRedemption` names. -/
def claimedRedemptions : Action κ → List Bytes32
  | .manager _ (.claimRedemption redemptionIds) => redemptionIds
  | _ => []

/-- The price ids a call of `setPriceIdForRedemptions` attaches. -/
def redemptionAssignments : Action κ → List (Bytes32 × Uint256)
  | .manager _ (.setPriceIdForRedemptions redemptionIds priceIds) => redemptionIds.zip priceIds
  | _ => []

/-- The price ids a call attaches to redemptions. -/
def attachedPriceIds : Action κ → List Uint256
  | .manager _ (.setPriceIdForRedemptions _ priceIds) => priceIds
  | .manager _ (.overwriteRedeemer _ _ _ priceId) => [priceId]
  | _ => []

/-- A change of the USBS token's roles -/
def isTokenAccess : Action κ → Bool
  | .usbs _ (.access _) => true
  | _ => false

end Action

namespace World

variable {κ : Type} [IERC20 κ]

abbrev hub (w : World κ) : RWAHub := w.manager.hub

def execManager (w : World κ) (msgSender : Address) : USBSManager.Call → Tx Error (World κ)
  | .requestSubscription amount => do
      let result ← w.hub.requestSubscription w.collateral w.self msgSender
        (w.manager.checkRestrictions w.lists) amount
      return { w with manager := { w.manager with hub := result.1 }, collateral := result.2 }
  | .claimMint depositIds => do
      let result ← w.manager.claimMint w.usbs w.lists w.pricers w.self w.timestamp depositIds
      return { w with manager := result.1, usbs := result.2 }
  | .requestRedemption amount => do
      let result ← w.hub.requestRedemption w.usbs w.lists w.self msgSender amount
      return { w with manager := { w.manager with hub := result.1 }, usbs := result.2 }
  | .claimRedemption redemptionIds => do
      let result ← w.hub.claimRedemption w.collateral w.pricers w.self
        (w.manager.checkRestrictions w.lists) redemptionIds
      return { w with manager := { w.manager with hub := result.1 }, collateral := result.2 }
  | .requestRedemptionServicedOffchain amount destination => do
      let result ← w.manager.requestRedemptionServicedOffchain w.usbs w.lists w.self msgSender
        amount destination
      return { w with manager := result.1, usbs := result.2 }
  | .addProof txHash user depositAmountAfterFee feeAmount timestamp => do
      let hub ← w.hub.addProof msgSender (w.manager.checkRestrictions w.lists) txHash user
        depositAmountAfterFee feeAmount timestamp
      return { w with manager := { w.manager with hub := hub } }
  | .setPriceIdForDeposits depositIds priceIds => do
      let hub ← w.hub.setPriceIdForDeposits msgSender depositIds priceIds
      return { w with manager := { w.manager with hub := hub } }
  | .setPriceIdForRedemptions redemptionIds priceIds => do
      let hub ← w.hub.setPriceIdForRedemptions msgSender redemptionIds priceIds
      return { w with manager := { w.manager with hub := hub } }
  | .overwriteDepositor depositId user depositAmountAfterFee priceId => do
      let hub ← w.hub.overwriteDepositor msgSender (w.manager.checkRestrictions w.lists)
        depositId user depositAmountAfterFee priceId
      return { w with manager := { w.manager with hub := hub } }
  | .overwriteRedeemer redemptionId user rwaTokenAmountBurned priceId => do
      let hub ← w.hub.overwriteRedeemer msgSender (w.manager.checkRestrictions w.lists)
        redemptionId user rwaTokenAmountBurned priceId
      return { w with manager := { w.manager with hub := hub } }
  | .setClaimableTimestamp claimTimestamp depositIds => do
      let manager ← w.manager.setClaimableTimestamp msgSender w.timestamp claimTimestamp
        depositIds
      return { w with manager := manager }
  | .admin call => do
      let hub ← w.hub.execAdmin msgSender call
      return { w with manager := { w.manager with hub := hub } }
  | .manager call => do
      let manager ← w.manager.execManagerSet msgSender call
      return { w with manager := manager }
  | .access call => do
      let access ← w.hub.access.exec msgSender call
      return { w with manager := { w.manager with hub := { w.hub with access := access } } }

def execPricer (w : World κ) (address msgSender : Address) (call : Pricer.Call) :
    Tx Error (World κ) :=
  match w.pricers address with
  | none => .error .empty
  | some contract => do
      let contract ← contract.exec msgSender call
      return { w with pricers := Function.update w.pricers address (some contract) }

def exec (w : World κ) : Action κ → Tx Error (World κ)
  | .manager msgSender call => w.execManager msgSender call
  | .usbs msgSender call => do
      let usbs ← w.usbs.exec w.lists msgSender call
      return { w with usbs := usbs }
  | .pricer address msgSender call => w.execPricer address msgSender call
  | .deployPricer address msgSender admin pricer =>
      if w.pricers address = none then
        .ok { w with
          pricers := Function.update w.pricers address
            (some (Pricer.deploy msgSender admin pricer)) }
      else .error .empty
  | .collateral token => .ok { w with collateral := token }
  | .lists lists => .ok { w with lists := lists }
  | .wait timestamp =>
      if w.timestamp ≤ timestamp then .ok { w with timestamp := timestamp } else .error .empty

/-- One step of the system.  Nobody calls from the zero address, and nobody but the manager's own
code calls from the manager's address. -/
def Step (w : World κ) (a : Action κ) (w' : World κ) : Prop :=
  (∀ caller ∈ a.caller, caller ≠ 0 ∧ caller ≠ w.self) ∧ w.exec a = .ok w'

/-- One step of the system as a function: nothing if the transaction is rejected. -/
def next (w : World κ) (a : Action κ) : Option (World κ) :=
  if a.caller.all (fun caller => caller ≠ 0 ∧ caller ≠ w.self) then (w.exec a).toOption else none

lemma step_of_next {w w' : World κ} {a : Action κ} (h : w.next a = some w') : w.Step a w' := by
  unfold next at h
  split at h
  · next hcaller =>
      exact ⟨by simpa [Option.all_eq_true] using hcaller, toOption_eq_some.mp h⟩
  · cases h

lemma next_of_error {w : World κ} {a : Action κ} {r : Revert Error} (h : w.exec a = .error r) :
    w.next a = none := by
  unfold next
  split
  · exact toOption_of_error h
  · rfl

/-- The world without the logs of the manager and of the USBS token, which no call reads. -/
def storage (w : World κ) : World κ := { w with
  manager := { w.manager with hub := { w.hub with log := [] } }
  usbs := { w.usbs with erc20 := w.usbs.erc20.storage } }

/-- A world in which the manager has just been constructed. -/
def Deployed (w : World κ) : Prop := ∃ args, USBSManager.deploy args = .ok w.manager

end World

/-! ## A sample deployment -/

namespace Sample

/-- The account that holds every role. -/
def operator : Address := 0x0A

/-- A customer. -/
def customer : Address := 0x0C

/-- The manager's own address. -/
def managerAddress : Address := 0x50

/-- The address of the pricer. -/
def pricerAddress : Address := 0x51

def arguments : USBSManager.Arguments where
  deployer := operator
  collateral := 0x52
  rwa := 0x53
  managerAdmin := operator
  pauser := operator
  assetSender := 0x54
  feeRecipient := 0x55
  minimumDepositAmount := 0
  minimumRedemptionAmount := 0
  blocklist := 0x56
  sanctionsList := 0x57
  rwaDecimals := 18
  collateralDecimals := 6

def manager : USBSManager := (USBSManager.deploy arguments).toOption.get (by decide)

/-- A USBS token with no supply, whose minter is the manager. -/
def usbs : USBS where
  erc20 := .empty
  paused := false
  access := AccessControl.empty.internalGrantRole operator .minterRole managerAddress
  blocklist := 0x56
  allowlist := 0x58
  sanctionsList := 0x57
  log := []

/-- Collateral the customer and the asset sender hold and let the manager spend. -/
def collateral : ERC20 where
  balances account := if account = customer ∨ account = 0x54 then 10 ^ 24 else 0
  allowances _ spender := if spender = managerAddress then ERC20.maxUint256 else 0
  totalSupply := 2 * 10 ^ 24
  log := []

/-- Lists that screen nobody out. -/
def lists : Lists where
  blocklists address := if address = 0x56 then some fun _ => false else none
  allowlists address := if address = 0x58 then some fun _ => true else none
  sanctionsLists address := if address = 0x57 then some fun _ => false else none

/-- The world just after the deployment. -/
def world : World ERC20 where
  self := managerAddress
  timestamp := 1000000
  manager := manager
  usbs := usbs
  collateral := collateral
  pricers := Function.update (fun _ => none) pricerAddress
    (some (Pricer.deploy operator operator operator))
  lists := lists

lemma world_deployed : world.Deployed := ⟨arguments, rfl⟩

/-- Hand out the roles and set the pricer. -/
def setup : List (Action ERC20) := [
  .manager operator (.access (.grantRole .priceIdSetterRole operator)),
  .manager operator (.access (.grantRole .relayerRole operator)),
  .manager operator (.access (.grantRole .timestampSetterRole operator)),
  .manager operator (.admin (.setPricer pricerAddress))]

/-- The customer deposits collateral and redeems part of the tokens minted for it, one part on
chain and one off chain. -/
def mintAndRedeem : List (Action ERC20) := setup ++ [
  .pricer pricerAddress operator (.addPrice 1000000000000000000 999999),
  .manager customer (.requestSubscription 100000000),
  .manager operator (.addProof 0xABCD customer 50000000 0 999999),
  .manager operator (.setPriceIdForDeposits [1, 0xABCD] [1, 1]),
  .manager operator (.setClaimableTimestamp 1000000 [1, 0xABCD]),
  .manager customer (.claimMint [1, 0xABCD]),
  .usbs customer (.holder (.approve managerAddress 1000000000000000000000)),
  .manager customer (.requestRedemption 60000000000000000000),
  .manager customer (.requestRedemptionServicedOffchain 10000000000000000000 0xEF),
  .manager operator (.setPriceIdForRedemptions [1] [1]),
  .manager customer (.claimRedemption [1])]

end Sample

end BrivoUsbs
