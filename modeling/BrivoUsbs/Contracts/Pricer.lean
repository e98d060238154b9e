import BrivoUsbs.Contracts.AccessControl

/-!
# The pricer

`Pricer` stores prices under consecutive ids.  `latestPriceId` points at the price with the
latest timestamp, which need not be the one added last.
-/

namespace BrivoUsbs

structure PriceInfo where
  price : Uint256
  timestamp : Uint256
  deriving DecidableEq

inductive PricerEvent
  | priceAdded (priceId price timestamp : Uint256)
  | priceUpdated (priceId oldPrice newPrice : Uint256)

structure Pricer where
  prices : Uint256 → PriceInfo
  priceIds : List Uint256
  currentPriceId : Uint256
  latestPriceId : Uint256
  access : AccessControl
  log : List PricerEvent

namespace Pricer

/-- The constructor. -/
def deploy (deployer admin pricer : Address) : Pricer where
  prices _ := ⟨0, 0⟩
  priceIds := []
  currentPriceId := 0
  latestPriceId := 0
  access := (AccessControl.empty.internalGrantRole deployer .defaultAdminRole
    admin).internalGrantRole deployer .priceUpdateRole pricer
  log := []

def getLatestPrice (pricer : Pricer) : Uint256 := (pricer.prices pricer.latestPriceId).price

def getPrice (pricer : Pricer) (priceId : Uint256) : Uint256 := (pricer.prices priceId).price

/-- The statements with which every function of the pricers stores a new price under the next id:
write the entry and push the id. -/
def store (pricer : Pricer) (priceId price timestamp : Uint256) : Tx Error Pricer := do
  let priceIds ← arrayPush pricer.priceIds priceId
  return { pricer with
    currentPriceId := priceId
    prices := Function.update pricer.prices priceId ⟨price, timestamp⟩
    priceIds := priceIds }

def addPrice (pricer : Pricer) (msgSender : Address) (price timestamp : Uint256) :
    Tx Error Pricer := do
  pricer.access.checkRole .priceUpdateRole msgSender
  revertIf (price = 0) .invalidPrice
  let priceId ← checkedAdd pricer.currentPriceId 1
  let stored ← pricer.store priceId price timestamp
  return { stored with
    -- The current pointer is read after the new entry is written.
    latestPriceId :=
      if (stored.prices stored.latestPriceId).timestamp < timestamp then priceId
      else stored.latestPriceId
    log := stored.log ++ [.priceAdded priceId price timestamp] }

def updatePrice (pricer : Pricer) (msgSender : Address) (priceId price : Uint256) :
    Tx Error Pricer := do
  pricer.access.checkRole .priceUpdateRole msgSender
  revertIf (price = 0) .invalidPrice
  revertIf ((pricer.prices priceId).price = 0) .priceIdDoesNotExist
  let oldPriceInfo := pricer.prices priceId
  return { pricer with
    prices := Function.update pricer.prices priceId ⟨price, oldPriceInfo.timestamp⟩
    log := pricer.log ++ [.priceUpdated priceId oldPriceInfo.price price] }

inductive Call
  | addPrice (price timestamp : Uint256)
  | updatePrice (priceId price : Uint256)
  | access (call : AccessControl.Call)

def exec (pricer : Pricer) (msgSender : Address) : Call → Tx Error Pricer
  | .addPrice price timestamp => pricer.addPrice msgSender price timestamp
  | .updatePrice priceId price => pricer.updatePrice msgSender priceId price
  | .access call => do
      let access ← pricer.access.exec msgSender call
      return { pricer with access := access }

/-- The pricer with a new entry. -/
def stored (pricer : Pricer) (priceId price timestamp : Uint256) : Pricer :=
  { pricer with
    currentPriceId := priceId
    prices := Function.update pricer.prices priceId ⟨price, timestamp⟩
    priceIds := pricer.priceIds ++ [priceId] }

@[simp] lemma store_eq_ok {pricer pricer' : Pricer} {priceId price timestamp : Uint256} :
    pricer.store priceId price timestamp = .ok pricer' ↔
      pricer.priceIds.length < 2 ^ 64 ∧ pricer' = pricer.stored priceId price timestamp := by
  simp only [store, bind_eq_ok, arrayPush_eq_ok, pure_eq_ok]
  constructor
  · rintro ⟨_, ⟨hroom, rfl⟩, rfl⟩
    exact ⟨hroom, rfl⟩
  · rintro ⟨hroom, rfl⟩
    exact ⟨_, ⟨hroom, rfl⟩, rfl⟩

lemma store_eq_error {pricer : Pricer} {priceId price timestamp : Uint256} {r : Revert Error}
    (h : pricer.store priceId price timestamp = .error r) : r = .panic .arrayTooLarge := by
  simp only [store, bind_eq_error, pure_ne_error, and_false, exists_false, or_false] at h
  exact arrayPush_eq_error h

/-! ## The issued price ids -/

/-- The ids with a price are those the counter has passed. -/
def Indexed (pricer : Pricer) : Prop :=
  ∀ priceId, pricer.getPrice priceId ≠ 0 ↔
    priceId ≠ 0 ∧ priceId.toNat ≤ pricer.currentPriceId.toNat

lemma deploy_indexed (deployer admin pricer : Address) :
    (deploy deployer admin pricer).Indexed := by
  intro priceId
  simp only [deploy, getPrice]
  bv_omega

/-- **Issued price ids stay issued.**  A call keeps the ids with a price those the counter has
passed, and the counter only counts up. -/
lemma exec_indexed {pricer pricer' : Pricer} {sender : Address} {call : Call}
    (h : pricer.exec sender call = .ok pricer') (hindexed : pricer.Indexed) :
    pricer'.Indexed ∧ pricer.currentPriceId.toNat ≤ pricer'.currentPriceId.toNat := by
  cases call with
  | addPrice price timestamp =>
      simp only [exec, addPrice, bind_eq_ok, revertIf_eq_ok, pure_eq_ok, exists_const,
        checkedAdd_eq_ok, store_eq_ok, stored] at h
      obtain ⟨_, -, hprice, next, hnext, _, ⟨-, rfl⟩, rfl⟩ := h
      have hsucc : next.toNat = pricer.currentPriceId.toNat + 1 := hnext
      refine ⟨fun priceId => ?_, by simp only [hsucc]; omega⟩
      by_cases hsame : priceId = next
      · subst hsame
        have hset : ¬ priceId = 0#256 := by bv_omega
        simpa [getPrice, hset] using hprice
      · -- Only the new id lies between the old counter and the new one.
        have hbound : priceId.toNat ≤ next.toNat ↔
            priceId.toNat ≤ pricer.currentPriceId.toNat := by bv_omega
        simpa [getPrice, hsame, hbound] using hindexed priceId
  | updatePrice updated price =>
      simp only [exec, updatePrice, bind_eq_ok, revertIf_eq_ok, pure_eq_ok, exists_const] at h
      obtain ⟨_, -, hprice, hdefined, rfl⟩ := h
      refine ⟨fun priceId => ?_, le_rfl⟩
      by_cases hsame : priceId = updated
      · subst hsame
        have hprice' : ¬ price = 0#256 := hprice
        simpa [getPrice, hprice'] using (hindexed priceId).mp hdefined
      · simpa [getPrice, hsame] using hindexed priceId
  | access call =>
      simp only [exec, bind_eq_ok, pure_eq_ok] at h
      obtain ⟨access, -, rfl⟩ := h
      exact ⟨hindexed, le_rfl⟩

end Pricer

end BrivoUsbs
