import BrivoUsbs.Contracts.IRWAOracleSetter
import BrivoUsbs.Contracts.Pricer

/-!
# The pricer with an oracle

`PricerWithOracle` inherits the pricer and forwards every new latest price to its oracle, after
checking that the two agreed before.  Its oracle is immutable, so its state is that of the pricer.

`PricerWorld` is the pricer with its oracle and the clock.  `Step` is one call by anybody, of the
pricer or of the oracle directly, or a move of the environment.
-/

namespace BrivoUsbs

namespace PricerWithOracle

open IRWAOracleSetter (getPriceData setPrice)

variable {ω φ : Type} [IRWAOracleSetter ω φ]

/-- The constructor: the oracle's price becomes price id 1. -/
def deploy (deployer admin pricer : Address) (rwaOracle : ω) : Tx Error Pricer := do
  let inherited := Pricer.deploy deployer admin pricer
  let priceId ← checkedAdd inherited.currentPriceId 1
  let (latestOraclePrice, timestamp) := getPriceData rwaOracle
  let stored ← inherited.store priceId latestOraclePrice timestamp
  return { stored with
    latestPriceId := priceId
    log := stored.log ++ [.priceAdded priceId latestOraclePrice timestamp] }

/-- `_updateOraclePrice` -/
def updateOraclePrice (pricer : Pricer) (rwaOracle : ω) (feed : φ) (self : Address)
    (blockTimestamp price latestPriceId : Uint256) : Tx Error ω := do
  let latestOraclePrice := (getPriceData rwaOracle).1
  revertIf ((pricer.prices latestPriceId).price ≠ latestOraclePrice) .latestPriceMismatch
  setPrice rwaOracle feed blockTimestamp self price

def addPrice (pricer : Pricer) (rwaOracle : ω) (feed : φ) (self : Address)
    (blockTimestamp : Uint256) (msgSender : Address) (price timestamp : Uint256) :
    Tx Error (Pricer × ω) := do
  pricer.access.checkRole .priceUpdateRole msgSender
  revertIf (price = 0) .invalidPrice
  let priceId ← checkedAdd pricer.currentPriceId 1
  let stored ← pricer.store priceId price timestamp
  let added := { stored with log := stored.log ++ [.priceAdded priceId price timestamp] }
  -- The current pointer is read after the new entry is written.
  if (stored.prices stored.latestPriceId).timestamp < timestamp then do
    let rwaOracle ← updateOraclePrice stored rwaOracle feed self blockTimestamp price
      stored.latestPriceId
    return ({ added with latestPriceId := priceId }, rwaOracle)
  else return (added, rwaOracle)

def addLatestOraclePrice (pricer : Pricer) (rwaOracle : ω) (msgSender : Address) :
    Tx Error Pricer := do
  pricer.access.checkRole .priceUpdateRole msgSender
  let (latestOraclePrice, latestOraclePriceTimestamp) := getPriceData rwaOracle
  let latestPriceInfo := pricer.prices pricer.latestPriceId
  revertIf (latestPriceInfo.price = latestOraclePrice ∧
    latestPriceInfo.timestamp = latestOraclePriceTimestamp) .pricesAlreadyMatch
  let priceId ← checkedAdd pricer.currentPriceId 1
  let stored ← pricer.store priceId latestOraclePrice latestOraclePriceTimestamp
  return { stored with
    -- The pointer moves whatever the timestamps are.
    latestPriceId := priceId
    log := stored.log ++ [.priceAdded priceId latestOraclePrice latestOraclePriceTimestamp] }

inductive Call
  | addPrice (price timestamp : Uint256)
  | addLatestOraclePrice
  /-- `updatePrice` and the role management, as inherited. -/
  | updatePrice (priceId price : Uint256)
  | access (call : AccessControl.Call)

end PricerWithOracle

/-- A pricer at address `self` with its oracle. -/
structure PricerWorld (ω φ : Type) extends OracleWorld ω φ where
  self : Address
  pricer : Pricer

inductive PricerAction (φ : Type)
  | pricer (msgSender : Address) (call : PricerWithOracle.Call)
  /-- The oracle is called directly, or its environment moves. -/
  | oracle (action : OracleAction φ)

namespace PricerAction

variable {φ : Type}

/-- The account a call is sent from. -/
def caller : PricerAction φ → Option Address
  | .pricer msgSender _ => some msgSender
  | .oracle action => action.caller

/-- A `setPrice` that does not come from the pricer -/
def isDirectSetPrice : PricerAction φ → Bool
  | .oracle action => action.isSetPrice
  | .pricer _ _ => false

/-- The timestamp a call of `addPrice` gives its price. -/
def addedTimestamp : PricerAction φ → Option Uint256
  | .pricer _ (.addPrice _ timestamp) => some timestamp
  | _ => none

/-- The price id a call of `updatePrice` changes, and its new price. -/
def updatedPrice : PricerAction φ → Option (Uint256 × Uint256)
  | .pricer _ (.updatePrice priceId price) => some (priceId, price)
  | _ => none

end PricerAction

namespace PricerWorld

variable {ω φ : Type} [IRWAOracleSetter ω φ]

def execPricer (w : PricerWorld ω φ) (msgSender : Address) :
    PricerWithOracle.Call → Tx Error (PricerWorld ω φ)
  | .addPrice price timestamp => do
      let result ← PricerWithOracle.addPrice w.pricer w.oracle w.feed w.self w.timestamp msgSender
        price timestamp
      return { w with pricer := result.1, oracle := result.2 }
  | .addLatestOraclePrice => do
      let pricer ← PricerWithOracle.addLatestOraclePrice w.pricer w.oracle msgSender
      return { w with pricer := pricer }
  | .updatePrice priceId price => do
      let pricer ← w.pricer.updatePrice msgSender priceId price
      return { w with pricer := pricer }
  | .access call => do
      let access ← w.pricer.access.exec msgSender call
      return { w with pricer := { w.pricer with access := access } }

def exec (w : PricerWorld ω φ) : PricerAction φ → Tx Error (PricerWorld ω φ)
  | .pricer msgSender call => w.execPricer msgSender call
  | .oracle action => do
      let oracleWorld ← w.toOracleWorld.exec action
      return { w with toOracleWorld := oracleWorld }

/-- One step.  Nobody but the pricer's own code calls from the pricer's address. -/
def Step (w : PricerWorld ω φ) (a : PricerAction φ) (w' : PricerWorld ω φ) : Prop :=
  (∀ caller ∈ a.caller, caller ≠ w.self) ∧ w.exec a = .ok w'

/-- One step as a function: nothing if the call is rejected. -/
def next (w : PricerWorld ω φ) (a : PricerAction φ) : Option (PricerWorld ω φ) :=
  if a.caller.all (fun caller => caller ≠ w.self) then (w.exec a).toOption else none

lemma step_of_next {w w' : PricerWorld ω φ} {a : PricerAction φ} (h : w.next a = some w') :
    w.Step a w' := by
  unfold next at h
  split at h
  · next hcaller =>
      exact ⟨by simpa [Option.all_eq_true] using hcaller, toOption_eq_some.mp h⟩
  · cases h

/-- What a step does to the oracle. -/
lemma Step.oracle {w w' : PricerWorld ω φ} {a : PricerAction φ} (h : w.Step a w') :
    w'.toOracleWorld = w.toOracleWorld ∨
      ∃ action, w.toOracleWorld.Step action w'.toOracleWorld := by
  obtain ⟨-, hexec⟩ := h
  cases a with
  | oracle action =>
      simp only [exec, bind_eq_ok, pure_eq_ok] at hexec
      obtain ⟨oracleWorld, horacle, rfl⟩ := hexec
      exact .inr ⟨action, horacle⟩
  | pricer sender call =>
      cases call with
      | addPrice price timestamp =>
          simp only [exec, execPricer, PricerWithOracle.addPrice, bind_eq_ok, pure_eq_ok,
            Prod.exists] at hexec
          obtain ⟨pricer', oracle', ⟨_, -, _, -, _, -, _, -, hadd⟩, rfl⟩ := hexec
          split at hadd
          · simp only [PricerWithOracle.updateOraclePrice, bind_eq_ok, pure_eq_ok,
              Prod.mk.injEq] at hadd
            obtain ⟨_, ⟨_, -, hset⟩, -, rfl⟩ := hadd
            refine .inr ⟨.setPrice w.self price, ?_⟩
            simp only [OracleWorld.Step, OracleWorld.exec, bind_eq_ok, pure_eq_ok]
            exact ⟨_, hset, rfl⟩
          · cases hadd
            exact .inl rfl
      | _ =>
          simp only [exec, execPricer, bind_eq_ok, pure_eq_ok] at hexec
          obtain ⟨_, -, rfl⟩ := hexec
          exact .inl rfl

/-- A world in which the pricer has just been constructed over an oracle that was last updated at
the block time or before. -/
def Deployed (w : PricerWorld ω φ) : Prop :=
  w.getPriceData.2 ≤ w.timestamp ∧
    ∃ deployer admin pricer,
      PricerWithOracle.deploy deployer admin pricer w.oracle = .ok w.pricer

end PricerWorld

end BrivoUsbs
