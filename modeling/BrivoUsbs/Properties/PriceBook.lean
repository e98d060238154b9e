import BrivoUsbs.Contracts.PricerWithOracle

/-!
# The price book

What the pricer and its oracle have on record, without roles, events and the oracle's own checks:
the prices with their ids, the pointer to the latest one, the oracle's price data, and the clock.
`PriceBook.Step` says what each action may do to it, and `PricerWorld.Step.book` that the
contracts do nothing else, over any oracle.  The results on the pricer are proved of price books.
-/

namespace BrivoUsbs

/-- The record of a pricer and its oracle. -/
structure PriceBook where
  prices : Uint256 → PriceInfo
  priceIds : List Uint256
  currentPriceId : Uint256
  latestPriceId : Uint256
  oraclePrice : Uint256
  oracleTimestamp : Uint256
  clock : Uint256

namespace PriceBook

/-- The price the pointer points at. -/
def latest (b : PriceBook) : PriceInfo := b.prices b.latestPriceId

/-- A new entry. -/
def store (b : PriceBook) (priceId price timestamp : Uint256) : PriceBook :=
  { b with
    currentPriceId := priceId
    prices := Function.update b.prices priceId ⟨price, timestamp⟩
    priceIds := b.priceIds ++ [priceId] }

@[simp] lemma store_prices_self (b : PriceBook) (priceId price timestamp : Uint256) :
    (b.store priceId price timestamp).prices priceId = ⟨price, timestamp⟩ :=
  Function.update_self _ _ _

/-- What an action may do to a price book. -/
inductive Step {φ : Type} (b : PriceBook) : PricerAction φ → PriceBook → Prop
  /-- An older price is put on record. -/
  | append {sender : Address} {price timestamp priceId : Uint256}
      (hnext : priceId.toNat = b.currentPriceId.toNat + 1)
      (hold : timestamp ≤ (b.store priceId price timestamp).latest.timestamp) :
      Step b (.pricer sender (.addPrice price timestamp)) (b.store priceId price timestamp)
  /-- A newer price becomes the latest one and the oracle's. -/
  | advance {sender : Address} {price timestamp priceId : Uint256}
      (hnext : priceId.toNat = b.currentPriceId.toNat + 1)
      (hnew : (b.store priceId price timestamp).latest.timestamp < timestamp)
      (hmatch : (b.store priceId price timestamp).latest.price = b.oraclePrice) :
      Step b (.pricer sender (.addPrice price timestamp))
        { b.store priceId price timestamp with
          latestPriceId := priceId, oraclePrice := price, oracleTimestamp := b.clock }
  /-- The oracle's price becomes the latest one. -/
  | catchUp {sender : Address} {priceId : Uint256}
      (hnext : priceId.toNat = b.currentPriceId.toNat + 1) :
      Step b (.pricer sender .addLatestOraclePrice)
        { b.store priceId b.oraclePrice b.oracleTimestamp with latestPriceId := priceId }
  /-- A price on record is replaced under its old timestamp. -/
  | revise {sender : Address} {priceId price : Uint256}
      (hprice : price ≠ 0) (hdefined : (b.prices priceId).price ≠ 0) :
      Step b (.pricer sender (.updatePrice priceId price))
        { b with
          prices := Function.update b.prices priceId ⟨price, (b.prices priceId).timestamp⟩ }
  /-- The oracle is updated past the pricer. -/
  | quote {sender : Address} {price : Int256} :
      Step b (.oracle (.setPrice sender price))
        { b with oraclePrice := price, oracleTimestamp := b.clock }
  | wait {timestamp : Uint256} (hlater : b.clock ≤ timestamp) :
      Step b (.oracle (.wait timestamp)) { b with clock := timestamp }
  /-- Roles change, or what the oracle looks at. -/
  | idle {a : PricerAction φ} (hadds : a.addedTimestamp = none) (hupdates : a.updatedPrice = none)
      (hsets : a.isDirectSetPrice = false) : Step b a b

end PriceBook

/-! ## The contracts keep to the price book -/

namespace PricerWorld

variable {ω φ : Type} [IRWAOracleSetter ω φ] {w w' : PricerWorld ω φ} {a : PricerAction φ}

def book (w : PricerWorld ω φ) : PriceBook where
  prices := w.pricer.prices
  priceIds := w.pricer.priceIds
  currentPriceId := w.pricer.currentPriceId
  latestPriceId := w.pricer.latestPriceId
  oraclePrice := w.getPriceData.1
  oracleTimestamp := w.getPriceData.2
  clock := w.timestamp

lemma Deployed.book (h : w.Deployed) :
    w.book.priceIds = [1] ∧ w.book.currentPriceId = 1 ∧ w.book.latestPriceId = 1 ∧
      w.book.prices 1 = ⟨w.book.oraclePrice, w.book.oracleTimestamp⟩ ∧
      w.book.oracleTimestamp ≤ w.book.clock := by
  obtain ⟨hclock, deployer, admin, pricer, hdeploy⟩ := h
  simp only [PricerWithOracle.deploy, bind_eq_ok, checkedAdd_eq_ok, Pricer.store_eq_ok,
    pure_eq_ok] at hdeploy
  obtain ⟨priceId, hfirst, _, ⟨-, rfl⟩, hstored⟩ := hdeploy
  obtain rfl : priceId = 1 := BitVec.eq_of_toNat_eq (by rw [hfirst]; rfl)
  simp only [PricerWorld.book, ← hstored, true_and]
  exact ⟨rfl, rfl, by simp [Pricer.stored, OracleWorld.getPriceData], hclock⟩

lemma addPrice_book {sender : Address} {price timestamp : Uint256}
    (h : w.execPricer sender (.addPrice price timestamp) = .ok w') :
    PriceBook.Step (φ := φ) w.book (.pricer sender (.addPrice price timestamp)) w'.book := by
  simp only [execPricer, PricerWithOracle.addPrice, bind_eq_ok, checkedAdd_eq_ok,
    Pricer.store_eq_ok, pure_eq_ok, Prod.exists] at h
  obtain ⟨pricer', oracle', ⟨_, -, _, -, priceId, hnext, _, ⟨-, rfl⟩, hadd⟩, rfl⟩ := h
  split at hadd
  · next hnew =>
      simp only [bind_eq_ok, PricerWithOracle.updateOraclePrice, revertIf_eq_ok, not_not,
        exists_const, pure_eq_ok] at hadd
      obtain ⟨_, ⟨hmatch, hset⟩, hpair⟩ := hadd
      obtain ⟨rfl, rfl⟩ := Prod.mk.inj hpair
      have hdata := IRWAOracleSetter.getPriceData_of_setPrice hset
      simp only [book, OracleWorld.getPriceData, hdata]
      exact .advance hnext hnew hmatch
  · next hold =>
      cases hadd
      exact .append hnext (BitVec.not_lt.mp hold)

lemma oracle_book {action : OracleAction φ} {oracleWorld : OracleWorld ω φ}
    (h : w.toOracleWorld.exec action = .ok oracleWorld) :
    PriceBook.Step w.book (.oracle action : PricerAction φ)
      { w with toOracleWorld := oracleWorld }.book := by
  cases action with
  | setPrice sender price =>
      simp only [OracleWorld.exec, bind_eq_ok, pure_eq_ok] at h
      obtain ⟨oracle', hset, rfl⟩ := h
      have hdata := IRWAOracleSetter.getPriceData_of_setPrice hset
      simp only [book, OracleWorld.getPriceData, hdata]
      exact .quote
  | access sender call =>
      simp only [OracleWorld.exec, bind_eq_ok, pure_eq_ok] at h
      obtain ⟨oracle', hcall, rfl⟩ := h
      have hdata := IRWAOracleSetter.getPriceData_of_execAccess hcall
      simp only [book, OracleWorld.getPriceData, hdata]
      exact .idle rfl rfl rfl
  | feed feed =>
      cases h
      exact .idle rfl rfl rfl
  | wait timestamp =>
      simp only [OracleWorld.exec] at h
      split at h
      · next hlater =>
          cases h
          exact .wait hlater
      · cases h

/-- **The contracts keep to the price book.**  Each step of the pricer and its oracle is one of
the price book. -/
theorem Step.book (h : w.Step a w') : PriceBook.Step w.book a w'.book := by
  obtain ⟨-, hexec⟩ := h
  cases a with
  | oracle action =>
      simp only [exec, bind_eq_ok, pure_eq_ok] at hexec
      obtain ⟨oracleWorld, horacle, rfl⟩ := hexec
      exact oracle_book horacle
  | pricer sender call =>
      cases call with
      | addPrice price timestamp => exact addPrice_book hexec
      | addLatestOraclePrice =>
          simp only [exec, execPricer, PricerWithOracle.addLatestOraclePrice, bind_eq_ok,
            checkedAdd_eq_ok, Pricer.store_eq_ok, pure_eq_ok] at hexec
          obtain ⟨pricer', ⟨_, -, _, -, priceId, hnext, _, ⟨-, rfl⟩, rfl⟩, rfl⟩ := hexec
          exact .catchUp hnext
      | updatePrice priceId price =>
          simp only [exec, execPricer, Pricer.updatePrice, bind_eq_ok, revertIf_eq_ok, exists_const,
            pure_eq_ok] at hexec
          obtain ⟨pricer', ⟨_, -, hprice, hdefined, rfl⟩, rfl⟩ := hexec
          exact .revise hprice hdefined
      | access call =>
          simp only [exec, execPricer, bind_eq_ok, pure_eq_ok] at hexec
          obtain ⟨access, -, rfl⟩ := hexec
          exact .idle rfl rfl rfl

end PricerWorld

end BrivoUsbs
