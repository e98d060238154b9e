import BrivoUsbs.Properties.ComparisonOracle
import BrivoUsbs.Properties.LatestPrice

/-!
# Adding prices, and recovery

When `addPrice` and `addLatestOraclePrice` are accepted, and what they leave behind, in every
state a pricer can reach over an oracle that accepts positive prices only.

A price crosses a cast to `int256` on its way to the oracle and one back on its way out.  Both are
unchecked, and it is the oracle's own check that keeps prices from `2 ^ 255` on away.

`addLatestOraclePrice` always restores the agreement that `addPrice` asks for, except that it needs
room for an id: the array of ids can be filled, and then nothing is accepted any more.
-/

namespace BrivoUsbs

/-- An oracle that accepts positive prices only. -/
class PositivePrices (ω : Type) {φ : outParam Type} [IRWAOracleSetter ω φ] : Prop where
  pos_of_setPrice {oracle oracle' : ω} {feed : φ} {blockTimestamp : Uint256}
    {msgSender : Address} {price : Int256} :
    IRWAOracleSetter.setPrice oracle feed blockTimestamp msgSender price = .ok oracle' →
      0 < price.toInt

instance : PositivePrices RWAOracleRateCheck where
  pos_of_setPrice h := (RWAOracleRateCheck.setPrice_spec h).2.1

instance : PositivePrices RWAOracleExternalComparisonCheck where
  pos_of_setPrice h := (RWAOracleExternalComparisonCheck.setPrice_spec h).2.1

namespace PricerWorld

open IRWAOracleSetter (setPrice)

variable {ω φ : Type} [IRWAOracleSetter ω φ] {w₀ w w' s : PricerWorld ω φ}
  {tr : List (Transition (PricerWorld ω φ) (PricerAction φ))}
  {sender : Address} {price timestamp : Uint256}

/-! ## The two calls -/

def nextPriceId (w : PricerWorld ω φ) : Uint256 := w.pricer.currentPriceId + 1

/-- The array of ids is not full. -/
def HasNextId (w : PricerWorld ω φ) : Prop := w.pricer.priceIds.length < 2 ^ 64

/-- The pricer with a new entry under the next id. -/
def added (w : PricerWorld ω φ) (price timestamp : Uint256) : Pricer :=
  { w.pricer.stored w.nextPriceId price timestamp with
    log := w.pricer.log ++ [.priceAdded w.nextPriceId price timestamp] }

/-- The pricer with a new entry and the pointer moved to it. -/
def advanced (w : PricerWorld ω φ) (price timestamp : Uint256) : Pricer :=
  { w.added price timestamp with latestPriceId := w.nextPriceId }

lemma hasNextId_iff (hnumbered : w.book.Numbered) :
    w.HasNextId ↔ w.pricer.currentPriceId.toNat < 2 ^ 64 := by
  have hcounted : w.pricer.priceIds.length = w.pricer.currentPriceId.toNat := hnumbered.counted
  rw [HasNextId, hcounted]

/-- The array fills up long before the counter is at its end. -/
lemma toNat_nextPriceId (hnumbered : w.book.Numbered) (h : w.HasNextId) :
    w.nextPriceId.toNat = w.pricer.currentPriceId.toNat + 1 := by
  have hone : (1 : Uint256).toNat = 1 := rfl
  rw [hasNextId_iff hnumbered] at h
  rw [nextPriceId, BitVec.toNat_add, hone, Nat.mod_eq_of_lt (by omega)]

/-- The statements that store a price, which end before the pointer is looked at. -/
lemma exists_store (hnumbered : w.book.Numbered) {P : Uint256 → Pricer → Prop} :
    (∃ priceId, (checkedAdd w.pricer.currentPriceId 1 : Tx Error Uint256) = .ok priceId ∧
        ∃ stored, w.pricer.store priceId price timestamp = .ok stored ∧ P priceId stored) ↔
      w.HasNextId ∧ P w.nextPriceId (w.pricer.stored w.nextPriceId price timestamp) := by
  simp only [checkedAdd_eq_ok, Pricer.store_eq_ok]
  constructor
  · rintro ⟨priceId, hnext, _, ⟨hid, rfl⟩, hstored⟩
    obtain rfl : priceId = w.nextPriceId :=
      BitVec.eq_of_toNat_eq (hnext.trans (toNat_nextPriceId hnumbered hid).symm)
    exact ⟨hid, hstored⟩
  · rintro ⟨hid, hstored⟩
    exact ⟨_, toNat_nextPriceId hnumbered hid, _, ⟨hid, rfl⟩, hstored⟩

/-- **`addPrice`, exactly.**  A price newer than the latest one goes through the oracle, and any
other one is only put on record. -/
lemma addPrice_eq_ok (hnumbered : w.book.Numbered) :
    w.exec (.pricer sender (.addPrice price timestamp)) = .ok w' ↔
      w.pricer.access.hasRole .priceUpdateRole sender = true ∧ price ≠ 0 ∧ w.HasNextId ∧
        if w.book.latest.timestamp < timestamp then
          w.book.latest.price = w.getPriceData.1 ∧
            ∃ oracle', setPrice w.oracle w.feed w.timestamp w.self price = .ok oracle' ∧
              w' = { w with pricer := w.advanced price timestamp, oracle := oracle' }
        else w' = { w with pricer := w.added price timestamp } := by
  -- The new entry does not touch the one the pointer is at.
  have hpointer : w.HasNextId → (w.pricer.stored w.nextPriceId price timestamp).prices
      (w.pricer.stored w.nextPriceId price timestamp).latestPriceId = w.book.latest :=
    fun hid => hnumbered.store_latest (toNat_nextPriceId hnumbered hid)
  simp only [exec, execPricer, PricerWithOracle.addPrice, bind_eq_ok, revertIf_eq_ok, pure_eq_ok,
    AccessControl.checkRole_eq_ok, exists_const, exists_store hnumbered]
  constructor
  · rintro ⟨result, ⟨hrole, hprice, hid, hadd⟩, rfl⟩
    refine ⟨hrole, hprice, hid, ?_⟩
    rw [hpointer hid] at hadd
    split at hadd
    · next hnewer =>
        simp only [PricerWithOracle.updateOraclePrice, bind_eq_ok, revertIf_eq_ok, not_not,
          exists_const, pure_eq_ok, hpointer hid] at hadd
        obtain ⟨oracle', ⟨hmatch, hset⟩, rfl⟩ := hadd
        rw [if_pos hnewer]
        exact ⟨hmatch, oracle', hset, rfl⟩
    · next holder =>
        obtain rfl := pure_eq_ok.mp hadd
        rw [if_neg holder]
        rfl
  · rintro ⟨hrole, hprice, hid, hresult⟩
    split at hresult
    · next hnewer =>
        obtain ⟨hmatch, oracle', hset, rfl⟩ := hresult
        refine ⟨(w.advanced price timestamp, oracle'),
          ⟨hrole, hprice, hid, ?_⟩, rfl⟩
        rw [hpointer hid, if_pos hnewer]
        simp only [PricerWithOracle.updateOraclePrice, bind_eq_ok, revertIf_eq_ok, not_not,
          exists_const, pure_eq_ok, hpointer hid]
        exact ⟨oracle', ⟨hmatch, hset⟩, rfl⟩
    · next holder =>
        subst hresult
        refine ⟨(w.added price timestamp, w.oracle),
          ⟨hrole, hprice, hid, ?_⟩, rfl⟩
        rw [hpointer hid, if_neg holder]
        rfl

/-- `addLatestOraclePrice` puts the oracle's price on record, unless it is the latest one. -/
lemma addLatestOraclePrice_of_ne (hnumbered : w.book.Numbered)
    (hrole : w.pricer.access.hasRole .priceUpdateRole sender = true) (hid : w.HasNextId)
    (hne : w.book.latest ≠ ⟨w.getPriceData.1, w.getPriceData.2⟩) :
    w.exec (.pricer sender .addLatestOraclePrice) =
      .ok { w with pricer := w.advanced w.getPriceData.1 w.getPriceData.2 } := by
  simp only [exec, execPricer, PricerWithOracle.addLatestOraclePrice, bind_eq_ok, revertIf_eq_ok,
    pure_eq_ok, AccessControl.checkRole_eq_ok, exists_const, exists_store hnumbered]
  refine ⟨w.advanced w.getPriceData.1 w.getPriceData.2, ⟨hrole, ?_, hid, rfl⟩, rfl⟩
  rintro ⟨hprice, htimestamp⟩
  exact hne (congrArg₂ PriceInfo.mk hprice htimestamp)

lemma addLatestOraclePrice_of_eq
    (hrole : w.pricer.access.hasRole .priceUpdateRole sender = true)
    (heq : w.book.latest = ⟨w.getPriceData.1, w.getPriceData.2⟩) :
    w.exec (.pricer sender .addLatestOraclePrice) = .error (.custom .pricesAlreadyMatch) := by
  have hlatest : (w.pricer.prices w.pricer.latestPriceId).price =
        (IRWAOracleSetter.getPriceData w.oracle).1 ∧
      (w.pricer.prices w.pricer.latestPriceId).timestamp =
        (IRWAOracleSetter.getPriceData w.oracle).2 :=
    ⟨congrArg PriceInfo.price heq, congrArg PriceInfo.timestamp heq⟩
  simp only [exec, execPricer, PricerWithOracle.addLatestOraclePrice, bind_eq_error,
    revertIf_eq_error, AccessControl.checkRole_eq_ok, exists_const]
  exact .inl (.inr ⟨hrole, .inl ⟨hlatest, trivial⟩⟩)

/-! ## What adding prices does -/

/-- `addPrice` passes the comparison of the pricer with its oracle, whoever calls it. -/
def PassesComparison (w : PricerWorld ω φ) : Prop :=
  ∀ sender price timestamp, w.exec (.pricer sender (.addPrice price timestamp)) ≠
    .error (.custom .latestPriceMismatch)

lemma passesComparison (hnumbered : w.book.Numbered) (hsynced : w.book.Synced) :
    w.PassesComparison := by
  intro sender price timestamp h
  simp only [exec, execPricer, bind_eq_error, pure_ne_error, and_false, exists_false,
    or_false] at h
  exact addPrice_ne_latestPriceMismatch hnumbered hsynced sender price timestamp h

/-- What adding prices does to a pricer and its oracle in the state `w`. -/
structure AddsPrices (w : PricerWorld ω φ) : Prop where
  newer_iff : ∀ sender price timestamp, w.book.latest.timestamp < timestamp →
    ((∃ w', w.exec (.pricer sender (.addPrice price timestamp)) = .ok w') ↔
      w.pricer.access.hasRole .priceUpdateRole sender = true ∧ price ≠ 0 ∧ w.HasNextId ∧
        w.book.latest.price = w.getPriceData.1 ∧
        ∃ oracle', setPrice w.oracle w.feed w.timestamp w.self price = .ok oracle')
  newer : ∀ sender price timestamp w', w.book.latest.timestamp < timestamp →
    w.exec (.pricer sender (.addPrice price timestamp)) = .ok w' →
      w'.getPriceData = (price, w.timestamp) ∧ price.toNat < 2 ^ 255 ∧
        w'.pricer = w.advanced price timestamp ∧ w.nextPriceId ∉ w.pricer.priceIds ∧
        w'.pricer.latestPriceId = w.nextPriceId ∧
        w'.pricer.prices w.nextPriceId = ⟨price, timestamp⟩
  older_iff : ∀ sender price timestamp, timestamp ≤ w.book.latest.timestamp →
    ((∃ w', w.exec (.pricer sender (.addPrice price timestamp)) = .ok w') ↔
      w.pricer.access.hasRole .priceUpdateRole sender = true ∧ price ≠ 0 ∧ w.HasNextId)
  older : ∀ sender price timestamp w', timestamp ≤ w.book.latest.timestamp →
    w.exec (.pricer sender (.addPrice price timestamp)) = .ok w' →
      w'.toOracleWorld = w.toOracleWorld ∧ w'.pricer = w.added price timestamp ∧
        w.nextPriceId ∉ w.pricer.priceIds ∧ w'.pricer.latestPriceId = w.pricer.latestPriceId ∧
        w'.pricer.prices w.nextPriceId = ⟨price, timestamp⟩
  /-- The pricer agrees with its oracle already, or does so afterwards. -/
  catchUp : ∀ sender, w.pricer.access.hasRole .priceUpdateRole sender = true → w.HasNextId →
    (w.exec (.pricer sender .addLatestOraclePrice) = .error (.custom .pricesAlreadyMatch) ∧
        w.PassesComparison) ∨
      ∃ w', w.exec (.pricer sender .addLatestOraclePrice) = .ok w' ∧
        w'.toOracleWorld = w.toOracleWorld ∧
        w'.pricer.prices w'.pricer.latestPriceId = ⟨w'.getPriceData.1, w'.getPriceData.2⟩ ∧
        w'.PassesComparison
  rejected : ∀ a r, w.exec a = .error r → play next w [a] = w

lemma nextPriceId_notMem (hnumbered : w.book.Numbered) (hid : w.HasNextId) :
    w.nextPriceId ∉ w.pricer.priceIds :=
  fun hmem => hnumbered.fresh (toNat_nextPriceId hnumbered hid) hmem rfl

omit [IRWAOracleSetter ω φ] in
lemma added_prices_nextPriceId :
    (w.added price timestamp).prices w.nextPriceId = ⟨price, timestamp⟩ :=
  Function.update_self _ _ _

lemma next_of_error {a : PricerAction φ} {r : Revert Error} (h : w.exec a = .error r) :
    w.next a = none := by
  unfold next
  split
  · exact toOption_of_error h
  · rfl

lemma catchUp (hnumbered : w.book.Numbered)
    (hrole : w.pricer.access.hasRole .priceUpdateRole sender = true) (hid : w.HasNextId) :
    (w.exec (.pricer sender .addLatestOraclePrice) = .error (.custom .pricesAlreadyMatch) ∧
        w.PassesComparison) ∨
      ∃ w', w.exec (.pricer sender .addLatestOraclePrice) = .ok w' ∧
        w'.toOracleWorld = w.toOracleWorld ∧
        w'.pricer.prices w'.pricer.latestPriceId = ⟨w'.getPriceData.1, w'.getPriceData.2⟩ ∧
        w'.PassesComparison := by
  by_cases heq : w.book.latest = ⟨w.getPriceData.1, w.getPriceData.2⟩
  · have hsynced : w.book.Synced := congrArg PriceInfo.price heq
    exact .inl ⟨addLatestOraclePrice_of_eq hrole heq, passesComparison hnumbered hsynced⟩
  · right
    have hentry : (w.added w.getPriceData.1 w.getPriceData.2).prices w.nextPriceId =
        ⟨w.getPriceData.1, w.getPriceData.2⟩ := added_prices_nextPriceId
    refine ⟨_, addLatestOraclePrice_of_ne hnumbered hrole hid heq, rfl, hentry, ?_⟩
    have hcatchUp : PriceBook.Step (φ := φ) w.book (.pricer sender .addLatestOraclePrice)
        { w with pricer := w.advanced w.getPriceData.1 w.getPriceData.2 }.book :=
      .catchUp (toNat_nextPriceId hnumbered hid)
    exact passesComparison (hnumbered.step hcatchUp) (congrArg PriceInfo.price hentry)

/-- **Adding prices, and recovery.**  In every reachable state, over an oracle that accepts positive
prices only. -/
theorem addsPrices [PositivePrices ω] (hdeployed : w₀.Deployed) (hrun : Run Step w₀ tr w) :
    AddsPrices w := by
  obtain ⟨hnumbered, -⟩ := numbered_past hdeployed hrun (.inl rfl)
  refine ⟨fun sender price timestamp hnewer => ?_, fun sender price timestamp w' hnewer h => ?_,
    fun sender price timestamp holder => ?_, fun sender price timestamp w' holder h => ?_,
    fun sender => catchUp hnumbered, fun a r h => play_of_none (next_of_error h)⟩
  · simp only [addPrice_eq_ok hnumbered, if_pos hnewer]
    constructor
    · rintro ⟨w', hrole, hprice, hid, hmatch, oracle', hset, -⟩
      exact ⟨hrole, hprice, hid, hmatch, oracle', hset⟩
    · rintro ⟨hrole, hprice, hid, hmatch, oracle', hset⟩
      exact ⟨_, hrole, hprice, hid, hmatch, oracle', hset, rfl⟩
  · rw [addPrice_eq_ok hnumbered, if_pos hnewer] at h
    obtain ⟨-, -, hid, -, oracle', hset, rfl⟩ := h
    have hpos := PositivePrices.pos_of_setPrice hset
    have hsmall : price.toNat < 2 ^ 255 := by
      have hcast := toNat_of_toInt_nonneg hpos.le
      have hlt := price.toInt_lt
      omega
    exact ⟨IRWAOracleSetter.getPriceData_of_setPrice hset, hsmall, rfl,
      nextPriceId_notMem hnumbered hid, rfl, added_prices_nextPriceId⟩
  · simp only [addPrice_eq_ok hnumbered, if_neg (BitVec.not_lt.mpr holder)]
    constructor
    · rintro ⟨w', hrole, hprice, hid, -⟩
      exact ⟨hrole, hprice, hid⟩
    · rintro ⟨hrole, hprice, hid⟩
      exact ⟨_, hrole, hprice, hid, rfl⟩
  · rw [addPrice_eq_ok hnumbered, if_neg (BitVec.not_lt.mpr holder)] at h
    obtain ⟨-, -, hid, rfl⟩ := h
    exact ⟨rfl, rfl, nextPriceId_notMem hnumbered hid, rfl, added_prices_nextPriceId⟩

/-! ## The end of the ids -/

/-- **The ids can be used up**, by prices under the oldest timestamp. -/
lemma exists_run_counting (n : ℕ) (hnumbered : w.book.Numbered)
    (hrole : w.pricer.access.hasRole .priceUpdateRole sender = true) (hsender : sender ≠ w.self)
    (hle : w.pricer.currentPriceId.toNat ≤ n) (hlt : n ≤ 2 ^ 64) :
    ∃ tr s, Run Step w tr s ∧ s.pricer.currentPriceId.toNat = n ∧
      s.toOracleWorld = w.toOracleWorld ∧ s.self = w.self ∧ s.pricer.access = w.pricer.access ∧
      s.book.latest = w.book.latest ∧ s.book.Numbered := by
  induction n, hle using Nat.le_induction with
  | base => exact ⟨[], w, Run.nil, rfl, rfl, rfl, rfl, rfl, hnumbered⟩
  | succ n hle ih =>
      obtain ⟨tr, s, hrun, hcount, horacle, hself, haccess, hlatest, hs⟩ := ih (by omega)
      have hid : s.HasNextId := by
        rw [hasNextId_iff hs, hcount]
        exact hlt
      have hnext := toNat_nextPriceId hs hid
      have hexec : s.exec (.pricer sender (.addPrice 1 0)) =
          .ok { s with pricer := s.added 1 0 } := by
        have holder : ¬ s.book.latest.timestamp < 0 := BitVec.not_lt_zero
        rw [addPrice_eq_ok hs, if_neg holder, haccess]
        exact ⟨hrole, by decide, hid, rfl⟩
      have hstep : s.Step (.pricer sender (.addPrice 1 0)) { s with pricer := s.added 1 0 } := by
        refine ⟨fun caller hcaller => ?_, hexec⟩
        obtain rfl := Option.some.inj hcaller
        rw [hself]
        exact hsender
      refine ⟨_, _, hrun.snoc hstep, ?_, horacle, hself, haccess, ?_, hs.step hstep.book⟩
      · show s.nextPriceId.toNat = n + 1
        rw [hnext, hcount]
      · exact (hs.store_latest hnext).trans hlatest

/-! ## Samples -/

namespace RecoverySample

open PricerSample (operator pricerAddress)

/-- A pricer over the comparison oracle. -/
def comparisonWorld : PricerWorld RWAOracleExternalComparisonCheck AggregatorV3Interface where
  toOracleWorld := ComparisonWorld.FeedSample.world
  self := pricerAddress
  pricer := (PricerWithOracle.deploy operator operator operator
    ComparisonWorld.FeedSample.oracle).toOption.get (by decide)

lemma comparisonWorld_deployed : comparisonWorld.Deployed :=
  ⟨by decide, operator, operator, operator, rfl⟩

/-- The pricer becomes a setter of the oracle, and a day later it follows the feed. -/
def followFeed : List (PricerAction AggregatorV3Interface) := [
  .oracle (.access operator (.grantRole .setterRole pricerAddress)),
  .oracle (.wait 1086400),
  .oracle (.feed (ComparisonWorld.FeedSample.feedAt 2 10100000000 1086400)),
  .pricer operator (.addPrice 1010000000000000000 1086400)]

/-- The pricer becomes a setter of the oracle, and a day passes. -/
def waitADay : List (PricerAction Unit) := [
  .oracle (.access operator (.grantRole .setterRole pricerAddress)),
  .oracle (.wait 1086400)]

/-- The oracle is updated past the pricer. -/
def uncaughtUpdate : List (PricerAction Unit) := waitADay ++ [
  .oracle (.setPrice operator 1010000000000000000),
  .oracle (.wait 1172800)]

end RecoverySample

open PricerSample RecoverySample in
theorem addsPrices_sample :
    (play next comparisonWorld followFeed).getPriceData = (1010000000000000000, 1086400) ∧
      AddsPrices (play next comparisonWorld followFeed) ∧
      (play next world uncaughtUpdate).book.latest.price ≠
        (play next world uncaughtUpdate).getPriceData.1 ∧
      AddsPrices (play next world uncaughtUpdate) :=
  ⟨by decide +kernel,
    addsPrices comparisonWorld_deployed (run_play (fun _ _ _ => step_of_next) _ _),
    by decide +kernel, addsPrices world_deployed (run_play (fun _ _ _ => step_of_next) _ _)⟩

open PricerSample RecoverySample in
/-- With the ids used up a price is rejected although the oracle would accept it.  And an
account without the role does not restore the agreement, nor is it there already. -/
theorem addsPrices_needs_id_and_role :
    (∃ tr w, Run Step world tr w ∧ w.book.latest.timestamp < 1086400 ∧
        w.pricer.access.hasRole .priceUpdateRole operator = true ∧
        (1010000000000000000 : Uint256) ≠ 0 ∧ w.book.latest.price = w.getPriceData.1 ∧
        (∃ oracle', setPrice w.oracle w.feed w.timestamp w.self 1010000000000000000 =
          .ok oracle') ∧
        ¬ ∃ w', w.exec (.pricer operator (.addPrice 1010000000000000000 1086400)) = .ok w') ∧
      Run Step world (playTrace next world uncaughtUpdate) (play next world uncaughtUpdate) ∧
      ((play next world uncaughtUpdate).exec (.pricer 0x77 .addLatestOraclePrice)).map
          (fun _ => ()) = .error (.custom (.missingRole 0x77 .priceUpdateRole)) ∧
      ((play next world uncaughtUpdate).exec
          (.pricer operator (.addPrice 1020000000000000000 1172800))).map (fun _ => ()) =
        .error (.custom .latestPriceMismatch) := by
  refine ⟨?_, run_play (fun _ _ _ => step_of_next) _ _, by decide +kernel, by decide +kernel⟩
  have hstart : Run Step world (playTrace next world waitADay) (play next world waitADay) :=
    run_play (fun _ _ _ => step_of_next) _ _
  obtain ⟨hnumbered, -⟩ := numbered_past world_deployed hstart (.inl rfl)
  have hrole : (play next world waitADay).pricer.access.hasRole .priceUpdateRole operator =
      true := by decide +kernel
  obtain ⟨tr, w, hrun, hcount, horacle, hself, haccess, hlatest, hw⟩ :=
    exists_run_counting (2 ^ 64) hnumbered hrole (by decide +kernel) (by decide +kernel) le_rfl
  refine ⟨_, w, hstart.append hrun, ?_, ?_, by decide, ?_, ?_, ?_⟩
  · rw [hlatest]
    decide +kernel
  · rw [haccess]
    exact hrole
  · rw [hlatest, horacle]
    decide +kernel
  · have haccepted : (setPrice (play next world waitADay).oracle (play next world waitADay).feed
        (play next world waitADay).timestamp (play next world waitADay).self
        1010000000000000000).toOption.isSome = true := by decide +kernel
    obtain ⟨oracle', hset⟩ := Option.isSome_iff_exists.mp haccepted
    rw [horacle, hself]
    exact ⟨oracle', toOption_eq_some.mp hset⟩
  · rintro ⟨w', hexec⟩
    rw [addPrice_eq_ok hw] at hexec
    obtain ⟨-, -, hid, -⟩ := hexec
    rw [hasNextId_iff hw, hcount] at hid
    exact lt_irrefl _ hid

end PricerWorld

end BrivoUsbs
