import BrivoUsbs.Contracts.IRWAOracleSetter

/-!
# The comparison oracle

`RWAOracleExternalComparisonCheck` compares the change of its price with the change of a Chainlink
feed since the last update.  The round an update was compared with is stored, and is what the
next update divides by.
-/

namespace BrivoUsbs

/-- A round of a Chainlink feed. -/
structure ChainlinkRoundData where
  roundId : BitVec 80
  answer : Int256
  startedAt : Uint256
  updatedAt : Uint256
  answeredInRound : BitVec 80
  deriving DecidableEq

/-- The present answers of a Chainlink feed, `none` where a call fails. -/
structure AggregatorV3Interface where
  decimals : Option (BitVec 8)
  latestRoundData : Option ChainlinkRoundData

/-- A call to another contract, which reverts if that one does. -/
def externalCall {α : Type} : Option α → Tx Error α
  | none => .error .empty
  | some answer => .ok answer

@[simp] lemma externalCall_eq_ok {α : Type} {answer : Option α} {a : α} :
    externalCall answer = .ok a ↔ answer = some a := by
  cases answer <;> simp [externalCall]

inductive ComparisonCheckEvent
  | rwaExternalComparisonCheckPriceSet (oldChainlinkPrice : Int256) (oldRoundId : BitVec 80)
      (newChainlinkPrice : Int256) (newRoundId : BitVec 80) (oldRWAPrice newRWAPrice : Int256)
  | chainlinkPriceIgnored (oldChainlinkPrice : Int256) (oldRoundId : BitVec 80)
      (newChainlinkPrice : Int256) (newRoundId : BitVec 80)

structure RWAOracleExternalComparisonCheck where
  rwaPrice : Int256
  priceTimestamp : Uint256
  /-- The round the stored price was compared with. -/
  lastSetRound : ChainlinkRoundData
  access : AccessControl
  log : List ComparisonCheckEvent

namespace RWAOracleExternalComparisonCheck

/-- `25 hours` -/
def maxClWindow : Uint256 := 25 * 3600

def bpsDenominator : Int256 := 10000

def maxChangeDiffBps : Uint256 := 74

def maxAbsoluteDiffBps : Uint256 := 200

/-- `23 hours` -/
def minPriceUpdateWindow : Uint256 := 23 * 3600

/-- `_getLatestChainlinkRoundData` -/
def getLatestChainlinkRoundData (chainlinkOracle : AggregatorV3Interface)
    (blockTimestamp : Uint256) : Tx Error ChainlinkRoundData := do
  let round ← externalCall chainlinkOracle.latestRoundData
  revertIf (round.answer.toInt < 0 ∨ round.roundId ≠ round.answeredInRound ∨ round.roundId = 0 ∨
    round.updatedAt = 0 ∨ blockTimestamp < round.updatedAt) .corruptedChainlinkResponse
  return round

/-- The statements with which both the constructor and `setPrice` read the feed. -/
def recentRound (chainlinkOracle : AggregatorV3Interface) (blockTimestamp : Uint256) :
    Tx Error ChainlinkRoundData := do
  let round ← getLatestChainlinkRoundData chainlinkOracle blockTimestamp
  let staleAfter ← checkedAdd round.updatedAt maxClWindow
  revertIf (staleAfter < blockTimestamp) .chainlinkOraclePriceStale
  return round

/-- The constructor. -/
def deploy (deployer : Address) (blockTimestamp : Uint256) (initialPrice : Int256)
    (chainlinkOracle : AggregatorV3Interface) (admin setter : Address) :
    Tx Error RWAOracleExternalComparisonCheck := do
  revertIf (admin = 0 ∨ setter = 0) .invalidAddress
  let decimals ← externalCall chainlinkOracle.decimals
  revertIf (decimals ≠ 8) .corruptedChainlinkResponse
  let round ← recentRound chainlinkOracle blockTimestamp
  return {
    rwaPrice := initialPrice
    priceTimestamp := blockTimestamp
    lastSetRound := round
    access := (AccessControl.empty.internalGrantRole deployer .defaultAdminRole
      admin).internalGrantRole deployer .setterRole setter
    log := [] }

def getPriceData (oracle : RWAOracleExternalComparisonCheck) : Uint256 × Uint256 :=
  (oracle.rwaPrice, oracle.priceTimestamp)

/-- `_getPriceChangeBps` -/
def getPriceChangeBps (previousPrice newPrice : Int256) : Tx Error Int256 := do
  let change ← signedSub newPrice previousPrice
  let scaled ← signedMul change bpsDenominator
  signedDiv scaled previousPrice

/-- `_abs_unsigned` -/
def absUnsigned (x : Int256) : Tx Error Uint256 :=
  if 0 ≤ x.toInt then .ok x else signedNeg x

def setPrice (oracle : RWAOracleExternalComparisonCheck)
    (chainlinkOracle : AggregatorV3Interface) (blockTimestamp : Uint256) (msgSender : Address)
    (newPrice : Int256) : Tx Error RWAOracleExternalComparisonCheck := do
  oracle.access.checkRole .setterRole msgSender
  revertIf (newPrice.toInt ≤ 0) .invalidRWAPrice
  let round ← recentRound chainlinkOracle blockTimestamp
  revertIf (round.roundId = oracle.lastSetRound.roundId) .chainlinkRoundNotUpdated
  let windowEnd ← checkedAdd oracle.priceTimestamp minPriceUpdateWindow
  revertIf (blockTimestamp < windowEnd) .priceUpdateWindowViolation
  let rwaPriceChangeBps ← getPriceChangeBps oracle.rwaPrice newPrice
  let rwaPriceChangeSize ← absUnsigned rwaPriceChangeBps
  revertIf (maxAbsoluteDiffBps < rwaPriceChangeSize) .absoluteDifferenceConstraintViolated
  let chainlinkPriceChangeBps ← getPriceChangeBps oracle.lastSetRound.answer round.answer
  let chainlinkPriceChangeSize ← absUnsigned chainlinkPriceChangeBps
  let ignored ← (
    if chainlinkPriceChangeSize ≤ maxAbsoluteDiffBps + maxChangeDiffBps then do
      -- The Chainlink price change is sane, so the price change is compared with it.
      let changeDifference ← signedSub rwaPriceChangeBps chainlinkPriceChangeBps
      let changeDifferenceBps ← absUnsigned changeDifference
      revertIf (maxChangeDiffBps < changeDifferenceBps) .deltaDifferenceConstraintViolation
      return []
    else
      return [.chainlinkPriceIgnored oracle.lastSetRound.answer oracle.lastSetRound.roundId
        round.answer round.roundId])
  return { oracle with
    rwaPrice := newPrice
    priceTimestamp := blockTimestamp
    lastSetRound := round
    log := oracle.log ++ ignored ++ [.rwaExternalComparisonCheckPriceSet
      oracle.lastSetRound.answer oracle.lastSetRound.roundId round.answer round.roundId
      oracle.rwaPrice newPrice] }

def execAccess (oracle : RWAOracleExternalComparisonCheck) (msgSender : Address)
    (call : AccessControl.Call) : Tx Error RWAOracleExternalComparisonCheck := do
  let access ← oracle.access.exec msgSender call
  return { oracle with access := access }

/-! ## What a round must satisfy -/

/-- The rounds the oracle accepts. -/
structure Accepted (round : ChainlinkRoundData) (blockTimestamp : Uint256) : Prop where
  answer_nonneg : 0 ≤ round.answer.toInt
  answered : round.roundId = round.answeredInRound
  roundId_ne : round.roundId ≠ 0
  updatedAt_ne : round.updatedAt ≠ 0
  updatedAt_le : round.updatedAt.toNat ≤ blockTimestamp.toNat
  le_updatedAt : blockTimestamp.toNat ≤ round.updatedAt.toNat + 25 * 3600
  updatedAt_lt : round.updatedAt.toNat + 25 * 3600 < 2 ^ 256

lemma toNat_maxClWindow : maxClWindow.toNat = 25 * 3600 := by decide

lemma toNat_minPriceUpdateWindow : minPriceUpdateWindow.toNat = 23 * 3600 := by decide

variable {chainlinkOracle : AggregatorV3Interface} {blockTimestamp : Uint256}
  {round : ChainlinkRoundData}

lemma recentRound_eq_ok :
    recentRound chainlinkOracle blockTimestamp = .ok round ↔
      chainlinkOracle.latestRoundData = some round ∧ Accepted round blockTimestamp := by
  simp only [recentRound, getLatestChainlinkRoundData, bind_eq_ok, externalCall_eq_ok,
    revertIf_eq_ok, pure_eq_ok, exists_const, checkedAdd_eq_ok, not_or, not_lt]
  constructor
  · rintro ⟨_, ⟨_, hround, ⟨hanswer, hanswered, hid, hupdated, hle⟩, rfl⟩, stale, hstale, hrecent,
      rfl⟩
    have hwindow := toNat_maxClWindow
    have hrecent' : blockTimestamp.toNat ≤ stale.toNat := BitVec.not_lt.mp hrecent
    refine ⟨hround, hanswer, not_not.mp hanswered, hid, hupdated, BitVec.not_lt.mp hle, ?_, ?_⟩
    · omega
    · have hlt := stale.isLt
      omega
  · rintro ⟨hround, haccepted⟩
    have hwindow := toNat_maxClWindow
    have hlt : round.updatedAt.toNat + maxClWindow.toNat < 2 ^ 256 := by
      rw [hwindow]
      exact haccepted.updatedAt_lt
    refine ⟨round, ⟨round, hround, ⟨haccepted.answer_nonneg, not_not.mpr haccepted.answered,
      haccepted.roundId_ne, haccepted.updatedAt_ne, BitVec.not_lt.mpr haccepted.updatedAt_le⟩,
      rfl⟩, BitVec.ofNat 256 (round.updatedAt.toNat + maxClWindow.toNat), ?_, ?_, rfl⟩
    · rw [BitVec.toNat_ofNat, Nat.mod_eq_of_lt hlt]
    · have hle := haccepted.le_updatedAt
      rw [BitVec.not_lt, BitVec.le_def, BitVec.toNat_ofNat, Nat.mod_eq_of_lt hlt]
      omega

/-! ## The oracle as the pricer sees it -/

variable {oracle oracle' : RWAOracleExternalComparisonCheck} {sender : Address}
  {initialPrice price : Int256}

lemma deploy_spec {deployer admin setter : Address}
    (h : deploy deployer blockTimestamp initialPrice chainlinkOracle admin setter = .ok oracle) :
    chainlinkOracle.latestRoundData = some oracle.lastSetRound ∧
      Accepted oracle.lastSetRound blockTimestamp ∧ oracle.rwaPrice = initialPrice ∧
      oracle.priceTimestamp = blockTimestamp := by
  simp only [deploy, bind_eq_ok, revertIf_eq_ok, pure_eq_ok, exists_const] at h
  obtain ⟨-, decimals, -, -, round, hround, rfl⟩ := h
  obtain ⟨hanswer, haccepted⟩ := recentRound_eq_ok.mp hround
  exact ⟨hanswer, haccepted, rfl, rfl⟩

lemma setPrice_spec
    (h : oracle.setPrice chainlinkOracle blockTimestamp sender price = .ok oracle') :
    oracle.access.hasRole .setterRole sender = true ∧ 0 < price.toInt ∧
      oracle.priceTimestamp.toNat + 23 * 3600 ≤ blockTimestamp.toNat ∧
      chainlinkOracle.latestRoundData = some oracle'.lastSetRound ∧
      Accepted oracle'.lastSetRound blockTimestamp ∧
      oracle'.lastSetRound.roundId ≠ oracle.lastSetRound.roundId ∧
      oracle'.rwaPrice = price ∧ oracle'.priceTimestamp = blockTimestamp ∧
      oracle'.access = oracle.access := by
  simp only [setPrice, bind_eq_ok, AccessControl.checkRole_eq_ok, revertIf_eq_ok, pure_eq_ok,
    exists_const, checkedAdd_eq_ok] at h
  obtain ⟨hrole, hprice, round, hround, hid, windowEnd, hend, hwindow, _, -, _, -, -, _, -, _, -,
    _, -, rfl⟩ := h
  obtain ⟨hanswer, haccepted⟩ := recentRound_eq_ok.mp hround
  refine ⟨hrole, not_le.mp hprice, ?_, hanswer, haccepted, hid, rfl, rfl, rfl⟩
  have hle : windowEnd.toNat ≤ blockTimestamp.toNat := BitVec.not_lt.mp hwindow
  rwa [hend, toNat_minPriceUpdateWindow] at hle

/-- An update divides by the price and the answer it finds stored. -/
lemma setPrice_divisors_ne
    (h : oracle.setPrice chainlinkOracle blockTimestamp sender price = .ok oracle') :
    oracle.rwaPrice ≠ 0 ∧ oracle.lastSetRound.answer ≠ 0 := by
  have hdivisor : ∀ {old new change : Int256},
      getPriceChangeBps old new = .ok change → old ≠ 0 := by
    intro old new change hchange
    simp only [getPriceChangeBps, bind_eq_ok, signedDiv_eq_ok] at hchange
    obtain ⟨_, -, _, -, hne, -⟩ := hchange
    exact hne
  simp only [setPrice, bind_eq_ok, AccessControl.checkRole_eq_ok, revertIf_eq_ok, pure_eq_ok,
    exists_const, checkedAdd_eq_ok] at h
  obtain ⟨-, -, round, -, -, windowEnd, -, -, _, hprice, _, -, -, _, hanswer, -⟩ := h
  exact ⟨hdivisor hprice, hdivisor hanswer⟩

/-- The failures of the price arithmetic. -/
lemma getPriceChangeBps_eq_error {old new : Int256} {r : Revert Error}
    (h : getPriceChangeBps old new = .error r) :
    r = .panic .arithmetic ∨ r = .panic .divisionByZero ∧ old = 0 := by
  simp only [getPriceChangeBps, bind_eq_error] at h
  rcases h with hsub | ⟨change, -, hmul | ⟨scaled, -, hdiv⟩⟩
  · exact .inl (toInt256_eq_error hsub)
  · exact .inl (toInt256_eq_error hmul)
  · unfold signedDiv at hdiv
    split at hdiv
    · next hzero => exact .inr ⟨(Except.error.inj hdiv).symm, hzero⟩
    · exact .inl (toInt256_eq_error hdiv)

lemma absUnsigned_eq_error {x : Int256} {r : Revert Error} (h : absUnsigned x = .error r) :
    r = .panic .arithmetic := by
  unfold absUnsigned at h
  split at h
  · cases h
  · exact toInt256_eq_error h

/-- The ways `setPrice` can fail: it divides by zero only where a divisor it reads is zero. -/
inductive Fails (oracle : RWAOracleExternalComparisonCheck) : Revert Error → Prop
  /-- The feed does not answer. -/
  | empty : Fails oracle .empty
  | arithmetic : Fails oracle (.panic .arithmetic)
  | divisionByZero (hzero : oracle.rwaPrice = 0 ∨ oracle.lastSetRound.answer = 0) :
      Fails oracle (.panic .divisionByZero)
  /-- `LatestPriceMismatch` is an error of the pricer. -/
  | custom {e : Error} (hown : e ≠ .latestPriceMismatch) : Fails oracle (.custom e)

lemma recentRound_eq_error {r : Revert Error}
    (h : recentRound chainlinkOracle blockTimestamp = .error r) : Fails oracle r := by
  simp only [recentRound, getLatestChainlinkRoundData, bind_eq_error, revertIf_eq_error,
    pure_ne_error, and_false, exists_false, or_false] at h
  rcases h with (hcall | ⟨_, -, -, rfl⟩) | ⟨_, -, hadd | ⟨_, -, -, rfl⟩⟩
  · cases hanswer : chainlinkOracle.latestRoundData with
    | none =>
        rw [hanswer] at hcall
        obtain rfl := Except.error.inj hcall
        exact .empty
    | some _ =>
        rw [hanswer] at hcall
        cases hcall
  · exact .custom (by simp)
  · obtain rfl := toUint256_eq_error hadd
    exact .arithmetic
  · exact .custom (by simp)

lemma setPrice_eq_error {r : Revert Error}
    (h : oracle.setPrice chainlinkOracle blockTimestamp sender price = .error r) :
    Fails oracle r := by
  simp only [setPrice, AccessControl.checkRole, bind_eq_error, revertIf_eq_error, pure_ne_error,
    and_false, exists_false, or_false] at h
  -- One case for each statement, in the order of the source.
  rcases h with ⟨-, rfl⟩ | ⟨_, -, ⟨-, rfl⟩ | ⟨_, -, hround | ⟨round, -, ⟨-, rfl⟩ | ⟨_, -, hwindow |
    ⟨_, -, ⟨-, rfl⟩ | ⟨_, -, hchange | ⟨_, -, habs | ⟨_, -, ⟨-, rfl⟩ | ⟨_, -, hchange |
    ⟨_, -, habs | ⟨_, -, hcompare⟩⟩⟩⟩⟩⟩⟩⟩⟩⟩⟩
  · exact .custom (by simp)
  · exact .custom (by simp)
  · exact recentRound_eq_error hround
  · exact .custom (by simp)
  · obtain rfl := toUint256_eq_error hwindow
    exact .arithmetic
  · exact .custom (by simp)
  · rcases getPriceChangeBps_eq_error hchange with rfl | ⟨rfl, hzero⟩
    · exact .arithmetic
    · exact .divisionByZero (.inl hzero)
  · obtain rfl := absUnsigned_eq_error habs
    exact .arithmetic
  · exact .custom (by simp)
  · rcases getPriceChangeBps_eq_error hchange with rfl | ⟨rfl, hzero⟩
    · exact .arithmetic
    · exact .divisionByZero (.inr hzero)
  · obtain rfl := absUnsigned_eq_error habs
    exact .arithmetic
  · split at hcompare
    · simp only [bind_eq_error, revertIf_eq_error, pure_ne_error, and_false, exists_false,
        or_false] at hcompare
      rcases hcompare with hsub | ⟨_, -, habs | ⟨_, -, -, rfl⟩⟩
      · obtain rfl := toInt256_eq_error hsub
        exact .arithmetic
      · obtain rfl := absUnsigned_eq_error habs
        exact .arithmetic
      · exact .custom (by simp)
    · exact absurd hcompare pure_ne_error

instance : IRWAOracleSetter RWAOracleExternalComparisonCheck AggregatorV3Interface where
  getPriceData := getPriceData
  setPrice := setPrice
  execAccess := execAccess
  getPriceData_of_setPrice h := by
    obtain ⟨-, -, -, -, -, -, hprice, htimestamp, -⟩ := setPrice_spec h
    rw [getPriceData, hprice, htimestamp]
  getPriceData_of_execAccess h := by
    simp only [execAccess, bind_eq_ok, pure_eq_ok] at h
    obtain ⟨access, -, rfl⟩ := h
    rfl
  setPrice_ne_latestPriceMismatch oracle chainlinkOracle blockTimestamp sender price h := by
    cases setPrice_eq_error h with
    | custom hown => exact hown rfl

end RWAOracleExternalComparisonCheck

end BrivoUsbs
