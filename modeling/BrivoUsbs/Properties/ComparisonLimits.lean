import BrivoUsbs.Framework.Rounding
import BrivoUsbs.Properties.ComparisonOracle

/-!
# The limits of the comparison oracle

The oracle cuts both relative changes down to whole basis points before it compares them with its
limits.  `setPrice_succeeds_iff` is the exact condition of one update, in those whole basis points.

`limits_iff` says when that comes to the documented limits of 200 and 74 basis points: unless what
the remainders of the two divisions take off carries the update over one of them
(`RoundedAway`, in the prices and answers alone).  What holds in any case is one unit wider for the
change of the price and two for the difference, and `drift_bounded` carries it over a run.
-/

namespace BrivoUsbs

namespace RWAOracleExternalComparisonCheck

variable {oracle oracle' : RWAOracleExternalComparisonCheck}
  {chainlinkOracle : AggregatorV3Interface} {blockTimestamp : Uint256} {sender : Address}
  {price old new : Int256} {round : ChainlinkRoundData}

/-! ## Whole basis points -/

/-- The change from one price to another in basis points, truncated. -/
def wholeBps (old new : ℤ) : ℤ := ((new - old) * 10000).tdiv old

/-- The product in the change of a price does not overflow. -/
def FitsInt256 (old new : ℤ) : Prop :=
  -2 ^ 255 ≤ (new - old) * 10000 ∧ (new - old) * 10000 < 2 ^ 255

lemma toInt_bpsDenominator : bpsDenominator.toInt = 10000 := by decide

lemma not_maxAbsoluteDiffBps_lt_iff {size : Uint256} :
    ¬ maxAbsoluteDiffBps < size ↔ size.toNat ≤ 200 := by
  have hlimit : maxAbsoluteDiffBps.toNat = 200 := by decide
  rw [BitVec.not_lt, BitVec.le_def, hlimit]

lemma not_maxChangeDiffBps_lt_iff {size : Uint256} :
    ¬ maxChangeDiffBps < size ↔ size.toNat ≤ 74 := by
  have hlimit : maxChangeDiffBps.toNat = 74 := by decide
  rw [BitVec.not_lt, BitVec.le_def, hlimit]

/-- A price falls by 100% at most. -/
lemma neg_le_wholeBps {old new : ℤ} (hold : 0 < old) (hnew : 0 ≤ new) :
    -10000 ≤ wholeBps old new := by
  rcases le_total 0 (new - old) with hrise | hfall
  · have hnonneg : 0 ≤ wholeBps old new := Int.tdiv_nonneg (by omega) hold.le
    omega
  · have hsize : |wholeBps old new| ≤ 10000 := by
      rw [wholeBps, Rounding.abs_tdiv_le_iff hold, abs_of_nonpos (by omega)]
      linarith
    exact (abs_le.mp hsize).1

lemma getPriceChangeBps_eq_ok (hold : old ≠ 0) {bps : Int256} :
    getPriceChangeBps old new = .ok bps ↔
      FitsInt256 old.toInt new.toInt ∧ bps.toInt = wholeBps old.toInt new.toInt := by
  simp only [getPriceChangeBps, bind_eq_ok, signedSub_eq_ok, signedMul_eq_ok, signedDiv_eq_ok,
    toInt_bpsDenominator]
  constructor
  · rintro ⟨change, hchange, scaled, hscaled, -, hbps⟩
    rw [hchange] at hscaled
    refine ⟨⟨hscaled ▸ scaled.le_toInt, hscaled ▸ scaled.toInt_lt⟩, ?_⟩
    rw [hbps, hscaled, wholeBps]
  · rintro ⟨⟨hlow, hhigh⟩, hbps⟩
    have hchange : (BitVec.ofInt 256 (new.toInt - old.toInt)).toInt = new.toInt - old.toInt :=
      BitVec.toInt_ofInt_eq_self (by decide) (by omega) (by omega)
    have hscaled : (BitVec.ofInt 256 ((new.toInt - old.toInt) * 10000)).toInt =
        (new.toInt - old.toInt) * 10000 :=
      BitVec.toInt_ofInt_eq_self (by decide) hlow hhigh
    exact ⟨_, hchange, _, by rw [hscaled, hchange], hold, by rw [hbps, hscaled, wholeBps]⟩

lemma absUnsigned_eq_ok {x : Int256} {y : Uint256} :
    absUnsigned x = .ok y ↔ x.toInt ≠ -2 ^ 255 ∧ (y.toNat : ℤ) = |x.toInt| := by
  have hlt := x.toInt_lt
  unfold absUnsigned
  split
  · next hnonneg =>
      have hvalue := toNat_of_toInt_nonneg hnonneg
      rw [abs_of_nonneg hnonneg, Except.ok.injEq, ← BitVec.toNat_inj]
      omega
  · next hneg =>
      rw [abs_of_neg (not_le.mp hneg), signedNeg_eq_ok]
      constructor
      · intro hy
        have hylt := y.toInt_lt
        have hvalue := toNat_of_toInt_nonneg (x := y) (by omega)
        omega
      · rintro ⟨hne, hy⟩
        have hlow := x.le_toInt
        rw [toInt_of_toNat_lt (by omega), hy]

/-- The size of any word but the least one. -/
lemma exists_absUnsigned {x : Int256} (h : x.toInt ≠ -2 ^ 255) :
    ∃ y : Uint256, absUnsigned x = .ok y ∧ (y.toNat : ℤ) = |x.toInt| := by
  have hlow := x.le_toInt
  have hhigh := x.toInt_lt
  have hvalue : ((BitVec.ofNat 256 x.toInt.natAbs).toNat : ℤ) = |x.toInt| := by
    rw [BitVec.toNat_ofNat, Nat.mod_eq_of_lt (by omega), Int.abs_eq_natAbs]
  exact ⟨_, absUnsigned_eq_ok.mpr ⟨h, hvalue⟩, hvalue⟩

/-- Whole basis points as a word, with their size. -/
lemma exists_getPriceChangeBps (hold : 0 < old.toInt) (hnew : 0 ≤ new.toInt)
    (hfits : FitsInt256 old.toInt new.toInt) :
    ∃ (bps : Int256) (size : Uint256), getPriceChangeBps old new = .ok bps ∧
      bps.toInt = wholeBps old.toInt new.toInt ∧ absUnsigned bps = .ok size ∧
      (size.toNat : ℤ) = |wholeBps old.toInt new.toInt| := by
  have hne := ComparisonWorld.ne_zero_of_toInt_pos hold
  have hlow := neg_le_wholeBps hold hnew
  have hhigh : wholeBps old.toInt new.toInt < 2 ^ 255 := by
    have hsize := Int.natAbs_tdiv_le_natAbs ((new.toInt - old.toInt) * 10000) old.toInt
    rcases le_total 0 (new.toInt - old.toInt) with hrise | hfall
    · have hbound := hfits.2
      unfold wholeBps
      omega
    · have hnonpos : wholeBps old.toInt new.toInt ≤ 0 := by
        have hopposite := Int.tdiv_nonneg (a := -((new.toInt - old.toInt) * 10000)) (by omega)
          hold.le
        rw [Int.neg_tdiv] at hopposite
        unfold wholeBps
        omega
      omega
  have hbps : (BitVec.ofInt 256 (wholeBps old.toInt new.toInt)).toInt =
      wholeBps old.toInt new.toInt :=
    BitVec.toInt_ofInt_eq_self (by decide) (by omega) hhigh
  obtain ⟨size, hsize, hvalue⟩ := exists_absUnsigned
    (x := BitVec.ofInt 256 (wholeBps old.toInt new.toInt)) (by omega)
  rw [hbps] at hvalue
  exact ⟨_, size, (getPriceChangeBps_eq_ok hne).mpr ⟨hfits, hbps⟩, hbps, hsize, hvalue⟩

/-! ## What one update asks -/

/-- What `setPrice` asks of a call, apart from its two limits. -/
structure Admits (oracle : RWAOracleExternalComparisonCheck)
    (chainlinkOracle : AggregatorV3Interface) (blockTimestamp : Uint256) (sender : Address)
    (price : Int256) (round : ChainlinkRoundData) : Prop where
  role : oracle.access.hasRole .setterRole sender = true
  price_pos : 0 < price.toInt
  answers : chainlinkOracle.latestRoundData = some round
  accepted : Accepted round blockTimestamp
  roundId_ne : round.roundId ≠ oracle.lastSetRound.roundId
  window : oracle.priceTimestamp.toNat + 23 * 3600 ≤ blockTimestamp.toNat
  price_fits : FitsInt256 oracle.rwaPrice.toInt price.toInt
  answer_fits : FitsInt256 oracle.lastSetRound.answer.toInt round.answer.toInt

/-- The round of the feed is the one on record after the update. -/
lemma Admits.lastSetRound (h : Admits oracle chainlinkOracle blockTimestamp sender price round)
    (hset : oracle.setPrice chainlinkOracle blockTimestamp sender price = .ok oracle') :
    oracle'.lastSetRound = round := by
  obtain ⟨-, -, -, hround, -⟩ := setPrice_spec hset
  exact Option.some.inj (hround.symm.trans h.answers)

/-- The comparison of the two changes, made unless the Chainlink price moved too far. -/
lemma compare_eq_ok {rwaBps chainlinkBps : Int256} {size : Uint256}
    {ignored : ComparisonCheckEvent} (hrwa : |rwaBps.toInt| ≤ 200)
    (hsize : (size.toNat : ℤ) = |chainlinkBps.toInt|) :
    (∃ events, (if size ≤ maxAbsoluteDiffBps + maxChangeDiffBps then do
        let changeDifference ← signedSub rwaBps chainlinkBps
        let changeDifferenceBps ← absUnsigned changeDifference
        revertIf (maxChangeDiffBps < changeDifferenceBps) .deltaDifferenceConstraintViolation
        return []
      else return [ignored] : Tx Error (List ComparisonCheckEvent)) = .ok events) ↔
      (|chainlinkBps.toInt| ≤ 274 → |rwaBps.toInt - chainlinkBps.toInt| ≤ 74) := by
  have hsane : size ≤ maxAbsoluteDiffBps + maxChangeDiffBps ↔ |chainlinkBps.toInt| ≤ 274 := by
    have hlimit : (maxAbsoluteDiffBps + maxChangeDiffBps).toNat = 274 := by decide
    rw [BitVec.le_def, hlimit, ← hsize]
    omega
  by_cases hmove : size ≤ maxAbsoluteDiffBps + maxChangeDiffBps
  · have hbound := hsane.mp hmove
    obtain ⟨hlow, hhigh⟩ := abs_le.mp hbound
    obtain ⟨hlow', hhigh'⟩ := abs_le.mp hrwa
    simp only [if_pos hmove, bind_eq_ok, revertIf_eq_ok, pure_eq_ok, exists_const,
      not_maxChangeDiffBps_lt_iff]
    constructor
    · rintro ⟨events, difference, hdifference, distance, hdistance, hle, -⟩ -
      obtain ⟨-, hvalue⟩ := absUnsigned_eq_ok.mp hdistance
      rw [signedSub_eq_ok] at hdifference
      rw [← hdifference, ← hvalue]
      omega
    · intro hcompare
      have hdifference : (BitVec.ofInt 256 (rwaBps.toInt - chainlinkBps.toInt)).toInt =
          rwaBps.toInt - chainlinkBps.toInt :=
        BitVec.toInt_ofInt_eq_self (by decide) (by omega) (by omega)
      obtain ⟨distance, hdistance, hvalue⟩ := exists_absUnsigned
        (x := BitVec.ofInt 256 (rwaBps.toInt - chainlinkBps.toInt)) (by omega)
      have hclose := hcompare hbound
      refine ⟨[], _, signedSub_eq_ok.mpr hdifference, distance, hdistance, ?_, rfl⟩
      rw [hdifference] at hvalue
      omega
  · have hfar : ¬ |chainlinkBps.toInt| ≤ 274 := fun h => hmove (hsane.mpr h)
    simp only [if_neg hmove, pure_eq_ok]
    exact ⟨fun _ h => absurd h hfar, fun _ => ⟨_, rfl⟩⟩

/-- **What `setPrice` accepts**, with positive divisors. -/
lemma setPrice_succeeds_iff (hold : 0 < oracle.rwaPrice.toInt)
    (hanswer : 0 < oracle.lastSetRound.answer.toInt) :
    (∃ oracle', oracle.setPrice chainlinkOracle blockTimestamp sender price = .ok oracle') ↔
      ∃ round, Admits oracle chainlinkOracle blockTimestamp sender price round ∧
        |wholeBps oracle.rwaPrice.toInt price.toInt| ≤ 200 ∧
        (|wholeBps oracle.lastSetRound.answer.toInt round.answer.toInt| ≤ 274 →
          |wholeBps oracle.rwaPrice.toInt price.toInt -
            wholeBps oracle.lastSetRound.answer.toInt round.answer.toInt| ≤ 74) := by
  simp only [setPrice, bind_eq_ok, AccessControl.checkRole_eq_ok, revertIf_eq_ok, pure_eq_ok,
    exists_const, checkedAdd_eq_ok, not_maxAbsoluteDiffBps_lt_iff]
  constructor
  · rintro ⟨_, hrole, hprice, round, hround, hid, windowEnd, hend, hwindow, rwaBps, hrwa, size,
      hsize, hle, chainlinkBps, hchainlink, chainlinkSize, hchainlinkSize, events, hcompare, -⟩
    obtain ⟨hanswers, haccepted⟩ := recentRound_eq_ok.mp hround
    obtain ⟨hpricefits, hrwaBps⟩ :=
      (getPriceChangeBps_eq_ok (ComparisonWorld.ne_zero_of_toInt_pos hold)).mp hrwa
    obtain ⟨hanswerfits, hchainlinkBps⟩ :=
      (getPriceChangeBps_eq_ok (ComparisonWorld.ne_zero_of_toInt_pos hanswer)).mp hchainlink
    obtain ⟨-, hvalue⟩ := absUnsigned_eq_ok.mp hsize
    obtain ⟨-, hchainlinkValue⟩ := absUnsigned_eq_ok.mp hchainlinkSize
    have hwindow' : windowEnd.toNat ≤ blockTimestamp.toNat := BitVec.not_lt.mp hwindow
    rw [hend, toNat_minPriceUpdateWindow] at hwindow'
    have hsmall : |rwaBps.toInt| ≤ 200 := by omega
    have hclose := (compare_eq_ok hsmall hchainlinkValue).mp ⟨events, hcompare⟩
    rw [hrwaBps] at hsmall hclose
    rw [hchainlinkBps] at hclose
    exact ⟨round, ⟨hrole, not_le.mp hprice, hanswers, haccepted, hid, hwindow', hpricefits,
      hanswerfits⟩, hsmall, hclose⟩
  · rintro ⟨round, hadmits, hsmall, hclose⟩
    obtain ⟨rwaBps, size, hrwa, hrwaBps, hsize, hvalue⟩ :=
      exists_getPriceChangeBps hold hadmits.price_pos.le hadmits.price_fits
    obtain ⟨chainlinkBps, chainlinkSize, hchainlink, hchainlinkBps, hchainlinkSize,
      hchainlinkValue⟩ :=
      exists_getPriceChangeBps hanswer hadmits.accepted.answer_nonneg hadmits.answer_fits
    have hwindow := hadmits.window
    have hend : (BitVec.ofNat 256 (oracle.priceTimestamp.toNat +
        minPriceUpdateWindow.toNat)).toNat =
          oracle.priceTimestamp.toNat + minPriceUpdateWindow.toNat := by
      have hlt := blockTimestamp.isLt
      rw [BitVec.toNat_ofNat, Nat.mod_eq_of_lt]
      rw [toNat_minPriceUpdateWindow]
      omega
    rw [← hrwaBps] at hsmall hclose
    rw [← hchainlinkBps] at hclose hchainlinkValue
    obtain ⟨events, hcompare⟩ := (compare_eq_ok hsmall hchainlinkValue).mpr hclose
    refine ⟨_, hadmits.role, not_le.mpr hadmits.price_pos, round,
      recentRound_eq_ok.mpr ⟨hadmits.answers, hadmits.accepted⟩, hadmits.roundId_ne, _, hend, ?_,
      rwaBps, hrwa, size, hsize, ?_, chainlinkBps, hchainlink, chainlinkSize, hchainlinkSize,
      events, hcompare, rfl⟩
    · rw [BitVec.not_lt, BitVec.le_def, hend, toNat_minPriceUpdateWindow]
      exact hwindow
    · rw [← hrwaBps] at hvalue
      omega

/-! ## The documented limits -/

lemma abs_wholeBps_le_iff {old new k : ℤ} (hold : 0 < old) :
    |wholeBps old new| ≤ k ↔ |new - old| * 10000 < (k + 1) * old := by
  rw [wholeBps, Rounding.abs_tdiv_le_iff hold, abs_mul, abs_of_pos (show (0 : ℤ) < 10000 by decide)]

/-- The documented limits, in exact arithmetic: the price changes by at most 200 basis points,
and, while the Chainlink price changes by at most 274, the two differ by at most 74. -/
structure Limits (old new oldAnswer newAnswer : ℤ) : Prop where
  absolute : |new - old| * 10000 ≤ 200 * old
  relative : |newAnswer - oldAnswer| * 10000 ≤ 274 * oldAnswer →
    |(new - old) * oldAnswer - (newAnswer - oldAnswer) * old| * 10000 ≤ 74 * (old * oldAnswer)

/-- By how much the two changes differ in excess of 74 basis points, over `old * oldAnswer`. -/
def excess (old new oldAnswer newAnswer : ℤ) : ℤ :=
  |(new - old) * oldAnswer - (newAnswer - oldAnswer) * old| * 10000 - 74 * (old * oldAnswer)

/-- By how much their difference shrinks, over `old * oldAnswer`, when both are cut down to whole
basis points: what the remainders of the two divisions come to in its direction. -/
def cutOff (old new oldAnswer newAnswer : ℤ) : ℤ :=
  ((new - old) * oldAnswer - (newAnswer - oldAnswer) * old).sign *
    (((new - old) * 10000).tmod old * oldAnswer -
      ((newAnswer - oldAnswer) * 10000).tmod oldAnswer * old)

/-- The fractions of a basis point that are cut off carry an update over a limit. -/
inductive RoundedAway (old new oldAnswer newAnswer : ℤ) : Prop
  /-- The price changes by more than 200 basis points but less than 201, and what the change
  differs too much from one of Chainlink below 275, if anything, is cut off. -/
  | absolute (hover : 200 * old < |new - old| * 10000) (hunder : |new - old| * 10000 < 201 * old)
      (hclose : |newAnswer - oldAnswer| * 10000 < 275 * oldAnswer →
        excess old new oldAnswer newAnswer ≤ cutOff old new oldAnswer newAnswer)
  /-- The changes are within 200 and 274 basis points, and differ too much by something that is
  cut off. -/
  | relative (hsmall : |new - old| * 10000 ≤ 200 * old)
      (hsane : |newAnswer - oldAnswer| * 10000 ≤ 274 * oldAnswer)
      (hover : 0 < excess old new oldAnswer newAnswer)
      (hunder : excess old new oldAnswer newAnswer ≤ cutOff old new oldAnswer newAnswer)

section

variable {old new oldAnswer newAnswer : ℤ}

/-- The comparison of the two changes in whole basis points, in exact arithmetic. -/
lemma abs_wholeBps_sub_le_iff (hold : 0 < old) (hanswer : 0 < oldAnswer) :
    |wholeBps old new - wholeBps oldAnswer newAnswer| ≤ 74 ↔
      excess old new oldAnswer newAnswer ≤ cutOff old new oldAnswer newAnswer := by
  have hfactor : (new - old) * 10000 * oldAnswer - (newAnswer - oldAnswer) * 10000 * old =
      ((new - old) * oldAnswer - (newAnswer - oldAnswer) * old) * 10000 := by ring
  rw [wholeBps, wholeBps, Rounding.abs_tdiv_sub_tdiv_le_iff hold hanswer (by decide), hfactor,
    abs_mul, Int.sign_mul, abs_of_pos (show (0 : ℤ) < 10000 by decide),
    Int.sign_eq_one_of_pos (show (0 : ℤ) < 10000 by decide), mul_one, excess, cutOff]

/-- Nothing is cut off changes that come to whole basis points. -/
lemma not_roundedAway_of_dvd (hold : 0 < old) (hwhole : old ∣ (new - old) * 10000)
    (hwhole' : oldAnswer ∣ (newAnswer - oldAnswer) * 10000) :
    ¬ RoundedAway old new oldAnswer newAnswer := by
  intro h
  cases h with
  | absolute hover hunder hclose =>
      obtain ⟨bps, hbps⟩ := hwhole
      have hsize : |new - old| * 10000 = |bps| * old := by
        calc
          |new - old| * 10000 = |(new - old) * 10000| := by
            rw [abs_mul, abs_of_pos (show (0 : ℤ) < 10000 by decide)]
          _ = |bps| * old := by rw [hbps, abs_mul, abs_of_pos hold, mul_comm]
      rw [hsize] at hover hunder
      have hlower := lt_of_mul_lt_mul_right hover hold.le
      have hupper := lt_of_mul_lt_mul_right hunder hold.le
      omega
  | relative hsmall hsane hover hunder =>
      rw [cutOff, Int.tmod_eq_zero_of_dvd hwhole, Int.tmod_eq_zero_of_dvd hwhole', zero_mul,
        zero_mul, sub_zero, mul_zero] at hunder
      exact absurd hover (not_lt.mpr hunder)

/-- What is rounded away passes the comparisons in whole basis points. -/
lemma RoundedAway.passes (hold : 0 < old) (hanswer : 0 < oldAnswer)
    (h : RoundedAway old new oldAnswer newAnswer) :
    |wholeBps old new| ≤ 200 ∧ (|wholeBps oldAnswer newAnswer| ≤ 274 →
      |wholeBps old new - wholeBps oldAnswer newAnswer| ≤ 74) := by
  rw [abs_wholeBps_le_iff hold, abs_wholeBps_le_iff hanswer,
    abs_wholeBps_sub_le_iff hold hanswer]
  cases h with
  | absolute hover hunder hclose =>
      exact ⟨by linarith, fun hsane => hclose (by linarith)⟩
  | relative hsmall hsane hover hunder => exact ⟨by linarith, fun _ => hunder⟩

/-- An update that passes them is within the limits unless it is rounded away. -/
lemma limits_or_roundedAway (hold : 0 < old) (hanswer : 0 < oldAnswer)
    (hsmall : |wholeBps old new| ≤ 200)
    (hclose : |wholeBps oldAnswer newAnswer| ≤ 274 →
      |wholeBps old new - wholeBps oldAnswer newAnswer| ≤ 74) :
    Limits old new oldAnswer newAnswer ∨ RoundedAway old new oldAnswer newAnswer := by
  rw [abs_wholeBps_le_iff hold] at hsmall
  rw [abs_wholeBps_le_iff hanswer, abs_wholeBps_sub_le_iff hold hanswer] at hclose
  by_cases habsolute : |new - old| * 10000 ≤ 200 * old
  · by_cases hrelative : |newAnswer - oldAnswer| * 10000 ≤ 274 * oldAnswer →
        excess old new oldAnswer newAnswer ≤ 0
    · exact .inl ⟨habsolute, fun hsane => sub_nonpos.mp (hrelative hsane)⟩
    · obtain ⟨hsane, hover⟩ := Classical.not_imp.mp hrelative
      exact .inr (.relative habsolute hsane (not_le.mp hover) (hclose (by linarith)))
  · refine .inr (.absolute (not_le.mp habsolute) (by linarith) fun hsane => hclose ?_)
    linarith

lemma RoundedAway.not_limits (h : RoundedAway old new oldAnswer newAnswer) :
    ¬ Limits old new oldAnswer newAnswer := by
  intro hlimits
  cases h with
  | absolute hover hunder hclose => exact absurd hlimits.absolute (not_le.mpr hover)
  | relative hsmall hsane hover hunder =>
      exact absurd (sub_nonpos.mpr (hlimits.relative hsane)) (not_le.mpr hover)

end

/-- **The documented limits hold up to fractions of a basis point.**  With positive divisors, a
successful update is within the limits exactly if no fraction that was cut off carries it over. -/
theorem limits_iff (hold : 0 < oracle.rwaPrice.toInt)
    (hanswer : 0 < oracle.lastSetRound.answer.toInt) :
    (∀ oracle', oracle.setPrice chainlinkOracle blockTimestamp sender price = .ok oracle' →
        Limits oracle.rwaPrice.toInt price.toInt oracle.lastSetRound.answer.toInt
          oracle'.lastSetRound.answer.toInt) ↔
      ∀ round, Admits oracle chainlinkOracle blockTimestamp sender price round →
        ¬ RoundedAway oracle.rwaPrice.toInt price.toInt oracle.lastSetRound.answer.toInt
          round.answer.toInt := by
  constructor
  · intro hlimits round hadmits hrounded
    obtain ⟨hsmall, hclose⟩ := hrounded.passes hold hanswer
    obtain ⟨oracle', hset⟩ :=
      (setPrice_succeeds_iff hold hanswer).mpr ⟨round, hadmits, hsmall, hclose⟩
    obtain rfl := hadmits.lastSetRound hset
    exact hrounded.not_limits (hlimits oracle' hset)
  · intro hexact oracle' hset
    obtain ⟨round, hadmits, hsmall, hclose⟩ :=
      (setPrice_succeeds_iff hold hanswer).mp ⟨oracle', hset⟩
    obtain rfl := hadmits.lastSetRound hset
    exact (limits_or_roundedAway hold hanswer hsmall hclose).resolve_right (hexact _ hadmits)

/-! ## What holds in any case -/

lemma setPrice_change_le
    (h : oracle.setPrice chainlinkOracle blockTimestamp sender price = .ok oracle') :
    |wholeBps oracle.rwaPrice.toInt price.toInt| ≤ 200 := by
  obtain ⟨hold, -⟩ := setPrice_divisors_ne h
  simp only [setPrice, bind_eq_ok, AccessControl.checkRole_eq_ok, revertIf_eq_ok, exists_const,
    checkedAdd_eq_ok, not_maxAbsoluteDiffBps_lt_iff] at h
  obtain ⟨-, -, _, -, -, _, -, -, bps, hbps, size, hsize, hle, -⟩ := h
  obtain ⟨-, hvalue⟩ := absUnsigned_eq_ok.mp hsize
  rw [← ((getPriceChangeBps_eq_ok hold).mp hbps).2, ← hvalue]
  exact_mod_cast hle

/-- A positive price is more than 100% away from a negative one. -/
lemma abs_wholeBps_of_neg {old new : ℤ} (hold : old < 0) (hnew : 0 < new) :
    ¬ |wholeBps old new| ≤ 200 := by
  intro hsmall
  rw [wholeBps, ← neg_neg old, Int.tdiv_neg, abs_neg, neg_neg,
    Rounding.abs_tdiv_le_iff (neg_pos.mpr hold), abs_of_nonneg (by omega)] at hsmall
  omega

/-- An update that passes divided by a positive price and a positive answer. -/
lemma setPrice_divisors_pos (hstored : 0 ≤ oracle.lastSetRound.answer.toInt)
    (h : oracle.setPrice chainlinkOracle blockTimestamp sender price = .ok oracle') :
    0 < oracle.rwaPrice.toInt ∧ 0 < oracle.lastSetRound.answer.toInt := by
  obtain ⟨hpricene, hanswerne⟩ := setPrice_divisors_ne h
  obtain ⟨-, hprice, -⟩ := setPrice_spec h
  refine ⟨?_, ComparisonWorld.toInt_pos hstored hanswerne⟩
  refine ComparisonWorld.toInt_pos (not_lt.mp fun hneg => ?_) hpricene
  exact abs_wholeBps_of_neg hneg hprice (setPrice_change_le h)

/-- What the oracle has on record: its price, when that was set, and the round it was compared
with. -/
structure Quote where
  price : Int256
  timestamp : Uint256
  round : ChainlinkRoundData

def quote (oracle : RWAOracleExternalComparisonCheck) : Quote :=
  ⟨oracle.rwaPrice, oracle.priceTimestamp, oracle.lastSetRound⟩

/-- How far the next quote can be from one. -/
structure Follows (q q' : Quote) : Prop where
  window : q.timestamp.toNat + 23 * 3600 ≤ q'.timestamp.toNat
  roundId_ne : q'.round.roundId ≠ q.round.roundId
  lower : 9799 * q.price.toInt < 10000 * q'.price.toInt
  upper : 10000 * q'.price.toInt < 10201 * q.price.toInt
  /-- Unless the change of the Chainlink price is ignored. -/
  relative : |wholeBps q.round.answer.toInt q'.round.answer.toInt| ≤ 274 →
    |(q'.price.toInt - q.price.toInt) * q.round.answer.toInt -
        (q'.round.answer.toInt - q.round.answer.toInt) * q.price.toInt| * 10000 <
      76 * (q.price.toInt * q.round.answer.toInt)

/-- Two changes that agree up to 74 whole basis points differ by less than 76. -/
lemma abs_sub_lt_of_abs_wholeBps_sub_le {old new oldAnswer newAnswer : ℤ} (hold : 0 < old)
    (hanswer : 0 < oldAnswer)
    (h : |wholeBps old new - wholeBps oldAnswer newAnswer| ≤ 74) :
    |(new - old) * oldAnswer - (newAnswer - oldAnswer) * old| * 10000 <
      76 * (old * oldAnswer) := by
  have hbound := Rounding.abs_sub_lt_of_abs_tdiv_sub_le hold hanswer h
  calc
    |(new - old) * oldAnswer - (newAnswer - oldAnswer) * old| * 10000
        = |((new - old) * oldAnswer - (newAnswer - oldAnswer) * old) * 10000| := by
          rw [abs_mul, abs_of_pos (show (0 : ℤ) < 10000 by decide)]
    _ = |(new - old) * 10000 * oldAnswer - (newAnswer - oldAnswer) * 10000 * old| := by
          congr 1
          ring
    _ < (74 + 2) * (old * oldAnswer) := hbound
    _ = 76 * (old * oldAnswer) := by ring

/-- **One accepted update**, from a state whose round was accepted. -/
lemma setPrice_follows (hstored : 0 ≤ oracle.lastSetRound.answer.toInt)
    (h : oracle.setPrice chainlinkOracle blockTimestamp sender price = .ok oracle') :
    0 < oracle.rwaPrice.toInt ∧ Follows oracle.quote oracle'.quote := by
  obtain ⟨hold, hanswer⟩ := setPrice_divisors_pos hstored h
  obtain ⟨round, hadmits, hsmall, hclose⟩ :=
    (setPrice_succeeds_iff hold hanswer).mp ⟨oracle', h⟩
  obtain ⟨-, -, hwindow, -, -, hid, hprice, htimestamp, -⟩ := setPrice_spec h
  obtain rfl := hadmits.lastSetRound h
  have hbound := (abs_wholeBps_le_iff hold).mp hsmall
  have hup := le_abs_self (price.toInt - oracle.rwaPrice.toInt)
  have hdown := neg_abs_le (price.toInt - oracle.rwaPrice.toInt)
  refine ⟨hold, ?_, hid, ?_, ?_, fun hsane => ?_⟩
  · show oracle.priceTimestamp.toNat + 23 * 3600 ≤ oracle'.priceTimestamp.toNat
    rwa [htimestamp]
  · show 9799 * oracle.rwaPrice.toInt < 10000 * oracle'.rwaPrice.toInt
    rw [hprice]
    linarith
  · show 10000 * oracle'.rwaPrice.toInt < 10201 * oracle.rwaPrice.toInt
    rw [hprice]
    linarith
  · show |(oracle'.rwaPrice.toInt - oracle.rwaPrice.toInt) * oracle.lastSetRound.answer.toInt -
        (oracle'.lastSetRound.answer.toInt - oracle.lastSetRound.answer.toInt) *
          oracle.rwaPrice.toInt| * 10000 <
      76 * (oracle.rwaPrice.toInt * oracle.lastSetRound.answer.toInt)
    rw [hprice]
    exact abs_sub_lt_of_abs_wholeBps_sub_le hold hanswer (hclose hsane)

end RWAOracleExternalComparisonCheck

/-! ## Runs -/

namespace ComparisonWorld

open OracleWorld (Step next updates)
open RWAOracleExternalComparisonCheck (Accepted Quote Follows)

variable {w₀ w w' : ComparisonWorld} {a : OracleAction AggregatorV3Interface}
  {tr : List (Transition ComparisonWorld (OracleAction AggregatorV3Interface))}
  {initialPrice : Int256} {n : ℕ}

/-- The quotes of a run: the one at its start, and one for each accepted update. -/
def quotes (w₀ : ComparisonWorld)
    (tr : List (Transition ComparisonWorld (OracleAction AggregatorV3Interface))) : List Quote :=
  w₀.oracle.quote :: (tr.filter fun t => t.label.isSetPrice).map fun t => t.post.oracle.quote

/-- What holds after an oracle constructed at the price `p₀` has been updated `n` times. -/
structure Drift (p₀ : ℤ) (n : ℕ) (w : ComparisonWorld) : Prop where
  accepted : Accepted w.oracle.lastSetRound w.oracle.priceTimestamp
  start : n = 0 → w.oracle.rwaPrice.toInt = p₀
  positive : 0 < n → 0 < p₀ ∧ 0 < w.oracle.rwaPrice.toInt
  lower : 0 < n → p₀ * 9799 ^ n < w.oracle.rwaPrice.toInt * 10000 ^ n
  upper : 0 < n → w.oracle.rwaPrice.toInt * 10000 ^ n < p₀ * 10201 ^ n

lemma Deployed.drift (h : w.Deployed initialPrice) : Drift initialPrice.toInt 0 w := by
  obtain ⟨deployer, admin, setter, hdeploy⟩ := h
  obtain ⟨-, haccepted, hinitial, htimestamp⟩ :=
    RWAOracleExternalComparisonCheck.deploy_spec hdeploy
  refine ⟨?_, fun _ => by rw [hinitial], ?_, ?_, ?_⟩
  · rwa [htimestamp]
  all_goals exact fun h => absurd h (lt_irrefl 0)

lemma step_setPrice {sender : Address} {price : Int256}
    (hstep : w.Step (.setPrice sender price) w') :
    w.oracle.setPrice w.feed w.timestamp sender price = .ok w'.oracle := by
  simp only [Step, OracleWorld.exec, bind_eq_ok, pure_eq_ok] at hstep
  obtain ⟨oracle, hcall, rfl⟩ := hstep
  exact hcall

/-- An update multiplies the price by something between 97.99% and 102.01%. -/
lemma Drift.setPrice {p₀ : ℤ} {sender : Address} {price : Int256} (h : Drift p₀ n w)
    (hstep : w.Step (.setPrice sender price) w') :
    Drift p₀ (n + 1) w' ∧ Follows w.oracle.quote w'.oracle.quote := by
  have hset := step_setPrice hstep
  obtain ⟨hold, hfollows⟩ :=
    RWAOracleExternalComparisonCheck.setPrice_follows h.accepted.answer_nonneg hset
  obtain ⟨-, hprice, -, -, haccepted, -, hnew, htimestamp, -⟩ :=
    RWAOracleExternalComparisonCheck.setPrice_spec hset
  -- The strict bounds start with the first update, so the induction carries weak ones.
  have hbounds : 0 < p₀ ∧ p₀ * 9799 ^ n ≤ w.oracle.rwaPrice.toInt * 10000 ^ n ∧
      w.oracle.rwaPrice.toInt * 10000 ^ n ≤ p₀ * 10201 ^ n := by
    rcases Nat.eq_zero_or_pos n with rfl | hn
    · rw [h.start rfl] at hold ⊢
      simpa using hold
    · exact ⟨(h.positive hn).1, (h.lower hn).le, (h.upper hn).le⟩
  obtain ⟨hp₀, hlower, hupper⟩ := hbounds
  refine ⟨⟨?_, fun h => absurd h (Nat.succ_ne_zero n), fun _ => ⟨hp₀, ?_⟩, fun _ => ?_,
    fun _ => ?_⟩, hfollows⟩
  · rwa [htimestamp]
  · rwa [hnew]
  · exact Rounding.geometric_step_lt (by decide) (by decide) hlower hfollows.lower
  · have hnegated : -p₀ * 10201 ^ n ≤ -w.oracle.rwaPrice.toInt * 10000 ^ n := by linarith
    have hratio : 10201 * -w.oracle.rwaPrice.toInt < 10000 * -w'.oracle.rwaPrice.toInt := by
      have hupper := hfollows.upper
      change 10000 * w'.oracle.rwaPrice.toInt < 10201 * w.oracle.rwaPrice.toInt at hupper
      linarith
    have hnext := Rounding.geometric_step_lt (by decide) (by decide) hnegated hratio
    linarith

/-- Other actions leave what is on record alone. -/
lemma Step.quote_frame (hstep : w.Step a w') (ha : a.isSetPrice = false) :
    w'.oracle.quote = w.oracle.quote := by
  obtain ⟨hprice, hround⟩ := Step.oracle_frame hstep ha
  have htimestamp : w'.oracle.priceTimestamp = w.oracle.priceTimestamp :=
    congrArg Prod.snd (OracleWorld.Step.getPriceData_frame hstep ha)
  simp only [RWAOracleExternalComparisonCheck.quote, hprice, htimestamp, hround]

lemma Drift.frame {p₀ : ℤ} (h : Drift p₀ n w) (hsame : w'.oracle.quote = w.oracle.quote) :
    Drift p₀ n w' := by
  obtain ⟨hprice, htimestamp, hround⟩ := Quote.mk.inj hsame
  refine ⟨?_, ?_, ?_, ?_, ?_⟩
  · rw [hround, htimestamp]
    exact h.accepted
  all_goals rw [hprice]
  · exact h.start
  · exact h.positive
  · exact h.lower
  · exact h.upper

lemma drift (hdeployed : w₀.Deployed initialPrice) (hrun : Run Step w₀ tr w) :
    Drift initialPrice.toInt (updates tr) w ∧ (quotes w₀ tr).IsChain Follows ∧
      (quotes w₀ tr).getLast? = some w.oracle.quote := by
  induction hrun using Run.induction with
  | nil => exact ⟨hdeployed.drift, List.isChain_singleton _, rfl⟩
  | snoc tr w a w' _ hlast ih =>
      obtain ⟨hdrift, hchain, hend⟩ := ih
      by_cases hset : a.isSetPrice = true
      · cases a with
        | setPrice sender price =>
            obtain ⟨hdrift', hfollows⟩ := hdrift.setPrice hlast
            have hquotes : quotes w₀ (tr ++ [⟨w, .setPrice sender price, w'⟩]) =
                quotes w₀ tr ++ [w'.oracle.quote] := by
              simp [quotes, hset]
            rw [OracleWorld.updates_snoc, hquotes]
            refine ⟨hdrift', hchain.append (List.isChain_singleton _) ?_, by simp⟩
            intro q hq q' hq'
            obtain rfl := Option.some.inj (hend.symm.trans hq)
            obtain rfl := Option.some.inj hq'
            exact hfollows
        | _ => cases hset
      · have hother : a.isSetPrice = false := Bool.eq_false_iff.mpr hset
        have hsame := Step.quote_frame hlast hother
        have hquotes : quotes w₀ (tr ++ [⟨w, a, w'⟩]) = quotes w₀ tr := by
          simp [quotes, hother]
        rw [OracleWorld.updates_snoc, hother, hquotes, hsame]
        exact ⟨hdrift.frame hsame, hchain, hend⟩

/-- **The comparison oracle drifts at a bounded rate on fresh rounds.**  Over any run, whatever the
feed answers: each quote follows the one before it; the stored round was recent when the price was
set; the price keeps within powers of 97.99% and 102.01% of the initial one, and is never set if
that is not positive; and a rejected call changes nothing. -/
theorem drift_bounded (hdeployed : w₀.Deployed initialPrice) (hrun : Run Step w₀ tr w) :
    (quotes w₀ tr).IsChain Follows ∧
      (∀ s, Run.Visits tr w s → Accepted s.oracle.lastSetRound s.oracle.priceTimestamp) ∧
      (0 < updates tr →
        initialPrice.toInt * 9799 ^ updates tr < w.oracle.rwaPrice.toInt * 10000 ^ updates tr ∧
        w.oracle.rwaPrice.toInt * 10000 ^ updates tr < initialPrice.toInt * 10201 ^ updates tr) ∧
      (initialPrice.toInt ≤ 0 → updates tr = 0) ∧
      ∀ a r, w.exec a = .error r → play next w [a] = w := by
  obtain ⟨hdrift, hchain, -⟩ := drift hdeployed hrun
  refine ⟨hchain, fun s hs => ?_, fun hn => ⟨hdrift.lower hn, hdrift.upper hn⟩, fun hprice => ?_,
    fun a r herror => play_of_none (OracleWorld.next_of_error herror)⟩
  · obtain ⟨tr', -, hrun'⟩ := hrun.of_visits hs
    exact (drift hdeployed hrun').1.accepted
  · by_contra hne
    exact absurd (hdrift.positive (Nat.pos_of_ne_zero hne)).1 (not_lt.mpr hprice)

open FeedSample in
theorem drift_bounded_sample :
    updates (playTrace next world dailyUpdate) = 1 ∧
      (quotes world (playTrace next world dailyUpdate)).IsChain Follows ∧
      1000000000000000000 * 9799 ^ 1 < (play next world dailyUpdate).oracle.rwaPrice.toInt *
        10000 ^ 1 := by
  have hcount : updates (playTrace next world dailyUpdate) = 1 := by decide +kernel
  obtain ⟨hchain, -, hbounds, -⟩ := drift_bounded world_deployed
    (run_play (fun _ _ _ => OracleWorld.step_of_next) world dailyUpdate)
  rw [hcount] at hbounds
  exact ⟨hcount, hchain, (hbounds (by decide)).1⟩

end ComparisonWorld

/-! ## Updates that are rounded away -/

namespace RWAOracleExternalComparisonCheck

open ComparisonWorld.FeedSample

/-- Both prices rise by 100 basis points, which is within the limits. -/
theorem limits_iff_sample :
    (0 < world.oracle.rwaPrice.toInt ∧ 0 < world.oracle.lastSetRound.answer.toInt) ∧
      ∀ oracle', world.oracle.setPrice (feedAt 2 10100000000 1086400) 1086400 operator
        1010000000000000000 = .ok oracle' →
          Limits world.oracle.rwaPrice.toInt 1010000000000000000
            world.oracle.lastSetRound.answer.toInt oracle'.lastSetRound.answer.toInt := by
  refine ⟨by decide +kernel, (limits_iff (by decide +kernel) (by decide +kernel)).mpr ?_⟩
  intro round hadmits
  obtain rfl := Option.some.inj hadmits.answers
  exact not_roundedAway_of_dvd (by decide +kernel) (by decide +kernel) (by decide +kernel)

/-- A day after its construction the oracle accepts a rise of 200.5 basis points beside one of 127
by Chainlink, and a rise of 100.9 beside one of 26. -/
theorem limits_exceeded :
    world.Deployed 1000000000000000000 ∧
      (∃ oracle', world.oracle.setPrice (feedAt 2 10127000000 1086400) 1086400 operator
        1020050000000000000 = .ok oracle' ∧
          200 * world.oracle.rwaPrice.toInt <
            |(1020050000000000000 : Int256).toInt - world.oracle.rwaPrice.toInt| * 10000 ∧
          ¬ Limits world.oracle.rwaPrice.toInt (1020050000000000000 : Int256).toInt
            world.oracle.lastSetRound.answer.toInt oracle'.lastSetRound.answer.toInt) ∧
      ∃ oracle', world.oracle.setPrice (feedAt 2 10026000000 1086400) 1086400 operator
        1010090000000000000 = .ok oracle' ∧
          |(1010090000000000000 : Int256).toInt - world.oracle.rwaPrice.toInt| * 10000 <
            200 * world.oracle.rwaPrice.toInt ∧
          ¬ Limits world.oracle.rwaPrice.toInt (1010090000000000000 : Int256).toInt
            world.oracle.lastSetRound.answer.toInt oracle'.lastSetRound.answer.toInt := by
  refine ⟨ComparisonWorld.FeedSample.world_deployed, ⟨_, rfl, by decide +kernel, ?_⟩,
    ⟨_, rfl, by decide +kernel, ?_⟩⟩
  · intro h
    exact absurd h.absolute (by decide +kernel)
  · intro h
    exact absurd h.relative (by decide +kernel)

end RWAOracleExternalComparisonCheck

end BrivoUsbs
