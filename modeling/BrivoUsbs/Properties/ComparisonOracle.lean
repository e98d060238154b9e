import BrivoUsbs.Contracts.RWAOracleExternalComparisonCheck
import BrivoUsbs.Framework.Path

/-!
# Bricking the comparison oracle

An update of the comparison oracle divides by the price and by the Chainlink answer stored at the
last one.  The constructor takes any initial price, and a round is corrupted only if its answer is
negative, so either divisor can become zero, and then no update succeeds ever again.

`unbricked_iff` says that these two are the only ways: along any run, the oracle stays updatable
exactly if the initial price is positive and no round it accepts answers zero.
-/

namespace BrivoUsbs

namespace RWAOracleExternalComparisonCheck

variable {oracle oracle' : RWAOracleExternalComparisonCheck}
  {chainlinkOracle : AggregatorV3Interface} {blockTimestamp : Uint256} {sender : Address}
  {price initialPrice : Int256} {round : ChainlinkRoundData}

/-! ## An update that changes nothing -/

lemma getPriceChangeBps_self {x : Int256} (h : x ≠ 0) : getPriceChangeBps x x = .ok 0 := by
  simp only [getPriceChangeBps, bind_eq_ok, signedSub_eq_ok, signedMul_eq_ok, signedDiv_eq_ok]
  exact ⟨0, by simp, 0, by simp, h, by simp⟩

/-- With positive divisors, the price on record is accepted again as soon as a new round with the
answer on record is there. -/
lemma setPrice_unchanged (hrole : oracle.access.hasRole .setterRole sender = true)
    (hprice : 0 < oracle.rwaPrice.toInt) (hanswer : 0 < oracle.lastSetRound.answer.toInt)
    (hround : chainlinkOracle.latestRoundData = some round)
    (haccepted : Accepted round blockTimestamp)
    (hid : round.roundId ≠ oracle.lastSetRound.roundId)
    (hsame : round.answer = oracle.lastSetRound.answer)
    (hwindow : oracle.priceTimestamp.toNat + 23 * 3600 ≤ blockTimestamp.toNat) :
    ∃ oracle', oracle.setPrice chainlinkOracle blockTimestamp sender oracle.rwaPrice =
      .ok oracle' := by
  have hpricene : oracle.rwaPrice ≠ 0 := by
    intro h0
    rw [h0] at hprice
    simp at hprice
  have hanswerne : oracle.lastSetRound.answer ≠ 0 := by
    intro h0
    rw [h0] at hanswer
    simp at hanswer
  have hlt : oracle.priceTimestamp.toNat + minPriceUpdateWindow.toNat < 2 ^ 256 := by
    have hbound := blockTimestamp.isLt
    rw [toNat_minPriceUpdateWindow]
    omega
  simp only [setPrice, bind_eq_ok, AccessControl.checkRole_eq_ok, revertIf_eq_ok, pure_eq_ok,
    exists_const, checkedAdd_eq_ok]
  refine ⟨_, hrole, not_le.mpr hprice, round, recentRound_eq_ok.mpr ⟨hround, haccepted⟩, hid,
    BitVec.ofNat 256 (oracle.priceTimestamp.toNat + minPriceUpdateWindow.toNat), ?_, ?_, 0,
    getPriceChangeBps_self hpricene, 0, rfl, by decide, 0, ?_, 0, rfl, [], ?_, rfl⟩
  · rw [BitVec.toNat_ofNat, Nat.mod_eq_of_lt hlt]
  · rw [BitVec.not_lt, BitVec.le_def, BitVec.toNat_ofNat, Nat.mod_eq_of_lt hlt,
      toNat_minPriceUpdateWindow]
    exact hwindow
  · rw [hsame]
    exact getPriceChangeBps_self hanswerne
  · rfl

end RWAOracleExternalComparisonCheck

/-! ## Runs -/

/-- The comparison oracle with its Chainlink feed. -/
abbrev ComparisonWorld := OracleWorld RWAOracleExternalComparisonCheck AggregatorV3Interface

namespace ComparisonWorld

open OracleWorld (Step next)
open RWAOracleExternalComparisonCheck (Accepted)

variable {w₀ w w' : ComparisonWorld} {a : OracleAction AggregatorV3Interface}
  {tr : List (Transition ComparisonWorld (OracleAction AggregatorV3Interface))}
  {initialPrice : Int256}

/-- A world in which the oracle has just been constructed. -/
def Deployed (w : ComparisonWorld) (initialPrice : Int256) : Prop :=
  ∃ deployer admin setter, RWAOracleExternalComparisonCheck.deploy deployer w.timestamp initialPrice
    w.feed admin setter = .ok w.oracle

/-- If the feed answers, it does not answer zero. -/
def AnswersNonzero (feed : AggregatorV3Interface) : Prop :=
  ∀ round ∈ feed.latestRoundData, round.answer ≠ 0

instance (feed : AggregatorV3Interface) : Decidable (AnswersNonzero feed) :=
  inferInstanceAs (Decidable (∀ round ∈ feed.latestRoundData, round.answer ≠ 0))

/-- The oracle can be updated: both divisors are positive, so no call divides by zero, and
whoever may set the price will find a round to set it with. -/
structure Unbricked (w : ComparisonWorld) : Prop where
  rwaPrice_pos : 0 < w.oracle.rwaPrice.toInt
  answer_pos : 0 < w.oracle.lastSetRound.answer.toInt
  /-- Whatever the feed answers, and at any time. -/
  no_divisionByZero : ∀ feed blockTimestamp sender price,
    w.oracle.setPrice feed blockTimestamp sender price ≠ .error (.panic .divisionByZero)
  /-- The clock is two days from its end. -/
  updatable : ∀ setter, w.oracle.access.hasRole .setterRole setter = true →
    w.timestamp.toNat + 48 * 3600 < 2 ^ 256 →
      ∃ feed blockTimestamp price oracle', w.timestamp ≤ blockTimestamp ∧
        w.oracle.setPrice feed blockTimestamp setter price = .ok oracle'

/-- What keeps the oracle updatable. -/
structure DivisorsPositive (w : ComparisonWorld) : Prop where
  rwaPrice_pos : 0 < w.oracle.rwaPrice.toInt
  answer_pos : 0 < w.oracle.lastSetRound.answer.toInt
  priceTimestamp_le : w.oracle.priceTimestamp.toNat ≤ w.timestamp.toNat

lemma toInt_pos {x : Int256} (hnonneg : 0 ≤ x.toInt) (hne : x ≠ 0) : 0 < x.toInt := by
  refine lt_of_le_of_ne hnonneg fun hzero => hne (BitVec.eq_of_toInt_eq ?_)
  rw [← hzero]
  rfl

lemma ne_zero_of_toInt_pos {x : Int256} (hpos : 0 < x.toInt) : x ≠ 0 := by
  intro hzero
  rw [hzero] at hpos
  exact absurd hpos (by decide)

/-- There is another round id to use. -/
lemma exists_roundId (used : BitVec 80) : ∃ roundId : BitVec 80, roundId ≠ 0 ∧ roundId ≠ used := by
  by_cases hone : used = 1
  · exact ⟨2, by decide, by rw [hone]; decide⟩
  · exact ⟨1, by decide, fun h => hone h.symm⟩

lemma DivisorsPositive.unbricked (h : DivisorsPositive w) : Unbricked w where
  rwaPrice_pos := h.rwaPrice_pos
  answer_pos := h.answer_pos
  no_divisionByZero feed blockTimestamp sender price herror := by
    cases RWAOracleExternalComparisonCheck.setPrice_eq_error herror with
    | divisionByZero hzero =>
        rcases hzero with hzero | hzero
        · exact ne_zero_of_toInt_pos h.rwaPrice_pos hzero
        · exact ne_zero_of_toInt_pos h.answer_pos hzero
  updatable setter hrole hclock := by
    -- A new round in 23 hours repeats the answer on record.
    obtain ⟨roundId, hroundId, hother⟩ := exists_roundId w.oracle.lastSetRound.roundId
    let later : Uint256 := BitVec.ofNat 256 (w.timestamp.toNat + 23 * 3600)
    let round : ChainlinkRoundData :=
      ⟨roundId, w.oracle.lastSetRound.answer, later, later, roundId⟩
    have hlater : later.toNat = w.timestamp.toNat + 23 * 3600 := by
      rw [BitVec.toNat_ofNat, Nat.mod_eq_of_lt (by omega)]
    have hle : w.timestamp ≤ later := by
      rw [BitVec.le_def, hlater]
      exact Nat.le_add_right _ _
    have haccepted : Accepted round later := {
      answer_nonneg := h.answer_pos.le
      answered := rfl
      roundId_ne := hroundId
      updatedAt_ne := fun hzero => by
        have hnat : later.toNat = 0 := by rw [show later = 0 from hzero]; rfl
        omega
      updatedAt_le := le_refl _
      le_updatedAt := Nat.le_add_right _ _
      updatedAt_lt := by
        change later.toNat + 25 * 3600 < 2 ^ 256
        omega }
    have hround : (⟨some 8, some round⟩ : AggregatorV3Interface).latestRoundData = some round :=
      rfl
    have hwindow : w.oracle.priceTimestamp.toNat + 23 * 3600 ≤ later.toNat := by
      have hpast := h.priceTimestamp_le
      omega
    obtain ⟨oracle', hset⟩ := RWAOracleExternalComparisonCheck.setPrice_unchanged hrole
      h.rwaPrice_pos h.answer_pos hround haccepted hother rfl hwindow
    exact ⟨_, later, _, oracle', hle, hset⟩

lemma Deployed.divisorsPositive (hdeployed : w.Deployed initialPrice)
    (hprice : 0 < initialPrice.toInt) (hanswer : AnswersNonzero w.feed) : DivisorsPositive w := by
  obtain ⟨deployer, admin, setter, hdeploy⟩ := hdeployed
  obtain ⟨hround, haccepted, hinitial, htimestamp⟩ :=
    RWAOracleExternalComparisonCheck.deploy_spec hdeploy
  refine ⟨by rwa [hinitial], ?_, by rw [htimestamp]⟩
  exact toInt_pos haccepted.answer_nonneg (hanswer _ hround)

/-- Only `setPrice` writes what the oracle divides by. -/
lemma Step.oracle_frame (hstep : w.Step a w') (hno : a.isSetPrice = false) :
    w'.oracle.rwaPrice = w.oracle.rwaPrice ∧ w'.oracle.lastSetRound = w.oracle.lastSetRound := by
  unfold Step at hstep
  cases a with
  | setPrice sender price => cases hno
  | access sender call =>
      simp only [OracleWorld.exec, bind_eq_ok, pure_eq_ok] at hstep
      obtain ⟨oracle, hcall, rfl⟩ := hstep
      change w.oracle.execAccess sender call = .ok oracle at hcall
      simp only [RWAOracleExternalComparisonCheck.execAccess, bind_eq_ok, pure_eq_ok] at hcall
      obtain ⟨access, -, rfl⟩ := hcall
      exact ⟨rfl, rfl⟩
  | feed feed =>
      cases hstep
      exact ⟨rfl, rfl⟩
  | wait timestamp =>
      simp only [OracleWorld.exec] at hstep
      split at hstep
      · cases hstep
        exact ⟨rfl, rfl⟩
      · cases hstep

lemma DivisorsPositive.step (h : DivisorsPositive w) (hstep : w.Step a w')
    (hanswer : a.isSetPrice = true → AnswersNonzero w.feed) : DivisorsPositive w' := by
  obtain ⟨hclock, htimestamp⟩ := OracleWorld.Step.getPriceData hstep
  by_cases hset : a.isSetPrice = true
  · cases a with
    | setPrice sender price =>
        simp only [Step, OracleWorld.exec, bind_eq_ok, pure_eq_ok] at hstep
        obtain ⟨oracle, hcall, rfl⟩ := hstep
        obtain ⟨-, hprice, -, hround, haccepted, -, hstored, htimestamp, -⟩ :=
          RWAOracleExternalComparisonCheck.setPrice_spec hcall
        refine ⟨by rwa [hstored], ?_, by rw [htimestamp]⟩
        exact toInt_pos haccepted.answer_nonneg (hanswer rfl _ hround)
    | _ => cases hset
  · obtain ⟨hprice, hround⟩ := Step.oracle_frame hstep (Bool.eq_false_iff.mpr hset)
    refine ⟨hprice ▸ h.rwaPrice_pos, hround ▸ h.answer_pos, ?_⟩
    rcases htimestamp with hsame | ⟨sender, price, rfl, -, -⟩
    · have htimestamp : w'.oracle.priceTimestamp = w.oracle.priceTimestamp :=
        congrArg Prod.snd hsame
      rw [htimestamp]
      exact h.priceTimestamp_le.trans hclock
    · exact absurd rfl hset

/-- **When the comparison oracle is bricked.**  Along a run, the oracle stays updatable exactly if
its initial price is positive and the feed answers no zero at its construction and whenever its
price is set. -/
theorem unbricked_iff (hdeployed : w₀.Deployed initialPrice) (hrun : Run Step w₀ tr w) :
    (∀ s, Run.Visits tr w s → Unbricked s) ↔
      0 < initialPrice.toInt ∧ AnswersNonzero w₀.feed ∧
        ∀ t ∈ tr, t.label.isSetPrice = true → AnswersNonzero t.pre.feed := by
  constructor
  · intro hunbricked
    obtain ⟨deployer, admin, setter, hdeploy⟩ := hdeployed
    obtain ⟨hround, -, hinitial, -⟩ := RWAOracleExternalComparisonCheck.deploy_spec hdeploy
    have hstart := hunbricked w₀ hrun.visits_start
    refine ⟨hinitial ▸ hstart.rwaPrice_pos, ?_, ?_⟩
    · intro round hanswer
      obtain rfl : w₀.oracle.lastSetRound = round := Option.some.inj (hround.symm.trans hanswer)
      exact ne_zero_of_toInt_pos hstart.answer_pos
    · intro t ht hset round hanswer
      have hpost := hunbricked t.post (Run.visits_post ht)
      have hstep := hrun.step_of_mem ht
      obtain ⟨pre, label, post⟩ := t
      cases label with
      | setPrice sender price =>
          simp only [Step, OracleWorld.exec, bind_eq_ok, pure_eq_ok] at hstep
          obtain ⟨oracle, hcall, rfl⟩ := hstep
          obtain ⟨-, -, -, hround', -⟩ := RWAOracleExternalComparisonCheck.setPrice_spec hcall
          obtain rfl : oracle.lastSetRound = round := Option.some.inj (hround'.symm.trans hanswer)
          exact ne_zero_of_toInt_pos hpost.answer_pos
      | _ => cases hset
  · rintro ⟨hprice, hanswer, hanswers⟩ s hs
    have hpositive : DivisorsPositive s :=
      hrun.invariant_visits (hdeployed.divisorsPositive hprice hanswer)
        (fun t ht hpre hstep => hpre.step hstep (hanswers t ht)) hs
    exact hpositive.unbricked

/-- **Bricked for good.**  Once a divisor is zero, no run sets the price again. -/
theorem no_setPrice_of_divisor_zero (hrun : Run Step w₀ tr w)
    (hzero : w₀.oracle.rwaPrice = 0 ∨ w₀.oracle.lastSetRound.answer = 0) :
    ∀ t ∈ tr, t.label.isSetPrice = false := by
  have hnever : ∀ {w w' : ComparisonWorld} {a : OracleAction AggregatorV3Interface}, w.Step a w' →
      (w.oracle.rwaPrice = 0 ∨ w.oracle.lastSetRound.answer = 0) → a.isSetPrice = false := by
    intro w w' a hstep hzero
    cases a with
    | setPrice sender price =>
        simp only [Step, OracleWorld.exec, bind_eq_ok] at hstep
        obtain ⟨oracle, hset, -⟩ := hstep
        obtain ⟨hprice, hanswer⟩ := RWAOracleExternalComparisonCheck.setPrice_divisors_ne hset
        exact absurd hzero (not_or.mpr ⟨hprice, hanswer⟩)
    | _ => rfl
  have hinvariant := hrun.invariant
    (P := fun w => w.oracle.rwaPrice = 0 ∨ w.oracle.lastSetRound.answer = 0) hzero
    fun t ht hpre hstep => by
      obtain ⟨hprice, hround⟩ := Step.oracle_frame hstep (hnever hstep hpre)
      rwa [hprice, hround]
  intro t ht
  have hstep := hrun.step_of_mem ht
  exact hnever hstep (hinvariant.2 t ht).1

/-! ## A run that bricks the oracle -/

namespace FeedSample

/-- The account that holds every role. -/
def operator : Address := 0x0A

/-- A feed that answers with this round. -/
def feedAt (roundId : BitVec 80) (answer : Int256) (updatedAt : Uint256) : AggregatorV3Interface :=
  ⟨some 8, some ⟨roundId, answer, updatedAt, updatedAt, roundId⟩⟩

def oracle : RWAOracleExternalComparisonCheck :=
  (RWAOracleExternalComparisonCheck.deploy operator 1000000 1000000000000000000
    (feedAt 1 10000000000 1000000) operator operator).toOption.get (by decide)

/-- The oracle at its construction, at the price 1. -/
def world : ComparisonWorld := ⟨oracle, feedAt 1 10000000000 1000000, 1000000⟩

lemma world_deployed : world.Deployed 1000000000000000000 := ⟨operator, operator, operator, rfl⟩

/-- A day later the Chainlink price and the RWA price have both risen by 1%. -/
def dailyUpdate : List (OracleAction AggregatorV3Interface) := [
  .wait 1086400,
  .feed (feedAt 2 10100000000 1086400),
  .setPrice operator 1010000000000000000]

/-- A day later the feed answers zero, which is ignored as a price but stored as a round. -/
def zeroAnswer : List (OracleAction AggregatorV3Interface) := [
  .wait 1086400,
  .feed (feedAt 2 0 1086400),
  .setPrice operator 1000000000000000000]

end FeedSample

open FeedSample in
theorem unbricked_sample :
    (play next world dailyUpdate).oracle.rwaPrice = 1010000000000000000 ∧
      ∀ s, Run.Visits (playTrace next world dailyUpdate) (play next world dailyUpdate) s →
        Unbricked s :=
  ⟨by decide +kernel, (unbricked_iff world_deployed
    (run_play (fun _ _ _ => OracleWorld.step_of_next) _ _)).mpr (by decide +kernel)⟩

open FeedSample in
/-- A zero answer is accepted, and from then on no run ever sets the price again; on the next day
the attempt divides by zero.  The constructor accepts a zero price as well. -/
theorem zeroAnswer_bricks :
    world.Deployed 1000000000000000000 ∧
      Run Step world (playTrace next world zeroAnswer) (play next world zeroAnswer) ∧
      ¬ 0 < (play next world zeroAnswer).oracle.lastSetRound.answer.toInt ∧
      (∀ tr w, Run Step (play next world zeroAnswer) tr w →
        ∀ t ∈ tr, t.label.isSetPrice = false) ∧
      ((play next world zeroAnswer).oracle.setPrice (feedAt 3 10000000000 1172800) 1172800
        operator 1000000000000000000).map (fun _ => ()) = .error (.panic .divisionByZero) ∧
      ((RWAOracleExternalComparisonCheck.deploy operator 1000000 0 (feedAt 1 10000000000 1000000)
        operator operator).map fun oracle => oracle.rwaPrice) = .ok 0 := by
  refine ⟨world_deployed, run_play (fun _ _ _ => OracleWorld.step_of_next) _ _, by decide +kernel,
    fun tr w hrun => no_setPrice_of_divisor_zero hrun (.inr (by decide +kernel)),
    by decide +kernel, by decide +kernel⟩

end ComparisonWorld

end BrivoUsbs
