import BrivoUsbs.Contracts.RWAOracleRateCheck

/-!
# The limits of the rate-check oracle

The change of the price is rounded up to whole basis points, so the limit of 100 basis points
holds in exact arithmetic, and `setPrice` accepts everything within it.  `setPrice_succeeds_iff`
is the exact condition of one update, and `Drift` what follows over a run: the price stays
positive, and each update multiplies it by something between 99% and 101%.
-/

namespace BrivoUsbs

namespace RWAOracleRateCheck

variable {oracle oracle' : RWAOracleRateCheck} {blockTimestamp : Uint256} {sender : Address}
  {price old new : Int256}

lemma toNat_minPriceUpdateWindow : minPriceUpdateWindow.toNat = 23 * 3600 := by decide

lemma toNat_maxChangeDiffBps : maxChangeDiffBps.toNat = 100 := by decide

lemma toNat_bpsDenominator : bpsDenominator.toNat = 10000 := by decide

/-! ## The rounded-up division -/

lemma exists_mulDivUp_error_iff (x y denominator : Uint256) :
    (∃ r, mulDivUp x y denominator = .error r) ↔
      denominator = 0 ∨ 2 ^ 256 ≤ x.toNat * y.toNat := by
  have hguard := @mulDivUp_guard x y denominator
  rw [← not_iff_not, not_or, not_le, ← ne_eq, ← hguard]
  unfold mulDivUp
  split
  · next hfails => exact iff_of_false (by simp) hfails
  · next hpasses => exact iff_of_true (by simp) (not_not.mp hpasses)

/-- **`mulDivUp` is an exact checked division, rounded up.**  It reverts on a zero denominator and
on a product that is no `uint256`, and on nothing else. -/
theorem mulDivUp_exact (x y denominator : Uint256) :
    ((∃ r, mulDivUp x y denominator = .error r) ↔
      denominator = 0 ∨ 2 ^ 256 ≤ x.toNat * y.toNat) ∧
    (¬ (denominator = 0 ∨ 2 ^ 256 ≤ x.toNat * y.toNat) → ∃ z,
      mulDivUp x y denominator = .ok z ∧
        z.toNat = ⌈((x.toNat * y.toNat : ℕ) : ℚ) / denominator.toNat⌉₊ ∧
        ⌈((x.toNat * y.toNat : ℕ) : ℚ) / denominator.toNat⌉₊ < 2 ^ 256) := by
  refine ⟨exists_mulDivUp_error_iff x y denominator, fun hvalid => ?_⟩
  have hpos : 0 < denominator.toNat := toNat_pos fun hzero => hvalid (.inl hzero)
  rw [Rounding.natCeil_div hpos]
  cases hcall : mulDivUp x y denominator with
  | error r => exact absurd ((exists_mulDivUp_error_iff x y denominator).mp ⟨r, hcall⟩) hvalid
  | ok z =>
      obtain ⟨-, -, hz⟩ := mulDivUp_eq_ok.mp hcall
      exact ⟨z, rfl, hz, hz ▸ z.isLt⟩

/-- Both sides of the overflow boundary, and a quotient that is rounded up. -/
theorem mulDivUp_exact_sample :
    (∃ z, mulDivUp 10 1 3 = .ok z ∧ z.toNat = ⌈(10 : ℚ) / 3⌉₊) ∧
      (∃ z, mulDivUp (BitVec.allOnes 256) 1 1 = .ok z) ∧
      ∃ r, mulDivUp (BitVec.twoPow 256 128) (BitVec.twoPow 256 128) 1 = .error r := by
  refine ⟨?_, ?_, (mulDivUp_exact _ _ _).1.mpr (.inr (by decide +kernel))⟩
  · obtain ⟨z, hz, hvalue, -⟩ := (mulDivUp_exact 10 1 3).2 (by decide +kernel)
    exact ⟨z, hz, by simpa using hvalue⟩
  · obtain ⟨z, hz, -⟩ := (mulDivUp_exact (BitVec.allOnes 256) 1 1).2 (by decide +kernel)
    exact ⟨z, hz⟩

/-! ## One update -/

/-- The change the oracle measures between two positive prices. -/
lemma getPriceChangeBps_eq_ok (hold : 0 < old.toInt) (hnew : 0 < new.toInt) {bps : Uint256} :
    getPriceChangeBps old new = .ok bps ↔
      |new.toInt - old.toInt| * 10000 < 2 ^ 256 ∧
        bps.toNat = ((new.toInt - old.toInt).natAbs * 10000) ⌈/⌉ old.toNat := by
  have holdlt := old.toInt_lt
  have hnewlt := new.toInt_lt
  have hne : old ≠ 0 := by
    rintro rfl
    exact absurd hold (by decide)
  have hscale : ∀ change : Int256, change.toNat = (new.toInt - old.toInt).natAbs →
      (mulDivUp change bpsDenominator old = .ok bps ↔
        |new.toInt - old.toInt| * 10000 < 2 ^ 256 ∧
          bps.toNat = ((new.toInt - old.toInt).natAbs * 10000) ⌈/⌉ old.toNat) := by
    intro change hchange
    rw [mulDivUp_eq_ok, hchange, toNat_bpsDenominator, Int.abs_eq_natAbs]
    have hfits : (new.toInt - old.toInt).natAbs * 10000 < 2 ^ 256 ↔
        ((new.toInt - old.toInt).natAbs : ℤ) * 10000 < 2 ^ 256 := by omega
    rw [hfits]
    exact and_iff_right hne
  have hdistance : ∀ x y : Int256, y.toInt ≤ x.toInt → x.toInt < 2 ^ 255 → 0 < y.toInt →
      (x.toInt - y.toInt).natAbs = (new.toInt - old.toInt).natAbs →
        ((∃ change, (signedSub x y : Tx Error Int256) = .ok change ∧
            mulDivUp change bpsDenominator old = .ok bps) ↔
          |new.toInt - old.toInt| * 10000 < 2 ^ 256 ∧
            bps.toNat = ((new.toInt - old.toInt).natAbs * 10000) ⌈/⌉ old.toNat) := by
    intro x y hle hx hy hsame
    have hvalue : ∀ {change : Int256}, change.toInt = x.toInt - y.toInt →
        change.toNat = (new.toInt - old.toInt).natAbs := by
      intro change hchange
      have hnat := toNat_of_toInt_nonneg (x := change) (by omega)
      omega
    constructor
    · rintro ⟨change, hchange, h⟩
      exact (hscale change (hvalue (signedSub_eq_ok.mp hchange))).mp h
    · intro h
      have hchange : (BitVec.ofInt 256 (x.toInt - y.toInt)).toInt = x.toInt - y.toInt :=
        BitVec.toInt_ofInt_eq_self (by decide) (by omega) (by omega)
      exact ⟨_, signedSub_eq_ok.mpr hchange, (hscale _ (hvalue hchange)).mpr h⟩
  unfold getPriceChangeBps
  simp only [bind_eq_ok]
  split
  · next hrise => exact hdistance new old hrise.le hnewlt hold rfl
  · next hfall => exact hdistance old new (not_lt.mp hfall) holdlt hnew (by omega)

/-- **What `setPrice` accepts.**  The limit holds exactly: the measured change is rounded up. -/
lemma setPrice_succeeds_iff (hold : 0 < oracle.rwaPrice.toInt) :
    (∃ oracle', oracle.setPrice blockTimestamp sender price = .ok oracle') ↔
      oracle.access.hasRole .setterRole sender = true ∧ 0 < price.toInt ∧
        oracle.priceTimestamp.toNat + 23 * 3600 ≤ blockTimestamp.toNat ∧
        |price.toInt - oracle.rwaPrice.toInt| * 10000 < 2 ^ 256 ∧
        100 * |price.toInt - oracle.rwaPrice.toInt| ≤ oracle.rwaPrice.toInt := by
  have hpos : 0 < oracle.rwaPrice.toNat := by
    have hvalue := toNat_of_toInt_nonneg hold.le
    omega
  have hlimit : ∀ bps : Uint256,
      bps.toNat = ((price.toInt - oracle.rwaPrice.toInt).natAbs * 10000) ⌈/⌉
          oracle.rwaPrice.toNat →
        (¬ maxChangeDiffBps < bps ↔
          100 * |price.toInt - oracle.rwaPrice.toInt| ≤ oracle.rwaPrice.toInt) := by
    intro bps hbps
    have hvalue := toNat_of_toInt_nonneg hold.le
    have hle : ¬ maxChangeDiffBps < bps ↔ bps.toNat ≤ 100 := by
      rw [BitVec.not_lt, BitVec.le_def, toNat_maxChangeDiffBps]
    rw [hle, hbps, ceilDiv_le_iff_le_mul hpos, Int.abs_eq_natAbs]
    omega
  simp only [setPrice, bind_eq_ok, AccessControl.checkRole_eq_ok, revertIf_eq_ok, pure_eq_ok,
    exists_const, checkedSub_eq_ok]
  constructor
  · rintro ⟨_, hrole, hprice, elapsed, helapsed, hwindow, bps, hchange, hbps, -⟩
    have hprice' : 0 < price.toInt := not_le.mp hprice
    obtain ⟨hfits, hvalue⟩ := (getPriceChangeBps_eq_ok hold hprice').mp hchange
    have hwindow' : 23 * 3600 ≤ elapsed.toNat := by
      rw [← toNat_minPriceUpdateWindow]
      exact BitVec.not_lt.mp hwindow
    exact ⟨hrole, hprice', by omega, hfits, (hlimit bps hvalue).mp hbps⟩
  · rintro ⟨hrole, hprice, hwindow, hfits, hbound⟩
    have helapsed : (blockTimestamp - oracle.priceTimestamp).toNat + oracle.priceTimestamp.toNat =
        blockTimestamp.toNat := by bv_omega
    obtain ⟨bps, hbps⟩ : ∃ bps : Uint256,
        bps.toNat = ((price.toInt - oracle.rwaPrice.toInt).natAbs * 10000) ⌈/⌉
          oracle.rwaPrice.toNat := by
      rw [Int.abs_eq_natAbs] at hfits
      have hle : ((price.toInt - oracle.rwaPrice.toInt).natAbs * 10000) ⌈/⌉
          oracle.rwaPrice.toNat ≤ (price.toInt - oracle.rwaPrice.toInt).natAbs * 10000 :=
        (ceilDiv_le_iff_le_mul hpos).mpr (Nat.le_mul_of_pos_left _ hpos)
      exact ⟨BitVec.ofNat 256 (((price.toInt - oracle.rwaPrice.toInt).natAbs * 10000) ⌈/⌉
        oracle.rwaPrice.toNat), by rw [BitVec.toNat_ofNat, Nat.mod_eq_of_lt (by omega)]⟩
    refine ⟨_, hrole, not_le.mpr hprice, _, helapsed, ?_, bps,
      (getPriceChangeBps_eq_ok hold hprice).mpr ⟨hfits, hbps⟩, (hlimit bps hbps).mpr hbound, rfl⟩
    rw [BitVec.not_lt, BitVec.le_def, toNat_minPriceUpdateWindow]
    omega

end RWAOracleRateCheck

/-! ## Runs -/

/-- The rate-check oracle, which looks at nothing but the clock. -/
abbrev RateCheckWorld := OracleWorld RWAOracleRateCheck Unit

namespace RateCheckWorld

open OracleWorld (Step next updates)

variable {w₀ w w' : RateCheckWorld} {a : OracleAction Unit}
  {tr : List (Transition RateCheckWorld (OracleAction Unit))} {initialprice : Int256}

/-- A world in which the oracle has just been constructed. -/
def Deployed (w : RateCheckWorld) (initialprice : Int256) : Prop :=
  ∃ deployer admin setter,
    RWAOracleRateCheck.deploy deployer w.timestamp admin setter initialprice = .ok w.oracle

/-- How far `n` updates can take the oracle from its construction. -/
structure Drift (w₀ : RateCheckWorld) (n : ℕ) (w : RateCheckWorld) : Prop where
  positive : 0 < w.oracle.rwaPrice.toInt
  lower : w₀.oracle.rwaPrice.toInt * 99 ^ n ≤ w.oracle.rwaPrice.toInt * 100 ^ n
  upper : w.oracle.rwaPrice.toInt * 100 ^ n ≤ w₀.oracle.rwaPrice.toInt * 101 ^ n
  elapsed : w₀.timestamp.toNat + n * (23 * 3600) ≤ w.oracle.priceTimestamp.toNat
  past : w.oracle.priceTimestamp.toNat ≤ w.timestamp.toNat

lemma Deployed.drift (h : w.Deployed initialprice) : Drift w 0 w := by
  obtain ⟨deployer, admin, setter, hdeploy⟩ := h
  simp only [RWAOracleRateCheck.deploy, bind_eq_ok, revertIf_eq_ok, pure_eq_ok, exists_const]
    at hdeploy
  obtain ⟨hprice, horacle⟩ := hdeploy
  have hpositive : 0 < w.oracle.rwaPrice.toInt := by
    rw [← horacle]
    exact not_le.mp hprice
  have htimestamp : w.oracle.priceTimestamp = w.timestamp := by rw [← horacle]
  exact ⟨hpositive, by simp, by simp, by simp [htimestamp], by rw [htimestamp]⟩

/-- An update stays within 1% and comes 23 hours after the one before. -/
lemma Drift.setPrice {n : ℕ} {sender : Address} {price : Int256} (h : Drift w₀ n w)
    (hstep : w.Step (.setPrice sender price) w') : Drift w₀ (n + 1) w' := by
  simp only [Step, OracleWorld.exec, bind_eq_ok, pure_eq_ok] at hstep
  obtain ⟨oracle, hcall, rfl⟩ := hstep
  change w.oracle.setPrice w.timestamp sender price = .ok oracle at hcall
  obtain ⟨-, hprice, hwindow, -, hlimit⟩ :=
    (RWAOracleRateCheck.setPrice_succeeds_iff h.positive).mp ⟨oracle, hcall⟩
  obtain ⟨-, -, rfl⟩ := RWAOracleRateCheck.setPrice_spec hcall
  have hup := le_abs_self (price.toInt - w.oracle.rwaPrice.toInt)
  have hdown := neg_abs_le (price.toInt - w.oracle.rwaPrice.toInt)
  refine ⟨hprice, ?_, ?_, ?_, le_rfl⟩
  · exact Rounding.geometric_step (by decide) (by decide) h.lower (by linarith)
  · have hupper : -w₀.oracle.rwaPrice.toInt * 101 ^ n ≤ -w.oracle.rwaPrice.toInt * 100 ^ n := by
      linarith [h.upper]
    have hnext := Rounding.geometric_step (y := -price.toInt) (by decide) (by decide) hupper
      (by linarith)
    show price.toInt * 100 ^ (n + 1) ≤ w₀.oracle.rwaPrice.toInt * 101 ^ (n + 1)
    linarith
  · calc
      w₀.timestamp.toNat + (n + 1) * (23 * 3600)
          = w₀.timestamp.toNat + n * (23 * 3600) + 23 * 3600 := by ring
      _ ≤ w.oracle.priceTimestamp.toNat + 23 * 3600 := Nat.add_le_add_right h.elapsed _
      _ ≤ w.timestamp.toNat := hwindow

/-- Other actions leave the price alone. -/
lemma Drift.frame {n : ℕ} (h : Drift w₀ n w) (hstep : w.Step a w') (ha : a.isSetPrice = false) :
    Drift w₀ n w' := by
  obtain ⟨hclock, -⟩ := OracleWorld.Step.getPriceData hstep
  obtain ⟨hprice, htimestamp⟩ : w'.oracle.rwaPrice = w.oracle.rwaPrice ∧
      w'.oracle.priceTimestamp = w.oracle.priceTimestamp :=
    Prod.mk.inj (OracleWorld.Step.getPriceData_frame hstep ha)
  refine ⟨hprice ▸ h.positive, hprice ▸ h.lower, hprice ▸ h.upper, htimestamp ▸ h.elapsed, ?_⟩
  rw [htimestamp]
  exact h.past.trans hclock

lemma drift (hdeployed : w₀.Deployed initialprice) (hrun : Run Step w₀ tr w) :
    Drift w₀ (updates tr) w := by
  induction hrun using Run.induction with
  | nil => exact hdeployed.drift
  | snoc tr w a w' _ hlast ih =>
      by_cases hset : a.isSetPrice = true
      · cases a with
        | setPrice sender price =>
            rw [OracleWorld.updates_snoc]
            exact ih.setPrice hlast
        | _ => cases hset
      · have hother : a.isSetPrice = false := Bool.eq_false_iff.mpr hset
        rw [OracleWorld.updates_snoc, hother]
        exact ih.frame hlast hother

/-- **The rate-check oracle enforces its limits exactly.**  In every state a run reaches, a setter's
price is accepted exactly if it is positive, 23 hours have passed and it is within 1% of the last
one; a rejected call changes nothing; and the price has not drifted further than the accepted
updates allow. -/
theorem setPrice_exact (hdeployed : w₀.Deployed initialprice) (hrun : Run Step w₀ tr w) :
    (∀ blockTimestamp sender price, w.oracle.priceTimestamp ≤ blockTimestamp →
        w.oracle.access.hasRole .setterRole sender = true →
        |price.toInt - w.oracle.rwaPrice.toInt| * 10000 < 2 ^ 256 →
          ((∃ oracle', w.oracle.setPrice blockTimestamp sender price = .ok oracle') ↔
            0 < price.toInt ∧
              w.oracle.priceTimestamp.toNat + 23 * 3600 ≤ blockTimestamp.toNat ∧
              100 * |price.toInt - w.oracle.rwaPrice.toInt| ≤ w.oracle.rwaPrice.toInt)) ∧
      (∀ a r, w.exec a = .error r → play next w [a] = w) ∧ Drift w₀ (updates tr) w := by
  have hdrift := drift hdeployed hrun
  refine ⟨fun blockTimestamp sender price _ hrole hfits => ?_,
    fun a r herror => play_of_none (OracleWorld.next_of_error herror), hdrift⟩
  rw [RWAOracleRateCheck.setPrice_succeeds_iff hdrift.positive]
  exact ⟨fun h => ⟨h.2.1, h.2.2.1, h.2.2.2.2⟩, fun h => ⟨hrole, h.1, h.2.1, hfits, h.2.2⟩⟩

end RateCheckWorld

/-! ## A run of the rate-check oracle -/

namespace RateCheckSample

/-- The account that holds every role. -/
def operator : Address := 0x0A

/-- The oracle at its construction, at the price 1. -/
def world : RateCheckWorld where
  oracle := (RWAOracleRateCheck.deploy operator 1000000 operator operator
    1000000000000000000).toOption.get (by decide)
  feed := ()
  timestamp := 1000000

lemma world_deployed : world.Deployed 1000000000000000000 := ⟨operator, operator, operator, rfl⟩

/-- Two days of the largest change allowed, up and down. -/
def dailyUpdates : List (OracleAction Unit) := [
  .wait 1086400,
  .setPrice operator 1010000000000000000,
  .wait 1172800,
  .setPrice operator 999900000000000000]

end RateCheckSample

namespace RateCheckWorld

open OracleWorld (Step next updates)

open RateCheckSample in
/-- After the two updates the price may rise by 1%, and not by a unit more. -/
theorem setPrice_exact_sample :
    updates (playTrace next world dailyUpdates) = 2 ∧
      Drift world 2 (play next world dailyUpdates) ∧
      (∃ oracle', (play next world dailyUpdates).oracle.setPrice 1259200 operator
        1009899000000000000 = .ok oracle') ∧
      ¬ ∃ oracle', (play next world dailyUpdates).oracle.setPrice 1259200 operator
        1009899000000000001 = .ok oracle' := by
  have hcount : updates (playTrace next world dailyUpdates) = 2 := by decide +kernel
  obtain ⟨haccepts, -, hdrift⟩ := setPrice_exact world_deployed
    (run_play (fun _ _ _ => OracleWorld.step_of_next) world dailyUpdates)
  rw [hcount] at hdrift
  refine ⟨hcount, hdrift, ?_, ?_⟩
  · exact (haccepts 1259200 operator 1009899000000000000 (by decide +kernel) (by decide +kernel)
      (by decide +kernel)).mpr (by decide +kernel)
  · rw [haccepts 1259200 operator 1009899000000000001 (by decide +kernel) (by decide +kernel)
      (by decide +kernel)]
    decide +kernel

end RateCheckWorld

end BrivoUsbs
