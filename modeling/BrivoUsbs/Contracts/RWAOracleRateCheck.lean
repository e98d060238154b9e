import BrivoUsbs.Contracts.IRWAOracleSetter
import BrivoUsbs.Framework.Rounding

/-!
# The rate-check oracle

`RWAOracleRateCheck` accepts a new price at most every 23 hours, and only if it differs from the
last one by at most 1%.  The change is rounded up to whole basis points by `mulDivUp`, which the
contract writes in assembly.
-/

namespace BrivoUsbs

/-- The event `RWAPriceSet`. -/
structure RWAPriceSet where
  oldPrice : Int256
  newPrice : Int256
  timestamp : Uint256

structure RWAOracleRateCheck where
  /-- In 18 decimals. -/
  rwaPrice : Int256
  priceTimestamp : Uint256
  access : AccessControl
  log : List RWAPriceSet

namespace RWAOracleRateCheck

/-- `23 hours` -/
def minPriceUpdateWindow : Uint256 := 23 * 3600

def bpsDenominator : Uint256 := 10000

def maxChangeDiffBps : Uint256 := 100

def maxUint256 : Uint256 := BitVec.allOnes 256

/-- The constructor. -/
def deploy (deployer : Address) (blockTimestamp : Uint256) (admin setter : Address)
    (initialprice : Int256) : Tx Error RWAOracleRateCheck := do
  let access := (AccessControl.empty.internalGrantRole deployer .defaultAdminRole
    admin).internalGrantRole deployer .setterRole setter
  revertIf (initialprice.toInt ≤ 0) .invalidPrice
  return {
    rwaPrice := initialprice
    priceTimestamp := blockTimestamp
    access := access
    log := [⟨0, initialprice, blockTimestamp⟩] }

def getPriceData (oracle : RWAOracleRateCheck) : Uint256 × Uint256 :=
  (oracle.rwaPrice, oracle.priceTimestamp)

open Evm in
def mulDivUp (x y denominator : Uint256) : Tx Error Uint256 :=
  if isZero (denominator * isZero (y * gt x (div maxUint256 y))) ≠ 0 then .error .empty
  else .ok (gt (mod (x * y) denominator) 0 + div (x * y) denominator)

/-- `_getPriceChangeBps` -/
def getPriceChangeBps (previousPrice newPrice : Int256) : Tx Error Uint256 := do
  let change ← (if previousPrice.toInt < newPrice.toInt then signedSub newPrice previousPrice
    else signedSub previousPrice newPrice)
  mulDivUp change bpsDenominator previousPrice

def setPrice (oracle : RWAOracleRateCheck) (blockTimestamp : Uint256) (msgSender : Address)
    (newPrice : Int256) : Tx Error RWAOracleRateCheck := do
  oracle.access.checkRole .setterRole msgSender
  revertIf (newPrice.toInt ≤ 0) .invalidPrice
  let elapsed ← checkedSub blockTimestamp oracle.priceTimestamp
  revertIf (elapsed < minPriceUpdateWindow) .priceUpdateWindowViolation
  let changeBps ← getPriceChangeBps oracle.rwaPrice newPrice
  revertIf (maxChangeDiffBps < changeBps) .deltaDifferenceConstraintViolation
  return { oracle with
    rwaPrice := newPrice
    priceTimestamp := blockTimestamp
    log := oracle.log ++ [⟨oracle.rwaPrice, newPrice, blockTimestamp⟩] }

def execAccess (oracle : RWAOracleRateCheck) (msgSender : Address) (call : AccessControl.Call) :
    Tx Error RWAOracleRateCheck := do
  let access ← oracle.access.exec msgSender call
  return { oracle with access := access }

/-! ## The price arithmetic -/

open Evm in
/-- The guard of `mulDivUp` is that of a checked product over a non-zero denominator. -/
lemma mulDivUp_guard {x y denominator : Uint256} :
    isZero (denominator * isZero (y * gt x (div maxUint256 y))) = 0 ↔
      denominator ≠ 0 ∧ x.toNat * y.toNat < 2 ^ 256 := by
  have hproduct : y * gt x (div maxUint256 y) = 0 ↔ x.toNat * y.toNat < 2 ^ 256 := by
    by_cases hy : y = 0
    · simp [hy]
    · have hpos : 0 < y.toNat := by
        have hne : y.toNat ≠ 0 := fun h => hy (BitVec.eq_of_toNat_eq h)
        omega
      have hquotient : (maxUint256 / y).toNat = (2 ^ 256 - 1) / y.toNat := by
        rw [BitVec.toNat_udiv, maxUint256, BitVec.toNat_allOnes]
      have hfits : x.toNat ≤ (2 ^ 256 - 1) / y.toNat ↔ x.toNat * y.toNat < 2 ^ 256 := by
        rw [Nat.le_div_iff_mul_le hpos]
        omega
      rw [← hfits, ← hquotient]
      unfold gt div
      rw [if_neg hy]
      split
      · next hlt =>
          have hlarge : ¬ x.toNat ≤ (maxUint256 / y).toNat := Nat.not_le.mpr hlt
          rw [show y * 1 = y from BitVec.mul_one y]
          exact ⟨fun h => absurd h hy, fun h => absurd h hlarge⟩
      · next hle =>
          have hsmall : x.toNat ≤ (maxUint256 / y).toNat := Nat.not_lt.mp hle
          exact ⟨fun _ => hsmall, fun _ => BitVec.mul_zero⟩
  unfold isZero
  rw [← hproduct]
  by_cases hzero : y * gt x (div maxUint256 y) = 0
  · rw [if_pos hzero, show denominator * 1 = denominator from BitVec.mul_one denominator]
    by_cases hd : denominator = 0 <;> simp [hd, hzero]
  · rw [if_neg hzero, show denominator * 0 = 0 from BitVec.mul_zero]
    exact iff_of_false (by simp) fun h => hzero h.2

open Evm in
/-- **`mulDivUp` divides the exact product and rounds up.** -/
lemma mulDivUp_eq_ok {x y denominator z : Uint256} :
    mulDivUp x y denominator = .ok z ↔ denominator ≠ 0 ∧ x.toNat * y.toNat < 2 ^ 256 ∧
      z.toNat = (x.toNat * y.toNat) ⌈/⌉ denominator.toNat := by
  unfold mulDivUp
  by_cases hguard : isZero (denominator * isZero (y * gt x (div maxUint256 y))) = 0
  · rw [if_neg (not_not.mpr hguard)]
    obtain ⟨hd, hfits⟩ := mulDivUp_guard.mp hguard
    have hpos : 0 < denominator.toNat := by
      have hne : denominator.toNat ≠ 0 := fun h => hd (BitVec.eq_of_toNat_eq h)
      omega
    have hproduct : (x * y).toNat = x.toNat * y.toNat := by
      rw [BitVec.toNat_mul, Nat.mod_eq_of_lt hfits]
    have hround : (gt ((x * y) % denominator) 0).toNat =
        if x.toNat * y.toNat % denominator.toNat = 0 then 0 else 1 := by
      have hrest : ((x * y) % denominator).toNat = x.toNat * y.toNat % denominator.toNat := by
        rw [BitVec.toNat_umod, hproduct]
      unfold gt
      rw [← hrest]
      split
      · next hlt =>
          have hpos : 0 < ((x * y) % denominator).toNat := hlt
          rw [if_neg hpos.ne']
          rfl
      · next hle =>
          have hzero : ((x * y) % denominator).toNat = 0 := Nat.eq_zero_of_not_pos hle
          rw [if_pos hzero]
          rfl
    have hvalue : (gt (mod (x * y) denominator) 0 + div (x * y) denominator).toNat =
        (x.toNat * y.toNat) ⌈/⌉ denominator.toNat := by
      have hle : (x.toNat * y.toNat) ⌈/⌉ denominator.toNat ≤ x.toNat * y.toNat :=
        (ceilDiv_le_iff_le_mul hpos).mpr (Nat.le_mul_of_pos_left _ hpos)
      rw [Rounding.ceilDiv_eq_div_add hpos] at hle ⊢
      unfold mod div
      rw [if_neg hd, if_neg hd, BitVec.toNat_add, hround, BitVec.toNat_udiv, hproduct,
        Nat.add_comm, Nat.mod_eq_of_lt (hle.trans_lt hfits)]
    simp only [Except.ok.injEq, hd, hfits, ne_eq, not_false_eq_true, true_and, ← hvalue]
    rw [BitVec.toNat_inj, eq_comm]
  · rw [if_pos hguard]
    have hnot := mt mulDivUp_guard.mpr hguard
    simp only [reduceCtorEq, false_iff]
    exact fun h => hnot ⟨h.1, h.2.1⟩

/-! ## The oracle as the pricer sees it -/

variable {oracle oracle' : RWAOracleRateCheck} {blockTimestamp : Uint256} {sender : Address}
  {price : Int256}

lemma setPrice_spec (h : oracle.setPrice blockTimestamp sender price = .ok oracle') :
    oracle.access.hasRole .setterRole sender = true ∧ 0 < price.toInt ∧
      oracle' = { oracle with
        rwaPrice := price
        priceTimestamp := blockTimestamp
        log := oracle.log ++ [⟨oracle.rwaPrice, price, blockTimestamp⟩] } := by
  simp only [setPrice, bind_eq_ok, AccessControl.checkRole_eq_ok, revertIf_eq_ok, pure_eq_ok,
    exists_const] at h
  obtain ⟨hrole, hprice, elapsed, -, -, change, -, -, rfl⟩ := h
  exact ⟨hrole, not_le.mp hprice, rfl⟩

/-- The arithmetic of the oracle fails with a panic or without data. -/
lemma getPriceChangeBps_ne_custom {old new : Int256} {e : Error} :
    getPriceChangeBps old new ≠ .error (.custom e) := by
  intro h
  simp only [getPriceChangeBps, bind_eq_error] at h
  rcases h with hchange | ⟨change, -, hscale⟩
  · split at hchange <;> cases toInt256_eq_error hchange
  · unfold mulDivUp at hscale
    split at hscale <;> cases hscale

lemma setPrice_ne_latestPriceMismatch (oracle : RWAOracleRateCheck) (blockTimestamp : Uint256)
    (sender : Address) (price : Int256) :
    oracle.setPrice blockTimestamp sender price ≠ .error (.custom .latestPriceMismatch) := by
  simp only [setPrice, AccessControl.checkRole, checkedSub, ne_eq, bind_eq_error,
    revertIf_eq_error, Revert.custom.injEq, reduceCtorEq, and_false, pure_ne_error, or_false,
    false_or, exists_false, getPriceChangeBps_ne_custom, not_exists, not_and]
  intro _ _ _ _ helapsed
  split at helapsed <;> cases helapsed

instance : IRWAOracleSetter RWAOracleRateCheck Unit where
  getPriceData := getPriceData
  setPrice oracle _ := oracle.setPrice
  execAccess := execAccess
  getPriceData_of_setPrice h := by
    obtain ⟨-, -, rfl⟩ := setPrice_spec h
    rfl
  getPriceData_of_execAccess h := by
    simp only [execAccess, bind_eq_ok, pure_eq_ok] at h
    obtain ⟨access, -, rfl⟩ := h
    rfl
  setPrice_ne_latestPriceMismatch oracle _ := oracle.setPrice_ne_latestPriceMismatch

end RWAOracleRateCheck

end BrivoUsbs
