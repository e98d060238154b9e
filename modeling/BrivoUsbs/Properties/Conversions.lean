import BrivoUsbs.Framework.Rounding
import BrivoUsbs.Properties.Books
import Mathlib.Algebra.BigOperators.Ring.List
import Mathlib.Algebra.Order.BigOperators.Group.List

/-!
# The conversion formulas

What the hub computes of an amount is a chain of checked products and rounded-down quotients.  The
first section gives each formula as one quotient, with the exact condition for it not to revert;
a fee is taken off by rounding the rest up.

`roundTrip` bounds what converting there and back at one price loses, and `splitting_gains` what
can be gained by splitting an amount into pieces.
-/

namespace BrivoUsbs

namespace RWAHub

variable {hub hub' : RWAHub} {amount price out : Uint256}

/-! ## The formulas as quotients -/

lemma getMintAmountForPrice_eq_ok_iff :
    hub.getMintAmountForPrice amount price = .ok out ↔
      amount.toNat * hub.decimalsMultiplier.toNat * 10 ^ 18 < 2 ^ 256 ∧ price ≠ 0 ∧
        out.toNat = amount.toNat * hub.decimalsMultiplier.toNat * 10 ^ 18 / price.toNat := by
  simp only [getMintAmountForPrice, scaleUp, bind_eq_ok, checkedMul_eq_ok, checkedDiv_eq_ok,
    toNat_oneE18]
  constructor
  · rintro ⟨scaled, hscaled, amountE36, hamountE36, hprice, hout⟩
    rw [hscaled] at hamountE36
    exact ⟨hamountE36 ▸ amountE36.isLt, hprice, by rw [hout, hamountE36]⟩
  · rintro ⟨hfits, hprice, hout⟩
    have hscaledFits : amount.toNat * hub.decimalsMultiplier.toNat < 2 ^ 256 :=
      (Nat.le_mul_of_pos_right _ (by norm_num)).trans_lt hfits
    obtain ⟨scaled, hscaled⟩ := exists_toNat_eq hscaledFits
    obtain ⟨amountE36, hamountE36⟩ := exists_toNat_eq hfits
    exact ⟨scaled, hscaled, amountE36, by rw [hamountE36, hscaled], hprice,
      by rw [hout, hamountE36]⟩

lemma getRedemptionAmountForRwa_eq_ok_iff :
    hub.getRedemptionAmountForRwa amount price = .ok out ↔
      amount.toNat * price.toNat < 2 ^ 256 ∧ hub.decimalsMultiplier ≠ 0 ∧
        out.toNat =
          amount.toNat * price.toNat / (hub.decimalsMultiplier.toNat * 10 ^ 18) := by
  simp only [getRedemptionAmountForRwa, scaleDown, bind_eq_ok, checkedMul_eq_ok,
    checkedDiv_eq_ok, toNat_oneE18]
  rw [Nat.mul_comm hub.decimalsMultiplier.toNat, ← Nat.div_div_eq_div_mul]
  constructor
  · rintro ⟨amountE36, hamountE36, scaled, ⟨-, hscaled⟩, hmultiplier, hout⟩
    exact ⟨hamountE36 ▸ amountE36.isLt, hmultiplier, by rw [hout, hscaled, hamountE36]⟩
  · rintro ⟨hfits, hmultiplier, hout⟩
    obtain ⟨amountE36, hamountE36⟩ := exists_toNat_eq hfits
    obtain ⟨scaled, hscaled⟩ := exists_toNat_eq ((Nat.div_le_self _ (10 ^ 18)).trans_lt hfits)
    exact ⟨amountE36, hamountE36, scaled, ⟨by decide, by rw [hscaled, hamountE36]⟩,
      hmultiplier, by rw [hout, hscaled]⟩

/-- The part of an amount the fee is, in either direction. -/
lemma fees_eq_ok_iff {rate fee : Uint256} :
    (checkedMul amount rate >>= (checkedDiv · bpsDenominator) : Tx Error Uint256) = .ok fee ↔
      amount.toNat * rate.toNat < 2 ^ 256 ∧ fee.toNat = amount.toNat * rate.toNat / 10000 := by
  simp only [bind_eq_ok, checkedMul_eq_ok, checkedDiv_eq_ok, toNat_bpsDenominator]
  constructor
  · rintro ⟨product, hproduct, -, hfee⟩
    exact ⟨hproduct ▸ product.isLt, by rw [hfee, hproduct]⟩
  · rintro ⟨hfits, hfee⟩
    obtain ⟨product, hproduct⟩ := exists_toNat_eq hfits
    exact ⟨product, hproduct, by decide, by rw [hfee, hproduct]⟩

/-- Taking a fee off rounds the rest up. -/
lemma afterFees_eq_ok_iff {rate : Uint256} (hrate : rate.toNat ≤ 10000) :
    (∃ fee, (checkedMul amount rate >>= (checkedDiv · bpsDenominator) : Tx Error Uint256) =
        .ok fee ∧ out.toNat + fee.toNat = amount.toNat) ↔
      amount.toNat * rate.toNat < 2 ^ 256 ∧
        out.toNat = (amount.toNat * (10000 - rate.toNat)) ⌈/⌉ 10000 := by
  rw [← Rounding.sub_div_eq_ceilDiv (by norm_num) hrate]
  have hle : amount.toNat * rate.toNat / 10000 ≤ amount.toNat :=
    Nat.div_le_of_le_mul (by rw [Nat.mul_comm 10000]; exact Nat.mul_le_mul_left _ hrate)
  constructor
  · rintro ⟨fee, hfee, hout⟩
    obtain ⟨hfits, hvalue⟩ := fees_eq_ok_iff.mp hfee
    exact ⟨hfits, by omega⟩
  · rintro ⟨hfits, hout⟩
    obtain ⟨fee, hfee⟩ := exists_toNat_eq ((Nat.div_le_self _ 10000).trans_lt hfits)
    exact ⟨fee, fees_eq_ok_iff.mpr ⟨hfits, hfee⟩, by omega⟩

/-! ## There and back -/

/-- **There and back at one price.**  What a deposit mints redeems for the deposit, but for what
the price hides of the multiplier, and conversely; neither direction overflows where the first
conversion does not. -/
theorem roundTrip (hub : RWAHub) (deposit rwaAmount price : Uint256)
    (hmultiplier : hub.decimalsMultiplier ≠ 0) (hprice : price ≠ 0) :
    (deposit.toNat * hub.decimalsMultiplier.toNat * 10 ^ 18 < 2 ^ 256 →
      ∃ back, (hub.getMintAmountForPrice deposit price >>=
          (hub.getRedemptionAmountForRwa · price)) = .ok back ∧ back.toNat ≤ deposit.toNat ∧
        deposit.toNat - back.toNat ≤
          (price.toNat - 1) ⌈/⌉ (10 ^ 18 * hub.decimalsMultiplier.toNat)) ∧
    (rwaAmount.toNat * price.toNat < 2 ^ 256 →
      ∃ back, (hub.getRedemptionAmountForRwa rwaAmount price >>=
          (hub.getMintAmountForPrice · price)) = .ok back ∧ back.toNat ≤ rwaAmount.toNat ∧
        rwaAmount.toNat - back.toNat ≤
          (10 ^ 18 * hub.decimalsMultiplier.toNat - 1) ⌈/⌉ price.toNat) := by
  have hm : 0 < hub.decimalsMultiplier.toNat * 10 ^ 18 :=
    Nat.mul_pos (toNat_pos hmultiplier) (by norm_num)
  have hp : 0 < price.toNat := toNat_pos hprice
  simp only [bind_eq_ok, getMintAmountForPrice_eq_ok_iff, getRedemptionAmountForRwa_eq_ok_iff,
    Nat.mul_assoc, Nat.mul_comm (10 ^ 18) hub.decimalsMultiplier.toNat]
  constructor
  · intro hfits
    obtain ⟨minted, hminted⟩ := exists_toNat_eq ((Nat.div_le_self _ price.toNat).trans_lt hfits)
    have hminted' : minted.toNat * price.toNat < 2 ^ 256 := by
      rw [hminted]
      exact (Nat.div_mul_le_self _ _).trans_lt hfits
    obtain ⟨back, hback⟩ := exists_toNat_eq
      ((Nat.div_le_self _ (hub.decimalsMultiplier.toNat * 10 ^ 18)).trans_lt hminted')
    refine ⟨back, ⟨minted, ⟨hfits, hprice, hminted⟩, hminted', hmultiplier, hback⟩, ?_, ?_⟩
    · rw [hback, hminted]
      exact Rounding.roundTrip_le
    · rw [hback, hminted, Nat.sub_le_iff_le_add, Nat.add_comm]
      exact Rounding.le_roundTrip_add hm hp
  · intro hfits
    obtain ⟨due, hdue⟩ := exists_toNat_eq
      ((Nat.div_le_self _ (hub.decimalsMultiplier.toNat * 10 ^ 18)).trans_lt hfits)
    have hdue' : due.toNat * (hub.decimalsMultiplier.toNat * 10 ^ 18) < 2 ^ 256 := by
      rw [hdue]
      exact (Nat.div_mul_le_self _ _).trans_lt hfits
    obtain ⟨back, hback⟩ := exists_toNat_eq ((Nat.div_le_self _ price.toNat).trans_lt hdue')
    refine ⟨back, ⟨due, ⟨hfits, hmultiplier, hdue⟩, hdue', hprice, hback⟩, ?_, ?_⟩
    · rw [hback, hdue]
      exact Rounding.roundTrip_le
    · rw [hback, hdue, Nat.sub_le_iff_le_add, Nat.add_comm]
      exact Rounding.le_roundTrip_add hp hm

/-- A round trip in each direction at the price 1.05, which divides neither scale. -/
theorem roundTrip_sample :
    (∃ back, (Sample.manager.hub.getMintAmountForPrice 999999 1050000000000000000 >>=
        (Sample.manager.hub.getRedemptionAmountForRwa · 1050000000000000000)) = .ok back ∧
      back.toNat ≤ 999999 ∧ 999999 - back.toNat ≤ 1) ∧
    (∃ back, (Sample.manager.hub.getRedemptionAmountForRwa 1234567890123456789
          1050000000000000000 >>=
        (Sample.manager.hub.getMintAmountForPrice · 1050000000000000000)) = .ok back ∧
      back.toNat ≤ 1234567890123456789 ∧ 1234567890123456789 - back.toNat ≤ 952380952381) := by
  obtain ⟨hdeposit, hrwa⟩ := roundTrip Sample.manager.hub 999999 1234567890123456789
    1050000000000000000 (by decide) (by decide)
  exact ⟨hdeposit (by decide +kernel), hrwa (by decide +kernel)⟩

/-! ## Splitting -/

/-- What `requestSubscription` records of a deposit. -/
def depositAmountAfterFee (hub : RWAHub) (amount : Uint256) : Tx Error Uint256 := do
  let feesInCollateral ← hub.getMintFees amount
  checkedSub amount feesInCollateral

/-- What `claimRedemption` pays out for an amount of RWA. -/
def collateralDuePostFees (hub : RWAHub) (rwaTokenAmountBurned price : Uint256) :
    Tx Error Uint256 := do
  let collateralDue ← hub.getRedemptionAmountForRwa rwaTokenAmountBurned price
  let fee ← hub.getRedemptionFees collateralDue
  checkedSub collateralDue fee

section

variable {κ : Type} [IERC20 κ] {token token' : κ} {pricers : Address → Option Pricer}
  {self sender : Address} {check : Address → Tx Error Unit}

lemma requestSubscription_records
    (h : hub.requestSubscription token self sender check amount = .ok (hub', token')) :
    ∃ recorded, hub.depositAmountAfterFee amount = .ok recorded ∧
      hub'.depositIdToDepositor hub.subscriptionRequestCounter = ⟨sender, recorded, 0⟩ := by
  simp only [requestSubscription, bind_eq_ok, revertIf_eq_ok, pure_eq_ok, Prod.mk.injEq,
    exists_const] at h
  obtain ⟨-, _, -, -, fee, hfee, recorded, hrecorded, next, -, _, -, _, -, rfl, -⟩ := h
  refine ⟨recorded, ?_, Function.update_self _ _ _⟩
  simp only [depositAmountAfterFee, bind_eq_ok]
  exact ⟨fee, hfee, hrecorded⟩

lemma claimRedemptionEntry_pays {batch batch' : RedemptionBatch κ} {id : Bytes32}
    (h : claimRedemptionEntry pricers self check batch id = .ok batch') :
    ∃ price net, batch.hub.prices pricers (batch.hub.redemptionIdToRedeemer id).priceId =
        .ok price ∧
      batch.hub.collateralDuePostFees (batch.hub.redemptionIdToRedeemer id).amountRwaTokenBurned
        price = .ok net ∧
      safeTransferFrom batch.token self batch.hub.params.assetSender
        (batch.hub.redemptionIdToRedeemer id).user net = .ok batch'.token := by
  simp only [claimRedemptionEntry, bind_eq_ok, revertIf_eq_ok, pure_eq_ok, exists_const] at h
  obtain ⟨_, -, -, price, hprice, due, hdue, fee, hfee, net, hnet, fees, -, moved, hmoved,
    rfl⟩ := h
  refine ⟨price, net, hprice, ?_, hmoved⟩
  simp only [collateralDuePostFees, bind_eq_ok]
  exact ⟨due, hdue, fee, hfee, hnet⟩

end

lemma depositAmountAfterFee_eq_ok_iff (hfee : hub.params.mintFee.toNat ≤ 10000) :
    hub.depositAmountAfterFee amount = .ok out ↔
      amount.toNat * hub.params.mintFee.toNat < 2 ^ 256 ∧
        out.toNat = (amount.toNat * (10000 - hub.params.mintFee.toNat)) ⌈/⌉ 10000 := by
  rw [← afterFees_eq_ok_iff hfee, depositAmountAfterFee, bind_eq_ok]
  simp only [checkedSub_eq_ok]
  rfl

lemma collateralDuePostFees_eq_ok_iff (hfee : hub.params.redemptionFee.toNat ≤ 10000) :
    hub.collateralDuePostFees amount price = .ok out ↔
      amount.toNat * price.toNat < 2 ^ 256 ∧ hub.decimalsMultiplier ≠ 0 ∧
        out.toNat = (amount.toNat * price.toNat / (hub.decimalsMultiplier.toNat * 10 ^ 18) *
          (10000 - hub.params.redemptionFee.toNat)) ⌈/⌉ 10000 := by
  have hsplit : hub.collateralDuePostFees amount price = .ok out ↔
      ∃ due, hub.getRedemptionAmountForRwa amount price = .ok due ∧
        due.toNat * hub.params.redemptionFee.toNat < 2 ^ 256 ∧
        out.toNat = (due.toNat * (10000 - hub.params.redemptionFee.toNat)) ⌈/⌉ 10000 := by
    simp only [← afterFees_eq_ok_iff hfee, collateralDuePostFees, bind_eq_ok, checkedSub_eq_ok,
      getRedemptionFees]
  simp only [hsplit, getRedemptionAmountForRwa_eq_ok_iff]
  constructor
  · rintro ⟨due, ⟨hfits, hmultiplier, hdue⟩, -, hout⟩
    exact ⟨hfits, hmultiplier, hdue ▸ hout⟩
  · rintro ⟨hfits, hmultiplier, hout⟩
    obtain ⟨due, hdue⟩ := exists_toNat_eq
      ((Nat.div_le_self _ (hub.decimalsMultiplier.toNat * 10 ^ 18)).trans_lt hfits)
    have hscale : 10000 ≤ hub.decimalsMultiplier.toNat * 10 ^ 18 := by
      have := toNat_pos hmultiplier
      omega
    have hfeeFits : due.toNat * hub.params.redemptionFee.toNat < 2 ^ 256 := by
      calc
        due.toNat * hub.params.redemptionFee.toNat
            ≤ due.toNat * (hub.decimalsMultiplier.toNat * 10 ^ 18) :=
              Nat.mul_le_mul_left _ (hfee.trans hscale)
        _ ≤ amount.toNat * price.toNat := by
              rw [hdue]
              exact Nat.div_mul_le_self _ _
        _ < 2 ^ 256 := hfits
    exact ⟨due, ⟨hfits, hmultiplier, hdue⟩, hfeeFits, hdue ▸ hout⟩

/-- The exact sum of a list of amounts. -/
def sumOf (amounts : List Uint256) : ℕ := (amounts.map BitVec.toNat).sum

section

variable {pieces : List Uint256} {whole : Uint256}

lemma toNat_le_of_sumOf {piece : Uint256} (hwhole : whole.toNat = sumOf pieces)
    (hpiece : piece ∈ pieces) : piece.toNat ≤ whole.toNat := by
  rw [hwhole]
  exact List.le_sum_of_mem (List.mem_map_of_mem hpiece)

/-- **Minting in pieces** gains nothing. -/
lemma split_mint (hwhole : whole.toNat = sumOf pieces) {minted : Uint256}
    (h : hub.getMintAmountForPrice whole price = .ok minted) :
    ∃ outs, pieces.mapM (hub.getMintAmountForPrice · price) = .ok outs ∧
      sumOf outs ≤ minted.toNat := by
  obtain ⟨hfits, hprice, hminted⟩ := getMintAmountForPrice_eq_ok_iff.mp h
  have heach : ∀ piece ∈ pieces, ∃ out, hub.getMintAmountForPrice piece price = .ok out ∧
      out.toNat =
        piece.toNat * hub.decimalsMultiplier.toNat * 10 ^ 18 / price.toNat := by
    intro piece hpiece
    have hle : piece.toNat * hub.decimalsMultiplier.toNat * 10 ^ 18 ≤
        whole.toNat * hub.decimalsMultiplier.toNat * 10 ^ 18 :=
      Nat.mul_le_mul_right _ (Nat.mul_le_mul_right _ (toNat_le_of_sumOf hwhole hpiece))
    obtain ⟨out, hout⟩ := exists_toNat_eq
      (((Nat.div_le_self _ price.toNat).trans hle).trans_lt hfits)
    exact ⟨out, getMintAmountForPrice_eq_ok_iff.mpr ⟨hle.trans_lt hfits, hprice, hout⟩, hout⟩
  obtain ⟨outs, houts, hvalues⟩ := exists_mapM_ok heach
  have hpieces := Rounding.sum_div_le (d := price.toNat) (l := pieces.map fun piece =>
    piece.toNat * hub.decimalsMultiplier.toNat * 10 ^ 18)
  rw [List.map_map, List.sum_map_mul_right, List.sum_map_mul_right] at hpieces
  refine ⟨outs, houts, ?_⟩
  rw [sumOf, hvalues, hminted, hwhole]
  exact hpieces

/-- Pieces that are rounded up one by one gain at most a unit each but the first. -/
lemma split_rounded_up {f : Uint256 → Tx Error Uint256} (dividend : ℕ → ℕ) (hne : pieces ≠ [])
    (hwhole : whole.toNat = sumOf pieces) (hwholeOut : out.toNat = dividend whole.toNat ⌈/⌉ 10000)
    (hmono : ∀ x y, x ≤ y → dividend x ≤ dividend y)
    (hsum : (pieces.map (dividend ·.toNat)).sum ≤ dividend whole.toNat)
    (hf : ∀ piece ∈ pieces, ∀ part : Uint256, part.toNat = dividend piece.toNat ⌈/⌉ 10000 →
      f piece = .ok part) :
    ∃ outs, pieces.mapM f = .ok outs ∧ sumOf outs ≤ out.toNat + (pieces.length - 1) := by
  have heach : ∀ piece ∈ pieces, ∃ part, f piece = .ok part ∧
      part.toNat = dividend piece.toNat ⌈/⌉ 10000 := by
    intro piece hpiece
    have hround : dividend piece.toNat ⌈/⌉ 10000 ≤ out.toNat := by
      rw [hwholeOut]
      exact Rounding.ceilDiv_le_ceilDiv (by norm_num)
        (hmono _ _ (toNat_le_of_sumOf hwhole hpiece))
    obtain ⟨part, hpart⟩ := exists_toNat_eq (hround.trans_lt out.isLt)
    exact ⟨part, hf piece hpiece part hpart, hpart⟩
  obtain ⟨outs, houts, hvalues⟩ := exists_mapM_ok heach
  have hlist : pieces.map (dividend ·.toNat) ≠ [] :=
    fun hempty => hne (List.map_eq_nil_iff.mp hempty)
  have hpieces := Rounding.sum_ceilDiv_le (d := 10000) (by norm_num) hlist
  rw [List.map_map, List.length_map] at hpieces
  have hround := Rounding.ceilDiv_le_ceilDiv (d := 10000) (by norm_num) hsum
  have hlength : 0 < pieces.length := List.length_pos_iff.mpr hne
  refine ⟨outs, houts, ?_⟩
  rw [sumOf, hvalues, hwholeOut]
  have htotal : (pieces.map fun piece => dividend piece.toNat ⌈/⌉ 10000).sum + 1 ≤
      (pieces.map (dividend ·.toNat)).sum ⌈/⌉ 10000 + pieces.length := hpieces
  omega

/-- **Depositing in pieces** gains at most a unit for each piece but the first. -/
lemma split_deposit (hne : pieces ≠ []) (hwhole : whole.toNat = sumOf pieces)
    (hfee : hub.params.mintFee.toNat ≤ 10000) {recorded : Uint256}
    (h : hub.depositAmountAfterFee whole = .ok recorded) :
    ∃ outs, pieces.mapM hub.depositAmountAfterFee = .ok outs ∧
      sumOf outs ≤ recorded.toNat + (pieces.length - 1) := by
  obtain ⟨hfits, hrecorded⟩ := (depositAmountAfterFee_eq_ok_iff hfee).mp h
  refine split_rounded_up (fun x => x * (10000 - hub.params.mintFee.toNat)) hne hwhole
    hrecorded (fun _ _ hle => Nat.mul_le_mul_right _ hle) ?_ fun piece hpiece part hpart => ?_
  · rw [List.sum_map_mul_right, hwhole]
    exact le_rfl
  · refine (depositAmountAfterFee_eq_ok_iff hfee).mpr ⟨?_, hpart⟩
    exact (Nat.mul_le_mul_right _ (toNat_le_of_sumOf hwhole hpiece)).trans_lt hfits

/-- **Redeeming in pieces** gains at most a unit for each piece but the first: the amounts due
gain nothing, and the rest after fees is rounded up once for each. -/
lemma split_redemption (hne : pieces ≠ []) (hwhole : whole.toNat = sumOf pieces)
    (hfee : hub.params.redemptionFee.toNat ≤ 10000) {net : Uint256}
    (h : hub.collateralDuePostFees whole price = .ok net) :
    ∃ outs, pieces.mapM (hub.collateralDuePostFees · price) = .ok outs ∧
      sumOf outs ≤ net.toNat + (pieces.length - 1) := by
  obtain ⟨hfits, hmultiplier, hnet⟩ := (collateralDuePostFees_eq_ok_iff hfee).mp h
  refine split_rounded_up (fun x =>
    x * price.toNat / (hub.decimalsMultiplier.toNat * 10 ^ 18) *
      (10000 - hub.params.redemptionFee.toNat)) hne hwhole hnet (fun _ _ hle => ?_) ?_
    fun piece hpiece part hpart => ?_
  · exact Nat.mul_le_mul_right _ (Nat.div_le_div_right (Nat.mul_le_mul_right _ hle))
  · have hdue := Rounding.sum_div_le (d := hub.decimalsMultiplier.toNat * 10 ^ 18)
      (l := pieces.map fun piece => piece.toNat * price.toNat)
    rw [List.map_map, List.sum_map_mul_right] at hdue
    rw [List.sum_map_mul_right, hwhole]
    exact Nat.mul_le_mul_right _ hdue
  · refine (collateralDuePostFees_eq_ok_iff hfee).mpr ⟨?_, hmultiplier, hpart⟩
    exact (Nat.mul_le_mul_right _ (toNat_le_of_sumOf hwhole hpiece)).trans_lt hfits

/-- **What splitting gains.**  If the computation for the whole does not overflow, it does not for
the pieces either; they are paid and recorded at most one unit of collateral more for each piece
but the first, and mint no more RWA. -/
theorem splitting_gains (hne : pieces ≠ []) (hwhole : whole.toNat = sumOf pieces)
    (hmintFee : hub.params.mintFee.toNat ≤ 10000)
    (hredemptionFee : hub.params.redemptionFee.toNat ≤ 10000) :
    (∀ net, hub.collateralDuePostFees whole price = .ok net →
      ∃ nets, pieces.mapM (hub.collateralDuePostFees · price) = .ok nets ∧
        sumOf nets ≤ net.toNat + (pieces.length - 1)) ∧
    (∀ recorded, hub.depositAmountAfterFee whole = .ok recorded →
      ∃ amounts, pieces.mapM hub.depositAmountAfterFee = .ok amounts ∧
        sumOf amounts ≤ recorded.toNat + (pieces.length - 1)) ∧
    (∀ minted, hub.getMintAmountForPrice whole price = .ok minted →
      ∃ outs, pieces.mapM (hub.getMintAmountForPrice · price) = .ok outs ∧
        sumOf outs ≤ minted.toNat) :=
  ⟨fun _ hnet => split_redemption hne hwhole hredemptionFee hnet,
    fun _ hrecorded => split_deposit hne hwhole hmintFee hrecorded,
    fun _ hminted => split_mint hwhole hminted⟩

end

end RWAHub

namespace Sample

/-- The sample hub with a fee of one basis point on deposits and of ten on redemptions. -/
def hubWithFees : RWAHub := { manager.hub with
  params := { manager.hub.params with mintFee := 1, redemptionFee := 10 } }

end Sample

namespace RWAHub

/-- Two deposits just small enough to be free of the fee gain the one unit. -/
theorem splitting_gains_sample :
    ∃ amounts, [9999, 9999].mapM Sample.hubWithFees.depositAmountAfterFee = .ok amounts ∧
      sumOf amounts ≤ 19997 + 1 := by
  obtain ⟨-, hdeposits, -⟩ := @splitting_gains Sample.hubWithFees 1050000000000000000
    [9999, 9999] 19998 (by simp) (by decide +kernel) (by decide +kernel) (by decide +kernel)
  exact hdeposits 19997 (by decide +kernel)

end RWAHub

end BrivoUsbs
