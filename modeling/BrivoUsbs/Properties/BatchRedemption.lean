import BrivoUsbs.Framework.Batch
import BrivoUsbs.Properties.Books
import BrivoUsbs.Properties.Payments

/-!
# Batches of redemptions

A call of `claimRedemption` settles its redemptions one by one and pays the fees for all of them at
the end.  What it works out for a redemption depends on that entry alone (`settlement`), so the
loop comes down to the settlements of its distinct ids in the state before the call, and a list of
payments (`claimRedemption_eq_ok`).  Against a standard token that leaves only the sums of these
payments, and `claimRedemption_batch` concludes that a batch may be split and permuted.
-/

namespace BrivoUsbs

namespace RWAHub

/-- What `claimRedemption` works out for a redemption before it pays. -/
structure Settlement where
  user : Address
  amountRwaTokenBurned : Uint256
  price : Uint256
  collateralDue : Uint256
  fee : Uint256
  collateralDuePostFees : Uint256
  deriving Inhabited

def settlement (hub : RWAHub) (pricers : Address → Option Pricer)
    (checkRestrictions : Address → Tx Error Unit) (redemptionId : Bytes32) :
    Tx Error Settlement := do
  let member := hub.redemptionIdToRedeemer redemptionId
  checkRestrictions member.user
  revertIf (member.priceId = 0) .priceIdNotSet
  let price ← askPrice pricers hub.params.pricer member.priceId
  let collateralDue ← hub.getRedemptionAmountForRwa member.amountRwaTokenBurned price
  let fee ← hub.getRedemptionFees collateralDue
  let collateralDuePostFees ← checkedSub collateralDue fee
  return ⟨member.user, member.amountRwaTokenBurned, price, collateralDue, fee,
    collateralDuePostFees⟩

/-- The settlement of a redemption that can be settled. -/
def settled (hub : RWAHub) (pricers : Address → Option Pricer)
    (checkRestrictions : Address → Tx Error Unit) (redemptionId : Bytes32) : Settlement :=
  (hub.settlement pricers checkRestrictions redemptionId).toOption.getD default

/-- The payment to the user. -/
def Settlement.payment (s : Settlement) : Address × Uint256 := (s.user, s.collateralDuePostFees)

/-- The event of a settlement. -/
def Settlement.event (s : Settlement) (redemptionId : Bytes32) : HubEvent :=
  .redemptionCompleted s.user redemptionId s.amountRwaTokenBurned s.collateralDuePostFees s.price

variable {hub hub' : RWAHub} {pricers : Address → Option Pricer} {self : Address}
  {check : Address → Tx Error Unit} {id : Bytes32} {ids : List Bytes32} {s : Settlement}

/-! ## Settlements -/

/-- The hub after a settlement. -/
def settle (hub : RWAHub) (redemptionId : Bytes32) (s : Settlement) : RWAHub := { hub with
  redemptionIdToRedeemer := Function.update hub.redemptionIdToRedeemer redemptionId .null
  log := hub.log ++ [s.event redemptionId] }

/-- The body of the loop: the settlement, and its payment. -/
lemma claimRedemptionEntry_eq {κ : Type} [IERC20 κ] (batch : RedemptionBatch κ) :
    claimRedemptionEntry pricers self check batch id = (do
      let s ← batch.hub.settlement pricers check id
      let fees ← checkedAdd batch.fees s.fee
      let token ← safeTransferFrom batch.token self batch.hub.params.assetSender s.user
        s.collateralDuePostFees
      return ⟨batch.hub.settle id s, token, fees⟩) := by
  simp only [claimRedemptionEntry, settlement, bind_assoc, pure_bind]
  rfl

lemma settled_eq (h : hub.settlement pricers check id = .ok s) :
    hub.settled pricers check id = s := by
  rw [settled, h]
  rfl

/-- A settlement is for the user of its entry, and what is due is paid or kept as a fee. -/
lemma settlement_spec (h : hub.settlement pricers check id = .ok s) :
    (hub.redemptionIdToRedeemer id).priceId ≠ 0 ∧
      s.user = (hub.redemptionIdToRedeemer id).user ∧
      s.collateralDuePostFees.toNat + s.fee.toNat = s.collateralDue.toNat := by
  simp only [settlement, bind_eq_ok, revertIf_eq_ok, pure_eq_ok, checkedSub_eq_ok,
    exists_const] at h
  obtain ⟨_, -, hset, price, -, due, -, fee, -, net, hnet, rfl⟩ := h
  exact ⟨hset, rfl, hnet⟩

/-- A settlement depends on its own entry alone. -/
lemma settlement_congr (hentry : hub'.redemptionIdToRedeemer id = hub.redemptionIdToRedeemer id)
    (hparams : hub'.params = hub.params)
    (hmultiplier : hub'.decimalsMultiplier = hub.decimalsMultiplier) :
    hub'.settlement pricers check id = hub.settlement pricers check id := by
  simp only [settlement, getRedemptionAmountForRwa, getRedemptionFees, scaleDown, hentry, hparams,
    hmultiplier]

/-- A redemption that has been settled cannot be settled again. -/
lemma not_settlement_null (hnull : hub.redemptionIdToRedeemer id = .null) :
    ¬ ∃ s, hub.settlement pricers check id = .ok s := by
  rintro ⟨s, h⟩
  exact (settlement_spec h).1 (by rw [hnull]; rfl)

/-- The hub after a batch of settlements. -/
def settleAll (hub : RWAHub) (pricers : Address → Option Pricer)
    (checkRestrictions : Address → Tx Error Unit) (redemptionIds : List Bytes32) : RWAHub :=
  { hub with
    redemptionIdToRedeemer := Batch.cleared .null hub.redemptionIdToRedeemer redemptionIds
    log := hub.log ++ redemptionIds.map fun id =>
      (hub.settled pricers checkRestrictions id).event id }

lemma settleAll_entry (id : Bytes32) :
    (hub.settleAll pricers check ids).redemptionIdToRedeemer id =
      if id ∈ ids then .null else hub.redemptionIdToRedeemer id :=
  Batch.cleared_apply id

/-- After a batch, its redemptions cannot be settled, and the others can as before. -/
lemma settlement_settleAll :
    (∃ s, (hub.settleAll pricers check ids).settlement pricers check id = .ok s) ↔
      id ∉ ids ∧ ∃ s, hub.settlement pricers check id = .ok s := by
  by_cases hmem : id ∈ ids
  · refine iff_of_false (not_settlement_null ?_) fun h => h.1 hmem
    rw [settleAll_entry, if_pos hmem]
  · have hsame : (hub.settleAll pricers check ids).settlement pricers check id =
        hub.settlement pricers check id := by
      refine settlement_congr ?_ rfl rfl
      rw [settleAll_entry, if_neg hmem]
    rw [hsame]
    exact (and_iff_right hmem).symm

lemma settled_settleAll (hmem : id ∉ ids) :
    (hub.settleAll pricers check ids).settled pricers check id =
      hub.settled pricers check id := by
  have hentry : (hub.settleAll pricers check ids).redemptionIdToRedeemer id =
      hub.redemptionIdToRedeemer id := by rw [settleAll_entry, if_neg hmem]
  rw [settled, settled, settlement_congr hentry rfl rfl]

lemma settle_eq_settleAll (h : hub.settlement pricers check id = .ok s) :
    hub.settle id s = hub.settleAll pricers check [id] := by
  rw [settleAll, List.map_singleton, settled_eq h]
  rfl

/-- Batches of settlements compose. -/
lemma settleAll_settleAll {ids' : List Bytes32} (h : ∀ id ∈ ids', id ∉ ids) :
    (hub.settleAll pricers check ids).settleAll pricers check ids' =
      hub.settleAll pricers check (ids ++ ids') := by
  have hevents : (ids'.map fun id =>
      ((hub.settleAll pricers check ids).settled pricers check id).event id) =
        ids'.map fun id => (hub.settled pricers check id).event id :=
    List.map_congr_left fun id hid => by rw [settled_settleAll (h id hid)]
  rw [settleAll, hevents, settleAll, settleAll, List.map_append, ← List.append_assoc]
  simp only [Batch.cleared, List.foldl_append]

/-! ## The loop -/

/-- The fees of a batch. -/
def feesOf (hub : RWAHub) (pricers : Address → Option Pricer)
    (checkRestrictions : Address → Tx Error Unit) (redemptionIds : List Bytes32) : ℕ :=
  (redemptionIds.map fun id => (hub.settled pricers checkRestrictions id).fee.toNat).sum

/-- The payments to the users of a batch. -/
def payouts (hub : RWAHub) (pricers : Address → Option Pricer)
    (checkRestrictions : Address → Tx Error Unit) (redemptionIds : List Bytes32) :
    List (Address × Uint256) :=
  redemptionIds.map fun id => (hub.settled pricers checkRestrictions id).payment

lemma feesOf_append {ids' : List Bytes32} :
    hub.feesOf pricers check (ids ++ ids') =
      hub.feesOf pricers check ids + hub.feesOf pricers check ids' := by
  simp [feesOf]

lemma payouts_append {ids' : List Bytes32} :
    hub.payouts pricers check (ids ++ ids') =
      hub.payouts pricers check ids ++ hub.payouts pricers check ids' := List.map_append

lemma feesOf_singleton (h : hub.settlement pricers check id = .ok s) :
    hub.feesOf pricers check [id] = s.fee.toNat := by
  simp [feesOf, settled_eq h]

lemma payouts_singleton (h : hub.settlement pricers check id = .ok s) :
    hub.payouts pricers check [id] = [s.payment] := by
  simp [payouts, settled_eq h]

/-- Settlements leave what is worked out for other redemptions. -/
lemma payouts_settleAll {ids' : List Bytes32} (h : ∀ id ∈ ids', id ∉ ids) :
    (hub.settleAll pricers check ids).payouts pricers check ids' =
      hub.payouts pricers check ids' :=
  List.map_congr_left fun id hid => by rw [settled_settleAll (h id hid)]

lemma feesOf_settleAll {ids' : List Bytes32} (h : ∀ id ∈ ids', id ∉ ids) :
    (hub.settleAll pricers check ids).feesOf pricers check ids' =
      hub.feesOf pricers check ids' := by
  have hfees : (ids'.map fun id =>
      ((hub.settleAll pricers check ids).settled pricers check id).fee.toNat) =
        ids'.map fun id => (hub.settled pricers check id).fee.toNat :=
    List.map_congr_left fun id hid => by rw [settled_settleAll (h id hid)]
  rw [feesOf, hfees]
  rfl

/-- What a batch asks of the redemptions it lists. -/
structure Settles (hub : RWAHub) (pricers : Address → Option Pricer)
    (checkRestrictions : Address → Tx Error Unit) (redemptionIds : List Bytes32) : Prop where
  nodup : redemptionIds.Nodup
  each : ∀ id ∈ redemptionIds, ∃ s, hub.settlement pricers checkRestrictions id = .ok s

/-- A batch can be settled if its first part can, and the rest in the state after that. -/
lemma settles_append_iff {ids' : List Bytes32} :
    hub.Settles pricers check (ids ++ ids') ↔
      hub.Settles pricers check ids ∧
        (hub.settleAll pricers check ids).Settles pricers check ids' := by
  constructor
  · rintro ⟨hnodup, heach⟩
    obtain ⟨hnodup₁, hnodup₂, hdisjoint⟩ := List.nodup_append.mp hnodup
    refine ⟨⟨hnodup₁, fun id hid => heach id (List.mem_append_left _ hid)⟩, hnodup₂,
      fun id hid => settlement_settleAll.mpr ⟨fun hmem => hdisjoint id hmem id hid rfl,
        heach id (List.mem_append_right _ hid)⟩⟩
  · rintro ⟨hfirst, hrest⟩
    refine ⟨List.nodup_append.mpr ⟨hfirst.nodup, hrest.nodup, ?_⟩, ?_⟩
    · rintro id hid id' hid' rfl
      exact (settlement_settleAll.mp (hrest.each id hid')).1 hid
    · intro id hid
      rcases List.mem_append.mp hid with hmem | hmem
      · exact hfirst.each id hmem
      · exact (settlement_settleAll.mp (hrest.each id hmem)).2

lemma Settles.perm {ids' : List Bytes32} (hperm : ids.Perm ids')
    (h : hub.Settles pricers check ids) : hub.Settles pricers check ids' :=
  ⟨hperm.nodup_iff.mp h.nodup, fun id hid => h.each id (hperm.mem_iff.mpr hid)⟩

lemma settles_singleton : hub.Settles pricers check [id] ↔
    ∃ s, hub.settlement pricers check id = .ok s := by
  refine ⟨fun h => h.each id (by simp), fun h => ⟨List.nodup_singleton id, fun id' hid' => ?_⟩⟩
  obtain rfl := List.mem_singleton.mp hid'
  exact h

/-- **The loop of `claimRedemption`**, told from the state before it. -/
lemma claimRedemption_loop {token token' : ERC20} {fees fees' : Uint256} :
    ids.foldlM (claimRedemptionEntry pricers self check) ⟨hub, token, fees⟩ =
        .ok ⟨hub', token', fees'⟩ ↔
      hub.Settles pricers check ids ∧ hub' = hub.settleAll pricers check ids ∧
        fees'.toNat = fees.toNat + hub.feesOf pricers check ids ∧
        token.payAll self hub.params.assetSender (hub.payouts pricers check ids) =
          .ok token' := by
  induction ids generalizing hub token fees with
  | nil =>
      have hsame : hub.settleAll pricers check [] = hub := by
        simp only [settleAll, List.map_nil, List.append_nil]
        rfl
      have hsettles : hub.Settles pricers check [] := ⟨List.nodup_nil, by simp⟩
      simp only [List.foldlM_nil, pure_eq_ok, RedemptionBatch.mk.injEq, hsame, feesOf, payouts,
        ERC20.payAll, List.map_nil, List.sum_nil, Nat.add_zero, hsettles, true_and]
      rw [BitVec.toNat_inj, eq_comm (a := hub), eq_comm (a := fees)]
      exact and_congr_right fun _ => and_comm
  | cons id ids ih =>
      rw [← List.singleton_append, settles_append_iff, settles_singleton, payouts_append,
        feesOf_append, List.singleton_append]
      simp only [List.foldlM_cons, claimRedemptionEntry_eq, bind_eq_ok, pure_eq_ok,
        checkedAdd_eq_ok, ERC20.payAll_append]
      constructor
      · rintro ⟨_, ⟨s, hs, fees₁, hfees₁, token₁, hpay, rfl⟩, hrest⟩
        rw [settle_eq_settleAll hs] at hrest
        obtain ⟨hsettles, rfl, hfees, hpays⟩ := ih.mp hrest
        have hother : ∀ id' ∈ ids, id' ∉ [id] := fun id' hid' =>
          (settlement_settleAll.mp (hsettles.each id' hid')).1
        rw [feesOf_settleAll hother] at hfees
        rw [payouts_settleAll hother] at hpays
        rw [feesOf_singleton hs, payouts_singleton hs, settleAll_settleAll hother]
        exact ⟨⟨⟨s, hs⟩, hsettles⟩, rfl, by omega, token₁, ERC20.payAll_singleton.trans hpay,
          hpays⟩
      · rintro ⟨⟨⟨s, hs⟩, hsettles⟩, rfl, hfees, token₁, hpay, hpays⟩
        have hother : ∀ id' ∈ ids, id' ∉ [id] := fun id' hid' =>
          (settlement_settleAll.mp (hsettles.each id' hid')).1
        rw [feesOf_singleton hs] at hfees
        rw [payouts_singleton hs, ERC20.payAll_singleton] at hpay
        -- The sum of the fees fits into a word, so the sums on the way do.
        have hbound := fees'.isLt
        obtain ⟨fees₁, hfees₁⟩ := @exists_toNat_eq (fees.toNat + s.fee.toNat) (by omega)
        refine ⟨_, ⟨s, hs, fees₁, hfees₁, token₁, hpay, rfl⟩, ?_⟩
        rw [settle_eq_settleAll hs, ih, settleAll_settleAll hother, feesOf_settleAll hother,
          payouts_settleAll hother]
        exact ⟨hsettles, rfl, by omega, hpays⟩

/-! ## The call -/

/-- What a batch pays: every user, and the fees for all of them if there are any. -/
def bill (hub : RWAHub) (pricers : Address → Option Pricer)
    (checkRestrictions : Address → Tx Error Unit) (redemptionIds : List Bytes32) : Bill Address :=
  billOf (hub.payouts pricers checkRestrictions redemptionIds) ++
    if 0 < hub.feesOf pricers checkRestrictions redemptionIds then
      [(hub.params.feeRecipient, hub.feesOf pricers checkRestrictions redemptionIds)]
    else []

lemma bill_total : (hub.bill pricers check ids).total =
    (billOf (hub.payouts pricers check ids)).total + hub.feesOf pricers check ids := by
  rw [bill, Bill.total_append]
  split
  · rw [Bill.total_cons, Bill.total_nil, Nat.add_zero]
  · rw [Bill.total_nil]
    omega

lemma bill_credit {payee : Address} : (hub.bill pricers check ids).credit payee =
    (billOf (hub.payouts pricers check ids)).credit payee +
      if hub.params.feeRecipient = payee then hub.feesOf pricers check ids else 0 := by
  rw [bill, Bill.credit_append]
  split
  · rw [Bill.credit_cons, Bill.credit_nil, Nat.add_zero]
  · rw [Bill.credit_nil]
    split <;> omega

lemma bill_payees {payee : Address} : payee ∈ (hub.bill pricers check ids).map Prod.fst ↔
    payee ∈ (billOf (hub.payouts pricers check ids)).map Prod.fst ∨
      (0 < hub.feesOf pricers check ids ∧ payee = hub.params.feeRecipient) := by
  rw [bill, List.map_append, List.mem_append]
  split
  · next hpos => simp [hpos]
  · next hzero => simp [hzero]

/-- A batch pays what its parts pay. -/
lemma bill_append {ids' : List Bytes32} :
    Bill.Same (hub.bill pricers check (ids ++ ids'))
      (hub.bill pricers check ids ++ hub.bill pricers check ids') := by
  refine ⟨?_, ?_, ?_⟩
  · rw [Bill.total_append, bill_total, bill_total, bill_total, payouts_append, feesOf_append,
      billOf_append, Bill.total_append]
    omega
  · intro payee
    rw [Bill.credit_append, bill_credit, bill_credit, bill_credit, payouts_append, feesOf_append,
      billOf_append, Bill.credit_append]
    split <;> omega
  · intro payee
    rw [List.map_append, List.mem_append, bill_payees, bill_payees, bill_payees, payouts_append,
      feesOf_append, billOf_append, List.map_append, List.mem_append, Nat.add_pos_iff_pos_or_pos]
    tauto

/-- The order of a batch does not matter. -/
lemma bill_perm {ids' : List Bytes32} (h : ids.Perm ids') :
    Bill.Same (hub.bill pricers check ids) (hub.bill pricers check ids') := by
  have hfees : hub.feesOf pricers check ids = hub.feesOf pricers check ids' := (h.map _).sum_eq
  refine .of_perm ?_
  rw [bill, bill, hfees]
  exact ((h.map _).map _).append_right _

lemma bill_settleAll {ids' : List Bytes32} (h : ∀ id ∈ ids', id ∉ ids) :
    (hub.settleAll pricers check ids).bill pricers check ids' = hub.bill pricers check ids' := by
  rw [bill, payouts_settleAll h, feesOf_settleAll h]
  rfl

/-- The payments of a batch, with the sum of its fees in a word. -/
def payments (hub : RWAHub) (pricers : Address → Option Pricer)
    (checkRestrictions : Address → Tx Error Unit) (redemptionIds : List Bytes32)
    (fees : Uint256) : List (Address × Uint256) :=
  hub.payouts pricers checkRestrictions redemptionIds ++
    if 0 < fees then [(hub.params.feeRecipient, fees)] else []

lemma billOf_payments {fees : Uint256} (hfees : fees.toNat = hub.feesOf pricers check ids) :
    billOf (hub.payments pricers check ids fees) = hub.bill pricers check ids := by
  have hpos : 0 < fees ↔ 0 < hub.feesOf pricers check ids := by rw [BitVec.lt_def, hfees]; rfl
  rw [payments, bill, billOf_append, ← hfees]
  simp only [hpos, hfees]
  split <;> simp [hfees]

lemma transferFees_eq {token : ERC20} {source : Address} {fees : Uint256} :
    hub.transferFees token self source fees =
      token.payAll self source (if 0 < fees then [(hub.params.feeRecipient, fees)] else []) := by
  rw [transferFees]
  split
  · rw [ERC20.payAll_singleton]
  · rfl

/-- `claimRedemption` as settlements and payments. -/
lemma claimRedemption_eq_ok {token token' : ERC20} :
    hub.claimRedemption token pricers self check ids = .ok (hub', token') ↔
      hub.params.redemptionPaused = false ∧ hub.Settles pricers check ids ∧
        hub' = hub.settleAll pricers check ids ∧
        ∃ fees : Uint256, fees.toNat = hub.feesOf pricers check ids ∧
          token.payAll self hub.params.assetSender (hub.payments pricers check ids fees) =
            .ok token' := by
  simp only [claimRedemption, bind_eq_ok, revertIf_eq_ok, pure_eq_ok, exists_const,
    Prod.mk.injEq, Bool.not_eq_true, transferFees_eq, payments, ERC20.payAll_append]
  refine and_congr_right fun _ => ⟨?_, ?_⟩
  · rintro ⟨⟨hub₁, token₁, fees⟩, hloop, token₂, hpay, rfl, rfl⟩
    obtain ⟨hsettles, rfl, hfees, hpays⟩ := claimRedemption_loop.mp hloop
    exact ⟨hsettles, rfl, fees, hfees.trans (Nat.zero_add _), token₁, hpays, hpay⟩
  · rintro ⟨hsettles, rfl, fees, hfees, token₁, hpays, hpay⟩
    refine ⟨⟨hub.settleAll pricers check ids, token₁, fees⟩, claimRedemption_loop.mpr ?_, token',
      hpay, rfl, rfl⟩
    exact ⟨hsettles, rfl, hfees.trans (Nat.zero_add _).symm, hpays⟩

/-- The asset sender is paid nothing by a batch. -/
lemma payments_ne {fees : Uint256} (hsettles : hub.Settles pricers check ids)
    (hfee : hub.params.feeRecipient ≠ hub.params.assetSender)
    (husers : ∀ id ∈ ids, (hub.redemptionIdToRedeemer id).priceId ≠ 0 →
      (hub.redemptionIdToRedeemer id).user ≠ hub.params.assetSender) :
    ∀ payment ∈ hub.payments pricers check ids fees, payment.1 ≠ hub.params.assetSender := by
  intro payment hpayment
  rcases List.mem_append.mp hpayment with hmem | hmem
  · obtain ⟨id, hid, rfl⟩ := List.mem_map.mp hmem
    obtain ⟨s, hs⟩ := hsettles.each id hid
    obtain ⟨hset, huser, -⟩ := settlement_spec hs
    rw [settled_eq hs, Settlement.payment, huser]
    exact husers id hid hset
  · split at hmem
    · obtain rfl := List.mem_singleton.mp hmem
      exact hfee
    · cases hmem

/-- **What a batch does**, if it succeeds. -/
lemma claimRedemption_spec {token token' : ERC20}
    (hfee : hub.params.feeRecipient ≠ hub.params.assetSender)
    (husers : ∀ id ∈ ids, (hub.redemptionIdToRedeemer id).priceId ≠ 0 →
      (hub.redemptionIdToRedeemer id).user ≠ hub.params.assetSender)
    (h : hub.claimRedemption token pricers self check ids = .ok (hub', token')) :
    hub.params.redemptionPaused = false ∧ hub.Settles pricers check ids ∧
      hub' = hub.settleAll pricers check ids ∧
      ERC20.Payable token self hub.params.assetSender (hub.bill pricers check ids) ∧
      ERC20.Paid token self hub.params.assetSender (hub.bill pricers check ids) token' := by
  obtain ⟨hpaused, hsettles, hhub, fees, hfees, hpay⟩ := claimRedemption_eq_ok.mp h
  rw [← billOf_payments hfees]
  exact ⟨hpaused, hsettles, hhub, ERC20.payAll_spec (payments_ne hsettles hfee husers) hpay⟩

/-- **When a batch succeeds.** -/
lemma exists_claimRedemption {token : ERC20}
    (hfee : hub.params.feeRecipient ≠ hub.params.assetSender)
    (husers : ∀ id ∈ ids, (hub.redemptionIdToRedeemer id).priceId ≠ 0 →
      (hub.redemptionIdToRedeemer id).user ≠ hub.params.assetSender)
    (hpaused : hub.params.redemptionPaused = false) (hsettles : hub.Settles pricers check ids)
    (hpayable : ERC20.Payable token self hub.params.assetSender (hub.bill pricers check ids)) :
    ∃ token', hub.claimRedemption token pricers self check ids =
      .ok (hub.settleAll pricers check ids, token') := by
  -- The fees are a part of what the asset sender can pay, so they fit into a word.
  have hbalance := hpayable.balance
  rw [bill_total] at hbalance
  have hbound := (token.balances hub.params.assetSender).isLt
  obtain ⟨fees, hfees⟩ := @exists_toNat_eq (hub.feesOf pricers check ids) (by omega)
  rw [← billOf_payments hfees] at hpayable
  obtain ⟨token', hpay⟩ := ERC20.exists_payAll (payments_ne hsettles hfee husers) hpayable
  exact ⟨token', claimRedemption_eq_ok.mpr ⟨hpaused, hsettles, rfl, fees, hfees, hpay⟩⟩

end RWAHub

/-! ## Batches in the system -/

namespace World

variable {w w' : World ERC20} {sender sender' : Address} {ids xs ys : List Bytes32}

/-- The world after a call of `claimRedemption`, if it succeeds. -/
def claimed (w : World ERC20) (sender : Address) (redemptionIds : List Bytes32) :
    Option (World ERC20) :=
  (w.execManager sender (.claimRedemption redemptionIds)).toOption

/-- The world without any log of the contracts whose state a claim changes. -/
def stored (w : World ERC20) : World ERC20 :=
  { w.storage with collateral := w.collateral.storage }

/-- What is worked out for a redemption in a world. -/
def settlement (w : World ERC20) (redemptionId : Bytes32) : Tx Error RWAHub.Settlement :=
  w.hub.settlement w.pricers (w.manager.checkRestrictions w.lists) redemptionId

/-- The settlement of a redemption that can be settled. -/
def settled (w : World ERC20) (redemptionId : Bytes32) : RWAHub.Settlement :=
  w.hub.settled w.pricers (w.manager.checkRestrictions w.lists) redemptionId

/-- What a batch pays in a world. -/
def bill (w : World ERC20) (redemptionIds : List Bytes32) : Bill Address :=
  w.hub.bill w.pricers (w.manager.checkRestrictions w.lists) redemptionIds

/-- The redemptions of a batch can be settled in a world. -/
def Settles (w : World ERC20) (redemptionIds : List Bytes32) : Prop :=
  w.hub.Settles w.pricers (w.manager.checkRestrictions w.lists) redemptionIds

/-- The asset sender is neither the fee recipient nor a user whose redemption has a price id. -/
structure Separate (w : World ERC20) (redemptionIds : List Bytes32) : Prop where
  fee : w.hub.params.feeRecipient ≠ w.hub.params.assetSender
  users : ∀ id ∈ redemptionIds, (w.hub.redemptionIdToRedeemer id).priceId ≠ 0 →
    (w.hub.redemptionIdToRedeemer id).user ≠ w.hub.params.assetSender

/-- The world after a batch, with the collateral it leaves. -/
def afterClaim (w : World ERC20) (redemptionIds : List Bytes32) (token : ERC20) :
    World ERC20 := { w with
  manager := { w.manager with
    hub := w.hub.settleAll w.pricers (w.manager.checkRestrictions w.lists) redemptionIds }
  collateral := token }

/-- A spender who can pay a bill out of the asset sender's account, and what is left then. -/
abbrev Payable (w : World ERC20) (bill : Bill Address) : Prop :=
  ERC20.Payable w.collateral w.self w.hub.params.assetSender bill

abbrev Paid (w : World ERC20) (bill : Bill Address) (token : ERC20) : Prop :=
  ERC20.Paid w.collateral w.self w.hub.params.assetSender bill token

lemma claimed_spec (hseparate : w.Separate ids) (h : w.claimed sender ids = some w') :
    w.hub.params.redemptionPaused = false ∧ w.Settles ids ∧ w.Payable (w.bill ids) ∧
      ∃ token, w' = w.afterClaim ids token ∧ w.Paid (w.bill ids) token := by
  simp only [claimed, toOption_eq_some, execManager, bind_eq_ok, pure_eq_ok] at h
  obtain ⟨⟨hub', token⟩, h, rfl⟩ := h
  obtain ⟨hpaused, hsettles, rfl, hpayable, hpaid⟩ :=
    RWAHub.claimRedemption_spec hseparate.fee hseparate.users h
  exact ⟨hpaused, hsettles, hpayable, token, rfl, hpaid⟩

lemma exists_claimed (hseparate : w.Separate ids) (hpaused : w.hub.params.redemptionPaused = false)
    (hsettles : w.Settles ids) (hpayable : w.Payable (w.bill ids)) :
    ∃ token, w.claimed sender ids = some (w.afterClaim ids token) ∧
      w.Paid (w.bill ids) token := by
  obtain ⟨token, h⟩ :=
    RWAHub.exists_claimRedemption hseparate.fee hseparate.users hpaused hsettles hpayable
  refine ⟨token, ?_, (RWAHub.claimRedemption_spec hseparate.fee hseparate.users h).2.2.2.2⟩
  rw [claimed, execManager, h]
  rfl

/-- A batch leaves the other redemptions, and so what can be worked out for them. -/
lemma Separate.afterClaim {token : ERC20} (h : w.Separate ys) :
    (w.afterClaim xs token).Separate ys := by
  refine ⟨h.fee, ?_⟩
  intro id hid hset
  have hentry : (w.afterClaim xs token).hub.redemptionIdToRedeemer id =
      if id ∈ xs then .null else w.hub.redemptionIdToRedeemer id := RWAHub.settleAll_entry id
  rw [hentry] at hset ⊢
  split at hset
  · exact absurd rfl hset
  · next hmem =>
      rw [if_neg hmem]
      exact h.users id hid hset

lemma settles_append_iff {token : ERC20} :
    w.Settles (xs ++ ys) ↔ w.Settles xs ∧ (w.afterClaim xs token).Settles ys :=
  RWAHub.settles_append_iff

/-- A redemption that can be settled after a batch was not in it. -/
lemma Settles.not_mem {token : ERC20} (h : (w.afterClaim xs token).Settles ys) :
    ∀ id ∈ ys, id ∉ xs :=
  fun id hid => (RWAHub.settlement_settleAll.mp (h.each id hid)).1

lemma bill_afterClaim {token : ERC20} (h : (w.afterClaim xs token).Settles ys) :
    (w.afterClaim xs token).bill ys = w.bill ys := RWAHub.bill_settleAll h.not_mem

lemma afterClaim_afterClaim {token token' : ERC20} (h : (w.afterClaim xs token).Settles ys) :
    (w.afterClaim xs token).afterClaim ys token' = w.afterClaim (xs ++ ys) token' := by
  calc (w.afterClaim xs token).afterClaim ys token'
      = { w with
          manager := { w.manager with
            hub := (w.hub.settleAll w.pricers (w.manager.checkRestrictions w.lists) xs).settleAll
              w.pricers (w.manager.checkRestrictions w.lists) ys }
          collateral := token' } := rfl
    _ = w.afterClaim (xs ++ ys) token' := by
        rw [RWAHub.settleAll_settleAll h.not_mem]
        rfl

lemma stored_afterClaim_congr {token token' : ERC20} (h : token.storage = token'.storage) :
    (w.afterClaim ids token).stored = (w.afterClaim ids token').stored := by
  simp only [stored, storage, afterClaim, h]

/-- The order of a batch only matters for the logs. -/
lemma stored_afterClaim_perm {token : ERC20} (h : xs.Perm ys) :
    (w.afterClaim xs token).stored = (w.afterClaim ys token).stored := by
  simp only [stored, storage, afterClaim, RWAHub.settleAll, Batch.cleared_perm h]

/-- The claim of a batch succeeds if the claims of its parts do, and ends where they do. -/
lemma claimed_append (hseparate : w.Separate (xs ++ ys)) :
    (w.claimed sender (xs ++ ys)).map stored =
      ((w.claimed sender xs).bind fun w' => w'.claimed sender' ys).map stored := by
  have hseparate₁ : w.Separate xs :=
    ⟨hseparate.fee, fun id hid => hseparate.users id (List.mem_append_left _ hid)⟩
  have hseparate₂ : w.Separate ys :=
    ⟨hseparate.fee, fun id hid => hseparate.users id (List.mem_append_right _ hid)⟩
  refine map_eq_map (fun w' h => ?_) fun w₂ h => ?_
  · obtain ⟨hpaused, hsettles, hpayable, token, rfl, hpaid⟩ := claimed_spec hseparate h
    have hparts := ERC20.Payable.congr RWAHub.bill_append hpayable
    obtain ⟨hfirst, -⟩ := RWAHub.settles_append_iff.mp hsettles
    obtain ⟨token₁, h₁, hpaid₁⟩ := exists_claimed hseparate₁ hpaused hfirst hparts.left
    have hrest : (w.afterClaim xs token₁).Settles ys := (settles_append_iff.mp hsettles).2
    have hleft := (ERC20.Paid.payable_append_iff hpaid₁).mp hparts
    obtain ⟨token₂, h₂, hpaid₂⟩ := exists_claimed hseparate₂.afterClaim hpaused hrest
      ((bill_afterClaim hrest).symm ▸ hleft.2)
    rw [bill_afterClaim hrest] at hpaid₂
    refine ⟨_, by rw [h₁, Option.bind_some, h₂], ?_⟩
    rw [afterClaim_afterClaim hrest]
    exact stored_afterClaim_congr
      (ERC20.Paid.storage_eq RWAHub.bill_append.symm (hpaid₁.append hpaid₂) hpaid)
  · obtain ⟨w₁, h₁, h₂⟩ := Option.bind_eq_some_iff.mp h
    obtain ⟨hpaused, hfirst, hpayable₁, token₁, rfl, hpaid₁⟩ := claimed_spec hseparate₁ h₁
    obtain ⟨-, hrest, hpayable₂, -⟩ := claimed_spec hseparate₂.afterClaim h₂
    rw [bill_afterClaim hrest] at hpayable₂
    obtain ⟨token, hclaimed, -⟩ := exists_claimed hseparate hpaused
      (settles_append_iff.mpr ⟨hfirst, hrest⟩)
      (ERC20.Payable.congr RWAHub.bill_append.symm
        ((ERC20.Paid.payable_append_iff hpaid₁).mpr ⟨hpayable₁, hpayable₂⟩))
    rw [hclaimed]
    rfl

/-- The claim of a batch in another order. -/
lemma exists_claimed_perm (hseparate : w.Separate xs) (hperm : xs.Perm ys)
    (h : w.claimed sender xs = some w') :
    ∃ w'', w.claimed sender ys = some w'' ∧ w''.stored = w'.stored := by
  obtain ⟨hpaused, hsettles, hpayable, token, rfl, hpaid⟩ := claimed_spec hseparate h
  have hseparate' : w.Separate ys :=
    ⟨hseparate.fee, fun id hid => hseparate.users id (hperm.mem_iff.mpr hid)⟩
  obtain ⟨token', h', hpaid'⟩ := exists_claimed hseparate' hpaused (hsettles.perm hperm)
    (ERC20.Payable.congr (RWAHub.bill_perm hperm) hpayable)
  refine ⟨_, h', ?_⟩
  rw [← stored_afterClaim_perm hperm]
  exact stored_afterClaim_congr (ERC20.Paid.storage_eq (RWAHub.bill_perm hperm).symm hpaid' hpaid)

/-- What a batch of redemptions does when it succeeds. -/
structure Redeems (w : World ERC20) (redemptionIds : List Bytes32) (w' : World ERC20) :
    Prop where
  nodup : redemptionIds.Nodup
  each : ∀ id ∈ redemptionIds, w.settlement id = .ok (w.settled id)
  deleted : w'.hub.redemptionIdToRedeemer =
    Batch.cleared .null w.hub.redemptionIdToRedeemer redemptionIds
  debited : (w'.collateral.balances w.hub.params.assetSender).toNat +
      (redemptionIds.map fun id => (w.settled id).collateralDue.toNat).sum =
    (w.collateral.balances w.hub.params.assetSender).toNat
  split : (redemptionIds.map fun id => (w.settled id).collateralDue.toNat).sum =
    (redemptionIds.map fun id => (w.settled id).collateralDuePostFees.toNat).sum +
      (redemptionIds.map fun id => (w.settled id).fee.toNat).sum
  credited : ∀ account, account ≠ w.hub.params.assetSender →
    (w'.collateral.balances account).toNat = (w.collateral.balances account).toNat +
      (redemptionIds.map fun id =>
        if (w.settled id).user = account then (w.settled id).collateralDuePostFees.toNat
        else 0).sum +
      if w.hub.params.feeRecipient = account then
        (redemptionIds.map fun id => (w.settled id).fee.toNat).sum
      else 0

lemma Settles.settlement (h : w.Settles ids) {id : Bytes32} (hid : id ∈ ids) :
    w.settlement id = .ok (w.settled id) := by
  obtain ⟨s, hs⟩ := h.each id hid
  have hsettled : w.settled id = s := RWAHub.settled_eq hs
  rw [hsettled]
  exact hs

/-- The users and the fee recipient share what is due. -/
lemma Settles.split (h : w.Settles ids) :
    (ids.map fun id => (w.settled id).collateralDue.toNat).sum =
      (ids.map fun id => (w.settled id).collateralDuePostFees.toNat).sum +
        (ids.map fun id => (w.settled id).fee.toNat).sum := by
  rw [← List.sum_map_add]
  congr 1
  refine List.map_congr_left fun id hid => ?_
  obtain ⟨-, -, hdue⟩ := RWAHub.settlement_spec (h.settlement hid)
  exact hdue.symm

lemma bill_total_eq : (w.bill ids).total =
    (ids.map fun id => (w.settled id).collateralDuePostFees.toNat).sum +
      (ids.map fun id => (w.settled id).fee.toNat).sum := by
  rw [bill, RWAHub.bill_total]
  simp only [Bill.total, billOf, RWAHub.payouts, List.map_map]
  rfl

lemma bill_credit_eq {account : Address} : (w.bill ids).credit account =
    (ids.map fun id =>
      if (w.settled id).user = account then (w.settled id).collateralDuePostFees.toNat
      else 0).sum +
      if w.hub.params.feeRecipient = account then
        (ids.map fun id => (w.settled id).fee.toNat).sum
      else 0 := by
  rw [bill, RWAHub.bill_credit]
  simp only [Bill.credit, billOf, RWAHub.payouts, List.map_map]
  rfl

lemma claimed_redeems (hseparate : w.Separate ids) (h : w.claimed sender ids = some w') :
    w.Redeems ids w' := by
  obtain ⟨-, hsettles, -, token, rfl, hpaid⟩ := claimed_spec hseparate h
  have hdebited := hpaid.debited
  rw [bill_total_eq, ← hsettles.split] at hdebited
  refine ⟨hsettles.nodup, fun id hid => hsettles.settlement hid, rfl, hdebited, hsettles.split,
    fun account hne => ?_⟩
  rw [Nat.add_assoc, ← bill_credit_eq]
  exact hpaid.credited account hne

/-- **A batch of redemptions is its redemptions one by one.**  With a standard collateral and an
asset sender of its own, the claim of `xs ++ ys` succeeds if and only if the claim of `xs` and
then of `ys` does, and ends in the same state but for the logs; so does the claim in any other
order.  A claim that succeeds lists each redemption once, and takes from the asset sender exactly
what is due, which the users and the fee recipient share. -/
theorem claimRedemption_batch (w : World ERC20) (sender sender' : Address) (xs ys : List Bytes32)
    (hseparate : w.Separate (xs ++ ys)) :
    (w.claimed sender (xs ++ ys)).map stored =
        ((w.claimed sender xs).bind fun w' => w'.claimed sender' ys).map stored ∧
      (∀ zs, zs.Perm (xs ++ ys) →
        (w.claimed sender zs).map stored = (w.claimed sender (xs ++ ys)).map stored) ∧
      ∀ w', w.claimed sender (xs ++ ys) = some w' → w.Redeems (xs ++ ys) w' := by
  refine ⟨claimed_append hseparate, fun zs hperm => ?_, fun w' h => claimed_redeems hseparate h⟩
  have hseparate' : w.Separate zs :=
    ⟨hseparate.fee, fun id hid => hseparate.users id (hperm.mem_iff.mp hid)⟩
  refine map_eq_map (fun w' h => exists_claimed_perm hseparate' hperm h) fun w' h => ?_
  obtain ⟨w'', h'', -⟩ := exists_claimed_perm hseparate hperm.symm h
  rw [h'']
  rfl

open Sample in
/-- Two redemptions wait to be claimed, with a fee of a percent. -/
def pricedRedemptions : List (Action ERC20) := setup ++ [
  .manager operator (.admin (.setRedemptionFee 100)),
  .pricer pricerAddress operator (.addPrice 1000000000000000000 999999),
  .manager customer (.requestSubscription 100000000),
  .manager operator (.setPriceIdForDeposits [1] [1]),
  .manager operator (.setClaimableTimestamp 1000000 [1]),
  .manager customer (.claimMint [1]),
  .usbs customer (.holder (.approve managerAddress 1000000000000000000000)),
  .manager customer (.requestRedemption 60000000000000000000),
  .manager customer (.requestRedemption 20000000000000000000),
  .manager operator (.setPriceIdForRedemptions [1, 2] [1, 1])]

open Sample in
/-- Claimed one after the other, they take 80 units of collateral from the asset sender. -/
theorem claimRedemption_batch_sample :
    (((play next world pricedRedemptions).claimed customer [1]).bind
        fun w' => w'.claimed operator [2]).map (fun w' => (w'.collateral.balances 0x54).toNat) =
      some (10 ^ 24 - 80000000) := by
  have hseparate : (play next world pricedRedemptions).Separate [1, 2] := by
    refine ⟨by decide +kernel, ?_⟩
    simp only [List.forall_mem_cons, List.not_mem_nil, false_imp_iff, implies_true, and_true]
    decide +kernel
  have hbatch : ((play next world pricedRedemptions).claimed customer [1, 2]).map
      (fun w' => (w'.collateral.balances 0x54).toNat) = some (10 ^ 24 - 80000000) := by
    decide +kernel
  generalize play next world pricedRedemptions = w at hseparate hbatch ⊢
  obtain ⟨hsplit, -, -⟩ := claimRedemption_batch w customer operator [1] [2] hseparate
  have hbalance := congrArg
    (Option.map fun w' : World ERC20 => (w'.collateral.balances 0x54).toNat) hsplit
  simp only [Option.map_map] at hbalance
  exact hbalance.symm.trans hbatch

end World

end BrivoUsbs
