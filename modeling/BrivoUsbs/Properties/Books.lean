import BrivoUsbs.Contracts.World

/-!
# The books behind the event log

`Books` is what the two request tables amount to, apart from roles, parameters and tokens, and
`Books.Step` says once and for all what each event of the hub does to them and under which
guards: it is the only description of the tables the invariants look at.  Each function of the
hub has one specification lemma, which names the event it logs and the step of the books that
goes with it.
-/

namespace BrivoUsbs

/-- The request tables of the hub, with their counters. -/
structure Books where
  decimalsMultiplier : Uint256
  deposits : Bytes32 → Depositor
  redemptions : Bytes32 → Redeemer
  nextDeposit : Uint256
  nextRedemption : Uint256

/-- The books of a hub. -/
@[simp] def RWAHub.books (hub : RWAHub) : Books where
  decimalsMultiplier := hub.decimalsMultiplier
  deposits := hub.depositIdToDepositor
  redemptions := hub.redemptionIdToRedeemer
  nextDeposit := hub.subscriptionRequestCounter
  nextRedemption := hub.redemptionRequestCounter

namespace Books

/-- The books of a new hub. -/
def initial (decimalsMultiplier : Uint256) : Books where
  decimalsMultiplier := decimalsMultiplier
  deposits _ := .null
  redemptions _ := .null
  nextDeposit := 1
  nextRedemption := 1

/-- The RWA minted for an amount of collateral. -/
def mintAmount (b : Books) (amount price : Uint256) : ℕ :=
  amount.toNat * b.decimalsMultiplier.toNat * 10 ^ 18 / price.toNat

/-- The collateral due, fees included, for an amount of RWA. -/
def redemptionAmount (b : Books) (amount price : Uint256) : ℕ :=
  amount.toNat * price.toNat / 10 ^ 18 / b.decimalsMultiplier.toNat

/-- What each event does to the books.  `prices` is the pricer in use. -/
inductive Step (prices : Uint256 → Tx Error Uint256) (b : Books) : HubEvent → Books → Prop
  | mintRequested {user : Address} {amount after fee next : Uint256} (huser : user ≠ 0)
      (hnext : next.toNat = b.nextDeposit.toNat + 1)
      (hamount : after.toNat + fee.toNat = amount.toNat) :
      Step prices b (.mintRequested user b.nextDeposit amount after fee)
        { b with
          nextDeposit := next
          deposits := Function.update b.deposits b.nextDeposit ⟨user, after, 0⟩ }
  | depositProofAdded {txHash : Bytes32} {user : Address} {after fee timestamp : Uint256}
      (hfree : (b.deposits txHash).user = 0) :
      Step prices b (.depositProofAdded txHash user after fee timestamp)
        { b with deposits := Function.update b.deposits txHash ⟨user, after, 0⟩ }
  | priceIdSetForDeposit {id : Bytes32} {priceId : Uint256} (hlive : (b.deposits id).user ≠ 0)
      (hunset : (b.deposits id).priceId = 0) :
      Step prices b (.priceIdSetForDeposit id priceId)
        { b with
          deposits := Function.update b.deposits id { b.deposits id with priceId := priceId } }
  | mintCompleted {id : Bytes32} {out price : Uint256} (hset : (b.deposits id).priceId ≠ 0)
      (huser : (b.deposits id).user ≠ 0) (hprice : prices (b.deposits id).priceId = .ok price)
      (hdefined : price ≠ 0)
      (hout : out.toNat = b.mintAmount (b.deposits id).amountDepositedMinusFees price) :
      Step prices b (.mintCompleted (b.deposits id).user id out
          (b.deposits id).amountDepositedMinusFees price (b.deposits id).priceId)
        { b with deposits := Function.update b.deposits id .null }
  | depositorOverwritten {id : Bytes32} {user : Address} {after priceId : Uint256} :
      Step prices b (.depositorOverwritten id (b.deposits id).user user (b.deposits id).priceId
          priceId (b.deposits id).amountDepositedMinusFees after)
        { b with deposits := Function.update b.deposits id ⟨user, after, priceId⟩ }
  | redemptionRequested {user : Address} {amount next : Uint256} (huser : user ≠ 0)
      (hnext : next.toNat = b.nextRedemption.toNat + 1) :
      Step prices b (.redemptionRequested user b.nextRedemption amount)
        { b with
          nextRedemption := next
          redemptions := Function.update b.redemptions b.nextRedemption ⟨user, amount, 0⟩ }
  | redemptionRequestedServicedOffChain {user : Address} {amount next : Uint256}
      {destination : Bytes32} (hnext : next.toNat = b.nextRedemption.toNat + 1) :
      Step prices b
        (.redemptionRequestedServicedOffChain user b.nextRedemption amount destination)
        { b with nextRedemption := next }
  | priceIdSetForRedemption {id : Bytes32} {priceId : Uint256}
      (hunset : (b.redemptions id).priceId = 0) :
      Step prices b (.priceIdSetForRedemption id priceId)
        { b with
          redemptions :=
            Function.update b.redemptions id { b.redemptions id with priceId := priceId } }
  | redemptionCompleted {id : Bytes32} {net price fee : Uint256}
      (hset : (b.redemptions id).priceId ≠ 0)
      (hprice : prices (b.redemptions id).priceId = .ok price)
      (hmultiplier : b.decimalsMultiplier ≠ 0)
      (hnet : net.toNat + fee.toNat =
        b.redemptionAmount (b.redemptions id).amountRwaTokenBurned price) :
      Step prices b (.redemptionCompleted (b.redemptions id).user id
          (b.redemptions id).amountRwaTokenBurned net price)
        { b with redemptions := Function.update b.redemptions id .null }
  | redeemerOverwritten {id : Bytes32} {user : Address} {amount priceId : Uint256} :
      Step prices b (.redeemerOverwritten id (b.redemptions id).user user
          (b.redemptions id).priceId priceId (b.redemptions id).amountRwaTokenBurned amount)
        { b with redemptions := Function.update b.redemptions id ⟨user, amount, priceId⟩ }
  | claimableTimestampSet {claimTimestamp : Uint256} {id : Bytes32} :
      Step prices b (.claimableTimestampSet claimTimestamp id) b
  | parameterSet {event : ParameterEvent} : Step prices b (.parameterSet event) b

variable {prices : Uint256 → Tx Error Uint256} {b b' : Books} {user : Address} {id : Bytes32}
  {amount price : Uint256}

/-- No event changes the multiplier. -/
lemma Step.decimalsMultiplier_eq {e : HubEvent} (h : Step prices b e b') :
    b'.decimalsMultiplier = b.decimalsMultiplier := by
  cases h <;> rfl

lemma Step.of_mintRequested {after fee : Uint256}
    (h : Step prices b (.mintRequested user id amount after fee) b') :
    id = b.nextDeposit ∧ after.toNat + fee.toNat = amount.toNat ∧
      b'.deposits = Function.update b.deposits id ⟨user, after, 0⟩ := by
  cases h with
  | mintRequested huser hnext hamount => exact ⟨rfl, hamount, rfl⟩

lemma Step.of_depositProofAdded {txHash : Bytes32} {after fee timestamp : Uint256}
    (h : Step prices b (.depositProofAdded txHash user after fee timestamp) b') :
    (b.deposits txHash).user = 0 ∧
      b'.deposits = Function.update b.deposits txHash ⟨user, after, 0⟩ := by
  cases h with
  | depositProofAdded hfree => exact ⟨hfree, rfl⟩

lemma Step.of_mintCompleted {out priceId : Uint256}
    (h : Step prices b (.mintCompleted user id out amount price priceId) b') :
    (b.deposits id).user ≠ 0 ∧ (b.deposits id).priceId ≠ 0 ∧
      b'.deposits = Function.update b.deposits id .null ∧ price ≠ 0 ∧
      out.toNat = b.mintAmount (b.deposits id).amountDepositedMinusFees price ∧
      b'.decimalsMultiplier = b.decimalsMultiplier := by
  cases h with
  | mintCompleted hset huser hprice hdefined hout =>
      exact ⟨huser, hset, rfl, hdefined, hout, rfl⟩

lemma Step.of_redemptionCompleted {net : Uint256}
    (h : Step prices b (.redemptionCompleted user id amount net price) b') :
    (b.redemptions id).priceId ≠ 0 ∧ b.decimalsMultiplier ≠ 0 ∧
      b'.redemptions = Function.update b.redemptions id .null := by
  cases h with
  | redemptionCompleted hset hprice hmultiplier hnet => exact ⟨hset, hmultiplier, rfl⟩

end Books

/-! ## What the functions of the hub do to the books

One lemma for each function or loop body, with the frame of the parameters and the roles. -/

namespace RWAHub

variable {κ : Type} [IERC20 κ] {hub hub' : RWAHub} {token token' : κ} {usbs usbs' : USBS}
  {lists : Lists} {pricers : Address → Option Pricer} {self sender : Address}
  {check : Address → Tx Error Unit}

/-- `hub'` is `hub` after the events of a path of `step`, with its parameters and roles kept. -/
def Updates (step : Books → HubEvent → Books → Prop) (hub hub' : RWAHub) : Prop :=
  Emits step RWAHub.books RWAHub.log hub hub' ∧ hub'.params = hub.params ∧
    hub'.access = hub.access

lemma Updates.refl {step : Books → HubEvent → Books → Prop} (hub : RWAHub) :
    Updates step hub hub := ⟨Emits.refl hub, rfl, rfl⟩

lemma Updates.trans {step : Books → HubEvent → Books → Prop} {hub₁ hub₂ hub₃ : RWAHub}
    (h : Updates step hub₁ hub₂) (h' : Updates step hub₂ hub₃) : Updates step hub₁ hub₃ :=
  ⟨h.1.trans h'.1, h'.2.1.trans h.2.1, h'.2.2.trans h.2.2⟩

lemma Updates.single {step : Books → HubEvent → Books → Prop} {e : HubEvent}
    (hlog : hub'.log = hub.log ++ [e]) (hstep : step hub.books e hub'.books)
    (hparams : hub'.params = hub.params) (haccess : hub'.access = hub.access) :
    Updates step hub hub' :=
  ⟨Emits.single hlog hstep, hparams, haccess⟩

/-- The price the hub's pricer answers for a price id. -/
def prices (hub : RWAHub) (pricers : Address → Option Pricer) (priceId : Uint256) :
    Tx Error Uint256 :=
  askPrice pricers hub.params.pricer priceId

@[simp] lemma toNat_oneE18 : oneE18.toNat = 10 ^ 18 := by decide

@[simp] lemma toNat_bpsDenominator : bpsDenominator.toNat = 10000 := rfl

lemma getMintFees_eq_ok {amount fee : Uint256} (h : hub.getMintFees amount = .ok fee) :
    fee.toNat = amount.toNat * hub.params.mintFee.toNat / 10000 := by
  simp only [getMintFees, bind_eq_ok, checkedMul_eq_ok, checkedDiv_eq_ok,
    toNat_bpsDenominator] at h
  obtain ⟨product, hproduct, -, hfee⟩ := h
  rw [hfee, hproduct]

lemma getRedemptionFees_eq_ok {amount fee : Uint256} (h : hub.getRedemptionFees amount = .ok fee) :
    fee.toNat = amount.toNat * hub.params.redemptionFee.toNat / 10000 := by
  simp only [getRedemptionFees, bind_eq_ok, checkedMul_eq_ok, checkedDiv_eq_ok,
    toNat_bpsDenominator] at h
  obtain ⟨product, hproduct, -, hfee⟩ := h
  rw [hfee, hproduct]

lemma getMintAmountForPrice_eq_ok {amount price out : Uint256}
    (h : hub.getMintAmountForPrice amount price = .ok out) :
    price ≠ 0 ∧ out.toNat = hub.books.mintAmount amount price := by
  simp only [getMintAmountForPrice, scaleUp, bind_eq_ok, checkedMul_eq_ok, checkedDiv_eq_ok,
    toNat_oneE18] at h
  obtain ⟨scaled, hscaled, amountE36, hamountE36, hprice, hout⟩ := h
  exact ⟨hprice, by rw [hout, hamountE36, hscaled]; rfl⟩

lemma getRedemptionAmountForRwa_eq_ok {amount price due : Uint256}
    (h : hub.getRedemptionAmountForRwa amount price = .ok due) :
    hub.decimalsMultiplier ≠ 0 ∧ due.toNat = hub.books.redemptionAmount amount price := by
  simp only [getRedemptionAmountForRwa, scaleDown, bind_eq_ok, checkedMul_eq_ok,
    checkedDiv_eq_ok, toNat_oneE18] at h
  obtain ⟨amountE36, hamountE36, scaled, ⟨-, hscaled⟩, hmultiplier, hdue⟩ := h
  exact ⟨hmultiplier, by rw [hdue, hscaled, hamountE36]; rfl⟩

lemma requestSubscription_spec (prices : Uint256 → Tx Error Uint256) {amount : Uint256}
    (hsender : sender ≠ 0)
    (h : hub.requestSubscription token self sender check amount = .ok (hub', token')) :
    ∃ after fee, hub'.log = hub.log ++
        [.mintRequested sender hub.subscriptionRequestCounter amount after fee] ∧
      Books.Step prices hub.books
        (.mintRequested sender hub.subscriptionRequestCounter amount after fee) hub'.books ∧
      hub'.params = hub.params ∧ hub'.access = hub.access ∧
      fee.toNat = amount.toNat * hub.params.mintFee.toNat / 10000 := by
  simp only [requestSubscription, bind_eq_ok, revertIf_eq_ok, pure_eq_ok, checkedSub_eq_ok,
    checkedAdd_eq_ok, Prod.mk.injEq, exists_const] at h
  obtain ⟨-, _, -, -, fee, hfee, after, hafter, next, hnext, _, -, _, -, rfl, -⟩ := h
  exact ⟨after, fee, rfl, .mintRequested hsender hnext hafter, rfl, rfl, getMintFees_eq_ok hfee⟩

lemma internalClaimMint_spec {id : Bytes32}
    (h : hub.internalClaimMint usbs lists pricers self id = .ok (hub', usbs')) :
    ∃ out price, hub.prices pricers (hub.depositIdToDepositor id).priceId = .ok price ∧
      hub'.log = hub.log ++ [.mintCompleted (hub.depositIdToDepositor id).user id out
        (hub.depositIdToDepositor id).amountDepositedMinusFees price
        (hub.depositIdToDepositor id).priceId] ∧
      Books.Step (hub.prices pricers) hub.books
        (.mintCompleted (hub.depositIdToDepositor id).user id out
          (hub.depositIdToDepositor id).amountDepositedMinusFees price
          (hub.depositIdToDepositor id).priceId) hub'.books ∧
      hub'.params = hub.params ∧ hub'.access = hub.access ∧
      usbs.mint lists self (hub.depositIdToDepositor id).user out = .ok usbs' := by
  simp only [internalClaimMint, bind_eq_ok, revertIf_eq_ok, pure_eq_ok, Prod.mk.injEq,
    exists_const] at h
  obtain ⟨hset, price, hprice, out, hout, minted, hmint, rfl, rfl⟩ := h
  obtain ⟨hdefined, hout⟩ := getMintAmountForPrice_eq_ok hout
  obtain ⟨-, huser, -⟩ := USBS.mint_spec hmint
  exact ⟨out, price, hprice, rfl, .mintCompleted hset huser hprice hdefined hout, rfl, rfl, hmint⟩

lemma requestRedemption_spec (prices : Uint256 → Tx Error Uint256) {amount : Uint256}
    (h : hub.requestRedemption usbs lists self sender amount = .ok (hub', usbs')) :
    hub'.log = hub.log ++ [.redemptionRequested sender hub.redemptionRequestCounter amount] ∧
      Books.Step prices hub.books
        (.redemptionRequested sender hub.redemptionRequestCounter amount) hub'.books ∧
      hub'.params = hub.params ∧ hub'.access = hub.access ∧
      usbs.burnFrom lists self sender amount = .ok usbs' := by
  simp only [requestRedemption, bind_eq_ok, revertIf_eq_ok, pure_eq_ok, checkedAdd_eq_ok,
    Prod.mk.injEq, exists_const] at h
  obtain ⟨-, -, next, hnext, burned, hburn, rfl, rfl⟩ := h
  obtain ⟨huser, -⟩ := USBS.burnFrom_spec hburn
  exact ⟨rfl, .redemptionRequested huser hnext, rfl, rfl, hburn⟩

lemma claimRedemptionEntry_spec {batch batch' : RedemptionBatch κ} {id : Bytes32}
    (h : claimRedemptionEntry pricers self check batch id = .ok batch') :
    ∃ net price fee : Uint256,
      batch.hub.prices pricers (batch.hub.redemptionIdToRedeemer id).priceId = .ok price ∧
      batch'.hub.log = batch.hub.log ++
        [.redemptionCompleted (batch.hub.redemptionIdToRedeemer id).user id
          (batch.hub.redemptionIdToRedeemer id).amountRwaTokenBurned net price] ∧
      Books.Step (batch.hub.prices pricers) batch.hub.books
        (.redemptionCompleted (batch.hub.redemptionIdToRedeemer id).user id
          (batch.hub.redemptionIdToRedeemer id).amountRwaTokenBurned net price)
        batch'.hub.books ∧
      batch'.hub.params = batch.hub.params ∧ batch'.hub.access = batch.hub.access ∧
      net.toNat + fee.toNat = batch.hub.books.redemptionAmount
        (batch.hub.redemptionIdToRedeemer id).amountRwaTokenBurned price ∧
      batch'.fees.toNat = batch.fees.toNat + fee.toNat ∧
      safeTransferFrom batch.token self batch.hub.params.assetSender
        (batch.hub.redemptionIdToRedeemer id).user net = .ok batch'.token := by
  simp only [claimRedemptionEntry, bind_eq_ok, revertIf_eq_ok, pure_eq_ok, checkedSub_eq_ok,
    checkedAdd_eq_ok, exists_const] at h
  obtain ⟨_, -, hset, price, hprice, due, hdue, fee, -, net, hnet, fees, hfees, moved, hmoved,
    rfl⟩ := h
  obtain ⟨hmultiplier, hdue⟩ := getRedemptionAmountForRwa_eq_ok hdue
  rw [hdue] at hnet
  exact ⟨net, price, fee, hprice, rfl, .redemptionCompleted hset hprice hmultiplier hnet, rfl, rfl,
    hnet, hfees, hmoved⟩

lemma addProof_spec (prices : Uint256 → Tx Error Uint256) {txHash : Bytes32} {user : Address}
    {after fee timestamp : Uint256}
    (h : hub.addProof sender check txHash user after fee timestamp = .ok hub') :
    hub'.log = hub.log ++ [.depositProofAdded txHash user after fee timestamp] ∧
      Books.Step prices hub.books (.depositProofAdded txHash user after fee timestamp)
        hub'.books ∧
      hub'.params = hub.params ∧ hub'.access = hub.access := by
  simp only [addProof, bind_eq_ok, revertIf_eq_ok, pure_eq_ok, not_not, exists_const] at h
  obtain ⟨_, -, _, -, hfree, rfl⟩ := h
  exact ⟨rfl, .depositProofAdded hfree, rfl, rfl⟩

lemma setPriceIdForDeposit_spec (prices : Uint256 → Tx Error Uint256) {id : Bytes32}
    {priceId : Uint256}
    (h : hub.setPriceIdForDeposit (id, priceId) = .ok hub') :
    hub'.log = hub.log ++ [.priceIdSetForDeposit id priceId] ∧
      Books.Step prices hub.books (.priceIdSetForDeposit id priceId) hub'.books ∧
      hub'.params = hub.params ∧ hub'.access = hub.access := by
  simp only [setPriceIdForDeposit, bind_eq_ok, revertIf_eq_ok, pure_eq_ok, not_not,
    exists_const] at h
  obtain ⟨hlive, hunset, rfl⟩ := h
  exact ⟨rfl, .priceIdSetForDeposit hlive hunset, rfl, rfl⟩

lemma setPriceIdForRedemption_spec (prices : Uint256 → Tx Error Uint256) {id : Bytes32}
    {priceId : Uint256}
    (h : hub.setPriceIdForRedemption (id, priceId) = .ok hub') :
    hub'.log = hub.log ++ [.priceIdSetForRedemption id priceId] ∧
      Books.Step prices hub.books (.priceIdSetForRedemption id priceId) hub'.books ∧
      hub'.params = hub.params ∧ hub'.access = hub.access := by
  simp only [setPriceIdForRedemption, bind_eq_ok, revertIf_eq_ok, pure_eq_ok, not_not,
    exists_const] at h
  obtain ⟨hunset, rfl⟩ := h
  exact ⟨rfl, .priceIdSetForRedemption hunset, rfl, rfl⟩

lemma overwriteDepositor_spec (prices : Uint256 → Tx Error Uint256) {id : Bytes32}
    {user : Address} {after priceId : Uint256}
    (h : hub.overwriteDepositor sender check id user after priceId = .ok hub') :
    ∃ e, e = .depositorOverwritten id (hub.depositIdToDepositor id).user user
        (hub.depositIdToDepositor id).priceId priceId
        (hub.depositIdToDepositor id).amountDepositedMinusFees after ∧
      hub'.log = hub.log ++ [e] ∧ Books.Step prices hub.books e hub'.books ∧
      hub'.params = hub.params ∧ hub'.access = hub.access := by
  simp only [overwriteDepositor, bind_eq_ok, pure_eq_ok] at h
  obtain ⟨_, -, _, -, rfl⟩ := h
  exact ⟨_, rfl, rfl, .depositorOverwritten, rfl, rfl⟩

lemma overwriteRedeemer_spec (prices : Uint256 → Tx Error Uint256) {id : Bytes32}
    {user : Address} {amount priceId : Uint256}
    (h : hub.overwriteRedeemer sender check id user amount priceId = .ok hub') :
    ∃ e, e = .redeemerOverwritten id (hub.redemptionIdToRedeemer id).user user
        (hub.redemptionIdToRedeemer id).priceId priceId
        (hub.redemptionIdToRedeemer id).amountRwaTokenBurned amount ∧
      hub'.log = hub.log ++ [e] ∧ Books.Step prices hub.books e hub'.books ∧
      hub'.params = hub.params ∧ hub'.access = hub.access := by
  simp only [overwriteRedeemer, bind_eq_ok, pure_eq_ok] at h
  obtain ⟨_, -, _, -, rfl⟩ := h
  exact ⟨_, rfl, rfl, .redeemerOverwritten, rfl, rfl⟩

lemma adminSet_spec {role : Role} {checked : Tx Error Unit} {write : Parameters → Parameters}
    {event : ParameterEvent}
    (h : hub.adminSet sender role checked write event = .ok hub') :
    hub' = { hub with params := write hub.params, log := hub.log ++ [.parameterSet event] } := by
  simp only [adminSet, bind_eq_ok, pure_eq_ok] at h
  obtain ⟨_, -, _, -, rfl⟩ := h
  rfl

/-- Of the admin setters only `setPricer` changes the pricer. -/
lemma execAdmin_spec {call : AdminCall} (h : hub.execAdmin sender call = .ok hub') :
    ∃ event, hub'.log = hub.log ++ [.parameterSet event] ∧ hub'.books = hub.books ∧
      hub'.access = hub.access ∧
      (hub'.params.pricer = hub.params.pricer ∨ call = .setPricer hub'.params.pricer) := by
  cases call with
  | setPricer newPricer =>
      rw [execAdmin, setPricer] at h
      obtain rfl := adminSet_spec h
      exact ⟨_, rfl, rfl, rfl, .inr rfl⟩
  | _ =>
      simp only [execAdmin, setMinimumRedemptionAmount, setMinimumDepositAmount, setMintFee,
        setRedemptionFee, setFeeRecipient, setAssetSender, pauseSubscription, pauseRedemption,
        unpauseSubscription, unpauseRedemption] at h
      obtain rfl := adminSet_spec h
      exact ⟨_, rfl, rfl, rfl, .inl rfl⟩

end RWAHub

/-! ## What the functions of the manager do to the books -/

namespace USBSManager

variable {manager manager' : USBSManager} {usbs usbs' : USBS} {lists : Lists}
  {pricers : Address → Option Pricer} {self sender : Address} {timestamp : Uint256}

lemma internalClaimMint_hub {id : Bytes32}
    (h : manager.internalClaimMint usbs lists pricers self timestamp id = .ok (manager', usbs')) :
    manager.hub.internalClaimMint usbs lists pricers self id = .ok (manager'.hub, usbs') := by
  simp only [internalClaimMint, bind_eq_ok, revertIf_eq_ok, pure_eq_ok, Prod.mk.injEq,
    exists_const] at h
  obtain ⟨-, -, claimed, hclaimed, rfl, rfl⟩ := h
  exact hclaimed

lemma requestRedemptionServicedOffchain_spec {amount : Uint256} {destination : Bytes32}
    (prices : Uint256 → Tx Error Uint256)
    (h : manager.requestRedemptionServicedOffchain usbs lists self sender amount destination =
      .ok (manager', usbs')) :
    ∃ e, e = .redemptionRequestedServicedOffChain sender manager.hub.redemptionRequestCounter
        amount destination ∧
      manager'.hub.log = manager.hub.log ++ [e] ∧
      Books.Step prices manager.hub.books e manager'.hub.books ∧
      manager'.hub.params = manager.hub.params ∧ manager'.hub.access = manager.hub.access ∧
      usbs.burnFrom lists self sender amount = .ok usbs' := by
  simp only [requestRedemptionServicedOffchain, bind_eq_ok, revertIf_eq_ok, pure_eq_ok,
    checkedAdd_eq_ok, Prod.mk.injEq, exists_const] at h
  obtain ⟨-, -, next, hnext, burned, hburn, rfl, rfl⟩ := h
  exact ⟨_, rfl, rfl, .redemptionRequestedServicedOffChain hnext, rfl, rfl, hburn⟩

lemma setClaimableTimestamp_updates {claimTimestamp : Uint256} {ids : List Bytes32}
    {step : Books → HubEvent → Books → Prop}
    (hstep : ∀ b id, step b (.claimableTimestampSet claimTimestamp id) b)
    (h : manager.setClaimableTimestamp sender timestamp claimTimestamp ids = .ok manager') :
    RWAHub.Updates step manager.hub manager'.hub := by
  simp only [setClaimableTimestamp, bind_eq_ok, revertIf_eq_ok, pure_eq_ok, exists_const] at h
  obtain ⟨_, -, -, rfl⟩ := h
  induction ids generalizing manager with
  | nil => exact .refl _
  | cons id ids ih =>
      rw [List.foldl_cons]
      refine RWAHub.Updates.trans ?_ ih
      exact .single (e := .claimableTimestampSet claimTimestamp id) rfl (hstep _ id) rfl rfl

lemma managerSet_spec {role : Role} {checked : Tx Error Unit}
    {write : ManagerParameters → ManagerParameters} {event : ParameterEvent}
    (h : manager.managerSet sender role checked write event = .ok manager') :
    manager'.hub = { manager.hub with log := manager.hub.log ++ [.parameterSet event] } ∧
      manager'.depositIdToClaimableTimestamp = manager.depositIdToClaimableTimestamp := by
  simp only [managerSet, bind_eq_ok, pure_eq_ok] at h
  obtain ⟨_, -, _, -, rfl⟩ := h
  exact ⟨rfl, rfl⟩

lemma execManagerSet_spec {call : ManagerCall}
    (h : manager.execManagerSet sender call = .ok manager') :
    ∃ event, manager'.hub = { manager.hub with
        log := manager.hub.log ++ [.parameterSet event] } ∧
      manager'.depositIdToClaimableTimestamp = manager.depositIdToClaimableTimestamp := by
  cases call <;>
  · simp only [execManagerSet, pauseOffChainRedemption, unpauseOffChainRedemption,
      setOffChainRedemptionMinimum, setBlocklist, setSanctionsList] at h
    exact ⟨_, managerSet_spec h⟩

end USBSManager

end BrivoUsbs
