import BrivoUsbs.Properties.EventLog

/-!
# Settlement at a defined price

A price id the pricer has not issued reads as the price zero.  On the mint side the amount is
divided by the price, so a claim then reverts.  On the redemption side it is multiplied: the
claim succeeds, pays nothing and deletes the entry.

`claimRedemption_priced` gives the condition that keeps this from happening.  In every pricer of
every run the ids with a price are those its counter has passed (`Pricer.Indexed`), so the price
ids of redemptions need only be compared with the counter.
-/

namespace BrivoUsbs

namespace RWAHub

variable {κ : Type} [IERC20 κ]

/-- Every redemption a batch settles had its price id set before the batch. -/
lemma claimRedemptionEntry_set {pricers : Address → Option Pricer} {self : Address}
    {check : Address → Tx Error Unit} {ids : List Bytes32} {batch batch' : RedemptionBatch κ}
    (h : ids.foldlM (claimRedemptionEntry pricers self check) batch = .ok batch') :
    ∀ id ∈ ids, (batch.hub.redemptionIdToRedeemer id).priceId ≠ 0 := by
  induction ids generalizing batch with
  | nil => simp
  | cons first ids ih =>
      simp only [List.foldlM_cons, bind_eq_ok] at h
      obtain ⟨mid, hfirst, hrest⟩ := h
      obtain ⟨net, price, fee, -, -, hstep, -⟩ := claimRedemptionEntry_spec hfirst
      obtain ⟨hset, -, htable⟩ := hstep.of_redemptionCompleted
      intro id hid
      rcases List.mem_cons.mp hid with rfl | hid
      · exact hset
      · have hlater := ih hrest id hid
        rw [show mid.hub.redemptionIdToRedeemer = _ from htable] at hlater
        by_cases hsame : id = first
        · exact hsame ▸ hset
        · rwa [Function.update_of_ne hsame] at hlater

end RWAHub

namespace World

variable {κ : Type} {w₀ w w' : World κ} {tr : List (Transition (World κ) (Action κ))}
  {a : Action κ} {priceId : Uint256}

/-- Every pricer is as its constructor left it. -/
def PricersNew (w : World κ) : Prop :=
  ∀ address contract, w.pricers address = some contract →
    ∃ deployer admin pricer, contract = Pricer.deploy deployer admin pricer

/-- In every pricer the ids with a price are those its counter has passed. -/
def PricersIndexed (w : World κ) : Prop :=
  ∀ address contract, w.pricers address = some contract → contract.Indexed

lemma PricersNew.indexed (h : w.PricersNew) : w.PricersIndexed := by
  intro address contract hcontract
  obtain ⟨deployer, admin, pricer, rfl⟩ := h address contract hcontract
  exact Pricer.deploy_indexed deployer admin pricer

/-- The number of prices added to the pricer at an address. -/
def priceCount (w : World κ) (address : Address) : ℕ :=
  (w.pricers address).elim 0 fun contract => contract.currentPriceId.toNat

/-- The number of prices added to the manager's pricer. -/
def issuedPrices (w : World κ) : ℕ := w.priceCount w.hub.params.pricer

/-- The manager finds a price under a set id exactly if that many prices have been added. -/
lemma priced_iff (h : w.PricersIndexed) (hset : priceId ≠ 0) :
    (∃ price, w.prices priceId = .ok price ∧ price ≠ 0) ↔ priceId.toNat ≤ w.issuedPrices := by
  unfold prices RWAHub.prices askPrice issuedPrices priceCount
  cases hpricer : w.pricers w.hub.params.pricer with
  | none =>
      have hpos : priceId.toNat ≠ 0 := by bv_omega
      simpa using hpos
  | some contract =>
      have hset' : ¬ priceId = 0#256 := hset
      simpa [hset'] using h _ _ hpricer priceId

/-- Every redemption the transition settles is settled at a defined price. -/
def SettlesPriced (t : Transition (World κ) (Action κ)) : Prop :=
  ∀ id ∈ t.label.claimedRedemptions, ∃ price,
    t.pre.prices (t.pre.hub.redemptionIdToRedeemer id).priceId = .ok price ∧ price ≠ 0

/-- The price ids the transition settles at are within the count of the pricer in use. -/
def ClaimsIssued (t : Transition (World κ) (Action κ)) : Prop :=
  ∀ id ∈ t.label.claimedRedemptions,
    (t.pre.hub.redemptionIdToRedeemer id).priceId.toNat ≤ t.pre.issuedPrices

instance (t : Transition (World κ) (Action κ)) : Decidable (ClaimsIssued t) :=
  List.decidableBAll _ t.label.claimedRedemptions

/-- The transition attaches only price ids within the count of the pricer to redemptions, and
replaces the pricer only by one whose count reaches those already attached. -/
structure AttachesIssued (t : Transition (World κ) (Action κ)) : Prop where
  attached : ∀ priceId ∈ t.label.attachedPriceIds, priceId.toNat ≤ t.pre.issuedPrices
  replaced : ∀ sender pricer, t.label = .manager sender (.admin (.setPricer pricer)) →
    ∀ id, (t.pre.hub.redemptionIdToRedeemer id).priceId.toNat ≤ t.pre.priceCount pricer

/-! ## The price ids along a run -/

/-- Replacing one pricer by one that has counted at least as far. -/
lemma pricers_update {address : Address} {contract : Pricer} (hindexed : w.PricersIndexed)
    (hpricers : w'.pricers = Function.update w.pricers address (some contract))
    (hcontract : contract.Indexed)
    (hcount : w.priceCount address ≤ contract.currentPriceId.toNat) :
    w'.PricersIndexed ∧ ∀ address, w.priceCount address ≤ w'.priceCount address := by
  refine ⟨fun other c hc => ?_, fun other => ?_⟩
  · rw [hpricers] at hc
    by_cases hother : other = address
    · subst hother
      rw [Function.update_self] at hc
      cases hc
      exact hcontract
    · rw [Function.update_of_ne hother] at hc
      exact hindexed other c hc
  · unfold priceCount
    rw [hpricers]
    by_cases hother : other = address
    · subst hother
      rw [Function.update_self]
      exact hcount
    · rw [Function.update_of_ne hother]

variable [IERC20 κ]

/-- Every step keeps the pricers indexed, and their counts only grow. -/
lemma exec_pricers (h : w.exec a = .ok w') (hindexed : w.PricersIndexed) :
    w'.PricersIndexed ∧ ∀ address, w.priceCount address ≤ w'.priceCount address := by
  have hsame : w'.pricers = w.pricers →
      w'.PricersIndexed ∧ ∀ address, w.priceCount address ≤ w'.priceCount address := by
    intro heq
    unfold PricersIndexed priceCount
    rw [heq]
    exact ⟨hindexed, fun address => le_rfl⟩
  cases a with
  | manager sender call => exact hsame (execManager_frame h).2.1
  | usbs sender call =>
      simp only [exec, bind_eq_ok, pure_eq_ok] at h
      obtain ⟨usbs, -, rfl⟩ := h
      exact hsame rfl
  | pricer called sender call =>
      simp only [exec, execPricer] at h
      split at h
      · cases h
      · next contract hcontract =>
          simp only [bind_eq_ok, pure_eq_ok] at h
          obtain ⟨contract', hcall, rfl⟩ := h
          obtain ⟨hindexed', hcount⟩ := Pricer.exec_indexed hcall (hindexed called _ hcontract)
          refine pricers_update hindexed rfl hindexed' ?_
          simpa [priceCount, hcontract] using hcount
  | deployPricer deployed sender admin pricer =>
      simp only [exec] at h
      split at h
      · next hfree =>
          cases h
          refine pricers_update hindexed rfl (Pricer.deploy_indexed sender admin pricer) ?_
          simp [priceCount, hfree]
      · cases h
  | collateral token =>
      cases h
      exact hsame rfl
  | lists lists =>
      cases h
      exact hsame rfl
  | wait timestamp =>
      simp only [exec] at h
      split at h
      · cases h
        exact hsame rfl
      · cases h

/-- Every price id attached to a redemption has been issued. -/
def AttachedIssued (w : World κ) : Prop :=
  ∀ id, (w.hub.redemptionIdToRedeemer id).priceId.toNat ≤ w.issuedPrices

/-- During a call the attached price ids stay within the count at its start. -/
lemma attachedIssued_books (h : w.Step a w') (hattaches : AttachesIssued ⟨w, a, w'⟩)
    (hissued : w.AttachedIssued) :
    ∀ id, (w'.hub.redemptionIdToRedeemer id).priceId.toNat ≤ w.issuedPrices := by
  refine (Step.emits h).invariant (P := fun b : Books => ∀ id,
    (b.redemptions id).priceId.toNat ≤ w.issuedPrices) hissued ?_
  rintro b e b' hb ⟨hstep, hattributed⟩
  cases hstep with
  | redemptionRequested huser hnext =>
      intro id
      by_cases hsame : id = b.nextRedemption
      · simp [hsame]
      · simpa [hsame] using hb id
  | @redemptionCompleted settled =>
      intro id
      by_cases hsame : id = settled
      · simp [hsame, Redeemer.null]
      · simpa [hsame] using hb id
  | @priceIdSetForRedemption assigned priceId hunset =>
      intro id
      by_cases hsame : id = assigned
      · subst hsame
        simp only [Function.update_self]
        cases hattributed with
        | setPriceIdForRedemptions hmem =>
            exact hattaches.attached priceId (List.of_mem_zip hmem).2
      · simpa [hsame] using hb id
  | @redeemerOverwritten overwritten user amount priceId =>
      intro id
      by_cases hsame : id = overwritten
      · subst hsame
        simp only [Function.update_self]
        cases hattributed with
        | overwriteRedeemer => exact hattaches.attached priceId (List.mem_singleton.mpr rfl)
      · simpa [hsame] using hb id
  | _ => exact hb

/-- A call of an admin setter leaves the redemptions alone. -/
lemma step_admin_redemptions {sender : Address} {call : RWAHub.AdminCall}
    (h : w.Step (.manager sender (.admin call)) w') :
    w'.hub.redemptionIdToRedeemer = w.hub.redemptionIdToRedeemer := by
  refine (Step.emits h).invariant (P := fun b : Books => b.redemptions = w.books.redemptions)
    rfl ?_
  rintro b e b' hb ⟨hstep, hattributed⟩
  cases hattributed with
  | admin =>
      cases hstep with
      | parameterSet => exact hb

lemma attachedIssued_step (h : w.Step a w') (hindexed : w.PricersIndexed)
    (hattaches : AttachesIssued ⟨w, a, w'⟩) (hissued : w.AttachedIssued) :
    w'.AttachedIssued := by
  intro id
  have hbooks := attachedIssued_books h hattaches hissued id
  obtain ⟨-, hcount⟩ := exec_pricers h.2 hindexed
  by_cases ha : ∃ sender call, a = .manager sender call
  · obtain ⟨sender, call, rfl⟩ := ha
    rcases execManager_pricer (h.1 sender rfl).1 h.2 with hpricer | rfl
    · unfold issuedPrices
      rw [hpricer]
      exact hbooks.trans (hcount _)
    · rw [step_admin_redemptions h]
      exact (hattaches.replaced sender _ rfl id).trans (hcount _)
  · have hmanager := (exec_manager_eq (fun sender call heq => ha ⟨sender, call, heq⟩) h.2).1
    unfold issuedPrices at hbooks ⊢
    simp only [hub, hmanager] at hbooks ⊢
    exact hbooks.trans (hcount _)

/-- A settled redemption had its price id set. -/
lemma step_claimedRedemptions_set (h : w.Step a w') :
    ∀ id ∈ a.claimedRedemptions, (w.hub.redemptionIdToRedeemer id).priceId ≠ 0 := by
  intro id hid
  cases a with
  | manager sender call =>
      cases call with
      | claimRedemption ids =>
          have hexec := h.2
          simp only [exec, execManager, RWAHub.claimRedemption, bind_eq_ok, revertIf_eq_ok,
            pure_eq_ok, exists_const] at hexec
          obtain ⟨_, ⟨-, batch, hloop, -⟩, -⟩ := hexec
          exact RWAHub.claimRedemptionEntry_set hloop id hid
      | _ => cases hid
  | _ => cases hid

/-- **Settlement at a defined price.**  In a run of a new manager over new pricers, redemptions
are settled at defined prices exactly if each is claimed with a price id within the count of the
pricer; it is enough to attach none but such price ids. -/
theorem claimRedemption_priced (hdeployed : w₀.Deployed) (hnew : w₀.PricersNew)
    (hrun : Run Step w₀ tr w) :
    ((∀ t ∈ tr, SettlesPriced t) ↔ ∀ t ∈ tr, ClaimsIssued t) ∧
      ((∀ t ∈ tr, AttachesIssued t) → ∀ t ∈ tr, SettlesPriced t) := by
  have hindexed : ∀ t ∈ tr, t.pre.PricersIndexed := fun t ht =>
    ((hrun.invariant hnew.indexed fun t _ hpre hstep =>
      (exec_pricers hstep.2 hpre).1).2 t ht).1
  have hiff : (∀ t ∈ tr, SettlesPriced t) ↔ ∀ t ∈ tr, ClaimsIssued t := by
    refine forall₂_congr fun t ht => forall₂_congr fun id hid => ?_
    obtain ⟨tr', tr'', -, -, hstep⟩ := hrun.exists_prefix ht
    exact priced_iff (hindexed t ht) (step_claimedRedemptions_set hstep id hid)
  refine ⟨hiff, fun hattaches => hiff.mpr ?_⟩
  have hinitial : w₀.AttachedIssued := by
    intro id
    have hbooks := congrArg (fun b => (b.redemptions id).priceId) hdeployed.fresh.books
    have hunset : (w₀.hub.redemptionIdToRedeemer id).priceId = 0 := hbooks
    simp [hunset]
  have hattached : ∀ t ∈ tr, t.pre.AttachedIssued := by
    have hpair := hrun.invariant (P := fun w => w.PricersIndexed ∧ w.AttachedIssued)
      ⟨hnew.indexed, hinitial⟩ fun t ht hpre hstep =>
        ⟨(exec_pricers hstep.2 hpre.1).1,
          attachedIssued_step hstep hpre.1 (hattaches t ht) hpre.2⟩
    exact fun t ht => (hpair.2 t ht).1.2
  exact fun t ht id _ => hattached t ht id

open Sample in
lemma sample_pricersNew : world.PricersNew := by
  intro address contract hcontract
  by_cases haddress : address = pricerAddress
  · subst haddress
    cases hcontract
    exact ⟨operator, operator, operator, rfl⟩
  · simp [Sample.world, haddress] at hcontract

open Sample in
theorem claimRedemption_priced_sample :
    (∃ t ∈ playTrace next world mintAndRedeem, t.label.claimedRedemptions = [1]) ∧
      ∀ t ∈ playTrace next world mintAndRedeem, SettlesPriced t :=
  ⟨by decide +kernel, (claimRedemption_priced world_deployed sample_pricersNew
    (run_play (fun _ _ _ => step_of_next) _ _)).1.mpr (by decide +kernel)⟩

open Sample in
/-- The customer redeems tokens at price id 2, which the pricer has not issued. -/
def undefinedPriceId : List (Action ERC20) := setup ++ [
  .pricer pricerAddress operator (.addPrice 1000000000000000000 999999),
  .manager customer (.requestSubscription 100000000),
  .manager operator (.setPriceIdForDeposits [1] [1]),
  .manager operator (.setClaimableTimestamp 1000000 [1]),
  .manager customer (.claimMint [1]),
  .usbs customer (.holder (.approve managerAddress 1000000000000000000000)),
  .manager customer (.requestRedemption 60000000000000000000),
  .manager operator (.setPriceIdForRedemptions [1] [2]),
  .manager customer (.claimRedemption [1])]

open Sample in
/-- The claim succeeds at the price zero: the entry is gone, and nothing was paid for it. -/
theorem undefinedPriceId_settled :
    world.Deployed ∧ world.PricersNew ∧
      Run Step world (playTrace next world undefinedPriceId)
        (play next world undefinedPriceId) ∧
      (¬ ∀ t ∈ playTrace next world undefinedPriceId, SettlesPriced t) ∧
      ∃ t ∈ playTrace next world undefinedPriceId, t.label.claimedRedemptions = [1] ∧
        t.pre.hub.redemptionIdToRedeemer 1 = ⟨customer, 60000000000000000000, 2⟩ ∧
        t.post.hub.redemptionIdToRedeemer 1 = .null ∧
        t.post.collateral.balances customer = t.pre.collateral.balances customer := by
  have hzero : ∃ t ∈ playTrace next world undefinedPriceId, 1 ∈ t.label.claimedRedemptions ∧
      (t.pre.prices (t.pre.hub.redemptionIdToRedeemer 1).priceId).toOption = some 0 := by
    decide +kernel
  refine ⟨world_deployed, sample_pricersNew, run_play (fun _ _ _ => step_of_next) _ _, ?_,
    by decide +kernel⟩
  intro hpriced
  obtain ⟨t, ht, hclaimed, hprice⟩ := hzero
  obtain ⟨price, hok, hdefined⟩ := hpriced t ht 1 hclaimed
  rw [hok] at hprice
  exact hdefined (Option.some.inj hprice)

end World

end BrivoUsbs
