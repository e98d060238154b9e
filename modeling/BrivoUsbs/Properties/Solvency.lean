import BrivoUsbs.Properties.DepositLedger
import BrivoUsbs.Properties.RedemptionLedger

/-!
# Solvency at a constant price

At one price for all, redemptions pay out no more collateral than mints were completed for, over
any run and however the roundings fall.  The amounts are compared along the chain

  paid out ≤ redeemed ≤ requested ≤ minted ≤ minted for,

in units of `10 ^ 18 * decimalsMultiplier` collateral, or of the price in RWA.  Each link is an
invariant of its own.  The outer two are the roundings, all downwards: `mintedOut_le` for the
division in a mint, `Settling` for the two divisions in a redemption, whose fees come out of the
amount itself.  The link from redeemed to requested is the redemption ledger, and the one from
requested to minted holds because a request burns its RWA and nobody but the manager mints.
-/

namespace BrivoUsbs

/-! ## Rounding -/

namespace Books

variable (b : Books) (amount price : Uint256)

lemma mintAmount_mul_le :
    b.mintAmount amount price * price.toNat ≤
      amount.toNat * (10 ^ 18 * b.decimalsMultiplier.toNat) := by
  have hround := Nat.div_mul_le_self (amount.toNat * b.decimalsMultiplier.toNat * 10 ^ 18)
    price.toNat
  calc
    b.mintAmount amount price * price.toNat
        ≤ amount.toNat * b.decimalsMultiplier.toNat * 10 ^ 18 := hround
    _ = amount.toNat * (10 ^ 18 * b.decimalsMultiplier.toNat) := by
      rw [Nat.mul_assoc, Nat.mul_comm b.decimalsMultiplier.toNat]

lemma redemptionAmount_mul_le :
    b.redemptionAmount amount price * (10 ^ 18 * b.decimalsMultiplier.toNat) ≤
      amount.toNat * price.toNat := by
  rw [redemptionAmount, Nat.div_div_eq_div_mul]
  exact Nat.div_mul_le_self _ _

end Books

/-- The RWA a mint creates. -/
def HubEvent.mintedOutAmount : HubEvent → ℕ
  | .mintCompleted _ _ out _ _ _ => out.toNat
  | _ => 0

/-- A bound on every event of a log is one on the log. -/
lemma total_mul_le {f g : HubEvent → ℕ} {c d : ℕ} {log : List HubEvent}
    (h : ∀ e ∈ log, f e * c ≤ g e * d) : total f log * c ≤ total g log * d := by
  induction log with
  | nil => simp
  | cons e log ih =>
      have hfirst := h e List.mem_cons_self
      have hrest := ih fun e he => h e (List.mem_cons_of_mem _ he)
      simp only [total, List.map_cons, List.sum_cons, Nat.add_mul] at hrest ⊢
      exact Nat.add_le_add hfirst hrest

namespace World

variable {κ : Type} {w₀ w w' : World κ} {tr : List (Transition (World κ) (Action κ))}
  {a : Action κ} {price : Uint256} {es : List HubEvent}

/-! ## Requested RWA is minted RWA -/

/-- Nobody but the manager mints. -/
def OnlyMinter (w : World κ) : Prop :=
  ∀ account, w.usbs.access.hasRole .minterRole account = true → account = w.self

/-- A batch of mints adds to the supply what its events say. -/
lemma claimMint_supply {ids : List Bytes32} {manager' : USBSManager} {usbs' : USBS}
    (h : w.manager.claimMint w.usbs w.lists w.pricers w.self w.timestamp ids =
      .ok (manager', usbs')) :
    (∃ es, manager'.hub.log = w.log ++ es ∧
      usbs'.erc20.totalSupply.toNat =
        w.usbs.erc20.totalSupply.toNat + total HubEvent.mintedOutAmount es) ∧
      usbs'.access = w.usbs.access := by
  simp only [USBSManager.claimMint, bind_eq_ok, revertIf_eq_ok, exists_const] at h
  obtain ⟨-, hloop⟩ := h
  refine foldlM_invariant (P := fun s : USBSManager × USBS =>
    (∃ es, s.1.hub.log = w.log ++ es ∧
      s.2.erc20.totalSupply.toNat =
        w.usbs.erc20.totalSupply.toNat + total HubEvent.mintedOutAmount es) ∧
      s.2.access = w.usbs.access) ?_ ⟨⟨[], by simp, rfl⟩, rfl⟩ hloop
  rintro id - ⟨manager, usbs⟩ ⟨manager', usbs'⟩ ⟨⟨es, hes, hsupply⟩, haccess⟩ hentry
  have hhub := USBSManager.internalClaimMint_hub hentry
  obtain ⟨out, price, -, hlog, -, -, -, hmint⟩ := RWAHub.internalClaimMint_spec hhub
  obtain ⟨-, -, haccess', hsupply', -⟩ := USBS.mint_spec hmint
  refine ⟨⟨es ++ [_], by rw [hlog, hes, List.append_assoc], ?_⟩, haccess'.trans haccess⟩
  rw [hsupply', hsupply, total_append, total_singleton, HubEvent.mintedOutAmount, Nat.add_assoc]

variable [IERC20 κ]

/-- **Supply.**  A step that raises the supply completes mints for it, and an on-chain request
burns what it is for. -/
lemma step_supply (h : w.Step a w') (honly : w.OnlyMinter) (hlog : w'.log = w.log ++ es) :
    w'.usbs.erc20.totalSupply.toNat + total HubEvent.requestedAmount es ≤
        w.usbs.erc20.totalSupply.toNat + total HubEvent.mintedOutAmount es ∧
      ((∀ sender call, a ≠ .usbs sender (.access call)) → w'.usbs.access = w.usbs.access) := by
  by_cases hrequest : ∃ sender amount, a = .manager sender (.requestRedemption amount)
  · obtain ⟨sender, amount, rfl⟩ := hrequest
    obtain ⟨hlog', hburned, haccess⟩ := step_requestRedemption h
    obtain rfl : es = _ := List.append_cancel_left (hlog.symm.trans hlog')
    simp only [total_singleton, HubEvent.requestedAmount, HubEvent.mintedOutAmount]
    exact ⟨by omega, fun _ => haccess⟩
  · have hnone : total HubEvent.requestedAmount es = 0 :=
      total_requestedAmount_eq_zero h hlog fun sender amount heq => hrequest ⟨sender, amount, heq⟩
    rw [hnone, Nat.add_zero]
    obtain ⟨hcaller, hexec⟩ := h
    cases a with
    | manager sender call =>
        cases call with
        | claimMint ids =>
            simp only [exec, execManager, bind_eq_ok, pure_eq_ok, Prod.exists] at hexec
            obtain ⟨manager', usbs', hcall, rfl⟩ := hexec
            obtain ⟨⟨es', hlog', hsupply⟩, haccess⟩ := claimMint_supply hcall
            obtain rfl : es = es' := List.append_cancel_left (hlog.symm.trans hlog')
            exact ⟨hsupply.le, fun _ => haccess⟩
        | requestRedemption amount => exact absurd ⟨sender, amount, rfl⟩ hrequest
        | requestRedemptionServicedOffchain amount destination =>
            simp only [exec, execManager, bind_eq_ok, pure_eq_ok, Prod.exists] at hexec
            obtain ⟨manager', usbs', hcall, rfl⟩ := hexec
            obtain ⟨-, -, -, -, -, -, hburn⟩ :=
              USBSManager.requestRedemptionServicedOffchain_spec w.prices hcall
            obtain ⟨-, haccess, hsupply⟩ := USBS.burnFrom_spec hburn
            exact ⟨by simp only; omega, fun _ => haccess⟩
        | _ =>
            simp only [exec, execManager, bind_eq_ok, pure_eq_ok] at hexec
            obtain ⟨_, -, rfl⟩ := hexec
            exact ⟨Nat.le_add_right _ _, fun _ => rfl⟩
    | usbs sender call =>
        simp only [exec, bind_eq_ok, pure_eq_ok] at hexec
        obtain ⟨usbs', hcall, rfl⟩ := hexec
        have hminter : w.usbs.access.hasRole .minterRole sender = false := by
          rw [Bool.eq_false_iff]
          intro hrole
          have hself : sender = w.self := honly sender hrole
          exact (hcaller sender rfl).2 hself
        obtain ⟨hsupply, haccess⟩ := USBS.exec_supply hcall hminter
        refine ⟨hsupply.trans (Nat.le_add_right _ _), fun hne => haccess ?_⟩
        intro access heq
        exact hne sender access (heq ▸ rfl)
    | _ =>
        have husbs : w'.usbs = w.usbs := (exec_manager_eq (by simp) hexec).2.2 (by simp)
        rw [husbs]
        exact ⟨Nat.le_add_right _ _, fun _ => rfl⟩

/-! ## Minted RWA is covered by deposits -/

/-- The mints of one step are worth no more than the deposits they are for. -/
lemma mintedOut_le (h : w.Step a w') (hlog : w'.log = w.log ++ es)
    (hprice : ∀ id ∈ a.claimedDeposits,
      w.prices (w.hub.depositIdToDepositor id).priceId = .ok price) :
    total HubEvent.mintedOutAmount es * price.toNat ≤
      total HubEvent.mintedForAmount es * (10 ^ 18 * w.hub.decimalsMultiplier.toNat) := by
  obtain ⟨es', hlog', hpath⟩ := h.emits
  obtain rfl : es = es' := List.append_cancel_left (hlog.symm.trans hlog')
  refine total_mul_le (hpath.labels_of_invariant (P := fun b : Books =>
    b.decimalsMultiplier = w.hub.decimalsMultiplier ∧
      ∀ id ∈ a.claimedDeposits, (b.deposits id).priceId ≠ 0 →
        (b.deposits id).priceId = (w.hub.depositIdToDepositor id).priceId)
    ⟨rfl, fun _ _ _ => rfl⟩ ?_)
  rintro b e b' ⟨hmultiplier, hentries⟩ ⟨hstep, hattributed⟩
  refine ⟨⟨hstep.decimalsMultiplier_eq.trans hmultiplier, ?_⟩, ?_⟩
  · -- Within a batch the entries only go away.
    cases hattributed with
    | @claimMint _ _ _ id _ _ _ _ hid =>
        obtain ⟨-, -, htable, -⟩ := hstep.of_mintCompleted
        intro i hi hset
        rw [htable] at hset ⊢
        by_cases hsame : i = id
        · subst hsame
          simp [Depositor.null] at hset
        · rw [Function.update_of_ne hsame] at hset ⊢
          exact hentries i hi hset
    | _ => exact fun i hi => absurd hi List.not_mem_nil
  · cases hstep with
    | @mintCompleted id out price' hset huser hprice' hdefined hout =>
        cases hattributed with
        | claimMint hid =>
            have hsame := hprice id hid
            rw [← hentries id hid hset, hprice'] at hsame
            obtain rfl : price' = price := Except.ok.inj hsame
            have hround := b.mintAmount_mul_le (b.deposits id).amountDepositedMinusFees price'
            rw [← hout, hmultiplier] at hround
            exact hround
    | _ => simp [HubEvent.mintedOutAmount]

end World

/-! ## Settled redemptions are paid no more than they are worth -/

namespace RWAHub

variable {hub hub' : RWAHub} {token token' : ERC20} {pricers : Address → Option Pricer}
  {self : Address} {check : Address → Tx Error Unit} {price : Uint256} {ids : List Bytes32}

/-- A batch of settlements underway, at one price: what it has paid out and put aside as fees is
worth no more than the redemptions it has settled. -/
structure Settling (hub : RWAHub) (token : ERC20) (price : Uint256)
    (batch : RedemptionBatch ERC20) : Prop where
  params : batch.hub.params = hub.params
  multiplier : batch.hub.decimalsMultiplier = hub.decimalsMultiplier
  entries : ∀ id, (batch.hub.redemptionIdToRedeemer id).priceId ≠ 0 →
    batch.hub.redemptionIdToRedeemer id = hub.redemptionIdToRedeemer id
  paid : ∃ es values, batch.hub.log = hub.log ++ es ∧ ERC20.Moves token batch.token values ∧
    (values.sum + batch.fees.toNat) * (10 ^ 18 * hub.decimalsMultiplier.toNat) ≤
      total HubEvent.completedAmount es * price.toNat ∧
    (hub.decimalsMultiplier = 0 → values.sum + batch.fees.toNat = 0)

lemma Settling.start : Settling hub token price ⟨hub, token, 0⟩ where
  params := rfl
  multiplier := rfl
  entries _ _ := rfl
  paid := ⟨[], [], by simp, ⟨[], by simp, rfl⟩, by simp, fun _ => rfl⟩

lemma Settling.entry {batch batch' : RedemptionBatch ERC20} {id : Bytes32}
    (hprice : hub.prices pricers (hub.redemptionIdToRedeemer id).priceId = .ok price)
    (h : Settling hub token price batch)
    (hentry : claimRedemptionEntry pricers self check batch id = .ok batch') :
    Settling hub token price batch' := by
  obtain ⟨net, price', fee, hprice', hlog, hstep, hparams, -, hnet, hfees, htransfer⟩ :=
    claimRedemptionEntry_spec hentry
  obtain ⟨hset, hmultiplier, htable⟩ := hstep.of_redemptionCompleted
  have hsame : batch.hub.redemptionIdToRedeemer id = hub.redemptionIdToRedeemer id :=
    h.entries id hset
  obtain rfl : price' = price := by
    have heq : batch.hub.prices pricers = hub.prices pricers := by
      funext priceId
      rw [RWAHub.prices, RWAHub.prices, h.params]
    rw [heq, hsame, hprice] at hprice'
    exact (Except.ok.inj hprice').symm
  obtain ⟨es, values, hes, hmoves, hpaid, hzero⟩ := h.paid
  refine ⟨hparams.trans h.params, hstep.decimalsMultiplier_eq.trans h.multiplier, ?_, ?_⟩
  · intro i hi
    rw [show batch'.hub.redemptionIdToRedeemer = _ from htable] at hi ⊢
    by_cases hi' : i = id
    · simp [hi', Redeemer.null] at hi
    · rw [Function.update_of_ne hi'] at hi ⊢
      exact h.entries i hi
  · obtain ⟨-, -, -, -, hmoved⟩ :=
      ERC20.transferFrom_spec (safeTransferFrom_erc20 htransfer)
    refine ⟨es ++ [_], values ++ [net.toNat], by rw [hlog, hes, List.append_assoc],
      hmoves.trans hmoved, ?_, fun h0 => absurd (h.multiplier.trans h0) hmultiplier⟩
    have hround := batch.hub.books.redemptionAmount_mul_le
      (batch.hub.redemptionIdToRedeemer id).amountRwaTokenBurned price'
    rw [← hnet, show batch.hub.books.decimalsMultiplier = _ from h.multiplier] at hround
    rw [hfees, total_append, total_singleton, HubEvent.completedAmount, List.sum_append,
      List.sum_singleton, Nat.add_mul (total _ _)]
    calc
      (values.sum + net.toNat + (batch.fees.toNat + fee.toNat)) *
            (10 ^ 18 * hub.decimalsMultiplier.toNat)
          = (values.sum + batch.fees.toNat) * (10 ^ 18 * hub.decimalsMultiplier.toNat) +
              (net.toNat + fee.toNat) * (10 ^ 18 * hub.decimalsMultiplier.toNat) := by
            rw [← Nat.add_mul]
            congr 1
            omega
      _ ≤ _ := Nat.add_le_add hpaid hround

/-- **A batch of settlements** at one price transfers values that are worth no more than the
redemptions it settles. -/
lemma claimRedemption_paid
    (h : hub.claimRedemption token pricers self check ids = .ok (hub', token'))
    (hprice : ∀ id ∈ ids,
      hub.prices pricers (hub.redemptionIdToRedeemer id).priceId = .ok price) :
    ∃ es values, hub'.log = hub.log ++ es ∧ ERC20.Moves token token' values ∧
      values.sum * (10 ^ 18 * hub.decimalsMultiplier.toNat) ≤
        total HubEvent.completedAmount es * price.toNat ∧
      (hub.decimalsMultiplier = 0 → values.sum = 0) := by
  simp only [claimRedemption, bind_eq_ok, revertIf_eq_ok, pure_eq_ok, exists_const,
    Prod.mk.injEq] at h
  obtain ⟨-, batch, hloop, token'', hfees, rfl, rfl⟩ := h
  have hsettling := foldlM_invariant (P := Settling hub token price)
    (fun id hid batch batch' hb hentry => hb.entry (hprice id hid) hentry) .start hloop
  obtain ⟨es, values, hes, hmoves, hpaid, hzero⟩ := hsettling.paid
  unfold transferFees at hfees
  split at hfees
  · -- The fees of the whole batch go out in one transfer.
    obtain ⟨-, -, -, -, hmoved⟩ := ERC20.transferFrom_spec (safeTransferFrom_erc20 hfees)
    refine ⟨es, values ++ [batch.fees.toNat], hes, hmoves.trans hmoved, ?_⟩
    rw [List.sum_append, List.sum_singleton]
    exact ⟨hpaid, hzero⟩
  · cases hfees
    refine ⟨es, values, hes, hmoves, le_trans ?_ hpaid, fun h0 => ?_⟩
    · exact Nat.mul_le_mul_right _ (Nat.le_add_right _ _)
    · have hsum := hzero h0
      omega

end RWAHub

/-! ## Runs -/

namespace World

variable {w₀ w w' : World ERC20} {tr : List (Transition (World ERC20) (Action ERC20))}
  {a : Action ERC20} {price : Uint256} {es : List HubEvent}

/-- The collateral a transition pays out through `claimRedemption`, to users and as fees: the
values of the transfers it makes. -/
def paidOut (t : Transition (World ERC20) (Action ERC20)) : ℕ :=
  match t.label with
  | .manager _ (.claimRedemption _) =>
      (ERC20.transferred (t.post.collateral.log.drop t.pre.collateral.log.length)).sum
  | _ => 0

/-- Whatever the transition claims is priced the same. -/
def PricedAt (price : Uint256) (t : Transition (World ERC20) (Action ERC20)) : Prop :=
  (∀ id ∈ t.label.claimedDeposits,
    t.pre.prices (t.pre.hub.depositIdToDepositor id).priceId = .ok price) ∧
  ∀ id ∈ t.label.claimedRedemptions,
    t.pre.prices (t.pre.hub.redemptionIdToRedeemer id).priceId = .ok price

instance (price : Uint256) (t : Transition (World ERC20) (Action ERC20)) :
    Decidable (PricedAt price t) :=
  haveI : Decidable (∀ id ∈ t.label.claimedDeposits,
      t.pre.prices (t.pre.hub.depositIdToDepositor id).priceId = .ok price) :=
    List.decidableBAll _ _
  haveI : Decidable (∀ id ∈ t.label.claimedRedemptions,
      t.pre.prices (t.pre.hub.redemptionIdToRedeemer id).priceId = .ok price) :=
    List.decidableBAll _ _
  instDecidableAnd

/-- What one step pays out is worth no more than what it settles. -/
lemma step_paidOut (h : w.Step a w') (hlog : w'.log = w.log ++ es)
    (hprice : ∀ id ∈ a.claimedRedemptions,
      w.prices (w.hub.redemptionIdToRedeemer id).priceId = .ok price) :
    paidOut ⟨w, a, w'⟩ * (10 ^ 18 * w.hub.decimalsMultiplier.toNat) ≤
        total HubEvent.completedAmount es * price.toNat ∧
      (w.hub.decimalsMultiplier = 0 → paidOut ⟨w, a, w'⟩ = 0) := by
  by_cases hclaim : ∃ sender ids, a = .manager sender (.claimRedemption ids)
  · obtain ⟨sender, ids, rfl⟩ := hclaim
    have hexec := h.2
    simp only [exec, execManager, bind_eq_ok, pure_eq_ok, Prod.exists] at hexec
    obtain ⟨hub', token', hcall, rfl⟩ := hexec
    obtain ⟨es', values, hlog', ⟨events, hevents, hvalues⟩, hpaid, hzero⟩ :=
      RWAHub.claimRedemption_paid hcall hprice
    obtain rfl : es = es' := List.append_cancel_left (hlog.symm.trans hlog')
    have hsum : paidOut ⟨w, .manager sender (.claimRedemption ids),
        { w with manager := { w.manager with hub := hub' }, collateral := token' }⟩ =
          values.sum := by
      simp only [paidOut, hevents, List.drop_left, hvalues]
    rw [hsum]
    exact ⟨hpaid, hzero⟩
  · have hnone : paidOut ⟨w, a, w'⟩ = 0 := by
      unfold paidOut
      split
      · next sender ids heq => exact absurd ⟨sender, ids, heq⟩ hclaim
      · rfl
    simp [hnone]

/-- The links of the chain that are kept step by step. -/
structure Solvent (m price : Uint256)
    (tr : List (Transition (World ERC20) (Action ERC20))) (w : World ERC20) : Prop where
  multiplier : w.hub.decimalsMultiplier = m
  requested_le : w.usbs.erc20.totalSupply.toNat + total HubEvent.requestedAmount w.log ≤
    total HubEvent.mintedOutAmount w.log
  minted_le : total HubEvent.mintedOutAmount w.log * price.toNat ≤
    total HubEvent.mintedForAmount w.log * (10 ^ 18 * m.toNat)
  paid_le : (tr.map paidOut).sum * (10 ^ 18 * m.toNat) ≤
    total HubEvent.completedAmount w.log * price.toNat
  paid_zero : m = 0 → (tr.map paidOut).sum = 0

lemma Solvent.start (hfresh : w₀.Fresh) (hsupply : w₀.usbs.erc20.totalSupply = 0) :
    Solvent w₀.hub.decimalsMultiplier price [] w₀ := by
  have hzero : ∀ quantity : HubEvent → ℕ, (∀ event, quantity (.parameterSet event) = 0) →
      total quantity w₀.log = 0 := by
    intro quantity hset
    refine total_eq_zero fun e he => ?_
    obtain ⟨event, rfl⟩ := hfresh.log e he
    exact hset event
  refine ⟨rfl, ?_, ?_, by simp, fun _ => rfl⟩
  · rw [hsupply, hzero _ fun _ => rfl]
    simp
  · rw [hzero HubEvent.mintedOutAmount fun _ => rfl]
    simp

lemma Solvent.step {m : Uint256} (hsolvent : Solvent m price tr w)
    (h : w.Step a w') (honly : w.OnlyMinter) (hprice : PricedAt price ⟨w, a, w'⟩) :
    Solvent m price (tr ++ [⟨w, a, w'⟩]) w' := by
  obtain ⟨rfl, hrequested, hminted, hpaid, hzero⟩ := hsolvent
  obtain ⟨es, hlog, hpath⟩ := h.emits
  have hmultiplier : w'.hub.decimalsMultiplier = w.hub.decimalsMultiplier :=
    (Step.emits h).invariant
      (P := fun b : Books => b.decimalsMultiplier = w.hub.decimalsMultiplier) rfl
      fun b e b' hb hstep => hstep.1.decimalsMultiplier_eq.trans hb
  obtain ⟨hsupply, -⟩ := step_supply h honly hlog
  have hminted' := mintedOut_le h hlog hprice.1
  obtain ⟨hpaid', hzero'⟩ := step_paidOut h hlog hprice.2
  refine ⟨hmultiplier, ?_, ?_, ?_, fun h0 => ?_⟩
  · rw [hlog, total_append, total_append]
    omega
  · rw [hlog, total_append, total_append, Nat.add_mul, Nat.add_mul]
    exact Nat.add_le_add hminted hminted'
  · rw [hlog, total_append, List.map_append, List.sum_append, List.map_singleton,
      List.sum_singleton, Nat.add_mul, Nat.add_mul]
    exact Nat.add_le_add hpaid hpaid'
  · rw [List.map_append, List.sum_append, List.map_singleton, List.sum_singleton, hzero h0,
      hzero' h0]

/-- **Solvency at a constant price.**  Starting without supply, with the manager as the only
minter and one price behind whatever is claimed, redemptions never pay out more collateral than
the completed mints were for. -/
theorem paidOut_le_mintedFor (hfresh : w₀.Fresh) (hsupply : w₀.usbs.erc20.totalSupply = 0)
    (hrun : Run Step w₀ tr w) (hno : ∀ t ∈ tr, t.label.isOverwriteRedeemer = false)
    (honly : ∀ t ∈ tr, t.pre.OnlyMinter) (hprice : ∀ t ∈ tr, PricedAt price t) :
    (tr.map paidOut).sum ≤ total HubEvent.mintedForAmount w.log := by
  have hcompleted := total_completedAmount_le hfresh hrun hno
  have hsolvent : Solvent w₀.hub.decimalsMultiplier price tr w := by
    clear hno hcompleted
    induction hrun using Run.induction with
    | nil => exact .start hfresh hsupply
    | snoc tr w a w' _ hlast ih =>
        exact (ih (fun t ht => honly t (List.mem_append_left _ ht))
          fun t ht => hprice t (List.mem_append_left _ ht)).step hlast
            (honly ⟨w, a, w'⟩ (by simp)) (hprice ⟨w, a, w'⟩ (by simp))
  by_cases hmultiplier : w₀.hub.decimalsMultiplier = 0
  · rw [hsolvent.paid_zero hmultiplier]
    exact Nat.zero_le _
  · have hpos : 0 < 10 ^ 18 * w₀.hub.decimalsMultiplier.toNat := by
      refine Nat.mul_pos (by decide) (Nat.pos_of_ne_zero fun h0 => hmultiplier ?_)
      exact BitVec.eq_of_toNat_eq h0
    refine Nat.le_of_mul_le_mul_right ?_ hpos
    calc
      (tr.map paidOut).sum * (10 ^ 18 * w₀.hub.decimalsMultiplier.toNat)
          ≤ total HubEvent.completedAmount w.log * price.toNat := hsolvent.paid_le
      _ ≤ total HubEvent.requestedAmount w.log * price.toNat :=
          Nat.mul_le_mul_right _ hcompleted
      _ ≤ total HubEvent.mintedOutAmount w.log * price.toNat :=
          Nat.mul_le_mul_right _ ((Nat.le_add_left _ _).trans hsolvent.requested_le)
      _ ≤ total HubEvent.mintedForAmount w.log *
            (10 ^ 18 * w₀.hub.decimalsMultiplier.toNat) := hsolvent.minted_le

/-- If the manager is the only minter and the token's roles are left alone, it stays the only
minter. -/
lemma onlyMinter_of_noTokenAccess (honly : w₀.OnlyMinter) (hrun : Run Step w₀ tr w)
    (hno : ∀ t ∈ tr, t.label.isTokenAccess = false) : ∀ t ∈ tr, t.pre.OnlyMinter := by
  refine fun t ht => ((hrun.invariant honly ?_).2 t ht).1
  intro t ht hpre hstep account hrole
  obtain ⟨es, hlog, -⟩ := hstep.emits
  have haccess := (step_supply hstep hpre hlog).2 fun sender call heq => by
    have hcall := hno t ht
    simp [heq, Action.isTokenAccess] at hcall
  rw [haccess] at hrole
  rw [exec_self hstep.2]
  exact hpre account hrole

lemma sample_onlyMinter : Sample.world.OnlyMinter := by
  intro account hrole
  by_contra hne
  simp [Sample.world, Sample.usbs, AccessControl.hasRole, AccessControl.internalGrantRole,
    AccessControl.empty, Function.update_of_ne (show account ≠ Sample.managerAddress from hne)]
    at hrole

open Sample in
theorem paidOut_le_mintedFor_sample :
    ((playTrace next world mintAndRedeem).map paidOut).sum ≤
      total HubEvent.mintedForAmount (play next world mintAndRedeem).log :=
  have hrun := run_play (fun _ _ _ => step_of_next) world mintAndRedeem
  have hprice : ∀ t ∈ playTrace next world mintAndRedeem, PricedAt 1000000000000000000 t := by
    decide +kernel
  paidOut_le_mintedFor world_deployed.fresh rfl hrun (by decide +kernel)
    (onlyMinter_of_noTokenAccess sample_onlyMinter hrun (by decide +kernel)) hprice

end World

end BrivoUsbs
