import BrivoUsbs.Properties.DepositLedger

/-!
# Fees on subscriptions

The mint fee is a number of basis points of the deposit, rounded down, so it is at least one unit
of collateral if the deposit is at least as many units as there are basis points.  The two setters
keep the minimum deposit and the fee on their sides of `BPS_DENOMINATOR`, but the constructor
stores the minimum it is given unchecked: `subscriptions_charged` says that every subscription is
charged exactly in the deployments that are given a large enough one.
-/

namespace BrivoUsbs

namespace RWAHub

variable {hub hub' : RWAHub} {sender : Address}

/-- What rules out a free subscription, and a fee above the deposit. -/
structure FeeBounds (hub : RWAHub) : Prop where
  minimum : bpsDenominator ≤ hub.params.minimumDepositAmount
  mintFee : hub.params.mintFee ≤ bpsDenominator

/-- The setters keep the bounds. -/
lemma execAdmin_feeBounds {call : AdminCall} (hbounds : hub.FeeBounds)
    (h : hub.execAdmin sender call = .ok hub') : hub'.FeeBounds := by
  cases call with
  | setMinimumDepositAmount amount =>
      simp only [execAdmin, setMinimumDepositAmount, adminSet, bind_eq_ok, revertIf_eq_ok,
        pure_eq_ok, exists_const] at h
      obtain ⟨_, -, hlarge, rfl⟩ := h
      exact ⟨BitVec.not_lt.mp hlarge, hbounds.mintFee⟩
  | setMintFee fee =>
      simp only [execAdmin, setMintFee, adminSet, bind_eq_ok, revertIf_eq_ok, pure_eq_ok,
        exists_const] at h
      obtain ⟨_, -, hsmall, rfl⟩ := h
      exact ⟨hbounds.minimum, BitVec.not_lt.mp hsmall⟩
  | _ =>
      simp only [execAdmin, setMinimumRedemptionAmount, setRedemptionFee, setPricer,
        setFeeRecipient, setAssetSender, pauseSubscription, pauseRedemption,
        unpauseSubscription, unpauseRedemption] at h
      obtain rfl := adminSet_spec h
      exact ⟨hbounds.minimum, hbounds.mintFee⟩

/-- A deposit of the minimum or more pays at least one unit at a positive fee, and at most
itself. -/
lemma FeeBounds.fee_bounds (hbounds : hub.FeeBounds) {amount : Uint256}
    (hamount : hub.params.minimumDepositAmount ≤ amount) (hfee : hub.params.mintFee ≠ 0) :
    1 ≤ amount.toNat * hub.params.mintFee.toNat / 10000 ∧
      amount.toNat * hub.params.mintFee.toNat / 10000 ≤ amount.toNat := by
  have hlarge : 10000 ≤ amount.toNat := BitVec.le_def.mp (BitVec.le_trans hbounds.minimum hamount)
  have hsmall : hub.params.mintFee.toNat ≤ 10000 := BitVec.le_def.mp hbounds.mintFee
  constructor
  · rw [Nat.le_div_iff_mul_le (by norm_num), Nat.one_mul]
    exact hlarge.trans (Nat.le_mul_of_pos_right _ (toNat_pos hfee))
  · refine Nat.div_le_of_le_mul ?_
    rw [Nat.mul_comm 10000]
    exact Nat.mul_le_mul_left _ hsmall

/-- An accepted subscription is of the minimum at least. -/
lemma requestSubscription_minimum {κ : Type} [IERC20 κ] {token token' : κ} {self : Address}
    {check : Address → Tx Error Unit} {amount : Uint256}
    (h : hub.requestSubscription token self sender check amount = .ok (hub', token')) :
    hub.params.minimumDepositAmount ≤ amount := by
  simp only [requestSubscription, bind_eq_ok, revertIf_eq_ok, exists_const] at h
  obtain ⟨-, _, -, hlarge, -⟩ := h
  exact BitVec.not_lt.mp hlarge

end RWAHub

namespace World

variable {κ : Type} [IERC20 κ] {w₀ w w' : World κ} {a : Action κ}
  {tr : List (Transition (World κ) (Action κ))}

lemma Step.feeBounds (h : w.Step a w') (hbounds : w.hub.FeeBounds) : w'.hub.FeeBounds := by
  by_cases ha : ∃ sender call, a = .manager sender call
  · obtain ⟨sender, call, rfl⟩ := ha
    rcases (execManager_emits (h.1 sender rfl).1 h.2).2 with hparams | ⟨admin, rfl, hadmin⟩
    · exact ⟨hparams ▸ hbounds.minimum, hparams ▸ hbounds.mintFee⟩
    · exact RWAHub.execAdmin_feeBounds hbounds hadmin
  · have hsame := (exec_manager_eq (fun sender call heq => ha ⟨sender, call, heq⟩) h.2).1
    rw [hub, hsame]
    exact hbounds

/-- Every subscription accepted while there is a mint fee is charged one unit of collateral at
least, and its own amount at most. -/
def SubscriptionsCharged (tr : List (Transition (World κ) (Action κ))) : Prop :=
  ∀ t ∈ tr, ∀ sender amount, t.label = .manager sender (.requestSubscription amount) →
    t.pre.hub.params.mintFee ≠ 0 → ∃ id after fee,
      t.post.log = t.pre.log ++ [.mintRequested sender id amount after fee] ∧
        1 ≤ fee.toNat ∧ fee.toNat ≤ amount.toNat

lemma step_charged {sender : Address} {amount : Uint256}
    (h : w.Step (.manager sender (.requestSubscription amount)) w') (hbounds : w.hub.FeeBounds)
    (hfee : w.hub.params.mintFee ≠ 0) :
    ∃ id after fee, w'.log = w.log ++ [.mintRequested sender id amount after fee] ∧
      1 ≤ fee.toNat ∧ fee.toNat ≤ amount.toNat := by
  obtain ⟨after, fee, hlog, -, hvalue, -⟩ := step_requestSubscription h
  have hexec := h.2
  simp only [exec, execManager, bind_eq_ok, pure_eq_ok, Prod.exists] at hexec
  obtain ⟨hub', token', hcall, -⟩ := hexec
  refine ⟨_, after, fee, hlog, ?_⟩
  rw [hvalue]
  exact hbounds.fee_bounds (RWAHub.requestSubscription_minimum hcall) hfee

/-- **No subscription is free**, exactly in the deployments whose minimum deposit is at least
`BPS_DENOMINATOR`. -/
theorem subscriptions_charged {args : USBSManager.Arguments}
    (hdeploy : USBSManager.deploy args = .ok w₀.manager) :
    (∀ tr w, Run Step w₀ tr w →
      (∀ s, Run.Visits tr w s → s.hub.FeeBounds) ∧ SubscriptionsCharged tr) ↔
      bpsDenominator ≤ args.minimumDepositAmount := by
  simp only [USBSManager.deploy, RWAHub.deploy, bind_eq_ok, revertIf_eq_ok, pure_eq_ok,
    exists_const] at hdeploy
  obtain ⟨hub, ⟨-, -, -, -, exponent, -, multiplier, -, rfl⟩, -, -, hmanager⟩ := hdeploy
  have hminimum : w₀.hub.params.minimumDepositAmount = args.minimumDepositAmount := by
    rw [World.hub, ← hmanager]
  have hmintFee : w₀.hub.params.mintFee = 0 := by
    rw [World.hub, ← hmanager]
  constructor
  · intro hall
    obtain ⟨hbounds, -⟩ := hall [] w₀ Run.nil
    rw [← hminimum]
    exact (hbounds w₀ (.inl rfl)).minimum
  · intro hlarge tr w hrun
    have hstart : w₀.hub.FeeBounds := ⟨hminimum ▸ hlarge, hmintFee ▸ by decide⟩
    have hvisits : ∀ s, Run.Visits tr w s → s.hub.FeeBounds := fun s hs =>
      hrun.invariant_visits (P := fun w => w.hub.FeeBounds) hstart
        (fun t _ hpre hstep => hstep.feeBounds hpre) hs
    refine ⟨hvisits, fun t ht sender amount hlabel hfee => ?_⟩
    have hstep := hrun.step_of_mem ht
    rw [hlabel] at hstep
    exact step_charged hstep (hvisits t.pre (Run.visits_pre ht)) hfee

open Sample in
/-- The sample deployment with a minimum deposit of one cent. -/
def centMinimum : World ERC20 := { world with
  manager := (USBSManager.deploy { arguments with minimumDepositAmount := 10000 }).toOption.get
    (by decide) }

open Sample in
/-- A deposit of the minimum at the smallest fee, after one too small to be accepted. -/
def centDeposit : List (Action ERC20) := [
  .manager operator (.admin (.setMintFee 1)),
  .manager customer (.requestSubscription 9999),
  .manager customer (.requestSubscription 10000)]

theorem subscriptions_charged_sample :
    (playTrace next centMinimum centDeposit).length = 2 ∧
      SubscriptionsCharged (playTrace next centMinimum centDeposit) := by
  have hall := (@subscriptions_charged ERC20 _ centMinimum
    { Sample.arguments with minimumDepositAmount := 10000 } rfl).mpr (by decide)
  exact ⟨by decide +kernel, (hall _ _ (run_play (fun _ _ _ => step_of_next) _ _)).2⟩

open Sample in
/-- In a deployment without a minimum deposit the fee is set to 1%, and a deposit made in units too
few to be charged for. -/
def smallDeposit : List (Action ERC20) := [
  .manager operator (.admin (.setMintFee 100)),
  .manager customer (.requestSubscription 99)]

open Sample in
/-- The deposit is free. -/
theorem smallDeposit_free :
    USBSManager.deploy arguments = .ok world.manager ∧
      Run Step world (playTrace next world smallDeposit) (play next world smallDeposit) ∧
      ¬ SubscriptionsCharged (playTrace next world smallDeposit) := by
  refine ⟨rfl, run_play (fun _ _ _ => step_of_next) _ _, fun hcharged => ?_⟩
  obtain ⟨t, ht, hlabel, hfee, hlast⟩ : ∃ t ∈ playTrace next world smallDeposit,
      t.label = .manager customer (.requestSubscription 99) ∧
        t.pre.hub.params.mintFee ≠ 0 ∧
        t.post.log.getLast? = some (.mintRequested customer 1 99 99 0) :=
    ⟨_, .tail _ (.head _), rfl, by decide +kernel, by decide +kernel⟩
  obtain ⟨id, after, fee, hlog, hpositive, -⟩ := hcharged t ht customer 99 hlabel hfee
  rw [hlog, List.getLast?_concat, Option.some.injEq, HubEvent.mintRequested.injEq] at hlast
  obtain ⟨-, -, -, -, rfl⟩ := hlast
  exact absurd hpositive (by decide)

end World

end BrivoUsbs
