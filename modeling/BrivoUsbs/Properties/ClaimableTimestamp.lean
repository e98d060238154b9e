import BrivoUsbs.Framework.History
import BrivoUsbs.Properties.DepositLedger

/-!
# Timestamps that release a mint

A deposit is minted once its claimable timestamp has passed.  The timestamps are kept beside the
deposits under the same ids, and `setClaimableTimestamp` does not look whether there is a deposit
under an id: a timestamp can be there before the deposit it then releases.

`mints_released` says that this is the only way to be released by a timestamp that was not meant
for the deposit: if every deposit of a run is created under an id without a timestamp, then every
mint was released by a timestamp given to that deposit.
-/

namespace BrivoUsbs

/-! ## The timestamps of a batch -/

namespace USBSManager

variable {manager manager' : USBSManager} {usbs usbs' : USBS} {lists : Lists}
  {pricers : Address → Option Pricer} {self : Address} {timestamp claimTimestamp : Uint256}
  {ids : List Bytes32}

lemma setClaimableTimestamp_foldl (id : Bytes32) :
    (ids.foldl (setClaimableTimestampEntry claimTimestamp) manager).depositIdToClaimableTimestamp
        id =
      if id ∈ ids then claimTimestamp else manager.depositIdToClaimableTimestamp id := by
  induction ids generalizing manager with
  | nil => rfl
  | cons first ids ih =>
      rw [List.foldl_cons, ih]
      by_cases hmem : id ∈ ids
      · simp [hmem]
      · by_cases hfirst : id = first
        · subst hfirst
          simp [hmem, setClaimableTimestampEntry]
        · simp [hmem, hfirst, setClaimableTimestampEntry]

/-- A batch of claims finds the timestamps of its deposits set and due, and deletes them. -/
lemma claimMint_timestamps
    (h : ids.foldlM (fun state id =>
      state.1.internalClaimMint state.2 lists pricers self timestamp id) (manager, usbs) =
        .ok (manager', usbs')) :
    (∀ id ∈ ids, manager.depositIdToClaimableTimestamp id ≠ 0 ∧
      manager.depositIdToClaimableTimestamp id ≤ timestamp) ∧
      ∀ id, manager'.depositIdToClaimableTimestamp id =
        if id ∈ ids then 0 else manager.depositIdToClaimableTimestamp id := by
  induction ids generalizing manager usbs with
  | nil =>
      simp only [List.foldlM_nil, pure_eq_ok, Prod.mk.injEq] at h
      obtain ⟨rfl, rfl⟩ := h
      simp
  | cons first ids ih =>
      simp only [List.foldlM_cons, bind_eq_ok, Prod.exists] at h
      obtain ⟨mid, usbsMid, hfirst, hrest⟩ := h
      obtain ⟨hdue, hdeleted⟩ := ih hrest
      simp only [internalClaimMint, bind_eq_ok, revertIf_eq_ok, pure_eq_ok, Prod.mk.injEq,
        exists_const] at hfirst
      obtain ⟨hset, htime, claimed, -, rfl, rfl⟩ := hfirst
      constructor
      · intro id hid
        by_cases hsame : id = first
        · subst hsame
          exact ⟨hset, BitVec.not_lt.mp htime⟩
        · have hlater := hdue id ((List.mem_cons.mp hid).resolve_left hsame)
          simpa only [Function.update_of_ne hsame] using hlater
      · intro id
        rw [hdeleted]
        by_cases hmem : id ∈ ids
        · simp [hmem]
        · by_cases hsame : id = first
          · simp [hsame]
          · simp [hmem, hsame]

end USBSManager

/-! ## Who writes a timestamp, and who creates a deposit -/

namespace World

variable {κ : Type} {w₀ w w' : World κ} {tr : List (Transition (World κ) (Action κ))}
  {a : Action κ} {id : Bytes32}

/-- What the transition writes as the claimable timestamp of `id`. -/
def writtenTimestamp (id : Bytes32) (t : Transition (World κ) (Action κ)) : Option Uint256 :=
  match t.label with
  | .manager _ (.setClaimableTimestamp claimTimestamp depositIds) =>
      if depositIds.contains id then some claimTimestamp else none
  | .manager _ (.claimMint depositIds) => if depositIds.contains id then some 0 else none
  | _ => none

/-- The deposit the transition creates. -/
def createdDeposit (t : Transition (World κ) (Action κ)) : Option Bytes32 :=
  match t.label with
  | .manager _ (.requestSubscription _) => some t.pre.hub.subscriptionRequestCounter
  | .manager _ (.addProof txHash user _ _ _) => if user = 0 then none else some txHash
  -- An overwrite creates a deposit if there was none.
  | .manager _ (.overwriteDepositor depositId user _ _) =>
      if user ≠ 0 ∧ (t.pre.hub.depositIdToDepositor depositId).user = 0 then some depositId
      else none
  | _ => none

variable [IERC20 κ]

/-- **The timestamps after a step** are those it writes, or the old ones. -/
lemma Step.claimableTimestamp (h : w.Step a w') (id : Bytes32) :
    w'.manager.depositIdToClaimableTimestamp id =
      (writtenTimestamp id ⟨w, a, w'⟩).getD (w.manager.depositIdToClaimableTimestamp id) := by
  obtain ⟨-, hexec⟩ := h
  cases a with
  | manager sender call =>
      cases call with
      | setClaimableTimestamp claimTimestamp ids =>
          simp only [exec, execManager, USBSManager.setClaimableTimestamp, bind_eq_ok,
            revertIf_eq_ok, pure_eq_ok, exists_const] at hexec
          obtain ⟨_, ⟨_, -, -, rfl⟩, rfl⟩ := hexec
          rw [USBSManager.setClaimableTimestamp_foldl]
          simp only [writtenTimestamp, List.contains_iff_mem]
          split <;> rfl
      | claimMint ids =>
          simp only [exec, execManager, USBSManager.claimMint, bind_eq_ok, revertIf_eq_ok,
            pure_eq_ok, exists_const, Prod.exists] at hexec
          obtain ⟨manager', usbs', ⟨-, hloop⟩, rfl⟩ := hexec
          rw [(USBSManager.claimMint_timestamps hloop).2]
          simp only [writtenTimestamp, List.contains_iff_mem]
          split <;> rfl
      | requestRedemptionServicedOffchain amount destination =>
          simp only [exec, execManager, USBSManager.requestRedemptionServicedOffchain, bind_eq_ok,
            revertIf_eq_ok, pure_eq_ok, exists_const, Prod.exists, Prod.mk.injEq] at hexec
          obtain ⟨_, _, ⟨-, -, _, -, _, -, rfl, rfl⟩, rfl⟩ := hexec
          rfl
      | manager call =>
          simp only [exec, execManager, bind_eq_ok, pure_eq_ok] at hexec
          obtain ⟨manager', hcall, rfl⟩ := hexec
          obtain ⟨event, -, hsame⟩ := USBSManager.execManagerSet_spec hcall
          exact congrFun hsame id
      | _ =>
          simp only [exec, execManager, bind_eq_ok, pure_eq_ok] at hexec
          obtain ⟨_, -, rfl⟩ := hexec
          rfl
  | _ =>
      rw [(exec_manager_eq (fun sender call => by simp) hexec).1]
      rfl

/-- A deposit that appears is created by the step. -/
lemma Step.created (h : w.Step a w') (hfree : (w.hub.depositIdToDepositor id).user = 0)
    (hlive : (w'.hub.depositIdToDepositor id).user ≠ 0) :
    createdDeposit ⟨w, a, w'⟩ = some id := by
  by_cases hrequest : ∃ sender amount, a = .manager sender (.requestSubscription amount)
  · obtain ⟨sender, amount, rfl⟩ := hrequest
    obtain ⟨after, fee, -, -, -, htable⟩ := step_requestSubscription h
    by_cases hsame : id = w.hub.subscriptionRequestCounter
    · exact congrArg some hsame.symm
    · rw [htable, Function.update_of_ne hsame] at hlive
      exact absurd hfree hlive
  · have hcreates : (w'.books.deposits id).user ≠ 0 → createdDeposit ⟨w, a, w'⟩ = some id := by
      refine (Step.emits h).invariant (P := fun b : Books =>
        (b.deposits id).user ≠ 0 → createdDeposit ⟨w, a, w'⟩ = some id)
        (fun hbefore => absurd hfree hbefore) ?_
      rintro b e b' hb ⟨hstep, hattributed⟩ hafter
      cases hstep with
      | mintRequested =>
          cases hattributed
          exact absurd ⟨_, _, rfl⟩ hrequest
      | @depositProofAdded txHash user =>
          by_cases hsame : id = txHash
          · cases hattributed
            have huser : user ≠ 0 := by simpa [hsame] using hafter
            rw [hsame]
            exact if_neg huser
          · exact hb (by simpa only [Function.update_of_ne hsame] using hafter)
      | @priceIdSetForDeposit assigned priceId hassigned =>
          by_cases hsame : id = assigned
          · exact hb (hsame ▸ hassigned)
          · exact hb (by simpa only [Function.update_of_ne hsame] using hafter)
      | @mintCompleted claimed =>
          by_cases hsame : id = claimed
          · simp [hsame, Depositor.null] at hafter
          · exact hb (by simpa only [Function.update_of_ne hsame] using hafter)
      | @depositorOverwritten overwritten user =>
          by_cases hsame : id = overwritten
          · cases hattributed
            have huser : user ≠ 0 := by simpa [hsame] using hafter
            rw [hsame] at hfree ⊢
            exact if_pos ⟨huser, hfree⟩
          · exact hb (by simpa only [Function.update_of_ne hsame] using hafter)
      | _ => exact hb hafter
    exact hcreates hlive

/-! ## Released mints -/

/-- After the history `tr`, the deposit under `id` was released by the time `now`: the last call of
`setClaimableTimestamp` that named it came after its creation, from a holder of the role, with a
timestamp that has been reached. -/
inductive Released (tr : List (Transition (World κ) (Action κ))) (id : Bytes32)
    (now : Uint256) : Prop
  | intro (before : List (Transition (World κ) (Action κ)))
      (t : Transition (World κ) (Action κ)) (after : List (Transition (World κ) (Action κ)))
      (sender : Address) (claimTimestamp : Uint256) (ids : List Bytes32)
      (hsplit : tr = before ++ t :: after)
      (hcall : t.label = .manager sender (.setClaimableTimestamp claimTimestamp ids))
      (hid : id ∈ ids)
      (hrole : t.pre.hub.access.hasRole .timestampSetterRole sender = true)
      (hcreated : ∃ c ∈ before, createdDeposit c = some id)
      (hlast : ∀ x ∈ after, createdDeposit x ≠ some id ∧ writtenTimestamp id x = none)
      (hdue : claimTimestamp ≤ now)

/-- Every deposit of the run is created under an id without a timestamp. -/
def CreatedUntimed (tr : List (Transition (World κ) (Action κ))) : Prop :=
  ∀ t ∈ tr, ∀ id ∈ createdDeposit t, t.pre.manager.depositIdToClaimableTimestamp id = 0

omit [IERC20 κ] in
instance (tr : List (Transition (World κ) (Action κ))) : Decidable (CreatedUntimed tr) :=
  haveI (t : Transition (World κ) (Action κ)) : Decidable (∀ id ∈ createdDeposit t,
      t.pre.manager.depositIdToClaimableTimestamp id = 0) :=
    Option.decidableForallMem (createdDeposit t)
  List.decidableBAll _ tr

/-- Every mint of the run was released by a timestamp given to its deposit. -/
def MintsReleased (tr : List (Transition (World κ) (Action κ))) : Prop :=
  ∀ tr₁ t tr₂, tr = tr₁ ++ t :: tr₂ →
    ∀ id ∈ t.label.claimedDeposits, Released tr₁ id t.pre.timestamp

/-- The timestamp under an id is the one last written there. -/
lemma claimableTimestamp_eq (hdeployed : w₀.Deployed) (hrun : Run Step w₀ tr w) (id : Bytes32) :
    w.manager.depositIdToClaimableTimestamp id =
      (lastWrite (writtenTimestamp id) tr).getD 0 := by
  have hinitial : w₀.manager.depositIdToClaimableTimestamp id = 0 := by
    obtain ⟨args, hdeploy⟩ := hdeployed
    simp only [USBSManager.deploy, bind_eq_ok, revertIf_eq_ok, pure_eq_ok, exists_const]
      at hdeploy
    obtain ⟨hub, -, -, -, hmanager⟩ := hdeploy
    rw [← hmanager]
  rw [← hinitial]
  exact hrun.cell_eq_lastWrite (fun w => w.manager.depositIdToClaimableTimestamp id)
    fun _ _ hstep => hstep.claimableTimestamp id

/-- A live deposit was created. -/
lemma exists_createdDeposit (hfresh : w₀.Fresh) (hrun : Run Step w₀ tr w)
    (hlive : (w.hub.depositIdToDepositor id).user ≠ 0) :
    ∃ c ∈ tr, createdDeposit c = some id := by
  induction hrun using Run.induction with
  | nil =>
      have hempty : w₀.hub.depositIdToDepositor id = .null :=
        congrFun (congrArg Books.deposits hfresh.books) id
      rw [hempty] at hlive
      exact absurd rfl hlive
  | snoc tr w a w' _ hlast ih =>
      by_cases hbefore : (w.hub.depositIdToDepositor id).user = 0
      · exact ⟨⟨w, a, w'⟩, by simp, hlast.created hbefore hlive⟩
      · obtain ⟨c, hc, hcreated⟩ := ih hbefore
        exact ⟨c, List.mem_append_left _ hc, hcreated⟩

/-- A call of `claimMint` finds its deposits live, with their timestamps set and due. -/
lemma Step.claimedDeposits (h : w.Step a w') (hid : id ∈ a.claimedDeposits) :
    (w.hub.depositIdToDepositor id).user ≠ 0 ∧
      w.manager.depositIdToClaimableTimestamp id ≠ 0 ∧
      w.manager.depositIdToClaimableTimestamp id ≤ w.timestamp := by
  unfold Action.claimedDeposits at hid
  split at hid
  · have hexec := h.2
    simp only [exec, execManager, USBSManager.claimMint, bind_eq_ok, revertIf_eq_ok, pure_eq_ok,
      exists_const, Prod.exists] at hexec
    obtain ⟨manager', usbs', ⟨-, hloop⟩, rfl⟩ := hexec
    exact ⟨((USBSManager.claimMint_loop hloop).2.1 id hid).1,
      (USBSManager.claimMint_timestamps hloop).1 id hid⟩
  · simp at hid

/-- A step that writes a timestamp other than zero is a call of the setter's, and creates
nothing. -/
lemma writtenTimestamp_eq_some {t : Transition (World κ) (Action κ)} {timestamp : Uint256}
    (hstep : t.pre.Step t.label t.post) (hwrite : writtenTimestamp id t = some timestamp)
    (hne : timestamp ≠ 0) :
    createdDeposit t = none ∧ ∃ sender ids,
      t.label = .manager sender (.setClaimableTimestamp timestamp ids) ∧ id ∈ ids ∧
        t.pre.hub.access.hasRole .timestampSetterRole sender = true := by
  obtain ⟨pre, a, post⟩ := t
  unfold writtenTimestamp at hwrite
  split at hwrite
  · next sender claimTimestamp ids hlabel =>
      obtain rfl : a = .manager sender (.setClaimableTimestamp claimTimestamp ids) := hlabel
      obtain ⟨hid, hvalue⟩ := Option.ite_none_right_eq_some.mp hwrite
      rw [List.contains_iff_mem] at hid
      obtain rfl := Option.some.inj hvalue
      have hexec := hstep.2
      simp only [exec, execManager, USBSManager.setClaimableTimestamp, bind_eq_ok,
        AccessControl.checkRole_eq_ok, exists_const] at hexec
      obtain ⟨_, ⟨hrole, -⟩, -⟩ := hexec
      exact ⟨rfl, sender, ids, rfl, hid, hrole⟩
  · obtain ⟨-, hzero⟩ := Option.ite_none_right_eq_some.mp hwrite
    exact absurd (Option.some.inj hzero).symm hne
  · cases hwrite

/-- **Mints are released by timestamps of their own**, in every run in which a deposit is only
created under an id without a timestamp. -/
theorem mints_released (hdeployed : w₀.Deployed) (hrun : Run Step w₀ tr w)
    (hcreations : CreatedUntimed tr) : MintsReleased tr := by
  intro tr₁ t tr₂ htr id hid
  obtain ⟨hpre, hclaim⟩ := hrun.split htr
  obtain ⟨hlive, hset, hdue⟩ := hclaim.claimedDeposits hid
  rw [claimableTimestamp_eq hdeployed hpre] at hset hdue
  cases hwrite : lastWrite (writtenTimestamp id) tr₁ with
  | none =>
      rw [hwrite] at hset
      exact absurd rfl hset
  | some timestamp =>
      rw [hwrite] at hset hdue
      obtain ⟨before, u, after, rfl, hu, hafter⟩ := lastWrite_eq_some_iff.mp hwrite
      obtain ⟨hbefore, hstep⟩ := hpre.split rfl
      obtain ⟨hnone, sender, ids, hcall, hmem, hrole⟩ := writtenTimestamp_eq_some hstep hu hset
      -- A creation after the timestamp was set would have found it.
      have hlast : ∀ x ∈ after, createdDeposit x ≠ some id := by
        intro x hx hcreated
        obtain ⟨between, rest, rfl⟩ := List.append_of_mem hx
        have hfound : x.pre.manager.depositIdToClaimableTimestamp id = timestamp := by
          have hsplit : before ++ u :: (between ++ x :: rest) =
              (before ++ u :: between) ++ x :: rest := by simp
          rw [claimableTimestamp_eq hdeployed (hpre.split hsplit).1, lastWrite_eq_some_iff.mpr
            ⟨before, u, between, rfl, hu, fun y hy => hafter y (by simp [hy])⟩]
          rfl
        rw [hcreations x (by simp [htr]) id hcreated] at hfound
        exact hset hfound.symm
      refine .intro before u after sender timestamp ids rfl hcall hmem hrole ?_
        (fun x hx => ⟨hlast x hx, hafter x hx⟩) hdue
      obtain ⟨c, hc, hcreated⟩ := exists_createdDeposit hdeployed.fresh hpre hlive
      rcases List.mem_append.mp hc with hmem | hmem
      · exact ⟨c, hmem, hcreated⟩
      · rcases List.mem_cons.mp hmem with rfl | hmem
        · rw [hnone] at hcreated
          cases hcreated
        · exact absurd hcreated (hlast c hmem)

open Sample in
theorem mints_released_sample :
    (playTrace next world mintAndRedeem).any (fun t => t.label.claimedDeposits == [1, 0xABCD]) =
        true ∧
      MintsReleased (playTrace next world mintAndRedeem) :=
  ⟨by decide +kernel, mints_released world_deployed (run_play (fun _ _ _ => step_of_next) _ _)
    (by decide +kernel)⟩

open Sample in
/-- A timestamp is set under the id the next subscription will be issued. -/
def earlyTimestamp : List (Action ERC20) := setup ++ [
  .pricer pricerAddress operator (.addPrice 1000000000000000000 999999),
  .manager operator (.setClaimableTimestamp 1000000 [1]),
  .manager customer (.requestSubscription 100000000),
  .manager operator (.setPriceIdForDeposits [1] [1]),
  .manager customer (.claimMint [1])]

open Sample in
/-- The timestamp from before the deposit releases it. -/
theorem earlyTimestamp_releases :
    world.Deployed ∧
      Run Step world (playTrace next world earlyTimestamp) (play next world earlyTimestamp) ∧
      ¬ MintsReleased (playTrace next world earlyTimestamp) ∧
      (play next world earlyTimestamp).usbs.erc20.balances customer = 100000000000000000000 := by
  refine ⟨world_deployed, run_play (fun _ _ _ => step_of_next) _ _, fun hreleased => ?_,
    by decide +kernel⟩
  obtain ⟨claim, hlast, hclaimed⟩ : ∃ claim, (playTrace next world earlyTimestamp).getLast? =
      some claim ∧ decide (1 ∈ claim.label.claimedDeposits) = true :=
    (Option.any_eq_true _ _).mp (by decide +kernel)
  -- Before the claim, no timestamp is set after the deposit is created.
  have horder : (playTrace next world earlyTimestamp).dropLast.Pairwise fun x y =>
      createdDeposit x = some 1 → writtenTimestamp 1 y = none := by
    decide +kernel
  obtain ⟨before, t, after, sender, claimTimestamp, ids, hsplit, hcall, hid, -, ⟨c, hc, hcreated⟩,
    -, -⟩ := hreleased _ claim [] (List.dropLast_append_getLast? claim hlast).symm 1
      (of_decide_eq_true hclaimed)
  rw [hsplit] at horder
  have hnone := (List.pairwise_append.mp horder).2.2 c hc t List.mem_cons_self hcreated
  rw [writtenTimestamp, hcall] at hnone
  have hnotMem : 1 ∉ ids := by simpa using hnone
  exact hnotMem hid

end World

end BrivoUsbs
