import BrivoUsbs.Properties.EventLog

/-!
# The supply of USBS

What the holders of a token have adds up to its supply: each operation changes both by the same
amount, or neither.  `USBS.Reachable` are the states of a token that started empty and was called
by anybody, and `World.reachable_usbs` follows it along the runs of the system, in which the
manager is one of the callers.
-/

namespace BrivoUsbs

/-! ## Tokens -/

namespace ERC20

variable {token token' : ERC20} {hook : Hook} {a b : Address} {amount : Uint256}

/-- The balances add up to the supply. -/
def Balanced (token : ERC20) : Prop :=
  ∑ account, (token.balances account).toNat = token.totalSupply.toNat

lemma balanced_empty : empty.Balanced := by simp [Balanced, empty]

lemma sum_balances_update (balances : Address → Uint256) (account : Address)
    (balance : Uint256) :
    ∑ other, (Function.update balances account balance other).toNat + (balances account).toNat =
      ∑ other, (balances other).toNat + balance.toNat :=
  sum_table_update balances (fun _ balance => balance.toNat) account balance

/-- Nobody has more than there is. -/
lemma Balanced.balance_le (h : token.Balanced) (account : Address) :
    (token.balances account).toNat ≤ token.totalSupply.toNat := by
  rw [← h, ← Finset.sum_erase_add _ _ (Finset.mem_univ account)]
  exact Nat.le_add_left _ _

lemma Balanced.approves (hbalanced : token.Balanced) (h : Approves token token') :
    token'.Balanced := by
  obtain ⟨hbalances, hsupply, -⟩ := h
  unfold Balanced at hbalanced ⊢
  rw [hbalances, hsupply, hbalanced]

lemma Balanced.internalTransfer (hbalanced : token.Balanced)
    (h : token.internalTransfer hook a b amount = .ok token') : token'.Balanced := by
  simp only [ERC20.internalTransfer, bind_eq_ok, require_eq_ok, pure_eq_ok, exists_const,
    checkedAdd_eq_ok] at h
  obtain ⟨-, -, _, -, hle, destBalance, hdest, rfl⟩ := h
  have hdebited := BitVec.toNat_sub_of_le hle
  have hamount : amount.toNat ≤ (token.balances a).toNat := hle
  have hsource := sum_balances_update token.balances a (token.balances a - amount)
  have hcredited := sum_balances_update
    (Function.update token.balances a (token.balances a - amount)) b destBalance
  unfold Balanced at hbalanced ⊢
  dsimp only
  omega

lemma Balanced.internalMint (hbalanced : token.Balanced)
    (h : token.internalMint hook a amount = .ok token') : token'.Balanced := by
  simp only [ERC20.internalMint, bind_eq_ok, require_eq_ok, pure_eq_ok, exists_const,
    checkedAdd_eq_ok] at h
  obtain ⟨-, _, -, supply, hsupply, balance, hbalance, rfl⟩ := h
  have hsum := sum_balances_update token.balances a balance
  unfold Balanced at hbalanced ⊢
  dsimp only
  omega

lemma Balanced.internalBurn (hbalanced : token.Balanced)
    (h : token.internalBurn hook a amount = .ok token') : token'.Balanced := by
  simp only [ERC20.internalBurn, bind_eq_ok, require_eq_ok, pure_eq_ok, exists_const,
    checkedSub_eq_ok] at h
  obtain ⟨-, _, -, hle, supply, hsupply, rfl⟩ := h
  have hburned := BitVec.toNat_sub_of_le hle
  have hamount : amount.toNat ≤ (token.balances a).toNat := hle
  have hsum := sum_balances_update token.balances a (token.balances a - amount)
  unfold Balanced at hbalanced ⊢
  dsimp only
  omega

end ERC20

/-! ## The USBS token -/

namespace USBS

variable {token token' : USBS} {lists : Lists} {sender : Address}

/-- Each call of a holder keeps the balances adding up. -/
lemma execHolder_balanced {call : HolderCall} (hbalanced : token.erc20.Balanced)
    (h : token.execHolder lists sender call = .ok token') : token'.erc20.Balanced := by
  obtain ⟨erc20, rfl, hoperates⟩ := execHolder_operates h
  generalize call.parties sender = parties at hoperates
  cases hoperates with
  | approves happroves => exact hbalanced.approves happroves
  | transfers hspent hmoved => exact (hbalanced.approves hspent).internalTransfer hmoved
  | burns hspent hburned => exact (hbalanced.approves hspent).internalBurn hburned

/-- **Each call keeps the balances adding up to the supply.** -/
lemma exec_balanced {call : Call} (hbalanced : token.erc20.Balanced)
    (h : token.exec lists sender call = .ok token') : token'.erc20.Balanced := by
  cases call with
  | holder call => exact execHolder_balanced hbalanced h
  | mint dest amount =>
      simp only [exec, mint, bind_eq_ok, require_eq_ok, pure_eq_ok, exists_const] at h
      obtain ⟨-, minted, hmint, rfl⟩ := h
      exact hbalanced.internalMint hmint
  | access call =>
      simp only [exec, bind_eq_ok, pure_eq_ok] at h
      obtain ⟨access, -, rfl⟩ := h
      exact hbalanced
  | _ =>
      simp only [exec, pause, unpause, setBlocklist, setAllowlist, setSanctionsList, bind_eq_ok,
        pure_eq_ok] at h
      obtain ⟨_, -, _, -, rfl⟩ := h
      exact hbalanced

/-- A state of a token that started with nothing, after any calls by anybody. -/
inductive Reachable : USBS → Prop
  | empty {token : USBS} (hempty : token.erc20 = .empty) : Reachable token
  | call {token token' : USBS} {lists : Lists} {sender : Address} {call : Call}
      (hreachable : Reachable token) (hcall : token.exec lists sender call = .ok token') :
      Reachable token'

theorem Reachable.balanced (h : token.Reachable) : token.erc20.Balanced := by
  induction h with
  | empty hempty =>
      rw [hempty]
      exact ERC20.balanced_empty
  | call _ hcall ih => exact exec_balanced ih hcall

end USBS

/-! ## The system -/

namespace World

variable {κ : Type} [IERC20 κ] {w₀ w w' : World κ} {tr : List (Transition (World κ) (Action κ))}
  {a : Action κ}

/-- A batch of claims calls the token once for each of them. -/
lemma claimMint_reachable {manager manager' : USBSManager} {usbs usbs' : USBS} {lists : Lists}
    {pricers : Address → Option Pricer} {self : Address} {timestamp : Uint256}
    {ids : List Bytes32} (husbs : usbs.Reachable)
    (h : manager.claimMint usbs lists pricers self timestamp ids = .ok (manager', usbs')) :
    usbs'.Reachable := by
  simp only [USBSManager.claimMint, bind_eq_ok, revertIf_eq_ok, exists_const] at h
  refine foldlM_invariant (P := fun s : USBSManager × USBS => s.2.Reachable) ?_ husbs h.2
  rintro id - ⟨manager, usbs⟩ ⟨manager', usbs'⟩ hreachable hentry
  obtain ⟨out, price, -, -, -, -, -, hmint⟩ :=
    RWAHub.internalClaimMint_spec (USBSManager.internalClaimMint_hub hentry)
  exact @USBS.Reachable.call _ _ _ _ (.mint _ out) hreachable hmint

lemma execManager_reachable {sender : Address} {call : USBSManager.Call}
    (husbs : w.usbs.Reachable) (h : w.execManager sender call = .ok w') :
    w'.usbs.Reachable := by
  cases call with
  | claimMint ids =>
      simp only [execManager, bind_eq_ok, pure_eq_ok, Prod.exists] at h
      obtain ⟨manager', usbs', hcall, rfl⟩ := h
      exact claimMint_reachable husbs hcall
  | requestRedemption amount =>
      simp only [execManager, bind_eq_ok, pure_eq_ok, Prod.exists] at h
      obtain ⟨hub', usbs', hcall, rfl⟩ := h
      obtain ⟨-, -, -, -, hburn⟩ := RWAHub.requestRedemption_spec w.prices hcall
      exact @USBS.Reachable.call _ _ _ _ (.holder (.burnFrom sender amount)) husbs hburn
  | requestRedemptionServicedOffchain amount destination =>
      simp only [execManager, bind_eq_ok, pure_eq_ok, Prod.exists] at h
      obtain ⟨manager', usbs', hcall, rfl⟩ := h
      obtain ⟨-, -, -, -, -, -, hburn⟩ :=
        USBSManager.requestRedemptionServicedOffchain_spec w.prices hcall
      exact @USBS.Reachable.call _ _ _ _ (.holder (.burnFrom sender amount)) husbs hburn
  | _ =>
      simp only [execManager, bind_eq_ok, pure_eq_ok] at h
      obtain ⟨_, -, rfl⟩ := h
      exact husbs

lemma Step.reachable_usbs (h : w.Step a w') (husbs : w.usbs.Reachable) : w'.usbs.Reachable := by
  obtain ⟨-, hexec⟩ := h
  cases a with
  | manager sender call => exact execManager_reachable husbs hexec
  | usbs sender call =>
      simp only [exec, bind_eq_ok, pure_eq_ok] at hexec
      obtain ⟨usbs', hcall, rfl⟩ := hexec
      exact .call husbs hcall
  | _ =>
      have hsame : w'.usbs = w.usbs := (exec_manager_eq (by simp) hexec).2.2 (by simp)
      rwa [hsame]

/-- **The token stays a token that started with nothing**, whoever calls the system. -/
theorem reachable_usbs (husbs : w₀.usbs.Reachable) (hrun : Run Step w₀ tr w) :
    w.usbs.Reachable :=
  (hrun.invariant (P := fun w => w.usbs.Reachable) husbs
    fun _ _ hpre hstep => hstep.reachable_usbs hpre).1

end World

end BrivoUsbs
