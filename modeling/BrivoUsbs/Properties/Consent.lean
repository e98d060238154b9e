import BrivoUsbs.Properties.Reconciliation
import BrivoUsbs.Properties.TokenCalls
import Mathlib.Data.ENat.Basic

/-!
# The consent of the holders

Whoever takes tokens from a holder has the holder's consent, or the role to burn them without it.
`consented` says so of every run of the system, in which the manager is one of those who take: a
holder's balance falls by its own transfers and burns, by what spenders draw on their allowances,
or by an account with `BURNER_ROLE`; and a spender draws no more than it was allowed at the start
and the holder has granted it since.

The budget of a spender is its allowance, and infinite if that is the greatest word.
-/

namespace BrivoUsbs

namespace ERC20

variable {token token' : ERC20} {hook : Hook} {a b holder spender : Address} {amount : Uint256}

/-- What the spender may still take from the holder. -/
def budget (token : ERC20) (holder spender : Address) : ℕ∞ :=
  if token.allowances holder spender = maxUint256 then ⊤
  else (token.allowances holder spender).toNat

lemma budget_congr (h : token'.allowances holder spender = token.allowances holder spender) :
    token'.budget holder spender = token.budget holder spender := by
  rw [budget, budget, h]

lemma internalApprove_allowances (h : token.internalApprove a b amount = .ok token') :
    token'.allowances = Function.update token.allowances a
      (Function.update (token.allowances a) b amount) := by
  simp only [internalApprove, bind_eq_ok, require_eq_ok, pure_eq_ok, exists_const] at h
  obtain ⟨-, -, rfl⟩ := h
  rfl

lemma internalTransfer_allowances (h : token.internalTransfer hook a b amount = .ok token') :
    token'.allowances = token.allowances := by
  simp only [internalTransfer, bind_eq_ok, require_eq_ok, pure_eq_ok, exists_const] at h
  obtain ⟨-, -, _, -, -, _, -, rfl⟩ := h
  rfl

lemma internalMint_allowances (h : token.internalMint hook a amount = .ok token') :
    token'.allowances = token.allowances := by
  simp only [internalMint, bind_eq_ok, require_eq_ok, pure_eq_ok, exists_const] at h
  obtain ⟨-, _, -, _, -, _, -, rfl⟩ := h
  rfl

lemma internalBurn_allowances (h : token.internalBurn hook a amount = .ok token') :
    token'.allowances = token.allowances := by
  simp only [internalBurn, bind_eq_ok, require_eq_ok, pure_eq_ok, exists_const] at h
  obtain ⟨-, _, -, -, _, -, rfl⟩ := h
  rfl

/-- **Spending an allowance takes the amount from the budget.** -/
lemma spendAllowance_budget (h : token.spendAllowance a b amount = .ok token') :
    token'.budget holder spender + (if a = holder ∧ b = spender then amount.toNat else 0 : ℕ) =
      token.budget holder spender := by
  unfold spendAllowance at h
  split at h
  · next hinfinite =>
      cases h
      split
      · next hsame =>
          obtain ⟨rfl, rfl⟩ := hsame
          rw [budget, if_pos hinfinite, top_add]
      · rw [Nat.cast_zero, add_zero]
  · next hfinite =>
      simp only [bind_eq_ok, require_eq_ok, exists_const] at h
      obtain ⟨hle, happrove⟩ := h
      have hallowances := internalApprove_allowances happrove
      split
      · next hsame =>
          obtain ⟨rfl, rfl⟩ := hsame
          have hspent := BitVec.toNat_sub_of_le hle
          have hamount : amount.toNat ≤ (token.allowances a b).toNat := hle
          have hleft : token'.allowances a b = token.allowances a b - amount := by
            rw [hallowances, Function.update_self, Function.update_self]
          have hfinite' : token.allowances a b - amount ≠ maxUint256 := by
            intro hmax
            apply hfinite
            apply BitVec.eq_of_toNat_eq
            have hlt := (token.allowances a b).isLt
            have hmax' : (token.allowances a b - amount).toNat = 2 ^ 256 - 1 := by rw [hmax]; rfl
            have htop : maxUint256.toNat = 2 ^ 256 - 1 := rfl
            omega
          rw [budget, budget, hleft, if_neg hfinite, if_neg hfinite', ← Nat.cast_add]
          congr 1
          omega
      · next hother =>
          rw [Nat.cast_zero, add_zero]
          apply budget_congr
          rw [hallowances]
          by_cases ha : holder = a
          · subst ha
            rw [Function.update_self, Function.update_of_ne fun hb => hother ⟨rfl, hb.symm⟩]
          · rw [Function.update_of_ne ha]

end ERC20

namespace USBS

variable {token token' : USBS} {lists : Lists} {sender holder : Address}

/-- The calls by which a holder changes an allowance. -/
def HolderCall.isApproval : HolderCall → Bool
  | .approve .. | .increaseAllowance .. | .decreaseAllowance .. => true
  | _ => false

/-- The calls by which a holder parts with its own tokens. -/
def HolderCall.givesAway : HolderCall → Bool
  | .transfer .. | .burn _ => true
  | _ => false

/-- What a call of `msgSender` takes from the holder in the name of the spender. -/
def HolderCall.drawn (msgSender holder spender : Address) : HolderCall → ℕ
  | .transferFrom source _ amount =>
      if source = holder ∧ msgSender = spender then amount.toNat else 0
  | .burnFrom account amount => if account = holder ∧ msgSender = spender then amount.toNat else 0
  | _ => 0

def Call.drawn (msgSender holder spender : Address) : Call → ℕ
  | .holder call => call.drawn msgSender holder spender
  | _ => 0

lemma HolderCall.drawn_of_isApproval {call : HolderCall} (h : call.isApproval = true)
    (holder spender : Address) : call.drawn sender holder spender = 0 := by
  cases call <;> first | rfl | cases h

/-- A holder's approval, or a call that takes from the budget what it draws. -/
lemma execHolder_budget {call : HolderCall} (holder spender : Address)
    (h : token.execHolder lists sender call = .ok token') :
    sender = holder ∧ call.isApproval = true ∨
      token'.erc20.budget holder spender + call.drawn sender holder spender =
        token.erc20.budget holder spender := by
  have hkept : ∀ {erc20 erc20' : ERC20}, erc20'.allowances = erc20.allowances →
      erc20'.budget holder spender = erc20.budget holder spender :=
    fun hsame => ERC20.budget_congr (congrFun (congrFun hsame holder) spender)
  have happroved : ∀ {erc20 : ERC20} {dest : Address} {amount : Uint256}, call.isApproval = true →
      token.erc20.internalApprove sender dest amount = .ok erc20 → sender = holder ∧
        call.isApproval = true ∨
        erc20.budget holder spender + call.drawn sender holder spender =
          token.erc20.budget holder spender := by
    intro erc20 dest amount hcall happrove
    by_cases hsame : sender = holder
    · exact .inl ⟨hsame, hcall⟩
    · right
      rw [HolderCall.drawn_of_isApproval hcall, Nat.cast_zero, add_zero]
      apply ERC20.budget_congr
      rw [ERC20.internalApprove_allowances happrove, Function.update_of_ne (Ne.symm hsame)]
  cases call with
  | transfer dest amount =>
      simp only [execHolder, transfer, ERC20.transfer, bind_eq_ok, pure_eq_ok] at h
      obtain ⟨moved, hmoved, rfl⟩ := h
      have hsame := hkept (ERC20.internalTransfer_allowances hmoved)
      exact .inr (by simpa [HolderCall.drawn] using hsame)
  | transferFrom source dest amount =>
      simp only [execHolder, transferFrom, ERC20.transferFrom, bind_eq_ok, pure_eq_ok] at h
      obtain ⟨moved, ⟨spent, hspent, hmoved⟩, rfl⟩ := h
      right
      rw [hkept (ERC20.internalTransfer_allowances hmoved)]
      exact ERC20.spendAllowance_budget hspent
  | approve dest amount =>
      simp only [execHolder, ERC20.approve, bind_eq_ok, pure_eq_ok] at h
      obtain ⟨approved, happrove, rfl⟩ := h
      exact happroved rfl happrove
  | increaseAllowance dest addedValue =>
      simp only [execHolder, ERC20.increaseAllowance, bind_eq_ok, pure_eq_ok] at h
      obtain ⟨approved, ⟨allowance, -, happrove⟩, rfl⟩ := h
      exact happroved rfl happrove
  | decreaseAllowance dest subtractedValue =>
      simp only [execHolder, ERC20.decreaseAllowance, bind_eq_ok, pure_eq_ok, require_eq_ok,
        exists_const] at h
      obtain ⟨approved, ⟨-, happrove⟩, rfl⟩ := h
      exact happroved rfl happrove
  | burn amount =>
      simp only [execHolder, burn, bind_eq_ok, pure_eq_ok] at h
      obtain ⟨burned, hburned, rfl⟩ := h
      exact .inr (by simpa [HolderCall.drawn] using hkept (ERC20.internalBurn_allowances hburned))
  | burnFrom account amount =>
      simp only [execHolder, burnFrom, bind_eq_ok, pure_eq_ok] at h
      obtain ⟨spent, hspent, burned, hburned, rfl⟩ := h
      right
      rw [hkept (ERC20.internalBurn_allowances hburned)]
      exact ERC20.spendAllowance_budget hspent
  | adminBurn source amount =>
      simp only [execHolder, adminBurn, bind_eq_ok, pure_eq_ok] at h
      obtain ⟨_, -, burned, hburned, rfl⟩ := h
      exact .inr (by simpa [HolderCall.drawn] using hkept (ERC20.internalBurn_allowances hburned))

lemma exec_budget {call : Call} (holder spender : Address)
    (h : token.exec lists sender call = .ok token') :
    (∃ holderCall, call = .holder holderCall ∧ sender = holder ∧ holderCall.isApproval = true) ∨
      token'.erc20.budget holder spender + call.drawn sender holder spender =
        token.erc20.budget holder spender := by
  cases call with
  | holder call =>
      exact (execHolder_budget holder spender h).imp (fun happroval => ⟨call, rfl, happroval⟩) id
  | mint dest amount =>
      right
      simp only [exec, mint, bind_eq_ok, require_eq_ok, pure_eq_ok, exists_const] at h
      obtain ⟨-, minted, hmint, rfl⟩ := h
      have hsame : minted.budget holder spender = token.erc20.budget holder spender :=
        ERC20.budget_congr (by rw [ERC20.internalMint_allowances hmint])
      simp [Call.drawn, hsame]
  | access call =>
      simp only [exec, bind_eq_ok, pure_eq_ok] at h
      obtain ⟨access, -, rfl⟩ := h
      exact .inr (by simp [Call.drawn])
  | _ =>
      simp only [exec, pause, unpause, setBlocklist, setAllowlist, setSanctionsList, bind_eq_ok,
        pure_eq_ok] at h
      obtain ⟨_, -, _, -, rfl⟩ := h
      exact .inr (by simp [Call.drawn])

lemma party_eq_some {account holder : Address} (h : party account = some holder) :
    account = holder := by
  unfold party at h
  split at h
  · cases h
  · exact Option.some.inj h

/-- What a balance falls by is taken by the call's movement. -/
lemma exec_source {call : Call} (h : token.exec lists sender call = .ok token')
    (hlost : token'.erc20.balances holder < token.erc20.balances holder) :
    ∃ m, call.movement sender = some m ∧ m.source = some holder ∧
      (token.erc20.balances holder).toNat ≤ (token'.erc20.balances holder).toNat + m.amount := by
  have hbalance : (token'.erc20.balances holder).toNat +
        ((call.movement sender).toList.map (Movement.debit holder)).sum =
      (token.erc20.balances holder).toNat +
        ((call.movement sender).toList.map (Movement.credit holder)).sum :=
    (Accounts.statement (exec_posts h)).balance holder
  have hless : (token'.erc20.balances holder).toNat < (token.erc20.balances holder).toNat := hlost
  cases hmovement : call.movement sender with
  | none =>
      rw [hmovement] at hbalance
      simp only [Option.toList_none, List.map_nil, List.sum_nil, add_zero] at hbalance
      omega
  | some m =>
      rw [hmovement] at hbalance
      simp only [Option.toList_some, List.map_cons, List.map_nil, List.sum_cons, List.sum_nil,
        add_zero, Movement.debit] at hbalance
      split at hbalance
      · next hsource => exact ⟨m, rfl, hsource, by omega⟩
      · omega

/-- A call that lowers a balance is the holder's own, draws on an allowance, or burns. -/
lemma exec_lost {call : Call} (h : token.exec lists sender call = .ok token')
    (hlost : token'.erc20.balances holder < token.erc20.balances holder) :
    (∃ holderCall, call = .holder holderCall ∧ sender = holder ∧ holderCall.givesAway = true) ∨
      (token.erc20.balances holder).toNat ≤
        (token'.erc20.balances holder).toNat + call.drawn sender holder sender ∨
      ∃ amount, call = .holder (.adminBurn holder amount) ∧
        token.access.hasRole .burnerRole sender = true := by
  obtain ⟨m, hmovement, hsource, hfall⟩ := exec_source h hlost
  cases call with
  | holder call =>
      cases call with
      | transfer dest amount =>
          obtain rfl := Option.some.inj hmovement
          exact .inl ⟨_, rfl, party_eq_some hsource, rfl⟩
      | transferFrom source dest amount =>
          obtain rfl := Option.some.inj hmovement
          obtain rfl := party_eq_some hsource
          exact .inr (.inl (by simpa [Call.drawn, HolderCall.drawn] using hfall))
      | burn amount =>
          obtain rfl := Option.some.inj hmovement
          exact .inl ⟨_, rfl, party_eq_some hsource, rfl⟩
      | burnFrom account amount =>
          obtain rfl := Option.some.inj hmovement
          obtain rfl := party_eq_some hsource
          exact .inr (.inl (by simpa [Call.drawn, HolderCall.drawn] using hfall))
      | adminBurn source amount =>
          obtain rfl := Option.some.inj hmovement
          obtain rfl := party_eq_some hsource
          simp only [exec, execHolder, adminBurn, bind_eq_ok, AccessControl.checkRole_eq_ok,
            exists_const] at h
          exact .inr (.inr ⟨amount, rfl, h.1⟩)
      | _ => cases hmovement
  | mint dest amount =>
      obtain rfl := Option.some.inj hmovement
      cases hsource
  | _ => cases hmovement

end USBS

/-! ## The system -/

/-- The call of the token an action makes, other than a mint of the manager, whose address is
`self`. -/
def Action.tokenCall {κ : Type} (self : Address) : Action κ → Option (Address × USBS.Call)
  | .usbs msgSender call => some (msgSender, call)
  | .manager msgSender (.requestRedemption amount) =>
      some (self, .holder (.burnFrom msgSender amount))
  | .manager msgSender (.requestRedemptionServicedOffchain amount _) =>
      some (self, .holder (.burnFrom msgSender amount))
  | _ => none

lemma Action.eq_of_tokenCall {κ : Type} {a : Action κ} {self sender : Address}
    {call : USBS.HolderCall} (h : a.tokenCall self = some (sender, .holder call))
    (hother : ∀ account amount, call ≠ .burnFrom account amount) :
    a = .usbs sender (.holder call) := by
  cases a with
  | usbs msgSender tokenCall =>
      obtain ⟨rfl, rfl⟩ := Prod.mk.inj (Option.some.inj h)
      rfl
  | manager msgSender managerCall =>
      cases managerCall with
      | requestRedemption | requestRedemptionServicedOffchain =>
          obtain ⟨-, heq⟩ := Prod.mk.inj (Option.some.inj h)
          obtain rfl := USBS.Call.holder.inj heq
          exact absurd rfl (hother _ _)
      | _ => cases h
  | _ => cases h

namespace World

variable {κ : Type} {w₀ w w' : World κ} {tr : List (Transition (World κ) (Action κ))}
  {a : Action κ} {t : Transition (World κ) (Action κ)} {holder spender : Address}

/-- What is taken from the holder in the name of the spender during a transition. -/
def drawn (holder spender : Address) (t : Transition (World κ) (Action κ)) : ℕ :=
  match t.label.tokenCall t.pre.self with
  | some (msgSender, call) => call.drawn msgSender holder spender
  | none => 0

/-- What is added to the budget of a spender during a transition. -/
def granted (holder spender : Address) (t : Transition (World κ) (Action κ)) : ℕ∞ :=
  t.post.usbs.erc20.budget holder spender - t.pre.usbs.erc20.budget holder spender

/-- The ways in which a holder loses tokens during a transition: in a call of its own, to a spender
with an allowance, or to an account with the role to burn them. -/
inductive Lost (holder : Address) (t : Transition (World κ) (Action κ)) : Prop
  | given {call : USBS.HolderCall} (hlabel : t.label = .usbs holder (.holder call))
      (hcall : call.givesAway = true)
  | drawn {spender : Address}
      (hdrawn : (t.pre.usbs.erc20.balances holder).toNat ≤
        (t.post.usbs.erc20.balances holder).toNat + drawn holder spender t)
      (hbudget : (World.drawn holder spender t : ℕ∞) ≤ t.pre.usbs.erc20.budget holder spender)
  | burned {sender : Address} {amount : Uint256}
      (hlabel : t.label = .usbs sender (.holder (.adminBurn holder amount)))
      (hrole : t.pre.usbs.access.hasRole .burnerRole sender = true)

/-- What happens to the tokens of a holder in a run from `w₀` to `w` happens with its consent. -/
structure Consented (w₀ : World κ) (tr : List (Transition (World κ) (Action κ))) (w : World κ)
    (holder : Address) : Prop where
  lost : ∀ t ∈ tr, t.post.usbs.erc20.balances holder < t.pre.usbs.erc20.balances holder →
    Lost holder t
  /-- No spender draws more than it has been allowed. -/
  within : ∀ spender,
    (tr.map fun t => (drawn holder spender t : ℕ∞)).sum + w.usbs.erc20.budget holder spender ≤
      w₀.usbs.erc20.budget holder spender + (tr.map (granted holder spender)).sum
  /-- Only the holder allows it. -/
  granted : ∀ t ∈ tr, ∀ spender, granted holder spender t ≠ 0 →
    ∃ call, t.label = .usbs holder (.holder call) ∧ call.isApproval = true

variable [IERC20 κ]

lemma Step.tokenCall {sender : Address} {call : USBS.Call} (h : w.Step a w')
    (hcall : a.tokenCall w.self = some (sender, call)) :
    w.usbs.exec w.lists sender call = .ok w'.usbs := by
  obtain ⟨-, hexec⟩ := h
  cases a with
  | usbs msgSender tokenCall =>
      obtain ⟨rfl, rfl⟩ := Prod.mk.inj (Option.some.inj hcall)
      simp only [exec, bind_eq_ok, pure_eq_ok] at hexec
      obtain ⟨usbs', hcalled, rfl⟩ := hexec
      exact hcalled
  | manager msgSender managerCall =>
      cases managerCall with
      | requestRedemption amount =>
          obtain ⟨rfl, rfl⟩ := Prod.mk.inj (Option.some.inj hcall)
          simp only [exec, execManager, bind_eq_ok, pure_eq_ok, Prod.exists] at hexec
          obtain ⟨hub', usbs', hrequested, rfl⟩ := hexec
          obtain ⟨-, -, -, -, hburned⟩ := RWAHub.requestRedemption_spec w.prices hrequested
          exact hburned
      | requestRedemptionServicedOffchain amount destination =>
          obtain ⟨rfl, rfl⟩ := Prod.mk.inj (Option.some.inj hcall)
          simp only [exec, execManager, bind_eq_ok, pure_eq_ok, Prod.exists] at hexec
          obtain ⟨manager', usbs', hrequested, rfl⟩ := hexec
          obtain ⟨-, -, -, -, -, -, hburned⟩ :=
            USBSManager.requestRedemptionServicedOffchain_spec w.prices hrequested
          exact hburned
      | _ => cases hcall
  | _ => cases hcall

/-- Without a call of the token but the mints of the manager, nobody loses anything. -/
lemma Step.of_tokenCall_eq_none (h : w.Step a w') (hcall : a.tokenCall w.self = none)
    (holder : Address) :
    w'.usbs.erc20.allowances = w.usbs.erc20.allowances ∧
      w.usbs.erc20.balances holder ≤ w'.usbs.erc20.balances holder := by
  obtain ⟨ms, hpath, hsends⟩ := h.token_calls
  refine hpath.invariant (P := fun token => token.erc20.allowances = w.usbs.erc20.allowances ∧
    w.usbs.erc20.balances holder ≤ token.erc20.balances holder) ⟨rfl, BitVec.le_refl _⟩ ?_
  rintro token m token' hm ⟨hallowances, hbalance⟩ hstep
  cases hsends m hm with
  | @claimMint _ user _ out =>
      simp only [USBS.CallStep, USBS.exec, USBS.mint, bind_eq_ok, require_eq_ok, pure_eq_ok,
        exists_const] at hstep
      obtain ⟨-, minted, hmint, rfl⟩ := hstep
      obtain ⟨-, -, -, hcredited, hothers, -⟩ := ERC20.internalMint_spec hmint
      refine ⟨(ERC20.internalMint_allowances hmint).trans hallowances, BitVec.le_trans hbalance ?_⟩
      by_cases hsame : holder = user
      · subst hsame
        rw [BitVec.le_def, hcredited]
        exact Nat.le_add_right _ _
      · dsimp only
        rw [hothers holder hsame]
        exact BitVec.le_refl _
  | _ => cases hcall

/-- **Nobody draws more than it may.** -/
lemma Step.within (h : w.Step a w') :
    (drawn holder spender ⟨w, a, w'⟩ : ℕ∞) + w'.usbs.erc20.budget holder spender ≤
      w.usbs.erc20.budget holder spender + granted holder spender ⟨w, a, w'⟩ := by
  have hgranted : w'.usbs.erc20.budget holder spender ≤
      w.usbs.erc20.budget holder spender + granted holder spender ⟨w, a, w'⟩ := le_add_tsub
  unfold drawn
  split
  · next sender call hcall =>
      rcases USBS.exec_budget holder spender (h.tokenCall hcall) with
        ⟨approval, rfl, -, happroval⟩ | hspent
      · rw [USBS.Call.drawn, USBS.HolderCall.drawn_of_isApproval happroval, Nat.cast_zero, zero_add]
        exact hgranted
      · rw [add_comm, hspent]
        exact le_self_add
  · rw [Nat.cast_zero, zero_add]
    exact hgranted

lemma Step.granted (h : w.Step a w') (hgranted : granted holder spender ⟨w, a, w'⟩ ≠ 0) :
    ∃ call, a = .usbs holder (.holder call) ∧ call.isApproval = true := by
  have hraised : ¬ w'.usbs.erc20.budget holder spender ≤ w.usbs.erc20.budget holder spender :=
    fun hle => hgranted (tsub_eq_zero_of_le hle)
  cases hcall : a.tokenCall w.self with
  | none =>
      have hsame : w'.usbs.erc20.budget holder spender = w.usbs.erc20.budget holder spender :=
        ERC20.budget_congr (by rw [(h.of_tokenCall_eq_none hcall holder).1])
      exact absurd hsame.le hraised
  | some tokenCall =>
      obtain ⟨sender, call⟩ := tokenCall
      rcases USBS.exec_budget holder spender (h.tokenCall hcall) with
        ⟨approval, rfl, rfl, happroval⟩ | hspent
      · refine ⟨approval, Action.eq_of_tokenCall hcall ?_, happroval⟩
        rintro account amount rfl
        cases happroval
      · exact absurd (hspent ▸ le_self_add) hraised

/-- **What a holder loses**, it gives away or has allowed to be taken, or it is burned. -/
lemma Step.lost (h : w.Step a w')
    (hlost : w'.usbs.erc20.balances holder < w.usbs.erc20.balances holder) :
    Lost holder ⟨w, a, w'⟩ := by
  cases hcall : a.tokenCall w.self with
  | none =>
      have hkept := (h.of_tokenCall_eq_none hcall holder).2
      exact absurd hlost (BitVec.not_lt.mpr hkept)
  | some tokenCall =>
      obtain ⟨sender, call⟩ := tokenCall
      have hexec := h.tokenCall hcall
      rcases USBS.exec_lost hexec hlost with ⟨gift, rfl, rfl, hgift⟩ | hdrawn | ⟨amount, rfl, hrole⟩
      · refine .given (Action.eq_of_tokenCall hcall ?_) hgift
        rintro account amount rfl
        cases hgift
      · have hdrawn' : World.drawn holder sender ⟨w, a, w'⟩ = call.drawn sender holder sender := by
          rw [World.drawn, hcall]
        rw [← hdrawn'] at hdrawn
        refine .drawn hdrawn ?_
        rw [hdrawn']
        rcases USBS.exec_budget holder sender hexec with ⟨approval, rfl, -, happroval⟩ | hspent
        · rw [USBS.Call.drawn, USBS.HolderCall.drawn_of_isApproval happroval, Nat.cast_zero]
          exact zero_le
        · exact hspent ▸ le_add_self
      · exact .burned (Action.eq_of_tokenCall hcall fun _ _ heq => by cases heq) hrole

/-- **Holders consent to what happens to their tokens**, in every run of the system. -/
theorem consented (hrun : Run Step w₀ tr w) (holder : Address) : Consented w₀ tr w holder where
  lost _ ht hlost := (hrun.step_of_mem ht).lost hlost
  within spender := hrun.within_budget (fun w => w.usbs.erc20.budget holder spender)
    fun _ hstep => hstep.within
  granted _ ht _ hgranted := (hrun.step_of_mem ht).granted hgranted

end World

open Sample in
theorem World.consented_sample : Consented world (playTrace next world mintAndRedeem)
    (play next world mintAndRedeem) customer :=
  consented (run_play (fun _ _ _ => step_of_next) _ _) customer

end BrivoUsbs
