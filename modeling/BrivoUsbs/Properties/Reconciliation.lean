import BrivoUsbs.Framework.Accounts
import BrivoUsbs.Properties.EventLog

/-!
# Reconciling the token with the manager

Three records are kept of the same tokens: the balances and the supply of USBS, its `Transfer`
events, and the events in which the manager says what it minted and burned.  `reconciled` says that
they agree over every run: the movements of the token are those the manager's events name and those
of the calls others make of the token, in that order, and they account for every balance and for
the supply.
-/

namespace BrivoUsbs

/-! ## The movements of the token -/

/-- The zero address stands for the missing party of a mint or a burn. -/
def party (account : Address) : Option Address := if account = 0 then none else some account

lemma party_of_ne {account : Address} (h : account ≠ 0) : party account = some account := if_neg h

def ERC20Event.movement : ERC20Event → Option (Movement Address)
  | .transfer source dest value => some ⟨party source, party dest, value.toNat⟩
  | .approval .. => none

lemma filterMap_movement_snoc (log : List ERC20Event) (source dest : Address) (value : Uint256) :
    (log ++ [ERC20Event.transfer source dest value]).filterMap ERC20Event.movement =
      log.filterMap ERC20Event.movement ++ [⟨party source, party dest, value.toNat⟩] := by
  simp [ERC20Event.movement]

namespace ERC20

variable {token token' : ERC20} {hook : Hook} {a b : Address} {amount : Uint256}

def accounts (token : ERC20) : Accounts Address where
  balance account := (token.balances account).toNat
  supply := token.totalSupply.toNat
  posted := token.log.filterMap ERC20Event.movement

lemma Approves.accounts (h : Approves token token') : token'.accounts = token.accounts := by
  obtain ⟨hbalances, hsupply, events, hlog, hevents⟩ := h
  have hnone : events.filterMap ERC20Event.movement = [] := by
    rw [List.filterMap_eq_nil_iff]
    intro event hevent
    cases event with
    | transfer source dest value =>
        have hmem : value.toNat ∈ transferred events := List.mem_filterMap.mpr ⟨_, hevent, rfl⟩
        rw [hevents] at hmem
        cases hmem
    | approval => rfl
  simp only [ERC20.accounts, hbalances, hsupply, hlog, List.filterMap_append, hnone,
    List.append_nil]

lemma internalTransfer_posts (h : token.internalTransfer hook a b amount = .ok token') :
    token.accounts.Post ⟨party a, party b, amount.toNat⟩ token'.accounts := by
  simp only [internalTransfer, bind_eq_ok, require_eq_ok, pure_eq_ok, exists_const,
    checkedAdd_eq_ok] at h
  obtain ⟨ha, hb, _, -, hle, destBalance, hdest, rfl⟩ := h
  have hdebited := BitVec.toNat_sub_of_le hle
  have hamount : amount.toNat ≤ (token.balances a).toNat := hle
  have hposted := filterMap_movement_snoc token.log a b amount
  rw [party_of_ne ha, party_of_ne hb] at hposted ⊢
  refine ⟨fun account => ?_, rfl, hposted⟩
  simp only [accounts, Movement.debit, Movement.credit, Option.some.injEq]
  by_cases hsource : a = account
  · by_cases hdestination : b = account
    · subst hsource hdestination
      rw [Function.update_self] at hdest ⊢
      simp only [if_true]
      omega
    · subst hsource
      rw [Function.update_of_ne (Ne.symm hdestination), Function.update_self, if_pos rfl,
        if_neg hdestination]
      omega
  · by_cases hdestination : b = account
    · subst hdestination
      rw [Function.update_of_ne (Ne.symm hsource)] at hdest
      rw [Function.update_self, if_neg hsource, if_pos rfl]
      omega
    · rw [Function.update_of_ne (Ne.symm hdestination), Function.update_of_ne (Ne.symm hsource),
        if_neg hsource, if_neg hdestination]

lemma internalMint_posts (h : token.internalMint hook a amount = .ok token') :
    token.accounts.Post ⟨none, party a, amount.toNat⟩ token'.accounts := by
  obtain ⟨ha, -, hsupply, hbalance, hothers, hlog⟩ := internalMint_spec h
  have hposted := filterMap_movement_snoc token.log 0 a amount
  rw [← hlog, party_of_ne ha] at hposted
  rw [party_of_ne ha]
  refine ⟨fun account => ?_, hsupply, hposted⟩
  simp only [accounts, Movement.debit, Movement.credit, reduceCtorEq, Option.some.injEq, if_false]
  by_cases hsame : a = account
  · subst hsame
    rw [if_pos rfl]
    exact hbalance
  · rw [if_neg hsame, hothers account (Ne.symm hsame)]

lemma internalBurn_posts (h : token.internalBurn hook a amount = .ok token') :
    token.accounts.Post ⟨party a, none, amount.toNat⟩ token'.accounts := by
  obtain ⟨ha, -, hle, hsupply⟩ := internalBurn_spec h
  simp only [internalBurn, bind_eq_ok, require_eq_ok, pure_eq_ok, exists_const,
    checkedSub_eq_ok] at h
  obtain ⟨-, _, -, -, supply, -, rfl⟩ := h
  have hburned := BitVec.toNat_sub_of_le hle
  have hamount : amount.toNat ≤ (token.balances a).toNat := hle
  have hposted := filterMap_movement_snoc token.log a 0 amount
  rw [party_of_ne ha] at hposted ⊢
  refine ⟨fun account => ?_, hsupply, hposted⟩
  simp only [accounts, Movement.debit, Movement.credit, reduceCtorEq, Option.some.injEq, if_false]
  by_cases hsame : a = account
  · subst hsame
    rw [Function.update_self, if_pos rfl]
    omega
  · rw [Function.update_of_ne (Ne.symm hsame), if_neg hsame]

end ERC20

namespace USBS

variable {token token' : USBS} {lists : Lists} {sender : Address}

/-- The movement a holder's call makes. -/
def HolderCall.movement (msgSender : Address) : HolderCall → Option (Movement Address)
  | .transfer dest amount => some ⟨party msgSender, party dest, amount.toNat⟩
  | .transferFrom source dest amount => some ⟨party source, party dest, amount.toNat⟩
  | .burn amount => some ⟨party msgSender, none, amount.toNat⟩
  | .burnFrom account amount => some ⟨party account, none, amount.toNat⟩
  | .adminBurn source amount => some ⟨party source, none, amount.toNat⟩
  | .approve .. | .increaseAllowance .. | .decreaseAllowance .. => none

/-- The movement a call makes. -/
def Call.movement (msgSender : Address) : Call → Option (Movement Address)
  | .holder call => call.movement msgSender
  | .mint dest amount => some ⟨none, party dest, amount.toNat⟩
  | _ => none

def accounts (token : USBS) : Accounts Address := token.erc20.accounts

lemma execHolder_posts {call : HolderCall} (h : token.execHolder lists sender call = .ok token') :
    Path Accounts.Post token.accounts (call.movement sender).toList token'.accounts := by
  have happroves : ∀ {erc20 : ERC20}, ERC20.Approves token.erc20 erc20 →
      Path Accounts.Post token.erc20.accounts [] erc20.accounts := by
    intro erc20 happroved
    rw [happroved.accounts]
    exact .nil
  cases call with
  | transfer dest amount =>
      simp only [execHolder, transfer, ERC20.transfer, bind_eq_ok, pure_eq_ok] at h
      obtain ⟨moved, hmoved, rfl⟩ := h
      exact .single (ERC20.internalTransfer_posts hmoved)
  | transferFrom source dest amount =>
      simp only [execHolder, transferFrom, ERC20.transferFrom, bind_eq_ok, pure_eq_ok] at h
      obtain ⟨moved, ⟨spent, hspent, hmoved⟩, rfl⟩ := h
      exact (happroves (ERC20.spendAllowance_spec hspent)).snoc
        (ERC20.internalTransfer_posts hmoved)
  | approve spender amount =>
      simp only [execHolder, ERC20.approve, bind_eq_ok, pure_eq_ok] at h
      obtain ⟨approved, happroved, rfl⟩ := h
      exact happroves (ERC20.internalApprove_spec happroved)
  | increaseAllowance spender addedValue =>
      simp only [execHolder, bind_eq_ok, pure_eq_ok] at h
      obtain ⟨approved, happroved, rfl⟩ := h
      exact happroves (ERC20.increaseAllowance_spec happroved)
  | decreaseAllowance spender subtractedValue =>
      simp only [execHolder, bind_eq_ok, pure_eq_ok] at h
      obtain ⟨approved, happroved, rfl⟩ := h
      exact happroves (ERC20.decreaseAllowance_spec happroved)
  | burn amount =>
      simp only [execHolder, burn, bind_eq_ok, pure_eq_ok] at h
      obtain ⟨burned, hburned, rfl⟩ := h
      exact .single (ERC20.internalBurn_posts hburned)
  | burnFrom account amount =>
      simp only [execHolder, burnFrom, bind_eq_ok, pure_eq_ok] at h
      obtain ⟨spent, hspent, burned, hburned, rfl⟩ := h
      exact (happroves (ERC20.spendAllowance_spec hspent)).snoc (ERC20.internalBurn_posts hburned)
  | adminBurn source amount =>
      simp only [execHolder, adminBurn, bind_eq_ok, pure_eq_ok] at h
      obtain ⟨_, -, burned, hburned, rfl⟩ := h
      exact .single (ERC20.internalBurn_posts hburned)

/-- **A call posts its movement.** -/
lemma exec_posts {call : Call} (h : token.exec lists sender call = .ok token') :
    Path Accounts.Post token.accounts (call.movement sender).toList token'.accounts := by
  cases call with
  | holder call => exact execHolder_posts h
  | mint dest amount =>
      simp only [exec, mint, bind_eq_ok, require_eq_ok, pure_eq_ok, exists_const] at h
      obtain ⟨-, minted, hmint, rfl⟩ := h
      exact .single (ERC20.internalMint_posts hmint)
  | access call =>
      simp only [exec, bind_eq_ok, pure_eq_ok] at h
      obtain ⟨access, -, rfl⟩ := h
      exact .nil
  | _ =>
      simp only [exec, pause, unpause, setBlocklist, setAllowlist, setSanctionsList, bind_eq_ok,
        pure_eq_ok] at h
      obtain ⟨_, -, _, -, rfl⟩ := h
      exact .nil

end USBS

/-! ## The movements the manager reports -/

/-- The movement an event of the manager tells of. -/
def HubEvent.movement : HubEvent → Option (Movement Address)
  | .mintCompleted user _ rwaAmountOut _ _ _ => some ⟨none, party user, rwaAmountOut.toNat⟩
  | .redemptionRequested user _ amount => some ⟨party user, none, amount.toNat⟩
  | .redemptionRequestedServicedOffChain user _ amount _ => some ⟨party user, none, amount.toNat⟩
  | _ => none

/-- The movement a direct call of the token makes. -/
def Action.movement {κ : Type} : Action κ → Option (Movement Address)
  | .usbs msgSender call => call.movement msgSender
  | _ => none

namespace World

variable {κ : Type} {w₀ w w' : World κ} {tr : List (Transition (World κ) (Action κ))}
  {a : Action κ} {sender : Address}

/-- The movement of the token that an event of the manager tells of, if it does of one. -/
def Reports (accounts : Accounts Address) (e : HubEvent) (accounts' : Accounts Address) : Prop :=
  Path Accounts.Post accounts e.movement.toList accounts'

lemma claimMint_reports {ids : List Bytes32} {manager' : USBSManager} {usbs' : USBS}
    (h : w.manager.claimMint w.usbs w.lists w.pricers w.self w.timestamp ids =
      .ok (manager', usbs')) :
    Emits Reports (fun s : USBSManager × USBS => s.2.accounts) (fun s => s.1.hub.log)
      (w.manager, w.usbs) (manager', usbs') := by
  simp only [USBSManager.claimMint, bind_eq_ok, revertIf_eq_ok, exists_const] at h
  refine foldlM_rel .refl .trans ?_ h.2
  rintro id - ⟨manager, usbs⟩ ⟨manager', usbs'⟩ hentry
  obtain ⟨out, price, -, hlog, -, -, -, hmint⟩ :=
    RWAHub.internalClaimMint_spec (USBSManager.internalClaimMint_hub hentry)
  have hcall : usbs.exec w.lists w.self (.mint _ out) = .ok usbs' := hmint
  exact .single hlog (USBS.exec_posts hcall)

variable [IERC20 κ]

/-- **A step moves what the token is called for, or what the manager reports.** -/
lemma Step.posts (h : w.Step a w') :
    ∃ es, w'.log = w.log ++ es ∧ Path Accounts.Post w.usbs.accounts
      (a.movement.toList ++ es.filterMap HubEvent.movement) w'.usbs.accounts := by
  obtain ⟨es, hlog, hpath⟩ := h.emits
  have hsilent : a.movement = none → (∀ e, Attributed a e → e.movement = none) →
      w'.usbs = w.usbs → ∃ es, w'.log = w.log ++ es ∧ Path Accounts.Post w.usbs.accounts
        (a.movement.toList ++ es.filterMap HubEvent.movement) w'.usbs.accounts := by
    intro hnone hevents hsame
    have hes : es.filterMap HubEvent.movement = [] :=
      List.filterMap_eq_nil_iff.mpr (hpath.labels fun _ e _ hstep => hevents e hstep.2)
    refine ⟨es, hlog, ?_⟩
    rw [hnone, hes, hsame]
    exact .nil
  have hburn : ∀ {user : Address} {amount : Uint256} {e : HubEvent},
      a.movement = none → e.movement = some ⟨party user, none, amount.toNat⟩ →
      w'.log = w.log ++ [e] → w.usbs.burnFrom w.lists w.self user amount = .ok w'.usbs →
      ∃ es, w'.log = w.log ++ es ∧ Path Accounts.Post w.usbs.accounts
        (a.movement.toList ++ es.filterMap HubEvent.movement) w'.usbs.accounts := by
    intro user amount e hnone he hlog' hburned
    have hcall : w.usbs.exec w.lists w.self (.holder (.burnFrom user amount)) = .ok w'.usbs :=
      hburned
    refine ⟨[e], hlog', ?_⟩
    rw [hnone, List.filterMap_cons_some he]
    exact USBS.exec_posts hcall
  obtain ⟨-, hexec⟩ := h
  cases a with
  | usbs sender call =>
      have hnew : es = [] :=
        List.eq_nil_iff_forall_not_mem.mpr fun e he => by
          cases hpath.labels (fun _ _ _ hstep => hstep.2) e he
      simp only [exec, bind_eq_ok, pure_eq_ok] at hexec
      obtain ⟨usbs', hcall, rfl⟩ := hexec
      refine ⟨[], hnew ▸ hlog, ?_⟩
      rw [List.filterMap_nil, List.append_nil]
      exact USBS.exec_posts hcall
  | manager sender call =>
      cases call with
      | claimMint ids =>
          simp only [exec, execManager, bind_eq_ok, pure_eq_ok, Prod.exists] at hexec
          obtain ⟨manager', usbs', hcall, rfl⟩ := hexec
          obtain ⟨es', hlog', hpath'⟩ := claimMint_reports hcall
          exact ⟨es', hlog', hpath'.filterMap fun _ _ _ hreports => hreports⟩
      | requestRedemption amount =>
          simp only [exec, execManager, bind_eq_ok, pure_eq_ok, Prod.exists] at hexec
          obtain ⟨hub', usbs', hcall, rfl⟩ := hexec
          obtain ⟨hlog', -, -, -, hburned⟩ := RWAHub.requestRedemption_spec w.prices hcall
          exact hburn rfl rfl hlog' hburned
      | requestRedemptionServicedOffchain amount destination =>
          simp only [exec, execManager, bind_eq_ok, pure_eq_ok, Prod.exists] at hexec
          obtain ⟨manager', usbs', hcall, rfl⟩ := hexec
          obtain ⟨e, rfl, hlog', -, -, -, hburned⟩ :=
            USBSManager.requestRedemptionServicedOffchain_spec w.prices hcall
          exact hburn rfl rfl hlog' hburned
      | _ =>
          simp only [exec, execManager, bind_eq_ok, pure_eq_ok] at hexec
          obtain ⟨_, -, rfl⟩ := hexec
          exact hsilent rfl (fun e he => by cases he <;> rfl) rfl
  | _ =>
      exact hsilent rfl (fun e he => by cases he)
        ((exec_manager_eq (by simp) hexec).2.2 (by simp))

/-! ## Runs -/

/-- The movements of a transition: the one the token was called for, and those the manager tells
of. -/
def movements (t : Transition (World κ) (Action κ)) : List (Movement Address) :=
  t.label.movement.toList ++ (t.post.log.drop t.pre.log.length).filterMap HubEvent.movement

/-- The records of the token agree, over a run from `w₀` to `w`, with what the manager and the
callers of the token did. -/
structure Reconciled (w₀ : World κ) (tr : List (Transition (World κ) (Action κ))) (w : World κ) :
    Prop where
  /-- The `Transfer` events are those movements, and account for the balances and the supply. -/
  statement : w₀.usbs.accounts.Statement (tr.flatMap movements) w.usbs.accounts
  /-- What the manager tells of are the movements no call of the token was made for. -/
  reported : w.log.filterMap HubEvent.movement = w₀.log.filterMap HubEvent.movement ++
    (tr.filter fun t => t.label.movement.isNone).flatMap movements

/-- The manager has nothing to tell of a call of the token. -/
lemma Step.log_of_movement (h : w.Step a w') (hmovement : a.movement.isNone = false) :
    w'.log = w.log := by
  have hmanager : ∀ sender call, a ≠ .manager sender call := by
    rintro sender call rfl
    cases hmovement
  rw [log, hub, (exec_manager_eq hmanager h.2).1]

lemma Step.reported (h : w.Step a w') :
    w'.log.filterMap HubEvent.movement = w.log.filterMap HubEvent.movement ++
      if a.movement.isNone then movements ⟨w, a, w'⟩ else [] := by
  obtain ⟨es, hlog, -⟩ := h.posts
  cases hmovement : a.movement.isNone with
  | false => rw [h.log_of_movement hmovement, if_neg Bool.false_ne_true, List.append_nil]
  | true =>
      rw [if_pos rfl, movements, Option.isNone_iff_eq_none.mp hmovement, hlog, List.drop_left,
        List.filterMap_append, Option.toList_none, List.nil_append]

/-- **The token and the manager are reconciled**, in every run, whoever takes part in it. -/
theorem reconciled (hrun : Run Step w₀ tr w) : Reconciled w₀ tr w := by
  have hposts : ∀ t : Transition (World κ) (Action κ), t.pre.Step t.label t.post →
      Path Accounts.Post t.pre.usbs.accounts (movements t) t.post.usbs.accounts := by
    intro t hstep
    obtain ⟨es, hlog, hpath⟩ := hstep.posts
    rwa [movements, hlog, List.drop_left]
  refine ⟨Accounts.statement (hrun.flatten (f := fun w => w.usbs.accounts) hposts), ?_⟩
  induction hrun using Run.induction with
  | nil => simp
  | snoc tr s a s' _ hlast ih =>
      rw [hlast.reported, ih, List.append_assoc, List.filter_append, List.flatMap_append]
      cases hmovement : a.movement.isNone <;> simp [hmovement]

end World

open Sample in
theorem World.reconciled_sample :
    Reconciled world (playTrace next world mintAndRedeem) (play next world mintAndRedeem) :=
  reconciled (run_play (fun _ _ _ => step_of_next) _ _)

end BrivoUsbs
