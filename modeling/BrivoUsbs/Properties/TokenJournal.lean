import BrivoUsbs.Contracts.USBSFactory
import BrivoUsbs.Framework.Journal
import BrivoUsbs.Properties.TokenCalls

/-!
# The journal of the token

The events of the USBS token are a complete record of it: replaying them from blank storage gives
every balance and allowance, the supply, every role and its admin, whether the token is paused, and
the lists it is configured with.  An indexer that knows nothing but the log of a token therefore
knows its state, after any calls by anybody.

`apply` says for each kind of event what it records.  A `Transfer` from the zero address is a mint
and one to it a burn, which is unambiguous because no transfer names the zero address; a spent
allowance is recorded because `_spendAllowance` goes through `_approve`.
-/

namespace BrivoUsbs

/-! ## Roles -/

namespace AccessControl

variable {access access' : AccessControl} {sender account : Address} {role : Role}

/-- The roles without their log, which no call reads. -/
def storage (access : AccessControl) : AccessControl := { access with log := [] }

/-- What an event records. -/
def apply (access : AccessControl) : AccessEvent → AccessControl
  | .roleGranted role account _ => { access with
      members := Function.update access.members role
        (Function.update (access.members role) account true) }
  | .roleRevoked role account _ => { access with
      members := Function.update access.members role
        (Function.update (access.members role) account false) }
  | .roleAdminChanged role _ newAdminRole => { access with
      adminRole := Function.update access.adminRole role newAdminRole }

/-- `access'` is `access` after events that record what happened to it. -/
abbrev Journaled (access access' : AccessControl) : Prop :=
  Journals apply storage AccessControl.log access access'

lemma internalGrantRole_journaled :
    Journaled access (access.internalGrantRole sender role account) := by
  unfold internalGrantRole
  split
  · exact .refl _
  · exact .single rfl rfl

lemma internalRevokeRole_journaled :
    Journaled access (access.internalRevokeRole sender role account) := by
  unfold internalRevokeRole
  split
  · exact .single rfl rfl
  · exact .refl _

lemma setRoleAdmin_journaled {adminRole : Role} :
    Journaled access (access.setRoleAdmin role adminRole) := .single rfl rfl

lemma exec_journaled {call : Call} (h : access.exec sender call = .ok access') :
    Journaled access access' := by
  cases call with
  | grantRole role account =>
      obtain ⟨-, rfl⟩ := grantRole_eq_ok.mp h
      exact internalGrantRole_journaled
  | revokeRole role account =>
      obtain ⟨-, rfl⟩ := revokeRole_eq_ok.mp h
      exact internalRevokeRole_journaled
  | renounceRole role account =>
      simp only [exec, renounceRole, bind_eq_ok, pure_eq_ok] at h
      obtain ⟨_, -, rfl⟩ := h
      exact internalRevokeRole_journaled

end AccessControl

/-! ## Balances and allowances -/

namespace ERC20

variable {token token' : ERC20} {hook : Hook} {a b c : Address} {amount : Uint256}

/-- What an event records. -/
def apply (token : ERC20) : ERC20Event → ERC20
  | .transfer source dest value =>
      if source = 0 then { token with
        totalSupply := token.totalSupply + value
        balances := Function.update token.balances dest (token.balances dest + value) }
      else
        let debited := Function.update token.balances source (token.balances source - value)
        if dest = 0 then { token with
          balances := debited
          totalSupply := token.totalSupply - value }
        else { token with balances := Function.update debited dest (debited dest + value) }
  | .approval owner spender value => { token with
      allowances := Function.update token.allowances owner
        (Function.update (token.allowances owner) spender value) }

/-- `token'` is `token` after events that record what happened to it. -/
abbrev Journaled (token token' : ERC20) : Prop :=
  Journals apply storage ERC20.log token token'

lemma internalApprove_journaled (h : token.internalApprove a b amount = .ok token') :
    Journaled token token' := by
  simp only [internalApprove, bind_eq_ok, require_eq_ok, pure_eq_ok, exists_const] at h
  obtain ⟨-, -, rfl⟩ := h
  exact .single rfl rfl

lemma spendAllowance_journaled (h : token.spendAllowance a b amount = .ok token') :
    Journaled token token' := by
  unfold spendAllowance at h
  split at h
  · cases h
    exact .refl _
  · simp only [bind_eq_ok, require_eq_ok, exists_const] at h
    exact internalApprove_journaled h.2

lemma internalTransfer_journaled (h : token.internalTransfer hook a b amount = .ok token') :
    Journaled token token' := by
  simp only [internalTransfer, bind_eq_ok, require_eq_ok, pure_eq_ok, exists_const,
    checkedAdd_eq_ok] at h
  obtain ⟨ha, hb, _, -, -, balance, hbalance, rfl⟩ := h
  refine .single rfl ?_
  rw [apply, if_neg ha]
  dsimp only
  rw [if_neg hb, eq_add_of_toNat hbalance]
  rfl

lemma internalMint_journaled (h : token.internalMint hook a amount = .ok token') :
    Journaled token token' := by
  simp only [internalMint, bind_eq_ok, require_eq_ok, pure_eq_ok, exists_const,
    checkedAdd_eq_ok] at h
  obtain ⟨-, _, -, supply, hsupply, balance, hbalance, rfl⟩ := h
  refine .single rfl ?_
  rw [apply, if_pos rfl, eq_add_of_toNat hsupply, eq_add_of_toNat hbalance]
  rfl

lemma internalBurn_journaled (h : token.internalBurn hook a amount = .ok token') :
    Journaled token token' := by
  simp only [internalBurn, bind_eq_ok, require_eq_ok, pure_eq_ok, exists_const,
    checkedSub_eq_ok] at h
  obtain ⟨ha, _, -, -, supply, hsupply, rfl⟩ := h
  refine .single rfl ?_
  rw [apply, if_neg ha]
  dsimp only
  rw [if_pos rfl, eq_sub_of_toNat hsupply]
  rfl

end ERC20

/-! ## The token -/

namespace USBS

variable {token token' : USBS} {lists : Lists} {sender : Address}

/-- What the token is set to. -/
structure Settings where
  paused : Bool
  blocklist : Address
  allowlist : Address
  sanctionsList : Address

def settings (token : USBS) : Settings where
  paused := token.paused
  blocklist := token.blocklist
  allowlist := token.allowlist
  sanctionsList := token.sanctionsList

/-- What an event records. -/
def Settings.apply (settings : Settings) : USBSEvent → Settings
  | .paused _ => { settings with paused := true }
  | .unpaused _ => { settings with paused := false }
  | .blocklistSet _ newBlocklist => { settings with blocklist := newBlocklist }
  | .allowlistSet _ newAllowlist => { settings with allowlist := newAllowlist }
  | .sanctionsListSet _ newSanctionsList => { settings with sanctionsList := newSanctionsList }

/-- `token'` is `token` after events that record what happened to it. -/
structure Journaled (token token' : USBS) : Prop where
  erc20 : ERC20.Journaled token.erc20 token'.erc20
  access : AccessControl.Journaled token.access token'.access
  settings : Journals Settings.apply settings USBS.log token token'

lemma Journaled.of_erc20 {erc20 : ERC20} (h : ERC20.Journaled token.erc20 erc20) :
    Journaled token { token with erc20 := erc20 } := ⟨h, .refl _, .of_eq rfl rfl⟩

lemma execHolder_journaled {call : HolderCall}
    (h : token.execHolder lists sender call = .ok token') : Journaled token token' := by
  cases call with
  | transfer dest amount =>
      simp only [execHolder, transfer, ERC20.transfer, bind_eq_ok, pure_eq_ok] at h
      obtain ⟨moved, hmoved, rfl⟩ := h
      exact .of_erc20 (ERC20.internalTransfer_journaled hmoved)
  | transferFrom source dest amount =>
      simp only [execHolder, transferFrom, ERC20.transferFrom, bind_eq_ok, pure_eq_ok] at h
      obtain ⟨moved, ⟨spent, hspent, hmoved⟩, rfl⟩ := h
      exact .of_erc20 (Journals.trans (ERC20.spendAllowance_journaled hspent)
        (ERC20.internalTransfer_journaled hmoved))
  | approve spender amount =>
      simp only [execHolder, ERC20.approve, bind_eq_ok, pure_eq_ok] at h
      obtain ⟨approved, happroved, rfl⟩ := h
      exact .of_erc20 (ERC20.internalApprove_journaled happroved)
  | increaseAllowance spender addedValue =>
      simp only [execHolder, ERC20.increaseAllowance, bind_eq_ok, pure_eq_ok] at h
      obtain ⟨approved, ⟨_, -, happroved⟩, rfl⟩ := h
      exact .of_erc20 (ERC20.internalApprove_journaled happroved)
  | decreaseAllowance spender subtractedValue =>
      simp only [execHolder, ERC20.decreaseAllowance, bind_eq_ok, pure_eq_ok] at h
      obtain ⟨approved, ⟨_, -, happroved⟩, rfl⟩ := h
      exact .of_erc20 (ERC20.internalApprove_journaled happroved)
  | burn amount =>
      simp only [execHolder, burn, bind_eq_ok, pure_eq_ok] at h
      obtain ⟨burned, hburned, rfl⟩ := h
      exact .of_erc20 (ERC20.internalBurn_journaled hburned)
  | burnFrom account amount =>
      simp only [execHolder, burnFrom, bind_eq_ok, pure_eq_ok] at h
      obtain ⟨spent, hspent, burned, hburned, rfl⟩ := h
      exact .of_erc20 (Journals.trans (ERC20.spendAllowance_journaled hspent)
        (ERC20.internalBurn_journaled hburned))
  | adminBurn source amount =>
      simp only [execHolder, adminBurn, bind_eq_ok, pure_eq_ok] at h
      obtain ⟨_, -, burned, hburned, rfl⟩ := h
      exact .of_erc20 (ERC20.internalBurn_journaled hburned)

/-- **Each call records what it does.** -/
lemma exec_journaled {call : Call} (h : token.exec lists sender call = .ok token') :
    Journaled token token' := by
  cases call with
  | holder call => exact execHolder_journaled h
  | mint dest amount =>
      simp only [exec, mint, bind_eq_ok, pure_eq_ok] at h
      obtain ⟨_, -, minted, hminted, rfl⟩ := h
      exact .of_erc20 (ERC20.internalMint_journaled hminted)
  | access call =>
      simp only [exec, bind_eq_ok, pure_eq_ok] at h
      obtain ⟨access, haccess, rfl⟩ := h
      exact ⟨.refl _, AccessControl.exec_journaled haccess, .of_eq rfl rfl⟩
  | _ =>
      simp only [exec, pause, unpause, setBlocklist, setAllowlist, setSanctionsList, bind_eq_ok,
        pure_eq_ok] at h
      obtain ⟨_, -, _, -, rfl⟩ := h
      exact ⟨.refl _, .refl _, .single rfl rfl⟩

/-- Replaying the logs of the token from blank storage gives the token. -/
structure Replayed (token : USBS) : Prop where
  erc20 : token.erc20.storage = token.erc20.log.foldl ERC20.apply .empty
  access : token.access.storage = token.access.log.foldl AccessControl.apply .empty
  settings : token.settings = token.log.foldl Settings.apply ⟨false, 0, 0, 0⟩

lemma Replayed.journaled (h : token.Replayed) (hjournaled : Journaled token token') :
    token'.Replayed :=
  ⟨hjournaled.erc20.replay h.erc20, hjournaled.access.replay h.access,
    hjournaled.settings.replay h.settings⟩

/-- A token behind a proxy, from its initialization on. -/
inductive Initialized : USBS → Prop
  | initial {storage : USBSStorage} {msgSender blocklist allowlist sanctionsList : Address}
      {name symbol : Bytes}
      (hinit : USBSStorage.empty.initializeUSBS msgSender name symbol blocklist allowlist
        sanctionsList = .ok storage) : Initialized storage.toUSBS
  | call {token token' : USBS} {m : Message} (hinit : Initialized token)
      (hcall : token.CallStep m token') : Initialized token'

/-- The initialization records what it does as well. -/
lemma replayed_of_initializeUSBS {storage : USBSStorage}
    {msgSender blocklist allowlist sanctionsList : Address} {name symbol : Bytes}
    (h : USBSStorage.empty.initializeUSBS msgSender name symbol blocklist allowlist
      sanctionsList = .ok storage) : storage.toUSBS.Replayed := by
  have hbegin : USBSStorage.empty.initializable.beginInitializer true =
      .ok (⟨1, true, []⟩, true) := Initializable.beginInitializer_empty true
  simp only [USBSStorage.initializeUSBS, USBSStorage.initializer, hbegin, USBSStorage.initPreset,
    USBSStorage.initBlocklistClient, USBSStorage.initAllowlistClient,
    USBSStorage.initSanctionsListClient, Initializable.onlyInitializing, bind_eq_ok, pure_eq_ok,
    require_eq_ok, revertIf_eq_ok, exists_const, Except.ok.injEq, exists_eq_left'] at h
  obtain ⟨_, ⟨_, ⟨-, rfl⟩, _, ⟨-, -, rfl⟩, _, ⟨-, -, rfl⟩, -, -, rfl⟩, rfl⟩ := h
  have hgrants : AccessControl.Journaled AccessControl.empty
      (((AccessControl.empty.internalGrantRole msgSender .defaultAdminRole
        msgSender).internalGrantRole msgSender .minterRole msgSender).internalGrantRole msgSender
          .pauserRole msgSender) :=
    Journals.trans (Journals.trans AccessControl.internalGrantRole_journaled
      AccessControl.internalGrantRole_journaled) AccessControl.internalGrantRole_journaled
  exact ⟨rfl, hgrants.replay rfl, rfl⟩

lemma Initialized.replayed (h : token.Initialized) : token.Replayed := by
  induction h with
  | initial hinit => exact replayed_of_initializeUSBS hinit
  | call _ hcall ih => exact ih.journaled (exec_journaled hcall)

end USBS

/-! ## The system -/

namespace World

variable {κ : Type} [IERC20 κ] {w₀ w w' : World κ} {tr : List (Transition (World κ) (Action κ))}
  {a : Action κ}

lemma Step.initialized (h : w.Step a w') (hinit : w.usbs.Initialized) : w'.usbs.Initialized := by
  obtain ⟨ms, hpath, -⟩ := h.token_calls
  exact hpath.invariant (P := USBS.Initialized) hinit fun _ _ _ _ hpre hcall => .call hpre hcall

/-- **The token's events are a complete record of it**, in every state of a run in which it has
been initialized, whoever calls it and the system. -/
theorem token_replayed (hinit : w₀.usbs.Initialized) (hrun : Run Step w₀ tr w) :
    w.usbs.Replayed := by
  have hreached : w.usbs.Initialized :=
    (hrun.invariant (P := fun w => w.usbs.Initialized) hinit
      fun _ _ hpre hstep => hstep.initialized hpre).1
  exact hreached.replayed

end World

namespace Sample

/-- A token just initialized by the operator. -/
def initializedStorage : USBSStorage :=
  (USBSStorage.empty.initializeUSBS operator [] [] 0x56 0x58 0x57).toOption.get (by decide)

/-- The world with that token. -/
def initializedWorld : World ERC20 := { world with usbs := initializedStorage.toUSBS }

lemma initializedWorld_initialized : initializedWorld.usbs.Initialized :=
  .initial (eq_ok_get (by decide))

/-- The operator lets the manager mint, the customer mints and redeems, and the token is paused. -/
def mintAndPause : List (Action ERC20) :=
  .usbs operator (.access (.grantRole .minterRole managerAddress)) :: mintAndRedeem ++
    [.usbs operator .pause]

end Sample

open Sample in
theorem World.token_replayed_sample : (play next initializedWorld mintAndPause).usbs.Replayed :=
  token_replayed initializedWorld_initialized (run_play (fun _ _ _ => step_of_next) _ _)

end BrivoUsbs
