import BrivoUsbs.Contracts.ERC20

/-!
# The USBS token

USBS is the vendored preset ERC20 (mintable by `MINTER_ROLE`, burnable, pausable) whose
`_beforeTokenTransfer` screens the parties of every movement against three list contracts.  The
token holds the addresses of its lists; `Lists` is what the contracts at those addresses answer,
with no answer where there is no such contract.
-/

namespace BrivoUsbs

/-- The list contracts on the chain, by address. -/
structure Lists where
  blocklists : Address → Option (Address → Bool)
  allowlists : Address → Option (Address → Bool)
  sanctionsLists : Address → Option (Address → Bool)

/-- Ask the list contract at an address about an account; the call reverts without one. -/
def askList (lists : Address → Option (Address → Bool)) (list account : Address) :
    Tx Error Bool :=
  match lists list with
  | none => .error .empty
  | some answers => .ok (answers account)

inductive USBSEvent
  | paused (account : Address)
  | unpaused (account : Address)
  | blocklistSet (oldBlocklist newBlocklist : Address)
  | allowlistSet (oldAllowlist newAllowlist : Address)
  | sanctionsListSet (oldSanctionsList newSanctionsList : Address)

structure USBS where
  erc20 : ERC20
  paused : Bool
  access : AccessControl
  blocklist : Address
  allowlist : Address
  sanctionsList : Address
  log : List USBSEvent

namespace USBS

def isBlocked (token : USBS) (lists : Lists) (account : Address) : Tx Error Bool :=
  askList lists.blocklists token.blocklist account

def isSanctioned (token : USBS) (lists : Lists) (account : Address) : Tx Error Bool :=
  askList lists.sanctionsLists token.sanctionsList account

def isAllowed (token : USBS) (lists : Lists) (account : Address) : Tx Error Bool :=
  askList lists.allowlists token.allowlist account

/-- The three list checks `_beforeTokenTransfer` makes of one party. -/
def screen (token : USBS) (lists : Lists) (party : String) (account : Address) :
    Tx Error Unit := do
  let blocked ← token.isBlocked lists account
  require (blocked = false) ("USBS: '" ++ party ++ "' address blocked")
  let sanctioned ← token.isSanctioned lists account
  require (sanctioned = false) ("USBS: '" ++ party ++ "' address sanctioned")
  let allowed ← token.isAllowed lists account
  require (allowed = true) ("USBS: '" ++ party ++ "' address not on allowlist")

def beforeTokenTransfer (token : USBS) (lists : Lists) (msgSender : Address) : ERC20.Hook :=
  fun source dest _ => do
    require (token.paused = false) "ERC20Pausable: token transfer while paused"
    -- Only a caller that is neither party is screened as the sender.
    onlyWhen (source ≠ msgSender ∧ dest ≠ msgSender) (token.screen lists "sender" msgSender)
    -- The zero address stands for the missing party of a mint or a burn.
    onlyWhen (source ≠ 0) (token.screen lists "from" source)
    onlyWhen (dest ≠ 0) (token.screen lists "to" dest)

/-! ## Movements -/

def transfer (token : USBS) (lists : Lists) (msgSender dest : Address) (amount : Uint256) :
    Tx Error USBS := do
  let erc20 ← token.erc20.transfer (token.beforeTokenTransfer lists msgSender) msgSender dest
    amount
  return { token with erc20 := erc20 }

def transferFrom (token : USBS) (lists : Lists) (msgSender source dest : Address)
    (amount : Uint256) : Tx Error USBS := do
  let erc20 ← token.erc20.transferFrom (token.beforeTokenTransfer lists msgSender) msgSender
    source dest amount
  return { token with erc20 := erc20 }

def mint (token : USBS) (lists : Lists) (msgSender dest : Address) (amount : Uint256) :
    Tx Error USBS := do
  require (token.access.hasRole .minterRole msgSender = true)
    "ERC20PresetMinterPauser: must have minter role to mint"
  let erc20 ← token.erc20.internalMint (token.beforeTokenTransfer lists msgSender) dest amount
  return { token with erc20 := erc20 }

/-- `burn(uint256)` of the burnable extension. -/
def burn (token : USBS) (lists : Lists) (msgSender : Address) (amount : Uint256) :
    Tx Error USBS := do
  let erc20 ← token.erc20.internalBurn (token.beforeTokenTransfer lists msgSender) msgSender
    amount
  return { token with erc20 := erc20 }

def burnFrom (token : USBS) (lists : Lists) (msgSender account : Address) (amount : Uint256) :
    Tx Error USBS := do
  let erc20 ← token.erc20.spendAllowance account msgSender amount
  let erc20 ← erc20.internalBurn (token.beforeTokenTransfer lists msgSender) account amount
  return { token with erc20 := erc20 }

/-- `burn(address, uint256)`, the burn of `BURNER_ROLE`. -/
def adminBurn (token : USBS) (lists : Lists) (msgSender source : Address) (amount : Uint256) :
    Tx Error USBS := do
  token.access.checkRole .burnerRole msgSender
  let erc20 ← token.erc20.internalBurn (token.beforeTokenTransfer lists msgSender) source amount
  return { token with erc20 := erc20 }

/-! ## Administration -/

def pause (token : USBS) (msgSender : Address) : Tx Error USBS := do
  require (token.access.hasRole .pauserRole msgSender = true)
    "ERC20PresetMinterPauser: must have pauser role to pause"
  require (token.paused = false) "Pausable: paused"
  return { token with paused := true, log := token.log ++ [.paused msgSender] }

def unpause (token : USBS) (msgSender : Address) : Tx Error USBS := do
  require (token.access.hasRole .pauserRole msgSender = true)
    "ERC20PresetMinterPauser: must have pauser role to unpause"
  require (token.paused = true) "Pausable: not paused"
  return { token with paused := false, log := token.log ++ [.unpaused msgSender] }

def setBlocklist (token : USBS) (msgSender blocklist : Address) : Tx Error USBS := do
  token.access.checkRole .listConfigurerRole msgSender
  revertIf (blocklist = 0) .blocklistZeroAddress
  return { token with
    blocklist := blocklist
    log := token.log ++ [.blocklistSet token.blocklist blocklist] }

def setAllowlist (token : USBS) (msgSender allowlist : Address) : Tx Error USBS := do
  token.access.checkRole .listConfigurerRole msgSender
  revertIf (allowlist = 0) .allowlistZeroAddress
  return { token with
    allowlist := allowlist
    log := token.log ++ [.allowlistSet token.allowlist allowlist] }

def setSanctionsList (token : USBS) (msgSender sanctionsList : Address) : Tx Error USBS := do
  token.access.checkRole .listConfigurerRole msgSender
  revertIf (sanctionsList = 0) .sanctionsListZeroAddress
  return { token with
    sanctionsList := sanctionsList
    log := token.log ++ [.sanctionsListSet token.sanctionsList sanctionsList] }

/-! ## Entry points -/

/-- The calls that can move tokens or allowances without the minter role. -/
inductive HolderCall
  | transfer (dest : Address) (amount : Uint256)
  | transferFrom (source dest : Address) (amount : Uint256)
  | approve (spender : Address) (amount : Uint256)
  | increaseAllowance (spender : Address) (addedValue : Uint256)
  | decreaseAllowance (spender : Address) (subtractedValue : Uint256)
  | burn (amount : Uint256)
  | burnFrom (account : Address) (amount : Uint256)
  | adminBurn (source : Address) (amount : Uint256)

inductive Call
  | holder (call : HolderCall)
  | mint (dest : Address) (amount : Uint256)
  | pause
  | unpause
  | setBlocklist (blocklist : Address)
  | setAllowlist (allowlist : Address)
  | setSanctionsList (sanctionsList : Address)
  | access (call : AccessControl.Call)

def execHolder (token : USBS) (lists : Lists) (msgSender : Address) : HolderCall → Tx Error USBS
  | .transfer dest amount => token.transfer lists msgSender dest amount
  | .transferFrom source dest amount => token.transferFrom lists msgSender source dest amount
  | .approve spender amount => do
      let erc20 ← token.erc20.approve msgSender spender amount
      return { token with erc20 := erc20 }
  | .increaseAllowance spender addedValue => do
      let erc20 ← token.erc20.increaseAllowance msgSender spender addedValue
      return { token with erc20 := erc20 }
  | .decreaseAllowance spender subtractedValue => do
      let erc20 ← token.erc20.decreaseAllowance msgSender spender subtractedValue
      return { token with erc20 := erc20 }
  | .burn amount => token.burn lists msgSender amount
  | .burnFrom account amount => token.burnFrom lists msgSender account amount
  | .adminBurn source amount => token.adminBurn lists msgSender source amount

def exec (token : USBS) (lists : Lists) (msgSender : Address) : Call → Tx Error USBS
  | .holder call => token.execHolder lists msgSender call
  | .mint dest amount => token.mint lists msgSender dest amount
  | .pause => token.pause msgSender
  | .unpause => token.unpause msgSender
  | .setBlocklist blocklist => token.setBlocklist msgSender blocklist
  | .setAllowlist allowlist => token.setAllowlist msgSender allowlist
  | .setSanctionsList sanctionsList => token.setSanctionsList msgSender sanctionsList
  | .access call => do
      let access ← token.access.exec msgSender call
      return { token with access := access }

/-! ## What the operations do -/

variable {token token' : USBS} {lists : Lists} {sender account : Address} {amount : Uint256}

/-- A successful mint is by a minter, to a non-zero account, and adds the amount to the supply
and to that account only. -/
lemma mint_spec (h : token.mint lists sender account amount = .ok token') :
    token.access.hasRole .minterRole sender = true ∧ account ≠ 0 ∧
      token'.access = token.access ∧
      token'.erc20.totalSupply.toNat = token.erc20.totalSupply.toNat + amount.toNat ∧
      (token'.erc20.balances account).toNat =
        (token.erc20.balances account).toNat + amount.toNat ∧
      (∀ b, b ≠ account → token'.erc20.balances b = token.erc20.balances b) := by
  simp only [mint, bind_eq_ok, require_eq_ok, pure_eq_ok, exists_const] at h
  obtain ⟨hrole, erc20, hmint, rfl⟩ := h
  obtain ⟨hne, -, hsupply, hbalance, hother, -⟩ := ERC20.internalMint_spec hmint
  exact ⟨hrole, hne, rfl, hsupply, hbalance, hother⟩

/-- A successful `burnFrom` takes the amount from a non-zero account and from the supply. -/
lemma burnFrom_spec (h : token.burnFrom lists sender account amount = .ok token') :
    account ≠ 0 ∧ token'.access = token.access ∧
      token'.erc20.totalSupply.toNat + amount.toNat = token.erc20.totalSupply.toNat := by
  simp only [burnFrom, bind_eq_ok, pure_eq_ok] at h
  obtain ⟨spent, hspent, burned, hburned, rfl⟩ := h
  obtain ⟨-, hsupply, -⟩ := ERC20.spendAllowance_spec hspent
  obtain ⟨hne, -, -, hburn⟩ := ERC20.internalBurn_spec hburned
  exact ⟨hne, rfl, hsupply ▸ hburn⟩

/-- The source and the destination of the movement a holder's call makes. -/
def HolderCall.parties (msgSender : Address) : HolderCall → Option (Address × Address)
  | .transfer dest _ => some (msgSender, dest)
  | .transferFrom source dest _ => some (source, dest)
  | .burn _ => some (msgSender, 0)
  | .burnFrom account _ => some (account, 0)
  | .adminBurn source _ => some (source, 0)
  | .approve .. | .increaseAllowance .. | .decreaseAllowance .. => none

/-- What a holder's call with these parties makes of the balances and allowances: it sets an
allowance, or it moves or burns tokens, after spending an allowance if it has to. -/
inductive Operates (token : USBS) (lists : Lists) (sender : Address) (erc20 : ERC20) :
    Option (Address × Address) → Prop
  | approves (happroves : ERC20.Approves token.erc20 erc20) :
      Operates token lists sender erc20 none
  | transfers {spent : ERC20} {source dest : Address} {amount : Uint256}
      (hspent : ERC20.Approves token.erc20 spent)
      (hmoved : spent.internalTransfer (token.beforeTokenTransfer lists sender) source dest
        amount = .ok erc20) :
      Operates token lists sender erc20 (some (source, dest))
  | burns {spent : ERC20} {source : Address} {amount : Uint256}
      (hspent : ERC20.Approves token.erc20 spent)
      (hburned : spent.internalBurn (token.beforeTokenTransfer lists sender) source amount =
        .ok erc20) :
      Operates token lists sender erc20 (some (source, 0))

/-- **What the holders' calls do**, and nothing else. -/
lemma execHolder_operates {call : HolderCall}
    (h : token.execHolder lists sender call = .ok token') :
    ∃ erc20, token' = { token with erc20 := erc20 } ∧
      token.Operates lists sender erc20 (call.parties sender) := by
  cases call with
  | transfer dest amount =>
      simp only [execHolder, transfer, ERC20.transfer, bind_eq_ok, pure_eq_ok] at h
      obtain ⟨moved, hmoved, rfl⟩ := h
      exact ⟨moved, rfl, .transfers (.refl _) hmoved⟩
  | transferFrom source dest amount =>
      simp only [execHolder, transferFrom, ERC20.transferFrom, bind_eq_ok, pure_eq_ok] at h
      obtain ⟨moved, ⟨spent, hspent, hmoved⟩, rfl⟩ := h
      exact ⟨moved, rfl, .transfers (ERC20.spendAllowance_spec hspent) hmoved⟩
  | approve spender amount =>
      simp only [execHolder, ERC20.approve, bind_eq_ok, pure_eq_ok] at h
      obtain ⟨approved, happroved, rfl⟩ := h
      exact ⟨approved, rfl, .approves (ERC20.internalApprove_spec happroved)⟩
  | increaseAllowance spender addedValue =>
      simp only [execHolder, bind_eq_ok, pure_eq_ok] at h
      obtain ⟨approved, happroved, rfl⟩ := h
      exact ⟨approved, rfl, .approves (ERC20.increaseAllowance_spec happroved)⟩
  | decreaseAllowance spender subtractedValue =>
      simp only [execHolder, bind_eq_ok, pure_eq_ok] at h
      obtain ⟨approved, happroved, rfl⟩ := h
      exact ⟨approved, rfl, .approves (ERC20.decreaseAllowance_spec happroved)⟩
  | burn amount =>
      simp only [execHolder, burn, bind_eq_ok, pure_eq_ok] at h
      obtain ⟨burned, hburned, rfl⟩ := h
      exact ⟨burned, rfl, .burns (.refl _) hburned⟩
  | burnFrom account amount =>
      simp only [execHolder, burnFrom, bind_eq_ok, pure_eq_ok] at h
      obtain ⟨spent, hspent, burned, hburned, rfl⟩ := h
      exact ⟨burned, rfl, .burns (ERC20.spendAllowance_spec hspent) hburned⟩
  | adminBurn source amount =>
      simp only [execHolder, adminBurn, bind_eq_ok, pure_eq_ok] at h
      obtain ⟨_, -, burned, hburned, rfl⟩ := h
      exact ⟨burned, rfl, .burns (.refl _) hburned⟩

/-- No holder call raises the supply or touches the roles. -/
lemma execHolder_spec {call : HolderCall}
    (h : token.execHolder lists sender call = .ok token') :
    token'.access = token.access ∧
      token'.erc20.totalSupply.toNat ≤ token.erc20.totalSupply.toNat := by
  obtain ⟨erc20, rfl, hoperates⟩ := execHolder_operates h
  generalize call.parties sender = parties at hoperates
  refine ⟨rfl, ?_⟩
  cases hoperates with
  | approves happroves =>
      obtain ⟨-, hsupply, -⟩ := happroves
      exact (congrArg BitVec.toNat hsupply).le
  | transfers hspent hmoved =>
      obtain ⟨-, hsupply, -⟩ := hspent
      obtain ⟨-, -, -, hsupply', -⟩ := ERC20.internalTransfer_spec hmoved
      exact (congrArg BitVec.toNat (hsupply'.trans hsupply)).le
  | burns hspent hburned =>
      obtain ⟨-, hsupply, -⟩ := hspent
      obtain ⟨-, -, -, hburn⟩ := ERC20.internalBurn_spec hburned
      rw [hsupply] at hburn
      exact (Nat.le_add_right _ _).trans hburn.le

/-- A call on the token by anybody but its minter does not raise the supply, and only the calls
on its roles change them. -/
lemma exec_supply {call : Call} (h : token.exec lists sender call = .ok token')
    (hminter : token.access.hasRole .minterRole sender = false) :
    token'.erc20.totalSupply.toNat ≤ token.erc20.totalSupply.toNat ∧
      ((∀ access, call ≠ .access access) → token'.access = token.access) := by
  cases call with
  | holder call =>
      obtain ⟨haccess, hsupply⟩ := execHolder_spec h
      exact ⟨hsupply, fun _ => haccess⟩
  | mint dest amount =>
      obtain ⟨hrole, -⟩ := mint_spec h
      exact absurd hrole (by simp [hminter])
  | access call =>
      simp only [exec, bind_eq_ok, pure_eq_ok] at h
      obtain ⟨access, -, rfl⟩ := h
      exact ⟨le_rfl, fun hne => absurd rfl (hne call)⟩
  | _ =>
      simp only [exec, pause, unpause, setBlocklist, setAllowlist, setSanctionsList, bind_eq_ok,
        pure_eq_ok] at h
      obtain ⟨_, -, _, -, rfl⟩ := h
      exact ⟨le_rfl, fun _ => rfl⟩

end USBS

end BrivoUsbs
