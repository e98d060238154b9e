import BrivoUsbs.Contracts.AccessControl

/-!
# ERC20 tokens

`ERC20` is the vendored OpenZeppelin token, which the plain and the upgradeable flavour share
line for line; the `_beforeTokenTransfer` hook is a parameter of the operations that call it.
`IERC20` is what a contract may assume of a token it is only handed an address of: some
`transferFrom` that reverts or returns optional data.  `safeTransferFrom` is the `SafeERC20`
wrapper around it.
-/

namespace BrivoUsbs

inductive ERC20Event
  | transfer (source dest : Address) (value : Uint256)
  | approval (owner spender : Address) (value : Uint256)
  deriving DecidableEq

structure ERC20 where
  balances : Address → Uint256
  allowances : Address → Address → Uint256
  totalSupply : Uint256
  log : List ERC20Event

namespace ERC20

/-- A hook run before tokens move from `source` to `dest`. -/
abbrev Hook := (source dest : Address) → (amount : Uint256) → Tx Error Unit

/-- The empty `_beforeTokenTransfer` of the base contract. -/
def noHook : Hook := fun _ _ _ => .ok ()

def empty : ERC20 where
  balances _ := 0
  allowances _ _ := 0
  totalSupply := 0
  log := []

/-- The token without its log, which no call reads. -/
def storage (token : ERC20) : ERC20 := { token with log := [] }

/-- `type(uint256).max`, the infinite allowance. -/
def maxUint256 : Uint256 := BitVec.allOnes 256

/-- `_approve` -/
def internalApprove (token : ERC20) (owner spender : Address) (amount : Uint256) :
    Tx Error ERC20 := do
  require (owner ≠ 0) "ERC20: approve from the zero address"
  require (spender ≠ 0) "ERC20: approve to the zero address"
  return { token with
    allowances := Function.update token.allowances owner
      (Function.update (token.allowances owner) spender amount)
    log := token.log ++ [.approval owner spender amount] }

/-- `_spendAllowance` -/
def spendAllowance (token : ERC20) (owner spender : Address) (amount : Uint256) :
    Tx Error ERC20 :=
  if token.allowances owner spender = maxUint256 then .ok token
  else do
    require (amount ≤ token.allowances owner spender) "ERC20: insufficient allowance"
    token.internalApprove owner spender (token.allowances owner spender - amount)

/-- `_transfer` -/
def internalTransfer (token : ERC20) (beforeTokenTransfer : Hook) (source dest : Address)
    (amount : Uint256) : Tx Error ERC20 := do
  require (source ≠ 0) "ERC20: transfer from the zero address"
  require (dest ≠ 0) "ERC20: transfer to the zero address"
  beforeTokenTransfer source dest amount
  require (amount ≤ token.balances source) "ERC20: transfer amount exceeds balance"
  let debited := Function.update token.balances source (token.balances source - amount)
  let destBalance ← checkedAdd (debited dest) amount
  return { token with
    balances := Function.update debited dest destBalance
    log := token.log ++ [.transfer source dest amount] }

/-- `_mint` -/
def internalMint (token : ERC20) (beforeTokenTransfer : Hook) (account : Address)
    (amount : Uint256) : Tx Error ERC20 := do
  require (account ≠ 0) "ERC20: mint to the zero address"
  beforeTokenTransfer 0 account amount
  let totalSupply ← checkedAdd token.totalSupply amount
  let balance ← checkedAdd (token.balances account) amount
  return { token with
    totalSupply := totalSupply
    balances := Function.update token.balances account balance
    log := token.log ++ [.transfer 0 account amount] }

/-- `_burn` -/
def internalBurn (token : ERC20) (beforeTokenTransfer : Hook) (account : Address)
    (amount : Uint256) : Tx Error ERC20 := do
  require (account ≠ 0) "ERC20: burn from the zero address"
  beforeTokenTransfer account 0 amount
  require (amount ≤ token.balances account) "ERC20: burn amount exceeds balance"
  let totalSupply ← checkedSub token.totalSupply amount
  return { token with
    balances := Function.update token.balances account (token.balances account - amount)
    totalSupply := totalSupply
    log := token.log ++ [.transfer account 0 amount] }

def transfer (token : ERC20) (beforeTokenTransfer : Hook) (msgSender dest : Address)
    (amount : Uint256) : Tx Error ERC20 :=
  token.internalTransfer beforeTokenTransfer msgSender dest amount

def approve (token : ERC20) (msgSender spender : Address) (amount : Uint256) : Tx Error ERC20 :=
  token.internalApprove msgSender spender amount

def transferFrom (token : ERC20) (beforeTokenTransfer : Hook) (msgSender source dest : Address)
    (amount : Uint256) : Tx Error ERC20 := do
  let token ← token.spendAllowance source msgSender amount
  token.internalTransfer beforeTokenTransfer source dest amount

def increaseAllowance (token : ERC20) (msgSender spender : Address) (addedValue : Uint256) :
    Tx Error ERC20 := do
  let allowance ← checkedAdd (token.allowances msgSender spender) addedValue
  token.internalApprove msgSender spender allowance

def decreaseAllowance (token : ERC20) (msgSender spender : Address)
    (subtractedValue : Uint256) : Tx Error ERC20 := do
  require (subtractedValue ≤ token.allowances msgSender spender)
    "ERC20: decreased allowance below zero"
  token.internalApprove msgSender spender (token.allowances msgSender spender - subtractedValue)

/-! ## What the operations do -/

variable {token token' : ERC20} {hook : Hook} {a b c : Address} {amount : Uint256}

/-- The values moved by the `Transfer` events of a log. -/
def transferred (log : List ERC20Event) : List ℕ :=
  log.filterMap fun
    | .transfer _ _ value => some value.toNat
    | .approval .. => none

/-- `token'` logs further events than `token`, and these move the listed values. -/
def Moves (token token' : ERC20) (values : List ℕ) : Prop :=
  ∃ events, token'.log = token.log ++ events ∧ transferred events = values

lemma Moves.trans {token₁ token₂ token₃ : ERC20} {values values' : List ℕ}
    (h : Moves token₁ token₂ values) (h' : Moves token₂ token₃ values') :
    Moves token₁ token₃ (values ++ values') := by
  obtain ⟨events, hlog, rfl⟩ := h
  obtain ⟨events', hlog', rfl⟩ := h'
  exact ⟨events ++ events', by rw [hlog', hlog, List.append_assoc], List.filterMap_append⟩

/-- An approval moves nothing: only an allowance changes. -/
def Approves (token token' : ERC20) : Prop :=
  token'.balances = token.balances ∧ token'.totalSupply = token.totalSupply ∧
    Moves token token' []

lemma Approves.refl (token : ERC20) : Approves token token := ⟨rfl, rfl, [], by simp, rfl⟩

lemma internalApprove_spec (h : token.internalApprove a b amount = .ok token') :
    Approves token token' := by
  simp only [internalApprove, bind_eq_ok, require_eq_ok, pure_eq_ok, exists_const] at h
  obtain ⟨-, -, rfl⟩ := h
  exact ⟨rfl, rfl, [.approval a b amount], rfl, rfl⟩

lemma spendAllowance_spec (h : token.spendAllowance a b amount = .ok token') :
    Approves token token' := by
  unfold spendAllowance at h
  split at h
  · cases h
    exact .refl token
  · simp only [bind_eq_ok, require_eq_ok, exists_const] at h
    exact internalApprove_spec h.2

lemma increaseAllowance_spec (h : token.increaseAllowance a b amount = .ok token') :
    Approves token token' := by
  simp only [increaseAllowance, bind_eq_ok] at h
  obtain ⟨_, -, h⟩ := h
  exact internalApprove_spec h

lemma decreaseAllowance_spec (h : token.decreaseAllowance a b amount = .ok token') :
    Approves token token' := by
  simp only [decreaseAllowance, bind_eq_ok, require_eq_ok, exists_const] at h
  exact internalApprove_spec h.2

/-- A transfer passes the hook between two non-zero parties, keeps the supply and moves the
amount. -/
lemma internalTransfer_spec (h : token.internalTransfer hook a b amount = .ok token') :
    a ≠ 0 ∧ b ≠ 0 ∧ hook a b amount = .ok () ∧ token'.totalSupply = token.totalSupply ∧
      Moves token token' [amount.toNat] := by
  simp only [internalTransfer, bind_eq_ok, require_eq_ok, pure_eq_ok, exists_const,
    checkedAdd_eq_ok] at h
  obtain ⟨ha, hb, _, hhook, -, _, -, rfl⟩ := h
  exact ⟨ha, hb, hhook, rfl, [.transfer a b amount], rfl, rfl⟩

lemma transferFrom_spec (h : token.transferFrom hook c a b amount = .ok token') :
    a ≠ 0 ∧ b ≠ 0 ∧ hook a b amount = .ok () ∧ token'.totalSupply = token.totalSupply ∧
      Moves token token' [amount.toNat] := by
  simp only [transferFrom, bind_eq_ok] at h
  obtain ⟨spent, hspent, h⟩ := h
  obtain ⟨-, hsupply, hspends⟩ := spendAllowance_spec hspent
  obtain ⟨ha, hb, hhook, hsupply', hmoves⟩ := internalTransfer_spec h
  exact ⟨ha, hb, hhook, hsupply'.trans hsupply, hspends.trans hmoves⟩

/-- A mint adds the amount to the supply and to the account. -/
lemma internalMint_spec (h : token.internalMint hook a amount = .ok token') :
    a ≠ 0 ∧ hook 0 a amount = .ok () ∧
      token'.totalSupply.toNat = token.totalSupply.toNat + amount.toNat ∧
      (token'.balances a).toNat = (token.balances a).toNat + amount.toNat ∧
      (∀ b, b ≠ a → token'.balances b = token.balances b) ∧
      token'.log = token.log ++ [.transfer 0 a amount] := by
  simp only [internalMint, bind_eq_ok, require_eq_ok, pure_eq_ok, exists_const,
    checkedAdd_eq_ok] at h
  obtain ⟨ha, _, hhook, supply, hsupply, balance, hbalance, rfl⟩ := h
  refine ⟨ha, hhook, hsupply, by simpa using hbalance, fun b hb => ?_, rfl⟩
  exact Function.update_of_ne hb _ _

/-- A burn takes the amount from the supply and from a non-zero account. -/
lemma internalBurn_spec (h : token.internalBurn hook a amount = .ok token') :
    a ≠ 0 ∧ hook a 0 amount = .ok () ∧ amount ≤ token.balances a ∧
      token'.totalSupply.toNat + amount.toNat = token.totalSupply.toNat := by
  simp only [internalBurn, bind_eq_ok, require_eq_ok, pure_eq_ok, exists_const,
    checkedSub_eq_ok] at h
  obtain ⟨ha, _, hhook, hle, supply, hsupply, rfl⟩ := h
  exact ⟨ha, hhook, hle, hsupply⟩

end ERC20

/-! ## Tokens behind an address -/

/-- A token a contract calls through `SafeERC20`: `transferFrom` reverts, or returns nothing or
a flag. -/
class IERC20 (κ : Type) where
  transferFrom : κ → (msgSender source dest : Address) → Uint256 → Tx Error (κ × Option Bool)

instance : IERC20 ERC20 where
  transferFrom token msgSender source dest amount := do
    let token ← token.transferFrom ERC20.noHook msgSender source dest amount
    return (token, some true)

variable {κ : Type} [IERC20 κ]

/-- `SafeERC20.safeTransferFrom` -/
def safeTransferFrom (token : κ) (msgSender source dest : Address) (value : Uint256) :
    Tx Error κ := do
  let result ← IERC20.transferFrom token msgSender source dest value
  require (result.2 ≠ some false) "SafeERC20: ERC20 operation did not succeed"
  return result.1

lemma safeTransferFrom_erc20 {token token' : ERC20} {a b c : Address} {amount : Uint256}
    (h : safeTransferFrom token c a b amount = .ok token') :
    token.transferFrom ERC20.noHook c a b amount = .ok token' := by
  simp only [safeTransferFrom, IERC20.transferFrom, bind_eq_ok, require_eq_ok, pure_eq_ok,
    exists_const] at h
  obtain ⟨_, ⟨moved, hmoved, rfl⟩, -, rfl⟩ := h
  exact hmoved

end BrivoUsbs
