import BrivoUsbs.Framework.Word
import Mathlib.Logic.Function.Basic

/-!
# Roles, errors and access control

`Role` names the `bytes32` role constants of the contracts; that they are pairwise distinct is
the collision freedom of `keccak256`.  `Error` collects the custom errors the contracts declare,
and `AccessControl` is the vendored OpenZeppelin role table.  The contracts keep it enumerable: the
sets of members, which only their getters read, are in the module on `AccessControlEnumerable`.
-/

namespace BrivoUsbs

inductive Role
  /-- `DEFAULT_ADMIN_ROLE`, the zero word. -/
  | defaultAdminRole
  -- hub and manager
  | managerAdmin
  | pauserAdmin
  | priceIdSetterRole
  | relayerRole
  | timestampSetterRole
  -- token
  | minterRole
  | pauserRole
  | burnerRole
  | listConfigurerRole
  -- pricer and oracles
  | priceUpdateRole
  | setterRole
  -- allowlist
  | allowlistAdmin
  | allowlistSetter
  /-- Any other role word. -/
  | other (word : Bytes32)
  deriving DecidableEq

/-- The custom errors of the contracts. -/
inductive Error
  /-- The `AccessControl: account … is missing role …` message, by its two arguments. -/
  | missingRole (account : Address) (role : Role)
  -- IRWAHub
  | priceIdNotSet
  | arraySizeMismatch
  | depositTooSmall
  | redemptionTooSmall
  | collateralCannotBeZero
  | rwaCannotBeZero
  | assetSenderCannotBeZero
  | feeRecipientCannotBeZero
  | feeTooLarge
  | amountTooSmall
  | depositorNull
  | depositProofAlreadyExists
  | featurePaused
  | priceIdAlreadySet
  -- IUSBSManager
  | mintNotYetClaimable
  | claimableTimestampInPast
  | claimableTimestampNotSet
  -- list clients
  | blocklistZeroAddress
  | blockedAccount
  | allowlistZeroAddress
  | sanctionsListZeroAddress
  | sanctionedAccount
  -- IAllowlist
  | invalidTermIndex
  | invalidVSignature
  | alreadyVerified
  | invalidSigner
  -- Pricer and PricerWithOracle
  | invalidPrice
  | priceIdDoesNotExist
  | latestPriceMismatch
  | pricesAlreadyMatch
  -- oracles
  | priceUpdateWindowViolation
  | deltaDifferenceConstraintViolation
  | absoluteDifferenceConstraintViolated
  | corruptedChainlinkResponse
  | chainlinkOraclePriceStale
  | chainlinkRoundNotUpdated
  | invalidRWAPrice
  | invalidAddress
  deriving DecidableEq

inductive AccessEvent
  | roleGranted (role : Role) (account sender : Address)
  | roleRevoked (role : Role) (account sender : Address)
  | roleAdminChanged (role previousAdminRole newAdminRole : Role)

structure AccessControl where
  members : Role → Address → Bool
  adminRole : Role → Role
  log : List AccessEvent

namespace AccessControl

/-- Untouched storage: no members, and every role administered by the zero role. -/
def empty : AccessControl where
  members _ _ := false
  adminRole _ := .defaultAdminRole
  log := []

def hasRole (access : AccessControl) (role : Role) (account : Address) : Bool :=
  access.members role account

/-- The `onlyRole` modifier. -/
def checkRole (access : AccessControl) (role : Role) (account : Address) : Tx Error Unit :=
  revertIf (access.hasRole role account = false) (.missingRole account role)

@[simp] lemma checkRole_eq_ok {access : AccessControl} {role : Role} {account : Address}
    {u : Unit} : access.checkRole role account = .ok u ↔ access.hasRole role account = true := by
  simp [checkRole]

/-- `_setRoleAdmin` -/
def setRoleAdmin (access : AccessControl) (role adminRole : Role) : AccessControl :=
  { access with
    adminRole := Function.update access.adminRole role adminRole
    log := access.log ++ [.roleAdminChanged role (access.adminRole role) adminRole] }

/-- `_grantRole` -/
def internalGrantRole (access : AccessControl) (msgSender : Address) (role : Role)
    (account : Address) : AccessControl :=
  if access.hasRole role account then access
  else
    { access with
      members := Function.update access.members role
        (Function.update (access.members role) account true)
      log := access.log ++ [.roleGranted role account msgSender] }

/-- `_revokeRole` -/
def internalRevokeRole (access : AccessControl) (msgSender : Address) (role : Role)
    (account : Address) : AccessControl :=
  if access.hasRole role account then
    { access with
      members := Function.update access.members role
        (Function.update (access.members role) account false)
      log := access.log ++ [.roleRevoked role account msgSender] }
  else access

def grantRole (access : AccessControl) (msgSender : Address) (role : Role)
    (account : Address) : Tx Error AccessControl := do
  access.checkRole (access.adminRole role) msgSender
  return access.internalGrantRole msgSender role account

def revokeRole (access : AccessControl) (msgSender : Address) (role : Role)
    (account : Address) : Tx Error AccessControl := do
  access.checkRole (access.adminRole role) msgSender
  return access.internalRevokeRole msgSender role account

def renounceRole (access : AccessControl) (msgSender : Address) (role : Role)
    (account : Address) : Tx Error AccessControl := do
  require (account = msgSender) "AccessControl: can only renounce roles for self"
  return access.internalRevokeRole msgSender role account

/-- The role-management entry points every contract with access control exposes. -/
inductive Call
  | grantRole (role : Role) (account : Address)
  | revokeRole (role : Role) (account : Address)
  | renounceRole (role : Role) (account : Address)
  deriving DecidableEq

def exec (access : AccessControl) (msgSender : Address) : Call → Tx Error AccessControl
  | .grantRole role account => access.grantRole msgSender role account
  | .revokeRole role account => access.revokeRole msgSender role account
  | .renounceRole role account => access.renounceRole msgSender role account

/-! ## Members -/

variable {access access' : AccessControl} {sender account account' : Address} {role role' : Role}

lemma hasRole_internalGrantRole :
    (access.internalGrantRole sender role account).hasRole role' account' = true ↔
      access.hasRole role' account' = true ∨ role' = role ∧ account' = account := by
  unfold internalGrantRole
  split
  · next hmember =>
      constructor
      · exact .inl
      · rintro (h | ⟨rfl, rfl⟩)
        · exact h
        · exact hmember
  · by_cases hrole : role' = role
    · subst hrole
      by_cases haccount : account' = account
      · simp [hasRole, haccount]
      · simp [hasRole, haccount]
    · simp [hasRole, hrole]

lemma hasRole_internalRevokeRole :
    (access.internalRevokeRole sender role account).hasRole role' account' = true ↔
      access.hasRole role' account' = true ∧ ¬ (role' = role ∧ account' = account) := by
  unfold internalRevokeRole
  split
  · by_cases hrole : role' = role
    · subst hrole
      by_cases haccount : account' = account
      · simp [hasRole, haccount]
      · simp [hasRole, haccount]
    · simp [hasRole, hrole]
  · next hmember =>
      constructor
      · intro h
        refine ⟨h, ?_⟩
        rintro ⟨rfl, rfl⟩
        exact hmember h
      · exact fun h => h.1

lemma grantRole_eq_ok : access.grantRole sender role account = .ok access' ↔
    access.hasRole (access.adminRole role) sender = true ∧
      access.internalGrantRole sender role account = access' := by
  simp only [grantRole, bind_eq_ok, checkRole_eq_ok, exists_const, pure_eq_ok]

lemma revokeRole_eq_ok : access.revokeRole sender role account = .ok access' ↔
    access.hasRole (access.adminRole role) sender = true ∧
      access.internalRevokeRole sender role account = access' := by
  simp only [revokeRole, bind_eq_ok, checkRole_eq_ok, exists_const, pure_eq_ok]

/-- An account without roles cannot change any. -/
lemma exec_of_no_role {call : Call} (h : access.exec sender call = .ok access')
    (hnone : ∀ role, access.hasRole role sender = false) : access' = access := by
  cases call with
  | grantRole role account =>
      obtain ⟨hrole, -⟩ := grantRole_eq_ok.mp h
      rw [hnone] at hrole
      cases hrole
  | revokeRole role account =>
      obtain ⟨hrole, -⟩ := revokeRole_eq_ok.mp h
      rw [hnone] at hrole
      cases hrole
  | renounceRole role account =>
      simp only [exec, renounceRole, bind_eq_ok, require_eq_ok, exists_const, pure_eq_ok] at h
      obtain ⟨rfl, rfl⟩ := h
      rw [internalRevokeRole, hnone, if_neg Bool.false_ne_true]

end AccessControl

end BrivoUsbs
