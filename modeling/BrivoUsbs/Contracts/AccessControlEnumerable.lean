import BrivoUsbs.Contracts.AccessControl
import BrivoUsbs.Contracts.EnumerableSet

/-!
# Enumerable access control

`AccessControlEnumerable` is the flavour of access control the contracts inherit: it overrides
`_grantRole` and `_revokeRole` so as to keep the members of each role in an enumerable set as well.
-/

namespace BrivoUsbs

structure AccessControlEnumerable where
  /-- The storage of the base contract. -/
  access : AccessControl
  roleMembers : Role → EnumerableSet Address

namespace AccessControlEnumerable

def empty : AccessControlEnumerable where
  access := .empty
  roleMembers _ := .empty

def getRoleMember (contract : AccessControlEnumerable) (role : Role) (index : Uint256) :
    Tx Error Address :=
  (contract.roleMembers role).valueAt index

def getRoleMemberCount (contract : AccessControlEnumerable) (role : Role) : Uint256 :=
  (contract.roleMembers role).length

/-- `_grantRole` -/
def internalGrantRole (contract : AccessControlEnumerable) (msgSender : Address) (role : Role)
    (account : Address) : Tx Error AccessControlEnumerable := do
  let access := contract.access.internalGrantRole msgSender role account
  let added ← (contract.roleMembers role).add account
  return ⟨access, Function.update contract.roleMembers role added.1⟩

/-- `_revokeRole` -/
def internalRevokeRole (contract : AccessControlEnumerable) (msgSender : Address) (role : Role)
    (account : Address) : Tx Error AccessControlEnumerable := do
  let access := contract.access.internalRevokeRole msgSender role account
  let removed ← (contract.roleMembers role).remove account
  return ⟨access, Function.update contract.roleMembers role removed.1⟩

def grantRole (contract : AccessControlEnumerable) (msgSender : Address) (role : Role)
    (account : Address) : Tx Error AccessControlEnumerable := do
  contract.access.checkRole (contract.access.adminRole role) msgSender
  contract.internalGrantRole msgSender role account

def revokeRole (contract : AccessControlEnumerable) (msgSender : Address) (role : Role)
    (account : Address) : Tx Error AccessControlEnumerable := do
  contract.access.checkRole (contract.access.adminRole role) msgSender
  contract.internalRevokeRole msgSender role account

def renounceRole (contract : AccessControlEnumerable) (msgSender : Address) (role : Role)
    (account : Address) : Tx Error AccessControlEnumerable := do
  require (account = msgSender) "AccessControl: can only renounce roles for self"
  contract.internalRevokeRole msgSender role account

end AccessControlEnumerable

/-! ## Operations

What a contract does with its roles: its constructor or initializer grants roles and sets the
admins of roles, and anybody calls the entry points. -/

namespace AccessControl

inductive Operation
  /-- `_grantRole` or `_setupRole` -/
  | setup (msgSender : Address) (role : Role) (account : Address)
  /-- `_setRoleAdmin` -/
  | setAdmin (role adminRole : Role)
  | call (msgSender : Address) (call : Call)

def operate (access : AccessControl) : Operation → Tx Error AccessControl
  | .setup msgSender role account => .ok (access.internalGrantRole msgSender role account)
  | .setAdmin role adminRole => .ok (access.setRoleAdmin role adminRole)
  | .call msgSender call => access.exec msgSender call

end AccessControl

namespace AccessControlEnumerable

def exec (contract : AccessControlEnumerable) (msgSender : Address) :
    AccessControl.Call → Tx Error AccessControlEnumerable
  | .grantRole role account => contract.grantRole msgSender role account
  | .revokeRole role account => contract.revokeRole msgSender role account
  | .renounceRole role account => contract.renounceRole msgSender role account

def operate (contract : AccessControlEnumerable) :
    AccessControl.Operation → Tx Error AccessControlEnumerable
  | .setup msgSender role account => contract.internalGrantRole msgSender role account
  | .setAdmin role adminRole =>
      .ok { contract with access := contract.access.setRoleAdmin role adminRole }
  | .call msgSender call => contract.exec msgSender call

end AccessControlEnumerable

end BrivoUsbs
