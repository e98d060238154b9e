import BrivoUsbs.Contracts.ECDSA
import BrivoUsbs.Contracts.Initializable
import BrivoUsbs.Framework.Path

/-!
# The allowlist

`AllowlistUpgradeable` records which account has agreed to which terms: the account itself says
so, or anybody hands in its signature of the terms, or a setter decides.  An account is allowed if
it has agreed to one of the terms that are valid at the moment.

The contract sits behind a proxy, so a call finds code at its own address.
-/

namespace BrivoUsbs

inductive AllowlistEvent
  | termAdded (hashedMessage : Bytes32) (termIndex : Uint256)
  | currentTermIndexSet (oldIndex newIndex : Uint256)
  | validTermIndexesSet (oldIndexes newIndexes : List Uint256)
  | accountStatusSetByAdmin (account : Address) (termIndex : Uint256) (status : Bool)
  | accountAddedSelf (account : Address) (termIndex : Uint256)
  | accountAddedFromSignature (account : Address) (termIndex : Uint256) (v : BitVec 8)
      (r s : Bytes32)
  | accountStatusSet (account : Address) (termIndex : Uint256) (status : Bool)

structure AllowlistUpgradeable where
  initializable : Initializable
  access : AccessControl
  verifications : Address → Uint256 → Bool
  terms : List Bytes
  currentTermIndex : Uint256
  validIndexes : List Uint256
  log : List AllowlistEvent

namespace AllowlistUpgradeable

/-- The storage of a proxy nobody has initialized yet. -/
def empty : AllowlistUpgradeable where
  initializable := .empty
  access := .empty
  verifications _ _ := false
  terms := []
  currentTermIndex := 0
  validIndexes := []
  log := []

/-- `initialize` -/
def initializeAllowlist (allowlist : AllowlistUpgradeable) (isContract : Bool)
    (msgSender admin setter : Address) : Tx Error AllowlistUpgradeable := do
  let (initializable, isTopLevelCall) ← allowlist.initializable.beginInitializer isContract
  let access := ((allowlist.access.internalGrantRole msgSender .defaultAdminRole
    admin).internalGrantRole msgSender .allowlistAdmin admin).internalGrantRole msgSender
    .allowlistSetter setter
  return { allowlist with
    initializable := initializable.endInitializer isTopLevelCall
    access := access }

/-! ## Terms -/

def getCurrentTerm (allowlist : AllowlistUpgradeable) : Tx Error Bytes :=
  arrayGet allowlist.terms allowlist.currentTermIndex

def setCurrentTermIndex (allowlist : AllowlistUpgradeable) (msgSender : Address)
    (termIndex : Uint256) : Tx Error AllowlistUpgradeable := do
  allowlist.access.checkRole .allowlistAdmin msgSender
  revertIf (allowlist.terms.length ≤ termIndex.toNat) .invalidTermIndex
  return { allowlist with
    currentTermIndex := termIndex
    log := allowlist.log ++ [.currentTermIndexSet allowlist.currentTermIndex termIndex] }

def addTerm (allowlist : AllowlistUpgradeable) (crypto : Cryptography) (msgSender : Address)
    (term : Bytes) : Tx Error AllowlistUpgradeable := do
  allowlist.access.checkRole .allowlistAdmin msgSender
  let terms ← arrayPush allowlist.terms term
  let termIndex ← checkedSub (arrayLength terms) 1
  let allowlist ← { allowlist with terms := terms }.setCurrentTermIndex msgSender termIndex
  return { allowlist with
    log := allowlist.log ++ [.termAdded (crypto.keccak256 term) termIndex] }

def setValidTermIndexes (allowlist : AllowlistUpgradeable) (msgSender : Address)
    (validIndexes : List Uint256) : Tx Error AllowlistUpgradeable := do
  allowlist.access.checkRole .allowlistAdmin msgSender
  validIndexes.forM fun termIndex =>
    revertIf (allowlist.terms.length ≤ termIndex.toNat) .invalidTermIndex
  return { allowlist with
    validIndexes := validIndexes
    log := allowlist.log ++ [.validTermIndexesSet allowlist.validIndexes validIndexes] }

/-! ## Accounts -/

/-- `isContract` says where there is code. -/
def isAllowed (allowlist : AllowlistUpgradeable) (isContract : Address → Bool)
    (account : Address) : Bool :=
  if isContract account then true
  else allowlist.validIndexes.any fun termIndex => allowlist.verifications account termIndex

/-- `_setAccountStatus` -/
def internalSetAccountStatus (allowlist : AllowlistUpgradeable) (account : Address)
    (termIndex : Uint256) (status : Bool) : Tx Error AllowlistUpgradeable := do
  revertIf (allowlist.terms.length ≤ termIndex.toNat) .invalidTermIndex
  return { allowlist with
    verifications := Function.update allowlist.verifications account
      (Function.update (allowlist.verifications account) termIndex status)
    log := allowlist.log ++ [.accountStatusSet account termIndex status] }

def addSelfToAllowlist (allowlist : AllowlistUpgradeable) (msgSender : Address)
    (termIndex : Uint256) : Tx Error AllowlistUpgradeable := do
  revertIf (allowlist.verifications msgSender termIndex = true) .alreadyVerified
  let allowlist ← allowlist.internalSetAccountStatus msgSender termIndex true
  return { allowlist with log := allowlist.log ++ [.accountAddedSelf msgSender termIndex] }

def setAccountStatus (allowlist : AllowlistUpgradeable) (msgSender account : Address)
    (termIndex : Uint256) (status : Bool) : Tx Error AllowlistUpgradeable := do
  allowlist.access.checkRole .allowlistSetter msgSender
  let allowlist ← allowlist.internalSetAccountStatus account termIndex status
  return { allowlist with
    log := allowlist.log ++ [.accountStatusSetByAdmin account termIndex status] }

/-- Anybody may call this: the signature speaks for the account. -/
def addAccountToAllowlist (allowlist : AllowlistUpgradeable) (crypto : Cryptography)
    (termIndex : Uint256) (account : Address) (v : BitVec 8) (r s : Bytes32) :
    Tx Error AllowlistUpgradeable := do
  revertIf (allowlist.verifications account termIndex = true) .alreadyVerified
  revertIf (v ≠ 27 ∧ v ≠ 28) .invalidVSignature
  let term ← arrayGet allowlist.terms termIndex
  let hashedMessage := ECDSA.toEthSignedMessageHash crypto term
  let signer ← ECDSA.recover crypto hashedMessage v r s
  revertIf (signer ≠ account) .invalidSigner
  let allowlist ← allowlist.internalSetAccountStatus account termIndex true
  return { allowlist with
    log := allowlist.log ++ [.accountAddedFromSignature account termIndex v r s] }

/-! ## Entry points -/

inductive Call
  | initializeAllowlist (admin setter : Address)
  | addTerm (term : Bytes)
  | setCurrentTermIndex (termIndex : Uint256)
  | setValidTermIndexes (validIndexes : List Uint256)
  | addSelfToAllowlist (termIndex : Uint256)
  | setAccountStatus (account : Address) (termIndex : Uint256) (status : Bool)
  | addAccountToAllowlist (termIndex : Uint256) (account : Address) (v : BitVec 8)
      (r s : Bytes32)
  | access (call : AccessControl.Call)
  deriving DecidableEq

def exec (allowlist : AllowlistUpgradeable) (crypto : Cryptography) (msgSender : Address) :
    Call → Tx Error AllowlistUpgradeable
  | .initializeAllowlist admin setter =>
      allowlist.initializeAllowlist true msgSender admin setter
  | .addTerm term => allowlist.addTerm crypto msgSender term
  | .setCurrentTermIndex termIndex => allowlist.setCurrentTermIndex msgSender termIndex
  | .setValidTermIndexes validIndexes => allowlist.setValidTermIndexes msgSender validIndexes
  | .addSelfToAllowlist termIndex => allowlist.addSelfToAllowlist msgSender termIndex
  | .setAccountStatus account termIndex status =>
      allowlist.setAccountStatus msgSender account termIndex status
  | .addAccountToAllowlist termIndex account v r s =>
      allowlist.addAccountToAllowlist crypto termIndex account v r s
  | .access call => do
      let access ← allowlist.access.exec msgSender call
      return { allowlist with access := access }

/-- One call by anybody. -/
def Step (crypto : Cryptography) (allowlist : AllowlistUpgradeable) (a : Address × Call)
    (allowlist' : AllowlistUpgradeable) : Prop :=
  allowlist.exec crypto a.1 a.2 = .ok allowlist'

/-- One step as a function: nothing if the call is rejected. -/
def next (crypto : Cryptography) (allowlist : AllowlistUpgradeable) (a : Address × Call) :
    Option AllowlistUpgradeable :=
  (allowlist.exec crypto a.1 a.2).toOption

lemma step_of_next {crypto : Cryptography} {allowlist allowlist' : AllowlistUpgradeable}
    {a : Address × Call} (h : allowlist.next crypto a = some allowlist') :
    allowlist.Step crypto a allowlist' := toOption_eq_some.mp h

/-- An allowlist that has just been initialized, by anybody. -/
def Deployed (allowlist : AllowlistUpgradeable) : Prop :=
  ∃ isContract msgSender admin setter,
    empty.initializeAllowlist isContract msgSender admin setter = .ok allowlist

end AllowlistUpgradeable

end BrivoUsbs
