import BrivoUsbs.Contracts.AccessControl
import BrivoUsbs.Framework.Path

/-!
# The blocklist

`Blocklist` is the contract behind the token's and the manager's blocklist clients: its owner adds
accounts and removes them again, in batches.  The ownership is handed over in two steps, the second
one taken by the new owner.

`onlyOwner` is the modifier of `Ownable`, and `internalTransferOwnership` the `_transferOwnership`
of `Ownable2Step`, which calls that of `Ownable`.
-/

namespace BrivoUsbs

inductive OwnershipEvent
  | ownershipTransferred (previousOwner newOwner : Address)
  | ownershipTransferStarted (previousOwner newOwner : Address)

structure Ownable2Step where
  owner : Address
  pendingOwner : Address
  log : List OwnershipEvent

namespace Ownable2Step

/-- `_transferOwnership` -/
def internalTransferOwnership (ownable : Ownable2Step) (newOwner : Address) : Ownable2Step where
  owner := newOwner
  pendingOwner := 0
  log := ownable.log ++ [.ownershipTransferred ownable.owner newOwner]

/-- The constructor. -/
def deploy (msgSender : Address) : Ownable2Step := internalTransferOwnership ⟨0, 0, []⟩ msgSender

def onlyOwner (ownable : Ownable2Step) (msgSender : Address) : Tx Error Unit :=
  require (ownable.owner = msgSender) "Ownable: caller is not the owner"

/-- The new owner may be the zero address, which calls the handover off. -/
def transferOwnership (ownable : Ownable2Step) (msgSender newOwner : Address) :
    Tx Error Ownable2Step := do
  ownable.onlyOwner msgSender
  return { ownable with
    pendingOwner := newOwner
    log := ownable.log ++ [.ownershipTransferStarted ownable.owner newOwner] }

def acceptOwnership (ownable : Ownable2Step) (msgSender : Address) : Tx Error Ownable2Step := do
  require (ownable.pendingOwner = msgSender) "Ownable2Step: caller is not the new owner"
  return ownable.internalTransferOwnership msgSender

def renounceOwnership (ownable : Ownable2Step) (msgSender : Address) : Tx Error Ownable2Step := do
  ownable.onlyOwner msgSender
  return ownable.internalTransferOwnership 0

inductive Call
  | transferOwnership (newOwner : Address)
  | acceptOwnership
  | renounceOwnership
  deriving DecidableEq

def exec (ownable : Ownable2Step) (msgSender : Address) : Call → Tx Error Ownable2Step
  | .transferOwnership newOwner => ownable.transferOwnership msgSender newOwner
  | .acceptOwnership => ownable.acceptOwnership msgSender
  | .renounceOwnership => ownable.renounceOwnership msgSender

end Ownable2Step

inductive BlocklistEvent
  | blockedAddressesAdded (accounts : List Address)
  | blockedAddressesRemoved (accounts : List Address)

structure Blocklist where
  ownable : Ownable2Step
  blockedAddresses : Address → Bool
  log : List BlocklistEvent

namespace Blocklist

/-- The constructor. -/
def deploy (msgSender : Address) : Blocklist where
  ownable := .deploy msgSender
  blockedAddresses _ := false
  log := []

/-- The loop of the two setters. -/
def setBlocked (blockedAddresses : Address → Bool) (status : Bool) (accounts : List Address) :
    Address → Bool :=
  accounts.foldl (fun blocked account => Function.update blocked account status) blockedAddresses

def addToBlocklist (blocklist : Blocklist) (msgSender : Address) (accounts : List Address) :
    Tx Error Blocklist := do
  blocklist.ownable.onlyOwner msgSender
  return { blocklist with
    blockedAddresses := setBlocked blocklist.blockedAddresses true accounts
    log := blocklist.log ++ [.blockedAddressesAdded accounts] }

def removeFromBlocklist (blocklist : Blocklist) (msgSender : Address) (accounts : List Address) :
    Tx Error Blocklist := do
  blocklist.ownable.onlyOwner msgSender
  return { blocklist with
    blockedAddresses := setBlocked blocklist.blockedAddresses false accounts
    log := blocklist.log ++ [.blockedAddressesRemoved accounts] }

def isBlocked (blocklist : Blocklist) (account : Address) : Bool :=
  blocklist.blockedAddresses account

inductive Call
  | addToBlocklist (accounts : List Address)
  | removeFromBlocklist (accounts : List Address)
  | ownable (call : Ownable2Step.Call)
  deriving DecidableEq

def exec (blocklist : Blocklist) (msgSender : Address) : Call → Tx Error Blocklist
  | .addToBlocklist accounts => blocklist.addToBlocklist msgSender accounts
  | .removeFromBlocklist accounts => blocklist.removeFromBlocklist msgSender accounts
  | .ownable call => do
      let ownable ← blocklist.ownable.exec msgSender call
      return { blocklist with ownable := ownable }

/-- One call by anybody; nobody calls from the zero address. -/
def Step (blocklist : Blocklist) (a : Address × Call) (blocklist' : Blocklist) : Prop :=
  a.1 ≠ 0 ∧ blocklist.exec a.1 a.2 = .ok blocklist'

/-- One step as a function: nothing if the call is rejected. -/
def next (blocklist : Blocklist) (a : Address × Call) : Option Blocklist :=
  if a.1 = 0 then none else (blocklist.exec a.1 a.2).toOption

lemma step_of_next {blocklist blocklist' : Blocklist} {a : Address × Call}
    (h : blocklist.next a = some blocklist') : blocklist.Step a blocklist' := by
  unfold next at h
  split at h
  · cases h
  · next hsender => exact ⟨hsender, toOption_eq_some.mp h⟩

end Blocklist

end BrivoUsbs
