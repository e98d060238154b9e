import BrivoUsbs.Contracts.AllowlistUpgradeable
import BrivoUsbs.Contracts.Blocklist
import BrivoUsbs.Contracts.World

/-!
# The system with its list contracts

In `World` the lists answer as they please.  Here they are contracts: blocklists, and allowlists
behind the proxies `AllowlistFactory` deploys and initializes in one transaction.  Only the
sanctions lists remain what others make of them, and which addresses have code, which an allowlist
asks.

A `System` carries the proof that the world asks these contracts, so `Step` is a transaction against
the world or against one of the lists, and the world takes the latter for a change of its lists.
-/

namespace BrivoUsbs

/-- The list contracts on the chain, by address. -/
structure ListContracts where
  blocklists : Address → Option Blocklist
  allowlists : Address → Option AllowlistUpgradeable
  sanctionsLists : Address → Option (Address → Bool)
  isContract : Address → Bool

namespace ListContracts

/-- What the list contracts answer. -/
def lists (contracts : ListContracts) : Lists where
  blocklists address := (contracts.blocklists address).map Blocklist.isBlocked
  allowlists address :=
    (contracts.allowlists address).map fun allowlist => allowlist.isAllowed contracts.isContract
  sanctionsLists := contracts.sanctionsLists

inductive Action
  | blocklist (address msgSender : Address) (call : Blocklist.Call)
  | allowlist (address msgSender : Address) (call : AllowlistUpgradeable.Call)
  | deployBlocklist (address msgSender : Address)
  /-- `deployAllowlist` of the factory, which is the sender. -/
  | deployAllowlist (address msgSender admin setter : Address)
  /-- The sanctions lists change. -/
  | sanctionsLists (sanctionsLists : Address → Option (Address → Bool))
  /-- Code is deployed or destroyed. -/
  | code (isContract : Address → Bool)

def Action.caller : Action → Option Address
  | .blocklist _ msgSender _ => some msgSender
  | .allowlist _ msgSender _ => some msgSender
  | .deployBlocklist _ msgSender => some msgSender
  | .deployAllowlist _ msgSender _ _ => some msgSender
  | .sanctionsLists _ | .code _ => none

def exec (contracts : ListContracts) (crypto : Cryptography) : Action → Tx Error ListContracts
  | .blocklist address msgSender call =>
      match contracts.blocklists address with
      | none => .error .empty
      | some blocklist => do
          let blocklist ← blocklist.exec msgSender call
          return { contracts with
            blocklists := Function.update contracts.blocklists address (some blocklist) }
  | .allowlist address msgSender call =>
      match contracts.allowlists address with
      | none => .error .empty
      | some allowlist => do
          let allowlist ← allowlist.exec crypto msgSender call
          return { contracts with
            allowlists := Function.update contracts.allowlists address (some allowlist) }
  | .deployBlocklist address msgSender =>
      if contracts.blocklists address = none then
        .ok { contracts with
          blocklists := Function.update contracts.blocklists address (some (.deploy msgSender)) }
      else .error .empty
  | .deployAllowlist address msgSender admin setter =>
      if contracts.allowlists address = none then do
        let allowlist ← AllowlistUpgradeable.empty.initializeAllowlist true msgSender admin setter
        return { contracts with
          allowlists := Function.update contracts.allowlists address (some allowlist) }
      else .error .empty
  | .sanctionsLists sanctionsLists => .ok { contracts with sanctionsLists := sanctionsLists }
  | .code isContract => .ok { contracts with isContract := isContract }

end ListContracts

/-- The world and the list contracts it asks. -/
structure System (κ : Type) where
  world : World κ
  contracts : ListContracts
  answers : world.lists = contracts.lists

namespace System

variable {κ : Type}

/-- The world asks these contracts from now on. -/
def connect (world : World κ) (contracts : ListContracts) : System κ where
  world := { world with lists := contracts.lists }
  contracts := contracts
  answers := rfl

inductive Action (κ : Type)
  | world (action : BrivoUsbs.Action κ)
  | contracts (action : ListContracts.Action)

def Action.caller : Action κ → Option Address
  | .world action => action.caller
  | .contracts action => action.caller

/-- A change of the lists is not for the environment to make. -/
def Action.isLists : Action κ → Bool
  | .world (.lists _) => true
  | _ => false

def exec [IERC20 κ] (crypto : Cryptography) (s : System κ) : Action κ → Tx Error (System κ)
  | .world action => do
      let world ← s.world.exec action
      return connect world s.contracts
  | .contracts action => do
      let contracts ← s.contracts.exec crypto action
      return connect s.world contracts

/-- One transaction, or a move of the environment, as in `World.Step`. -/
def Step [IERC20 κ] (crypto : Cryptography) (s : System κ) (a : Action κ) (s' : System κ) : Prop :=
  (∀ caller ∈ a.caller, caller ≠ 0 ∧ caller ≠ s.world.self) ∧ a.isLists = false ∧
    s.exec crypto a = .ok s'

/-- One step as a function: nothing if the transaction is rejected. -/
def next [IERC20 κ] (crypto : Cryptography) (s : System κ) (a : Action κ) : Option (System κ) :=
  if a.caller.all (fun caller => caller ≠ 0 ∧ caller ≠ s.world.self) && !a.isLists then
    (s.exec crypto a).toOption
  else none

lemma step_of_next [IERC20 κ] {crypto : Cryptography} {s s' : System κ} {a : Action κ}
    (h : s.next crypto a = some s') : s.Step crypto a s' := by
  unfold next at h
  split at h
  · next hallowed =>
      rw [Bool.and_eq_true, Bool.not_eq_true'] at hallowed
      exact ⟨by simpa [Option.all_eq_true] using hallowed.1, hallowed.2, toOption_eq_some.mp h⟩
  · cases h

end System

end BrivoUsbs
