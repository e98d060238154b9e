import BrivoUsbs.Contracts.Initializable
import BrivoUsbs.Contracts.ECDSA
import BrivoUsbs.Contracts.USBS
import BrivoUsbs.Framework.Path

/-!
# The factory of the token

`USBSFactory.deployUSBS` constructs an implementation of the token, a `ProxyAdmin` and a proxy,
initializes the token behind the proxy and hands the control over to the guardian.

`USBSStorage` is the storage of a token contract with what its initialization touches, which both
the implementation and the proxy have.  The proxy runs the code at its implementation's address on
its own storage: the token's, unless its admin has upgraded it, and then anything.
-/

namespace BrivoUsbs

/-! ## The token with its initializers -/

structure USBSStorage extends USBS where
  initializable : Initializable
  name : Bytes
  symbol : Bytes

namespace USBSStorage

/-- Untouched storage. -/
def empty : USBSStorage where
  erc20 := .empty
  paused := false
  access := .empty
  blocklist := 0
  allowlist := 0
  sanctionsList := 0
  log := []
  initializable := .empty
  name := []
  symbol := []

/-- The constructor, which runs on the implementation's storage. -/
def deploy : Tx Error USBSStorage := do
  let initializable ← empty.initializable.disableInitializers
  return { empty with initializable := initializable }

/-- `__ERC20PresetMinterPauser_init` -/
def initPreset (storage : USBSStorage) (msgSender : Address) (name symbol : Bytes) :
    Tx Error USBSStorage := do
  storage.initializable.onlyInitializing
  let access := ((storage.access.internalGrantRole msgSender .defaultAdminRole
    msgSender).internalGrantRole msgSender .minterRole msgSender).internalGrantRole msgSender
    .pauserRole msgSender
  return { storage with
    name := name
    symbol := symbol
    paused := false
    access := access }

/-- `__BlocklistClientInitializable_init` -/
def initBlocklistClient (storage : USBSStorage) (blocklist : Address) :
    Tx Error USBSStorage := do
  storage.initializable.onlyInitializing
  revertIf (blocklist = 0) .blocklistZeroAddress
  return { storage with
    blocklist := blocklist
    log := storage.log ++ [.blocklistSet storage.blocklist blocklist] }

/-- `__AllowlistClientInitializable_init` -/
def initAllowlistClient (storage : USBSStorage) (allowlist : Address) :
    Tx Error USBSStorage := do
  storage.initializable.onlyInitializing
  revertIf (allowlist = 0) .allowlistZeroAddress
  return { storage with
    allowlist := allowlist
    log := storage.log ++ [.allowlistSet storage.allowlist allowlist] }

/-- `__SanctionsListClientInitializable_init` -/
def initSanctionsListClient (storage : USBSStorage) (sanctionsList : Address) :
    Tx Error USBSStorage := do
  storage.initializable.onlyInitializing
  revertIf (sanctionsList = 0) .sanctionsListZeroAddress
  return { storage with
    sanctionsList := sanctionsList
    log := storage.log ++ [.sanctionsListSet storage.sanctionsList sanctionsList] }

/-- A function with the modifier `initializer`, of a contract with code. -/
def initializer (storage : USBSStorage) (body : USBSStorage → Tx Error USBSStorage) :
    Tx Error USBSStorage := do
  let (initializable, isTopLevelCall) ← storage.initializable.beginInitializer true
  let storage ← body { storage with initializable := initializable }
  return { storage with
    initializable := storage.initializable.endInitializer isTopLevelCall }

/-- `initialize` of the preset, which the token inherits. -/
def initializePreset (storage : USBSStorage) (msgSender : Address) (name symbol : Bytes) :
    Tx Error USBSStorage :=
  storage.initializer fun storage => storage.initPreset msgSender name symbol

/-- `initialize` of the token -/
def initializeUSBS (storage : USBSStorage) (msgSender : Address) (name symbol : Bytes)
    (blocklist allowlist sanctionsList : Address) : Tx Error USBSStorage :=
  storage.initializer fun storage => do
    let storage ← storage.initPreset msgSender name symbol
    let storage ← storage.initBlocklistClient blocklist
    let storage ← storage.initAllowlistClient allowlist
    storage.initSanctionsListClient sanctionsList

inductive Call
  | initializePreset (name symbol : Bytes)
  | initializeUSBS (name symbol : Bytes) (blocklist allowlist sanctionsList : Address)
  | token (call : USBS.Call)

/-- One of the two `initialize` -/
def Call.isInitialize : Call → Bool
  | .initializePreset .. | .initializeUSBS .. => true
  | .token _ => false

def exec (storage : USBSStorage) (lists : Lists) (msgSender : Address) :
    Call → Tx Error USBSStorage
  | .initializePreset name symbol => storage.initializePreset msgSender name symbol
  | .initializeUSBS name symbol blocklist allowlist sanctionsList =>
      storage.initializeUSBS msgSender name symbol blocklist allowlist sanctionsList
  | .token call => do
      let token ← storage.toUSBS.exec lists msgSender call
      return { storage with toUSBS := token }

end USBSStorage

/-! ## The proxy and its admin -/

structure TokenProxy where
  /-- `_ADMIN_SLOT` -/
  admin : Address
  /-- `_IMPLEMENTATION_SLOT` -/
  implementation : Address
  storage : USBSStorage

namespace TokenProxy

inductive Call
  | changeAdmin (newAdmin : Address)
  | upgradeTo (newImplementation : Address)
  | upgradeToAndCall (newImplementation : Address) (data : USBSStorage.Call)
  /-- A call of a function that is not the proxy's own. -/
  | fallback (call : USBSStorage.Call)

end TokenProxy

/-- What a call finds on the chain. -/
structure Chain where
  lists : Lists
  isContract : Address → Bool
  /-- What the code at an address makes of a proxy that delegates a call to it. -/
  delegatecall : Address → TokenProxy → (msgSender : Address) → TokenProxy.Call →
    Tx Error TokenProxy

namespace TokenProxy

/-- `_setImplementation` -/
def setImplementation (proxy : TokenProxy) (chain : Chain) (newImplementation : Address) :
    Tx Error TokenProxy := do
  require (chain.isContract newImplementation = true)
    "ERC1967: new implementation is not a contract"
  return { proxy with implementation := newImplementation }

/-- `_changeAdmin` -/
def internalChangeAdmin (proxy : TokenProxy) (newAdmin : Address) : Tx Error TokenProxy := do
  require (newAdmin ≠ 0) "ERC1967: new admin is the zero address"
  return { proxy with admin := newAdmin }

/-- The constructor, without initialization data. -/
def deploy (chain : Chain) (logic admin : Address) : Tx Error TokenProxy := do
  let proxy ← TokenProxy.setImplementation ⟨0, 0, .empty⟩ chain logic
  proxy.internalChangeAdmin admin

/-- `_delegate`: the code of the token is at the address `usbsImplementation`. -/
def delegate (proxy : TokenProxy) (chain : Chain) (usbsImplementation msgSender : Address)
    (call : Call) : Tx Error TokenProxy :=
  if proxy.implementation = usbsImplementation then
    match call with
    | .fallback call => do
        let storage ← proxy.storage.exec chain.lists msgSender call
        return { proxy with storage := storage }
    -- The token has no such function.
    | _ => .error .empty
  else chain.delegatecall proxy.implementation proxy msgSender call

/-- `_fallback` -/
def internalFallback (proxy : TokenProxy) (chain : Chain)
    (usbsImplementation msgSender : Address) (call : Call) : Tx Error TokenProxy := do
  require (msgSender ≠ proxy.admin)
    "TransparentUpgradeableProxy: admin cannot fallback to proxy target"
  proxy.delegate chain usbsImplementation msgSender call

/-- The functions of the proxy itself are for its admin.  From anybody else they are calls of the
implementation. -/
def exec (proxy : TokenProxy) (chain : Chain) (usbsImplementation msgSender : Address)
    (call : Call) : Tx Error TokenProxy :=
  if msgSender = proxy.admin then
    match call with
    | .changeAdmin newAdmin => proxy.internalChangeAdmin newAdmin
    | .upgradeTo newImplementation => proxy.setImplementation chain newImplementation
    | .upgradeToAndCall newImplementation data => do
        let proxy ← proxy.setImplementation chain newImplementation
        proxy.delegate chain usbsImplementation msgSender (.fallback data)
    | .fallback call => proxy.internalFallback chain usbsImplementation msgSender (.fallback call)
  else proxy.internalFallback chain usbsImplementation msgSender call

end TokenProxy

/-- The event `OwnershipTransferred`. -/
structure OwnershipTransferred where
  previousOwner : Address
  newOwner : Address

structure ProxyAdmin where
  owner : Address
  log : List OwnershipTransferred

namespace ProxyAdmin

/-- `_transferOwnership` -/
def internalTransferOwnership (proxyAdmin : ProxyAdmin) (newOwner : Address) : ProxyAdmin :=
  ⟨newOwner, proxyAdmin.log ++ [⟨proxyAdmin.owner, newOwner⟩]⟩

/-- The constructor. -/
def deploy (msgSender : Address) : ProxyAdmin :=
  internalTransferOwnership ⟨0, []⟩ msgSender

def onlyOwner (proxyAdmin : ProxyAdmin) (msgSender : Address) : Tx Error Unit :=
  require (proxyAdmin.owner = msgSender) "Ownable: caller is not the owner"

def transferOwnership (proxyAdmin : ProxyAdmin) (msgSender newOwner : Address) :
    Tx Error ProxyAdmin := do
  proxyAdmin.onlyOwner msgSender
  require (newOwner ≠ 0) "Ownable: new owner is the zero address"
  return proxyAdmin.internalTransferOwnership newOwner

def renounceOwnership (proxyAdmin : ProxyAdmin) (msgSender : Address) : Tx Error ProxyAdmin := do
  proxyAdmin.onlyOwner msgSender
  return proxyAdmin.internalTransferOwnership 0

inductive Call
  | transferOwnership (newOwner : Address)
  | renounceOwnership
  | changeProxyAdmin (newAdmin : Address)
  | upgrade (newImplementation : Address)
  | upgradeAndCall (newImplementation : Address) (data : USBSStorage.Call)

end ProxyAdmin

/-! ## What the factory deploys -/

/-- The three contracts, by address and content. -/
structure Deployment where
  usbsImplementation : Address
  usbsProxyAdmin : Address
  usbsProxy : Address
  implementation : USBSStorage
  proxyAdmin : ProxyAdmin
  proxy : TokenProxy

namespace Deployment

def callProxy (d : Deployment) (chain : Chain) (msgSender : Address) (call : TokenProxy.Call) :
    Tx Error Deployment := do
  let proxy ← d.proxy.exec chain d.usbsImplementation msgSender call
  return { d with proxy := proxy }

def callImplementation (d : Deployment) (chain : Chain) (msgSender : Address)
    (call : USBSStorage.Call) : Tx Error Deployment := do
  let implementation ← d.implementation.exec chain.lists msgSender call
  return { d with implementation := implementation }

/-- The admin passes its owner's calls on to the proxy. -/
def callProxyAdmin (d : Deployment) (chain : Chain) (msgSender : Address) :
    ProxyAdmin.Call → Tx Error Deployment
  | .transferOwnership newOwner => do
      let proxyAdmin ← d.proxyAdmin.transferOwnership msgSender newOwner
      return { d with proxyAdmin := proxyAdmin }
  | .renounceOwnership => do
      let proxyAdmin ← d.proxyAdmin.renounceOwnership msgSender
      return { d with proxyAdmin := proxyAdmin }
  | .changeProxyAdmin newAdmin => do
      d.proxyAdmin.onlyOwner msgSender
      d.callProxy chain d.usbsProxyAdmin (.changeAdmin newAdmin)
  | .upgrade newImplementation => do
      d.proxyAdmin.onlyOwner msgSender
      d.callProxy chain d.usbsProxyAdmin (.upgradeTo newImplementation)
  | .upgradeAndCall newImplementation data => do
      d.proxyAdmin.onlyOwner msgSender
      d.callProxy chain d.usbsProxyAdmin (.upgradeToAndCall newImplementation data)

inductive Call
  | proxy (call : TokenProxy.Call)
  | implementation (call : USBSStorage.Call)
  | proxyAdmin (call : ProxyAdmin.Call)

/-- One call, of whom and on which chain. -/
structure Action where
  chain : Chain
  msgSender : Address
  call : Call

/-- A call of one of the two `initialize`, of the implementation or through the proxy. -/
def Action.isInitialize (a : Action) : Bool :=
  match a.call with
  | .proxy (.fallback call) => call.isInitialize
  | .implementation call => call.isInitialize
  | _ => false

def exec (d : Deployment) (a : Action) : Tx Error Deployment :=
  match a.call with
  | .proxy call => d.callProxy a.chain a.msgSender call
  | .implementation call => d.callImplementation a.chain a.msgSender call
  | .proxyAdmin call => d.callProxyAdmin a.chain a.msgSender call

def Step (d : Deployment) (a : Action) (d' : Deployment) : Prop := d.exec a = .ok d'

/-- One step as a function: nothing if the call is rejected. -/
def next (d : Deployment) (a : Action) : Option Deployment := (d.exec a).toOption

lemma step_of_next {d d' : Deployment} {a : Action} (h : d.next a = some d') : d.Step a d' :=
  toOption_eq_some.mp h

end Deployment

/-- `USBSListData` -/
structure USBSListData where
  blocklist : Address
  allowlist : Address
  sanctionsList : Address

/-- The event `USBSDeployed`. -/
structure USBSDeployed where
  proxy : Address
  proxyAdmin : Address
  implementation : Address
  name : Bytes
  ticker : Bytes
  listData : USBSListData

structure USBSFactory where
  /-- `address(this)` -/
  self : Address
  guardian : Address
  usbsImplementation : Address
  usbsProxyAdmin : Address
  usbsProxy : Address
  log : List USBSDeployed

namespace USBSFactory

/-- The `msg.sender` of a call of the factory: another account, or the factory itself, which
only makes calls of the guardian's choice in `multiexcall`. -/
inductive CalledBy (factory : USBSFactory) : Address → Prop
  | other {msgSender : Address} (hother : msgSender ≠ factory.self) : CalledBy factory msgSender
  | multiexcall {msgSender : Address} (hcalled : CalledBy factory msgSender)
      (hguardian : msgSender = factory.guardian) : CalledBy factory factory.self

/-- `deployUSBS`, which creates its contracts at the addresses given. -/
def deployUSBS (factory : USBSFactory) (chain : Chain) (msgSender : Address)
    (usbsImplementation usbsProxyAdmin usbsProxy : Address) (name ticker : Bytes)
    (listData : USBSListData) : Tx Error (USBSFactory × Deployment) := do
  require (msgSender = factory.guardian) "USBSFactory: You are not the Guardian"
  let implementation ← USBSStorage.deploy
  let proxy ← TokenProxy.deploy chain usbsImplementation usbsProxyAdmin
  let d : Deployment := {
    usbsImplementation := usbsImplementation
    usbsProxyAdmin := usbsProxyAdmin
    usbsProxy := usbsProxy
    implementation := implementation
    proxyAdmin := .deploy factory.self
    proxy := proxy }
  let d ← d.callProxy chain factory.self (.fallback (.initializeUSBS name ticker
    listData.blocklist listData.allowlist listData.sanctionsList))
  let d ← d.callProxy chain factory.self (.fallback (.token (.access
    (.grantRole .defaultAdminRole factory.guardian))))
  let d ← d.callProxy chain factory.self (.fallback (.token (.access
    (.grantRole .pauserRole factory.guardian))))
  let d ← d.callProxy chain factory.self (.fallback (.token (.access
    (.revokeRole .minterRole factory.self))))
  let d ← d.callProxy chain factory.self (.fallback (.token (.access
    (.revokeRole .pauserRole factory.self))))
  let d ← d.callProxy chain factory.self (.fallback (.token (.access
    (.revokeRole .defaultAdminRole factory.self))))
  let proxyAdmin ← d.proxyAdmin.transferOwnership factory.self factory.guardian
  assert (proxyAdmin.owner = factory.guardian)
  return ({ factory with
    usbsImplementation := usbsImplementation
    usbsProxyAdmin := usbsProxyAdmin
    usbsProxy := usbsProxy
    log := factory.log ++
      [⟨usbsProxy, usbsProxyAdmin, usbsImplementation, name, ticker, listData⟩] },
    { d with proxyAdmin := proxyAdmin })

/-- A factory that is its own guardian is of no use. -/
lemma CalledBy.guardian_ne_self {factory : USBSFactory} {msgSender : Address}
    (h : factory.CalledBy msgSender) (hguardian : msgSender = factory.guardian) :
    factory.guardian ≠ factory.self := by
  induction h with
  | other hother => exact hguardian ▸ hother
  | multiexcall hcalled hsender ih => exact ih hsender

end USBSFactory

end BrivoUsbs
