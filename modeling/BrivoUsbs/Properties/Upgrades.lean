import BrivoUsbs.Properties.FactoryDeployment
import BrivoUsbs.Properties.TokenJournal
import BrivoUsbs.Framework.History

/-!
# The token behind its proxy

To its callers a proxy is the contract it runs.  From `deployUSBS` on, whatever anybody calls on the
proxy, on its implementation or on its admin, the storage behind the proxy goes through calls of the
token, each with the sender of the call on the proxy, and neither `initialize` is ever among them.
So what is proved of a token alone holds of a deployed one: its events are a complete record of it,
for example.

This ends where the token is replaced: when the owner of the proxy's admin upgrades the proxy or
moves it to another admin (`proxied`).  The guardian is that owner until it hands the admin over.
-/

namespace BrivoUsbs

namespace Deployment

variable {d d' : Deployment} {chain : Chain} {sender guardian : Address} {a : Action}
  {tr : List (Transition Deployment Action)}

/-- The token behind the proxy. -/
def token (d : Deployment) : USBS := d.proxy.storage.toUSBS

/-- What the token behind the proxy is called with. -/
def Action.message (a : Action) : Option USBS.Message :=
  match a.call with
  | .proxy (.fallback (.token call)) => some ⟨a.chain.lists, a.msgSender, call⟩
  | _ => none

/-- Whom the call hands the admin of the proxy over to. -/
def Action.newOwner (a : Action) : Option Address :=
  match a.call with
  | .proxyAdmin (.transferOwnership newOwner) => some newOwner
  | .proxyAdmin .renounceOwnership => some 0
  | _ => none

/-- The calls of the admin that change what the proxy runs, or who its admin is. -/
def Action.isUpgrade (a : Action) : Bool :=
  match a.call with
  | .proxyAdmin (.changeProxyAdmin _) | .proxyAdmin (.upgrade _)
  | .proxyAdmin (.upgradeAndCall ..) => true
  | _ => false

/-- The owner of the proxy's admin at that time replaces the token, or gives up the proxy. -/
def Upgrades (t : Transition Deployment Action) : Prop :=
  t.label.isUpgrade = true ∧ t.label.msgSender = t.pre.proxyAdmin.owner

/-- A deployment that still runs the token, after the transitions `tr`. -/
structure Proxied (guardian : Address) (d : Deployment)
    (tr : List (Transition Deployment Action)) (d' : Deployment) : Prop where
  admin : d'.proxy.admin = d.usbsProxyAdmin
  runs : d'.proxy.implementation = d.usbsImplementation
  usbsProxyAdmin : d'.usbsProxyAdmin = d.usbsProxyAdmin
  usbsImplementation : d'.usbsImplementation = d.usbsImplementation
  owner : d'.proxyAdmin.owner = (lastWrite (fun t => t.label.newOwner) tr).getD guardian
  /-- The token went through the calls on the proxy. -/
  calls : Path USBS.CallStep d.token (tr.filterMap fun t => t.label.message) d'.token
  initializable : d'.proxy.storage.initializable = d.proxy.storage.initializable
  name : d'.proxy.storage.name = d.proxy.storage.name
  symbol : d'.proxy.storage.symbol = d.proxy.storage.symbol
  replayed : d'.token.Replayed

/-! ## One call -/

/-- What a call that is no upgrade does to a deployment. -/
structure Continues (d : Deployment) (a : Action) (d' : Deployment) : Prop where
  admin : d'.proxy.admin = d.proxy.admin
  runs : d'.proxy.implementation = d.proxy.implementation
  usbsProxyAdmin : d'.usbsProxyAdmin = d.usbsProxyAdmin
  usbsImplementation : d'.usbsImplementation = d.usbsImplementation
  owner : d'.proxyAdmin.owner = a.newOwner.getD d.proxyAdmin.owner
  calls : Path USBS.CallStep d.token a.message.toList d'.token
  initializable : d'.proxy.storage.initializable = d.proxy.storage.initializable
  name : d'.proxy.storage.name = d.proxy.storage.name
  symbol : d'.proxy.storage.symbol = d.proxy.storage.symbol

/-- An initialized token only takes the calls of a token. -/
lemma exec_of_done {storage storage' : USBSStorage} {lists : Lists} {call : USBSStorage.Call}
    (hdone : storage.initializable.Done) (h : storage.exec lists sender call = .ok storage') :
    ∃ tokenCall token, call = .token tokenCall ∧
      storage.toUSBS.exec lists sender tokenCall = .ok token ∧
      storage' = { storage with toUSBS := token } := by
  cases call with
  | initializePreset name symbol =>
      rw [USBSStorage.exec, USBSStorage.initializePreset] at h
      exact absurd h (USBSStorage.initializer_ne_ok hdone)
  | initializeUSBS name symbol blocklist allowlist sanctionsList =>
      rw [USBSStorage.exec, USBSStorage.initializeUSBS] at h
      exact absurd h (USBSStorage.initializer_ne_ok hdone)
  | token call =>
      simp only [USBSStorage.exec, bind_eq_ok, pure_eq_ok] at h
      obtain ⟨token, htoken, rfl⟩ := h
      exact ⟨call, token, rfl, htoken, rfl⟩

/-- **One call** that is no upgrade and not the admin's own. -/
lemma Step.continues (h : d.Step a d') (hruns : d.proxy.implementation = d.usbsImplementation)
    (hdone : d.proxy.storage.initializable.Done) (hsender : a.msgSender ≠ d.proxy.admin)
    (hno : a.isUpgrade = false) : Continues d a d' := by
  obtain ⟨chain, sender, call⟩ := a
  cases call with
  | proxy call =>
      obtain ⟨storageCall, storage, rfl, hexec, rfl⟩ := callProxy_spec hruns hsender h
      obtain ⟨tokenCall, token, rfl, htoken, rfl⟩ := exec_of_done hdone hexec
      exact ⟨rfl, rfl, rfl, rfl, rfl, .single htoken, rfl, rfl, rfl⟩
  | implementation call =>
      simp only [Step, exec, callImplementation, bind_eq_ok, pure_eq_ok] at h
      obtain ⟨implementation, -, rfl⟩ := h
      exact ⟨rfl, rfl, rfl, rfl, rfl, .nil, rfl, rfl, rfl⟩
  | proxyAdmin call =>
      cases call with
      | transferOwnership newOwner =>
          simp only [Step, exec, callProxyAdmin, ProxyAdmin.transferOwnership, bind_eq_ok,
            pure_eq_ok] at h
          obtain ⟨_, ⟨_, -, _, -, rfl⟩, rfl⟩ := h
          exact ⟨rfl, rfl, rfl, rfl, rfl, .nil, rfl, rfl, rfl⟩
      | renounceOwnership =>
          simp only [Step, exec, callProxyAdmin, ProxyAdmin.renounceOwnership, bind_eq_ok,
            pure_eq_ok] at h
          obtain ⟨_, ⟨_, -, rfl⟩, rfl⟩ := h
          exact ⟨rfl, rfl, rfl, rfl, rfl, .nil, rfl, rfl, rfl⟩
      | _ => cases hno

/-- An upgrade is its owner's. -/
lemma Step.upgrades (h : d.Step a d') (hupgrade : a.isUpgrade = true) : Upgrades ⟨d, a, d'⟩ := by
  obtain ⟨chain, sender, call⟩ := a
  cases call with
  | proxyAdmin call => exact ⟨hupgrade, (callProxyAdmin_owner h).symm⟩
  | proxy _ => cases hupgrade
  | implementation _ => cases hupgrade

/-! ## Runs -/

lemma Proxied.snoc {t : Transition Deployment Action} (h : Proxied guardian d tr t.pre)
    (hstep : Continues t.pre t.label t.post) : Proxied guardian d (tr ++ [t]) t.post where
  admin := hstep.admin.trans h.admin
  runs := hstep.runs.trans h.runs
  usbsProxyAdmin := hstep.usbsProxyAdmin.trans h.usbsProxyAdmin
  usbsImplementation := hstep.usbsImplementation.trans h.usbsImplementation
  owner := by
    rw [hstep.owner, h.owner, lastWrite_snoc]
    cases t.label.newOwner <;> rfl
  calls := by
    have hlast : [t].filterMap (fun t => t.label.message) = t.label.message.toList := by
      cases hmessage : t.label.message <;> simp [hmessage]
    rw [List.filterMap_append, hlast]
    exact h.calls.append hstep.calls
  initializable := hstep.initializable.trans h.initializable
  name := hstep.name.trans h.name
  symbol := hstep.symbol.trans h.symbol
  replayed := hstep.calls.invariant (P := USBS.Replayed) h.replayed fun _ _ _ _ hpre hcall =>
    hpre.journaled (USBS.exec_journaled hcall)

end Deployment

namespace Deployment

variable {d d' : Deployment} {chain : Chain} {sender : Address} {call : USBS.Call}

/-- A deployment that runs an initialized token. -/
def Running (d : Deployment) : Prop :=
  d.proxy.implementation = d.usbsImplementation ∧ d.token.Initialized

lemma Running.callProxy (hrunning : d.Running)
    (h : d.callProxy chain sender (.fallback (.token call)) = .ok d') : d'.Running := by
  obtain ⟨hruns, hinit⟩ := hrunning
  obtain ⟨storage, hexec, rfl⟩ := callProxy_fallback_spec hruns h
  simp only [USBSStorage.exec, bind_eq_ok, pure_eq_ok] at hexec
  obtain ⟨token, htoken, rfl⟩ := hexec
  have hcall : d.token.CallStep ⟨chain.lists, sender, call⟩ token := htoken
  exact ⟨hruns, hinit.call hcall⟩

end Deployment

namespace USBSFactory

variable {factory factory' : USBSFactory} {chain : Chain}
  {msgSender usbsImplementation usbsProxyAdmin usbsProxy : Address} {name ticker : Bytes}
  {listData : USBSListData} {d d' : Deployment}
  {tr : List (Transition Deployment Deployment.Action)}

/-- What the factory deploys is a token it has initialized and called. -/
lemma deployUSBS_initialized
    (h : factory.deployUSBS chain msgSender usbsImplementation usbsProxyAdmin usbsProxy name ticker
      listData = .ok (factory', d)) : d.token.Initialized := by
  simp only [deployUSBS, bind_eq_ok, require_eq_ok, assert_eq_ok, exists_const, pure_eq_ok,
    Prod.mk.injEq] at h
  obtain ⟨-, implementation, -, proxy, hproxy, d₁, h₁, d₂, h₂, d₃, h₃, d₄, h₄, d₅, h₅, d₆, h₆,
    proxyAdmin, -, -, -, rfl⟩ := h
  simp only [TokenProxy.deploy, TokenProxy.setImplementation, TokenProxy.internalChangeAdmin,
    bind_eq_ok, require_eq_ok, exists_const, pure_eq_ok] at hproxy
  obtain ⟨_, ⟨-, rfl⟩, -, rfl⟩ := hproxy
  obtain ⟨storage, hinit, hd₁⟩ := Deployment.callProxy_fallback_spec rfl h₁
  have hrunning : d₁.Running := by
    rw [hd₁]
    exact ⟨rfl, .initial hinit⟩
  exact (((((hrunning.callProxy h₂).callProxy h₃).callProxy h₄).callProxy h₅).callProxy h₆).2

/-- **A deployed token is a token behind a proxy until its proxy is upgraded**, whoever calls the
contracts: the admin of the proxy makes no calls but those its owner makes through it. -/
theorem proxied
    (h : factory.deployUSBS chain msgSender usbsImplementation usbsProxyAdmin usbsProxy name ticker
      listData = .ok (factory', d)) (hrun : Run Deployment.Step d tr d')
    (hadmin : ∀ t ∈ tr, t.label.msgSender ≠ d.usbsProxyAdmin) :
    Deployment.Proxied factory.guardian d tr d' ∨
      ∃ before t after, tr = before ++ t :: after ∧
        Deployment.Proxied factory.guardian d before t.pre ∧ Deployment.Upgrades t := by
  obtain ⟨-, howner, hproxyAdmin, hruns, -, -, honce, -⟩ := deployUSBS_spec h
  have hdone : d.proxy.storage.initializable.Done := honce ▸ Initializable.once_done
  have hreplayed : d.token.Replayed := (deployUSBS_initialized h).replayed
  refine hrun.until_ended (P := Deployment.Proxied factory.guardian d)
    ⟨hproxyAdmin, hruns, rfl, rfl, howner, .nil, rfl, rfl, rfl, hreplayed⟩ ?_
  intro before t ht hbefore hstep
  cases hupgrade : t.label.isUpgrade with
  | true => exact .inr (Deployment.Step.upgrades hstep hupgrade)
  | false =>
      have hsender : t.label.msgSender ≠ t.pre.proxy.admin := hbefore.admin ▸ hadmin t ht
      have hstill := hbefore.runs.trans hbefore.usbsImplementation.symm
      exact .inl (hbefore.snoc
        (hstep.continues hstill (hbefore.initializable ▸ hdone) hsender hupgrade))

end USBSFactory

namespace FactorySample

/-- The guardian lets an account mint and hands the admin over to a stranger, who upgrades. -/
def upgrade : List Deployment.Action := [
  ⟨chain, msig, .proxy (.fallback (.token (.access (.grantRole .minterRole 0xFA))))⟩,
  ⟨chain, 0xFA, .proxy (.fallback (.token (.mint stranger 10)))⟩,
  ⟨chain, stranger, .proxy (.fallback (.token (.holder (.transfer 0x78 4))))⟩,
  ⟨chain, msig, .proxyAdmin (.transferOwnership stranger)⟩,
  ⟨chain, stranger, .proxyAdmin (.upgrade 0xC3)⟩]

end FactorySample

open FactorySample in
theorem USBSFactory.proxied_sample :
    (playTrace Deployment.next deployment upgrade).length = 5 ∧
      (Deployment.Proxied msig deployment (playTrace Deployment.next deployment upgrade)
          (play Deployment.next deployment upgrade) ∨
        ∃ before t after, playTrace Deployment.next deployment upgrade = before ++ t :: after ∧
          Deployment.Proxied msig deployment before t.pre ∧ Deployment.Upgrades t) := by
  have hsenders : (playTrace Deployment.next deployment upgrade).all
      (fun t => t.label.msgSender ≠ deployment.usbsProxyAdmin) = true := by decide +kernel
  have hdeployed : deployed.toOption.isSome = true := by decide +kernel
  refine ⟨by decide +kernel, proxied (eq_ok_get hdeployed)
    (run_play (fun _ _ _ => Deployment.step_of_next) _ _) fun t ht => ?_⟩
  exact of_decide_eq_true (List.all_eq_true.mp hsenders t ht)

end BrivoUsbs
