import BrivoUsbs.Contracts.USBSFactory

/-!
# Who controls a deployed token

After `deployUSBS` the guardian is the only account with a role, and the owner of the proxy's
admin.  Whatever anybody else calls, on the token behind the proxy, on its implementation or on
the admin, leaves the roles, the lists, the pause flag and the supply as they are, and neither
`initialize` is ever accepted again: see `guardian_controls`.
-/

namespace BrivoUsbs

/-! ## Calls without a role -/

namespace USBS

variable {token token' : USBS} {lists : Lists} {sender : Address}

lemma execHolder_erc20 {call : HolderCall}
    (h : token.execHolder lists sender call = .ok token') :
    ∃ erc20, token' = { token with erc20 := erc20 } := by
  cases call with
  | adminBurn source amount =>
      simp only [execHolder, adminBurn, bind_eq_ok, pure_eq_ok] at h
      obtain ⟨_, -, burned, -, rfl⟩ := h
      exact ⟨burned, rfl⟩
  | burnFrom account amount =>
      simp only [execHolder, burnFrom, bind_eq_ok, pure_eq_ok] at h
      obtain ⟨_, -, burned, -, rfl⟩ := h
      exact ⟨burned, rfl⟩
  | _ =>
      simp only [execHolder, transfer, transferFrom, burn, bind_eq_ok, pure_eq_ok] at h
      obtain ⟨erc20, -, rfl⟩ := h
      exact ⟨erc20, rfl⟩

/-- **An account without a role controls nothing.**  What it calls changes balances and allowances
only, and does not raise the supply. -/
lemma exec_of_no_role {call : Call} (h : token.exec lists sender call = .ok token')
    (hnone : ∀ role, token.access.hasRole role sender = false) :
    (∃ erc20, token' = { token with erc20 := erc20 }) ∧
      token'.erc20.totalSupply.toNat ≤ token.erc20.totalSupply.toNat := by
  refine ⟨?_, (exec_supply h (hnone .minterRole)).1⟩
  cases call with
  | holder call => exact execHolder_erc20 h
  | mint dest amount =>
      obtain ⟨hrole, -⟩ := mint_spec h
      rw [hnone] at hrole
      cases hrole
  | access call =>
      simp only [exec, bind_eq_ok, pure_eq_ok] at h
      obtain ⟨access, haccess, rfl⟩ := h
      rw [AccessControl.exec_of_no_role haccess hnone]
      exact ⟨token.erc20, rfl⟩
  | _ =>
      simp only [exec, pause, unpause, setBlocklist, setAllowlist, setSanctionsList, bind_eq_ok,
        require_eq_ok, AccessControl.checkRole_eq_ok, hnone] at h
      obtain ⟨_, hrole, -⟩ := h
      cases hrole

end USBS

namespace USBSStorage

variable {storage storage' storage'' : USBSStorage} {lists : Lists} {guardian sender : Address}

/-- The contract is initialized, nothing is minted, and nobody but the guardian has a role. -/
structure Guarded (guardian : Address) (storage : USBSStorage) : Prop where
  roles : ∀ role account, storage.access.hasRole role account = true → account = guardian
  done : storage.initializable.Done
  totalSupply : storage.erc20.totalSupply = 0

/-- The controls of the token are what they were, and still nothing is minted. -/
structure Kept (storage storage' : USBSStorage) : Prop where
  access : storage'.access = storage.access
  paused : storage'.paused = storage.paused
  blocklist : storage'.blocklist = storage.blocklist
  allowlist : storage'.allowlist = storage.allowlist
  sanctionsList : storage'.sanctionsList = storage.sanctionsList
  initializable : storage'.initializable = storage.initializable
  totalSupply : storage'.erc20.totalSupply = 0

lemma Guarded.kept_refl (h : storage.Guarded guardian) : storage.Kept storage :=
  ⟨rfl, rfl, rfl, rfl, rfl, rfl, h.totalSupply⟩

lemma Kept.trans (h : storage.Kept storage') (h' : storage'.Kept storage'') :
    storage.Kept storage'' where
  access := h'.access.trans h.access
  paused := h'.paused.trans h.paused
  blocklist := h'.blocklist.trans h.blocklist
  allowlist := h'.allowlist.trans h.allowlist
  sanctionsList := h'.sanctionsList.trans h.sanctionsList
  initializable := h'.initializable.trans h.initializable
  totalSupply := h'.totalSupply

lemma Guarded.of_kept (h : storage.Guarded guardian) (hkept : storage.Kept storage') :
    storage'.Guarded guardian where
  roles := by
    rw [hkept.access]
    exact h.roles
  done := by
    rw [hkept.initializable]
    exact h.done
  totalSupply := hkept.totalSupply

lemma initializer_ne_ok {body : USBSStorage → Tx Error USBSStorage}
    (hdone : storage.initializable.Done) : storage.initializer body ≠ .ok storage' := by
  intro h
  simp only [initializer, bind_eq_ok] at h
  obtain ⟨result, hbegin, -⟩ := h
  exact hdone.beginInitializer_ne_ok hbegin

/-- Whatever anybody but the guardian calls, it is no `initialize` and keeps the controls. -/
lemma Guarded.exec (h : storage.Guarded guardian) {call : Call} (hsender : sender ≠ guardian)
    (hexec : storage.exec lists sender call = .ok storage') :
    call.isInitialize = false ∧ storage.Kept storage' := by
  cases call with
  | initializePreset name symbol =>
      rw [USBSStorage.exec, initializePreset] at hexec
      exact absurd hexec (initializer_ne_ok h.done)
  | initializeUSBS name symbol blocklist allowlist sanctionsList =>
      rw [USBSStorage.exec, initializeUSBS] at hexec
      exact absurd hexec (initializer_ne_ok h.done)
  | token call =>
      have hnone : ∀ role, storage.access.hasRole role sender = false := by
        intro role
        rw [Bool.eq_false_iff]
        exact fun hrole => hsender (h.roles role sender hrole)
      simp only [USBSStorage.exec, bind_eq_ok, pure_eq_ok] at hexec
      obtain ⟨token, htoken, rfl⟩ := hexec
      obtain ⟨⟨erc20, rfl⟩, hsupply⟩ := USBS.exec_of_no_role htoken hnone
      refine ⟨rfl, rfl, rfl, rfl, rfl, rfl, rfl, BitVec.eq_of_toNat_eq ?_⟩
      rw [h.totalSupply] at hsupply
      exact Nat.le_zero.mp hsupply

end USBSStorage

/-! ## Runs of a deployment -/

namespace Deployment

variable {d d' d'' s : Deployment} {guardian sender : Address} {chain : Chain} {a : Action}
  {tr : List (Transition Deployment Action)}

/-- The guardian owns the admin of the proxy, the proxy runs the token, and neither the token nor
its implementation gives anybody else a role. -/
structure Guarded (guardian : Address) (d : Deployment) : Prop where
  proxy : d.proxy.storage.Guarded guardian
  implementation : d.implementation.Guarded guardian
  owner : d.proxyAdmin.owner = guardian
  admin : d.proxy.admin = d.usbsProxyAdmin
  runs : d.proxy.implementation = d.usbsImplementation

structure Kept (d d' : Deployment) : Prop where
  proxy : d.proxy.storage.Kept d'.proxy.storage
  implementation : d.implementation.Kept d'.implementation
  proxyAdmin : d'.proxyAdmin = d.proxyAdmin
  admin : d'.proxy.admin = d.proxy.admin
  runs : d'.proxy.implementation = d.proxy.implementation
  usbsProxyAdmin : d'.usbsProxyAdmin = d.usbsProxyAdmin
  usbsImplementation : d'.usbsImplementation = d.usbsImplementation

lemma Guarded.kept_refl (h : d.Guarded guardian) : d.Kept d :=
  ⟨h.proxy.kept_refl, h.implementation.kept_refl, rfl, rfl, rfl, rfl, rfl⟩

lemma Kept.trans (h : d.Kept d') (h' : d'.Kept d'') : d.Kept d'' where
  proxy := h.proxy.trans h'.proxy
  implementation := h.implementation.trans h'.implementation
  proxyAdmin := h'.proxyAdmin.trans h.proxyAdmin
  admin := h'.admin.trans h.admin
  runs := h'.runs.trans h.runs
  usbsProxyAdmin := h'.usbsProxyAdmin.trans h.usbsProxyAdmin
  usbsImplementation := h'.usbsImplementation.trans h.usbsImplementation

lemma Guarded.of_kept (h : d.Guarded guardian) (hkept : d.Kept d') : d'.Guarded guardian where
  proxy := h.proxy.of_kept hkept.proxy
  implementation := h.implementation.of_kept hkept.implementation
  owner := by
    rw [hkept.proxyAdmin]
    exact h.owner
  admin := by
    rw [hkept.admin, hkept.usbsProxyAdmin]
    exact h.admin
  runs := by
    rw [hkept.runs, hkept.usbsImplementation]
    exact h.runs

/-- A call through the proxy is one of the token, and not from the proxy's admin. -/
lemma callProxy_spec {call : TokenProxy.Call}
    (hruns : d.proxy.implementation = d.usbsImplementation)
    (hsender : sender ≠ d.proxy.admin) (h : d.callProxy chain sender call = .ok d') :
    ∃ tokenCall storage, call = .fallback tokenCall ∧
      d.proxy.storage.exec chain.lists sender tokenCall = .ok storage ∧
      d' = { d with proxy := { d.proxy with storage := storage } } := by
  simp only [callProxy, TokenProxy.exec, if_neg hsender, TokenProxy.internalFallback,
    TokenProxy.delegate, if_pos hruns, bind_eq_ok, pure_eq_ok] at h
  obtain ⟨proxy, ⟨_, -, hdelegate⟩, rfl⟩ := h
  cases call with
  | fallback tokenCall =>
      simp only [bind_eq_ok, pure_eq_ok] at hdelegate
      obtain ⟨storage, hexec, rfl⟩ := hdelegate
      exact ⟨tokenCall, storage, rfl, hexec, rfl⟩
  | _ => cases hdelegate

/-- The admin of the proxy listens to its owner only. -/
lemma callProxyAdmin_owner {call : ProxyAdmin.Call}
    (h : d.callProxyAdmin chain sender call = .ok d') : d.proxyAdmin.owner = sender := by
  cases call with
  | transferOwnership newOwner =>
      simp only [callProxyAdmin, ProxyAdmin.transferOwnership, ProxyAdmin.onlyOwner, bind_eq_ok,
        require_eq_ok, exists_const] at h
      obtain ⟨proxyAdmin, ⟨howner, -⟩, -⟩ := h
      exact howner
  | renounceOwnership =>
      simp only [callProxyAdmin, ProxyAdmin.renounceOwnership, ProxyAdmin.onlyOwner, bind_eq_ok,
        require_eq_ok, exists_const] at h
      obtain ⟨proxyAdmin, ⟨howner, -⟩, -⟩ := h
      exact howner
  | _ =>
      simp only [callProxyAdmin, ProxyAdmin.onlyOwner, bind_eq_ok, require_eq_ok,
        exists_const] at h
      exact h.1

/-- **One call by an outsider** is no `initialize` and keeps the controls. -/
lemma Guarded.step (h : d.Guarded guardian) (hstep : d.Step a d')
    (hguardian : a.msgSender ≠ guardian) (hadmin : a.msgSender ≠ d.usbsProxyAdmin) :
    a.isInitialize = false ∧ d.Kept d' := by
  obtain ⟨chain, sender, call⟩ := a
  cases call with
  | proxy call =>
      have hsender : sender ≠ d.proxy.admin := by
        rw [h.admin]
        exact hadmin
      obtain ⟨tokenCall, storage, rfl, hexec, rfl⟩ := callProxy_spec h.runs hsender hstep
      obtain ⟨hcall, hkept⟩ := h.proxy.exec hguardian hexec
      exact ⟨hcall, hkept, h.implementation.kept_refl, rfl, rfl, rfl, rfl, rfl⟩
  | implementation call =>
      simp only [Step, exec, callImplementation, bind_eq_ok, pure_eq_ok] at hstep
      obtain ⟨implementation, hexec, rfl⟩ := hstep
      obtain ⟨hcall, hkept⟩ := h.implementation.exec hguardian hexec
      exact ⟨hcall, h.proxy.kept_refl, hkept, rfl, rfl, rfl, rfl, rfl⟩
  | proxyAdmin call =>
      have howner := callProxyAdmin_owner hstep
      rw [h.owner] at howner
      exact absurd howner.symm hguardian

/-- A run without the guardian and without the admin of the proxy -/
def Outside (guardian : Address) (d : Deployment) (tr : List (Transition Deployment Action)) :
    Prop :=
  ∀ t ∈ tr, t.label.msgSender ≠ guardian ∧ t.label.msgSender ≠ d.usbsProxyAdmin

instance (guardian : Address) (d : Deployment) (tr : List (Transition Deployment Action)) :
    Decidable (Outside guardian d tr) :=
  List.decidableBAll _ _

lemma Guarded.run (h : d.Guarded guardian) (hrun : Run Step d tr d')
    (houtside : Outside guardian d tr) :
    (∀ t ∈ tr, t.label.isInitialize = false) ∧ ∀ s, Run.Visits tr d' s → d.Kept s := by
  have hstep : ∀ t ∈ tr, d.Kept t.pre → t.pre.Step t.label t.post →
      t.label.isInitialize = false ∧ t.pre.Kept t.post := by
    intro t ht hpre hstep
    obtain ⟨hguardian, hadmin⟩ := houtside t ht
    rw [← hpre.usbsProxyAdmin] at hadmin
    exact (h.of_kept hpre).step hstep hguardian hadmin
  have hkept : ∀ s, Run.Visits tr d' s → d.Kept s := fun s hs =>
    hrun.invariant_visits (P := fun s => d.Kept s) h.kept_refl
      (fun t ht hpre hs => hpre.trans (hstep t ht hpre hs).2) hs
  refine ⟨fun t ht => ?_, hkept⟩
  have ht' := hrun.step_of_mem ht
  exact (hstep t ht (hkept t.pre (Run.visits_pre ht)) ht').1

end Deployment

/-! ## The deployment -/

namespace USBSStorage

variable {storage storage' : USBSStorage} {lists : Lists} {sender : Address}

/-- What `initialize` makes of untouched storage. -/
lemma initializeUSBS_empty {name symbol : Bytes} {blocklist allowlist sanctionsList : Address}
    (h : empty.initializeUSBS sender name symbol blocklist allowlist sanctionsList =
      .ok storage') :
    storage'.access = ((AccessControl.empty.internalGrantRole sender .defaultAdminRole
        sender).internalGrantRole sender .minterRole sender).internalGrantRole sender .pauserRole
        sender ∧
      storage'.initializable = .once ∧ storage'.erc20 = .empty ∧ storage'.paused = false ∧
      storage'.blocklist = blocklist ∧ storage'.allowlist = allowlist ∧
      storage'.sanctionsList = sanctionsList := by
  have hbegin : empty.initializable.beginInitializer true = .ok (⟨1, true, []⟩, true) :=
    Initializable.beginInitializer_empty true
  simp only [initializeUSBS, initializer, hbegin, initPreset, initBlocklistClient,
    initAllowlistClient, initSanctionsListClient, Initializable.onlyInitializing, bind_eq_ok,
    pure_eq_ok, require_eq_ok, revertIf_eq_ok, exists_const, Except.ok.injEq,
    exists_eq_left'] at h
  obtain ⟨_, ⟨_, ⟨-, rfl⟩, _, ⟨-, -, rfl⟩, _, ⟨-, -, rfl⟩, -, -, rfl⟩, rfl⟩ := h
  exact ⟨rfl, rfl, rfl, rfl, rfl, rfl, rfl⟩

/-- The implementation cannot be initialized. -/
lemma deploy_spec (h : deploy = .ok storage) :
    storage = { empty with initializable := .disabled } := by
  simp only [deploy, bind_eq_ok, pure_eq_ok] at h
  obtain ⟨initializable, hdisable, rfl⟩ := h
  have hdisabled := Initializable.disableInitializers_empty.symm.trans hdisable
  rw [Except.ok.inj hdisabled]

end USBSStorage

namespace Deployment

variable {d d' : Deployment} {guardian sender account : Address} {chain : Chain} {role : Role}

/-- The deployment with other roles of the token behind the proxy. -/
def withAccess (d : Deployment) (access : AccessControl) : Deployment :=
  { d with proxy := { d.proxy with storage := { d.proxy.storage with access := access } } }

lemma callProxy_fallback_spec {call : USBSStorage.Call}
    (hruns : d.proxy.implementation = d.usbsImplementation)
    (h : d.callProxy chain sender (.fallback call) = .ok d') :
    ∃ storage, d.proxy.storage.exec chain.lists sender call = .ok storage ∧
      d' = { d with proxy := { d.proxy with storage := storage } } := by
  have hsender : sender ≠ d.proxy.admin := by
    rintro rfl
    simp only [callProxy, TokenProxy.exec, if_true, TokenProxy.internalFallback, bind_eq_ok,
      require_eq_ok] at h
    obtain ⟨_, ⟨_, hne, -⟩, -⟩ := h
    exact hne rfl
  obtain ⟨tokenCall, storage, hcall, hexec, hd'⟩ := callProxy_spec hruns hsender h
  obtain rfl := TokenProxy.Call.fallback.inj hcall
  exact ⟨storage, hexec, hd'⟩

/-- A call of the role management through the proxy. -/
lemma callProxy_access_spec {call : AccessControl.Call}
    (hruns : d.proxy.implementation = d.usbsImplementation)
    (h : d.callProxy chain sender (.fallback (.token (.access call))) = .ok d') :
    ∃ access, d.proxy.storage.access.exec sender call = .ok access ∧
      d' = d.withAccess access := by
  obtain ⟨storage, hexec, rfl⟩ := callProxy_fallback_spec hruns h
  simp only [USBSStorage.exec, USBS.exec, bind_eq_ok, pure_eq_ok] at hexec
  obtain ⟨token, ⟨access, haccess, rfl⟩, rfl⟩ := hexec
  exact ⟨access, haccess, rfl⟩

lemma callProxy_grantRole (hruns : d.proxy.implementation = d.usbsImplementation)
    (h : d.callProxy chain sender (.fallback (.token (.access (.grantRole role account)))) =
      .ok d') :
    d' = d.withAccess (d.proxy.storage.access.internalGrantRole sender role account) := by
  obtain ⟨access, haccess, rfl⟩ := callProxy_access_spec hruns h
  obtain ⟨-, rfl⟩ := AccessControl.grantRole_eq_ok.mp haccess
  rfl

lemma callProxy_revokeRole (hruns : d.proxy.implementation = d.usbsImplementation)
    (h : d.callProxy chain sender (.fallback (.token (.access (.revokeRole role account)))) =
      .ok d') :
    d' = d.withAccess (d.proxy.storage.access.internalRevokeRole sender role account) := by
  obtain ⟨access, haccess, rfl⟩ := callProxy_access_spec hruns h
  obtain ⟨-, rfl⟩ := AccessControl.revokeRole_eq_ok.mp haccess
  rfl

end Deployment

namespace USBSFactory

variable {factory factory' : USBSFactory} {chain : Chain}
  {msgSender usbsImplementation usbsProxyAdmin usbsProxy : Address} {name ticker : Bytes}
  {listData : USBSListData} {d d' : Deployment}
  {tr : List (Transition Deployment Deployment.Action)}

/-- The roles of the token after the calls of the factory. -/
def handOver (factory guardian : Address) : AccessControl :=
  let initial := ((AccessControl.empty.internalGrantRole factory .defaultAdminRole
    factory).internalGrantRole factory .minterRole factory).internalGrantRole factory .pauserRole
    factory
  let granted := (initial.internalGrantRole factory .defaultAdminRole guardian).internalGrantRole
    factory .pauserRole guardian
  ((granted.internalRevokeRole factory .minterRole factory).internalRevokeRole factory .pauserRole
    factory).internalRevokeRole factory .defaultAdminRole factory

lemma handOver_hasRole {factory guardian : Address} (hne : guardian ≠ factory) {role : Role}
    {account : Address} : (handOver factory guardian).hasRole role account = true ↔
      (role = .defaultAdminRole ∨ role = .pauserRole) ∧ account = guardian := by
  have hempty : AccessControl.empty.hasRole role account = false := rfl
  simp only [handOver, AccessControl.hasRole_internalRevokeRole,
    AccessControl.hasRole_internalGrantRole, hempty, Bool.false_eq_true, false_or]
  constructor
  · rintro ⟨⟨⟨hgranted, hminter⟩, hpauser⟩, hadmin⟩
    rcases hgranted with (((h | h) | h) | h) | h
    · exact absurd h hadmin
    · exact absurd h hminter
    · exact absurd h hpauser
    · exact ⟨.inl h.1, h.2⟩
    · exact ⟨.inr h.1, h.2⟩
  · rintro ⟨hrole, rfl⟩
    refine ⟨⟨⟨?_, fun h => hne h.2⟩, fun h => hne h.2⟩, fun h => hne h.2⟩
    rcases hrole with rfl | rfl
    · exact .inl (.inr ⟨rfl, rfl⟩)
    · exact .inr ⟨rfl, rfl⟩

/-- **What the factory leaves behind.** -/
lemma deployUSBS_spec
    (h : factory.deployUSBS chain msgSender usbsImplementation usbsProxyAdmin usbsProxy name ticker
      listData = .ok (factory', d)) :
    msgSender = factory.guardian ∧ d.proxyAdmin.owner = factory.guardian ∧
      d.proxy.admin = d.usbsProxyAdmin ∧ d.proxy.implementation = d.usbsImplementation ∧
      d.implementation = { USBSStorage.empty with initializable := .disabled } ∧
      d.proxy.storage.access = handOver factory.self factory.guardian ∧
      d.proxy.storage.initializable = .once ∧ d.proxy.storage.erc20 = .empty := by
  simp only [deployUSBS, bind_eq_ok, require_eq_ok, assert_eq_ok, exists_const, pure_eq_ok,
    Prod.mk.injEq] at h
  obtain ⟨hguardian, implementation, himplementation, proxy, hproxy, d₁, h₁, d₂, h₂, d₃, h₃, d₄,
    h₄, d₅, h₅, d₆, h₆, proxyAdmin, -, howner, -, rfl⟩ := h
  obtain rfl := USBSStorage.deploy_spec himplementation
  simp only [TokenProxy.deploy, TokenProxy.setImplementation, TokenProxy.internalChangeAdmin,
    bind_eq_ok, require_eq_ok, exists_const, pure_eq_ok] at hproxy
  obtain ⟨_, ⟨-, rfl⟩, -, rfl⟩ := hproxy
  obtain ⟨storage, hinit, rfl⟩ := Deployment.callProxy_fallback_spec rfl h₁
  obtain ⟨haccess, hdone, hsupply, -⟩ := USBSStorage.initializeUSBS_empty hinit
  obtain rfl := Deployment.callProxy_grantRole rfl h₂
  obtain rfl := Deployment.callProxy_grantRole rfl h₃
  obtain rfl := Deployment.callProxy_revokeRole rfl h₄
  obtain rfl := Deployment.callProxy_revokeRole rfl h₅
  obtain rfl := Deployment.callProxy_revokeRole rfl h₆
  refine ⟨hguardian, howner, rfl, rfl, rfl, ?_, hdone, hsupply⟩
  simp only [Deployment.withAccess, haccess]
  rfl

/-- What the guardian controls of a deployment, and what everybody else cannot do to it. -/
structure GuardianControls (guardian : Address) (d : Deployment) : Prop where
  roles : ∀ role account, d.proxy.storage.access.hasRole role account = true ↔
    (role = .defaultAdminRole ∨ role = .pauserRole) ∧ account = guardian
  owner : d.proxyAdmin.owner = guardian
  initialized : ∀ tr d', Run Deployment.Step d tr d' → Deployment.Outside guardian d tr →
    ∀ t ∈ tr, t.label.isInitialize = false
  /-- In every state of a run without the guardian. -/
  kept : ∀ tr d', Run Deployment.Step d tr d' → Deployment.Outside guardian d tr →
    ∀ s, Run.Visits tr d' s → d.Kept s

/-- **Nobody but the guardian controls a deployed token.** -/
theorem guardian_controls
    (h : factory.deployUSBS chain msgSender usbsImplementation usbsProxyAdmin usbsProxy name ticker
      listData = .ok (factory', d)) (hcalled : factory.CalledBy msgSender) :
    GuardianControls factory.guardian d := by
  obtain ⟨hguardian, howner, hadmin, hruns, himplementation, haccess, hdone, hsupply⟩ :=
    deployUSBS_spec h
  have hroles : ∀ role account, d.proxy.storage.access.hasRole role account = true ↔
      (role = .defaultAdminRole ∨ role = .pauserRole) ∧ account = factory.guardian := by
    intro role account
    rw [haccess]
    exact handOver_hasRole (hcalled.guardian_ne_self hguardian)
  have hproxy : d.proxy.storage.Guarded factory.guardian := by
    refine ⟨fun role account hrole => ((hroles role account).mp hrole).2, ?_, ?_⟩
    · rw [hdone]
      exact Initializable.once_done
    · rw [hsupply]
      rfl
  have himplementation' : d.implementation.Guarded factory.guardian := by
    rw [himplementation]
    exact ⟨fun role account hrole => absurd hrole Bool.false_ne_true,
      Initializable.disabled_done, rfl⟩
  have hguarded : d.Guarded factory.guardian :=
    ⟨hproxy, himplementation', howner, hadmin, hruns⟩
  exact ⟨hroles, howner, fun tr d' hrun houtside => (hguarded.run hrun houtside).1,
    fun tr d' hrun houtside => (hguarded.run hrun houtside).2⟩

end USBSFactory

/-! ## A sample -/

namespace FactorySample

/-- The guardian. -/
def msig : Address := 0x6A

def stranger : Address := 0x77

def usbsFactory : USBSFactory := ⟨0xFA, msig, 0, 0, 0, []⟩

def listData : USBSListData := ⟨0x21, 0x22, 0x23⟩

/-- The lists let everybody pass. -/
def chain : Chain where
  lists := {
    blocklists := fun list => if list = 0x21 then some fun _ => false else none
    allowlists := fun list => if list = 0x22 then some fun _ => true else none
    sanctionsLists := fun list => if list = 0x23 then some fun _ => false else none }
  isContract account := account = 0xC1 ∨ account = 0xC2 ∨ account = 0xC3
  delegatecall _ _ _ _ := .error .empty

def deployed : Tx Error (USBSFactory × Deployment) :=
  usbsFactory.deployUSBS chain msig 0xC1 0xC2 0xC3 (ascii "Token".toList) (ascii "T".toList)
    listData

def deployment : Deployment := (deployed.toOption.get (by decide +kernel)).2

/-- What a stranger and the factory try on the token, its implementation and the admin.  Only the
moves without a role are accepted. -/
def attempts : List Deployment.Action := [
  ⟨chain, stranger, .proxy (.fallback (.initializePreset [] []))⟩,
  ⟨chain, stranger, .implementation (.initializeUSBS [] [] 0x21 0x22 0x23)⟩,
  ⟨chain, 0xFA, .proxy (.fallback (.token (.mint 0xFA 1)))⟩,
  ⟨chain, 0xFA, .proxy (.fallback (.token (.access (.grantRole .minterRole 0xFA))))⟩,
  ⟨chain, stranger, .proxyAdmin (.upgrade 0x99)⟩,
  ⟨chain, stranger, .proxy (.fallback (.token (.holder (.approve 0xFA 5))))⟩,
  ⟨chain, 0xFA, .proxy (.fallback (.token (.holder (.transferFrom stranger 0xFA 0))))⟩,
  ⟨chain, stranger, .proxy (.fallback (.token (.access (.renounceRole .minterRole stranger))))⟩]

end FactorySample

namespace USBSFactory

open FactorySample in
theorem guardian_controls_sample :
    GuardianControls msig deployment ∧
      (playTrace Deployment.next deployment attempts).length = 3 ∧
      deployment.Kept (play Deployment.next deployment attempts) := by
  have hdeployed : deployed.toOption.isSome = true := by decide +kernel
  have hcontrols : GuardianControls msig deployment :=
    guardian_controls (eq_ok_get hdeployed) (.other (by decide))
  exact ⟨hcontrols, by decide +kernel, hcontrols.kept _ _
    (run_play (fun _ _ _ => Deployment.step_of_next) _ _) (by decide +kernel) _ (.inl rfl)⟩

end USBSFactory

end BrivoUsbs
