import BrivoUsbs.Framework.Component
import BrivoUsbs.Framework.History
import BrivoUsbs.Properties.TokenCalls

/-!
# The governance of the roles

Who holds a role is a property of the grants and revocations a contract has accepted.  `Governed`
says so for any contract with access control, over any of its runs: the hierarchy of the roles stays
as it is, an account holds a role if it was granted last, each grant and revocation is by a holder
of the role's admin, and so each holder has its role by a chain of grants from the first holders.

For the manager and the token inside the system, `roles_governed` adds where the chains begin: at
the accounts the constructor of the manager names.
-/

namespace BrivoUsbs

namespace AccessControl

variable {access₀ access access' : AccessControl} {a : Address × Call} {role : Role}
  {account sender : Address} {tr tr' : List (Transition AccessControl (Address × Call))}

/-- One call of the role management, by anybody. -/
def Step (access : AccessControl) (a : Address × Call) (access' : AccessControl) : Prop :=
  access.exec a.1 a.2 = .ok access'

/-! ## One call -/

/-- The membership a call writes, if it is about this role of this account. -/
def writtenMember (role : Role) (account : Address) (a : Address × Call) : Option Bool :=
  match a.2 with
  | .grantRole role' account' => if role = role' ∧ account = account' then some true else none
  | .revokeRole role' account' | .renounceRole role' account' =>
      if role = role' ∧ account = account' then some false else none

/-- A grant or a revocation of the role. -/
def Call.Administers (role : Role) (call : Call) : Prop :=
  ∃ account, call = .grantRole role account ∨ call = .revokeRole role account

/-- **What a call does to the roles**, and who may make it. -/
structure Effect (access : AccessControl) (a : Address × Call) (access' : AccessControl) :
    Prop where
  adminRole : access'.adminRole = access.adminRole
  member : ∀ role account, access'.hasRole role account =
    (writtenMember role account a).getD (access.hasRole role account)
  authorized : ∀ role, a.2.Administers role → access.hasRole (access.adminRole role) a.1 = true
  renounced : ∀ role account, a.2 = .renounceRole role account → account = a.1

lemma internalGrantRole_adminRole :
    (access.internalGrantRole sender role account).adminRole = access.adminRole := by
  unfold internalGrantRole
  split <;> rfl

lemma internalRevokeRole_adminRole :
    (access.internalRevokeRole sender role account).adminRole = access.adminRole := by
  unfold internalRevokeRole
  split <;> rfl

lemma internalGrantRole_hasRole (role' : Role) (account' : Address) :
    (access.internalGrantRole sender role account).hasRole role' account' =
      (if role' = role ∧ account' = account then some true else none).getD
        (access.hasRole role' account') := by
  rw [Bool.eq_iff_iff, hasRole_internalGrantRole]
  by_cases hsame : role' = role ∧ account' = account
  · simp [hsame]
  · simp [hsame]

lemma internalRevokeRole_hasRole (role' : Role) (account' : Address) :
    (access.internalRevokeRole sender role account).hasRole role' account' =
      (if role' = role ∧ account' = account then some false else none).getD
        (access.hasRole role' account') := by
  rw [Bool.eq_iff_iff, hasRole_internalRevokeRole]
  by_cases hsame : role' = role ∧ account' = account
  · simp [hsame]
  · simp [hsame]

lemma setRoleAdmin_hasRole {adminRole : Role} :
    (access.setRoleAdmin role adminRole).hasRole = access.hasRole := rfl

lemma Step.effect (h : access.Step a access') : access.Effect a access' := by
  obtain ⟨sender, call⟩ := a
  cases call with
  | grantRole role account =>
      obtain ⟨hadmin, rfl⟩ := grantRole_eq_ok.mp h
      refine ⟨internalGrantRole_adminRole, internalGrantRole_hasRole, ?_, by simp⟩
      rintro role' ⟨account', hcall | hcall⟩
      · cases hcall
        exact hadmin
      · cases hcall
  | revokeRole role account =>
      obtain ⟨hadmin, rfl⟩ := revokeRole_eq_ok.mp h
      refine ⟨internalRevokeRole_adminRole, internalRevokeRole_hasRole, ?_, by simp⟩
      rintro role' ⟨account', hcall | hcall⟩
      · cases hcall
      · cases hcall
        exact hadmin
  | renounceRole role account =>
      simp only [Step, exec, renounceRole, bind_eq_ok, require_eq_ok, exists_const,
        pure_eq_ok] at h
      obtain ⟨rfl, rfl⟩ := h
      refine ⟨internalRevokeRole_adminRole, internalRevokeRole_hasRole, ?_, ?_⟩
      · rintro role' ⟨account', hcall | hcall⟩ <;> cases hcall
      · rintro role' account' hcall
        cases hcall
        rfl

/-- Who did not have a role before a call and has it afterwards was granted it. -/
lemma Effect.granted (h : access.Effect a access') (hbefore : access.hasRole role account = false)
    (hafter : access'.hasRole role account = true) : a.2 = .grantRole role account := by
  rw [h.member, hbefore] at hafter
  obtain ⟨sender, call⟩ := a
  cases call with
  | grantRole role' account' =>
      by_cases hsame : role = role' ∧ account = account'
      · rw [hsame.1, hsame.2]
      · simp [writtenMember, hsame] at hafter
  | revokeRole role' account' | renounceRole role' account' =>
      by_cases hsame : role = role' ∧ account = account'
      · simp [writtenMember, hsame] at hafter
      · simp [writtenMember, hsame] at hafter

/-! ## Runs -/

/-- A chain of grants, each in the history of the next one, from a first holder to the account. -/
inductive Derived (access₀ : AccessControl) :
    List (Transition AccessControl (Address × Call)) → Role → Address → Prop
  | first {tr : List (Transition AccessControl (Address × Call))} {role : Role}
      {account : Address} (hfirst : access₀.hasRole role account = true) :
      Derived access₀ tr role account
  | granted {before after : List (Transition AccessControl (Address × Call))}
      {t : Transition AccessControl (Address × Call)} {role : Role} {account : Address}
      (hgrant : t.label.2 = .grantRole role account)
      (hadmin : Derived access₀ before (access₀.adminRole role) t.label.1) :
      Derived access₀ (before ++ t :: after) role account

/-- A chain of grants stays one. -/
lemma Derived.append (h : Derived access₀ tr role account) :
    Derived access₀ (tr ++ tr') role account := by
  cases h with
  | first hfirst => exact .first hfirst
  | granted hgrant hadmin =>
      rw [List.append_assoc, List.cons_append]
      exact .granted hgrant hadmin

/-- How the roles of a contract have been governed over a run. -/
structure Governed (access₀ : AccessControl)
    (tr : List (Transition AccessControl (Address × Call))) (access : AccessControl) : Prop where
  adminRole : access.adminRole = access₀.adminRole
  hasRole : ∀ role account, access.hasRole role account =
    (lastWrite (fun t => writtenMember role account t.label) tr).getD
      (access₀.hasRole role account)
  authorized : ∀ t ∈ tr, ∀ role, t.label.2.Administers role →
    t.pre.hasRole (access₀.adminRole role) t.label.1 = true
  renounced : ∀ t ∈ tr, ∀ role account, t.label.2 = .renounceRole role account →
    account = t.label.1
  derived : ∀ role account, access.hasRole role account = true →
    Derived access₀ tr role account

/-- **Every run of the role management is governed.** -/
lemma governed (hrun : Run Step access₀ tr access) : Governed access₀ tr access := by
  induction hrun using Run.induction with
  | nil =>
      refine ⟨rfl, fun role account => rfl, by simp, by simp, fun role account hrole => ?_⟩
      exact .first hrole
  | snoc tr access a access' hinit hstep ih =>
      have heffect := Step.effect hstep
      have hadmins := ih.adminRole
      refine ⟨heffect.adminRole.trans hadmins, fun role account => ?_, ?_, ?_, ?_⟩
      · rw [heffect.member, ih.hasRole, lastWrite_snoc]
        cases writtenMember role account a <;> rfl
      · intro t ht role hadministers
        rcases List.mem_append.mp ht with hmem | hmem
        · exact ih.authorized t hmem role hadministers
        · obtain rfl := List.mem_singleton.mp hmem
          rw [← hadmins]
          exact heffect.authorized role hadministers
      · intro t ht role account hlabel
        rcases List.mem_append.mp ht with hmem | hmem
        · exact ih.renounced t hmem role account hlabel
        · obtain rfl := List.mem_singleton.mp hmem
          exact heffect.renounced role account hlabel
      · intro role account hrole
        by_cases hbefore : access.hasRole role account = true
        · exact (ih.derived role account hbefore).append
        · -- The role is new, so this step granted it.
          rw [Bool.not_eq_true] at hbefore
          have hgrant : a.2 = .grantRole role account := heffect.granted hbefore hrole
          have hsender : access.hasRole (access₀.adminRole role) a.1 = true := by
            rw [← hadmins]
            exact heffect.authorized role ⟨account, .inl hgrant⟩
          exact .granted (t := ⟨access, a, access'⟩) hgrant (ih.derived _ _ hsender)

/-- A chain of grants in a history from one account to another. -/
inductive Delegated (root : Address) (tr : List (Transition AccessControl (Address × Call))) :
    Address → Prop
  | root : Delegated root tr root
  | granted {t : Transition AccessControl (Address × Call)} {role : Role} {account : Address}
      (ht : t ∈ tr) (hgrant : t.label.2 = .grantRole role account)
      (hsender : Delegated root tr t.label.1) : Delegated root tr account

lemma Delegated.mono {root : Address} (h : Delegated root tr account) (hsub : tr ⊆ tr') :
    Delegated root tr' account := by
  induction h with
  | root => exact .root
  | granted ht hgrant _ ih => exact .granted (hsub ht) hgrant ih

end AccessControl

/-! ## The token -/

lemma USBS.exec_access {token token' : USBS} {lists : Lists} {sender : Address} {call : Call}
    (h : token.exec lists sender call = .ok token') (hcall : ∀ access, call ≠ .access access) :
    token'.access = token.access := by
  cases call with
  | holder call =>
      obtain ⟨erc20, rfl, -⟩ := execHolder_operates h
      rfl
  | mint dest amount =>
      simp only [exec, mint, bind_eq_ok, pure_eq_ok] at h
      obtain ⟨_, -, minted, -, rfl⟩ := h
      rfl
  | access call => exact absurd rfl (hcall call)
  | _ =>
      simp only [exec, pause, unpause, setBlocklist, setAllowlist, setSanctionsList, bind_eq_ok,
        pure_eq_ok] at h
      obtain ⟨_, -, _, -, rfl⟩ := h
      rfl

/-! ## The system -/

namespace Action

variable {κ : Type}

/-- The call of the manager's role management an action makes. -/
def hubAccessCall : Action κ → Option (Address × AccessControl.Call)
  | .manager sender (.access call) => some (sender, call)
  | _ => none

/-- The call of the token's role management an action makes. -/
def tokenAccessCall : Action κ → Option (Address × AccessControl.Call)
  | .usbs sender (.access call) => some (sender, call)
  | _ => none

end Action

namespace World

variable {κ : Type} [IERC20 κ] {w₀ w w' : World κ} {a : Action κ} {access₀ : AccessControl}
  {tr : List (Transition (World κ) (Action κ))}

lemma Step.hub_access (h : w.Step a w') :
    ComponentStep (· = access₀) AccessControl.Step (some w.hub.access) a.hubAccessCall
      (some w'.hub.access) := by
  obtain ⟨hcaller, hexec⟩ := h
  cases a with
  | manager sender call =>
      have hexec : w.execManager sender call = .ok w' := hexec
      rcases execManager_access (hcaller sender rfl).1 hexec with hsame | ⟨access, rfl, hcall⟩
      · cases call with
        | access call =>
            simp only [execManager, bind_eq_ok, pure_eq_ok] at hexec
            obtain ⟨access, hcall, rfl⟩ := hexec
            exact .call hcall
        | _ =>
            rw [hsame]
            exact .idle
      · exact .call hcall
  | _ =>
      rw [hub, hub, (exec_manager_eq (by simp) hexec).1]
      exact .idle

lemma Step.token_access (h : w.Step a w') :
    ComponentStep (· = access₀) AccessControl.Step (some w.usbs.access) a.tokenAccessCall
      (some w'.usbs.access) := by
  by_cases ha : ∃ sender call, a = .usbs sender (.access call)
  · obtain ⟨sender, call, rfl⟩ := ha
    obtain ⟨-, hexec⟩ := h
    simp only [exec, USBS.exec, bind_eq_ok, pure_eq_ok] at hexec
    obtain ⟨_, ⟨access, hcall, rfl⟩, rfl⟩ := hexec
    exact .call hcall
  · have hsame : w'.usbs.access = w.usbs.access := by
      obtain ⟨ms, hpath, hsends⟩ := h.token_calls
      refine hpath.invariant (P := fun token => token.access = w.usbs.access) rfl ?_
      intro token m token' hm hpre hcall
      refine (USBS.exec_access hcall fun access haccess => ?_).trans hpre
      obtain ⟨lists, sender, call⟩ := m
      obtain rfl : call = .access access := haccess
      cases hsends _ hm
      exact ha ⟨_, _, rfl⟩
    have hcall : a.tokenAccessCall = none := by
      unfold Action.tokenAccessCall
      split
      · next sender call => exact absurd ⟨sender, call, rfl⟩ ha
      · rfl
    rw [hsame, hcall]
    exact .idle

/-- What a run is to the roles of the manager. -/
abbrev hubAccessHistory (tr : List (Transition (World κ) (Action κ))) :
    List (Transition AccessControl (Address × AccessControl.Call)) :=
  componentHistory (fun w : World κ => some w.hub.access) Action.hubAccessCall tr

/-- What a run is to the roles of the token. -/
abbrev tokenAccessHistory (tr : List (Transition (World κ) (Action κ))) :
    List (Transition AccessControl (Address × AccessControl.Call)) :=
  componentHistory (fun w : World κ => some w.usbs.access) Action.tokenAccessCall tr

/-- The role that administers a role of the manager. -/
def hubAdminRole : Role → Role
  | .pauserAdmin | .priceIdSetterRole | .relayerRole => .managerAdmin
  | _ => .defaultAdminRole

/-- How the roles of the system have been governed over a run from the construction of the manager
with the arguments `args`. -/
structure RolesGoverned (args : USBSManager.Arguments) (w₀ : World κ)
    (tr : List (Transition (World κ) (Action κ))) (w : World κ) : Prop where
  hub : AccessControl.Governed w₀.hub.access (hubAccessHistory tr) w.hub.access
  token : AccessControl.Governed w₀.usbs.access (tokenAccessHistory tr) w.usbs.access
  hierarchy : w.hub.access.adminRole = hubAdminRole
  /-- The chains of grants begin at the two accounts of the constructor, and `pauser` grants
  nothing. -/
  founders : ∀ role account, w.hub.access.hasRole role account = true →
    role = .pauserAdmin ∧ account = args.pauser ∨
      AccessControl.Delegated args.managerAdmin (hubAccessHistory tr) account

omit [IERC20 κ] in
/-- The roles the constructor grants, and their admins. -/
lemma deploy_access {args : USBSManager.Arguments}
    (h : USBSManager.deploy args = .ok w₀.manager) :
    w₀.hub.access.adminRole = hubAdminRole ∧
      ∀ role account, w₀.hub.access.hasRole role account = true →
        role = .pauserAdmin ∧ account = args.pauser ∨ account = args.managerAdmin := by
  simp only [USBSManager.deploy, RWAHub.deploy, bind_eq_ok, revertIf_eq_ok, pure_eq_ok,
    exists_const] at h
  obtain ⟨_, ⟨-, -, -, -, _, -, _, -, rfl⟩, -, -, h⟩ := h
  rw [World.hub, ← h]
  constructor
  · funext role
    cases role <;> rfl
  · intro role account hrole
    simp only [AccessControl.setRoleAdmin_hasRole, AccessControl.hasRole_internalGrantRole] at hrole
    rcases hrole with ((hempty | ⟨-, hadmin⟩) | ⟨-, hadmin⟩) | hpauser
    · cases hempty
    · exact .inr hadmin
    · exact .inr hadmin
    · exact .inl hpauser

omit [IERC20 κ] in
/-- The chains of grants of the manager begin at the admin its constructor names. -/
lemma delegated_of_derived {args : USBSManager.Arguments}
    {history : List (Transition AccessControl (Address × AccessControl.Call))} {role : Role}
    {account : Address} (hdeploy : USBSManager.deploy args = .ok w₀.manager)
    (h : AccessControl.Derived w₀.hub.access history role account) :
    role = .pauserAdmin ∧ account = args.pauser ∨
      AccessControl.Delegated args.managerAdmin history account := by
  obtain ⟨hadmins, hfirst⟩ := deploy_access hdeploy
  induction h with
  | first hrole =>
      rcases hfirst _ _ hrole with hpauser | rfl
      · exact .inl hpauser
      · exact .inr .root
  | @granted before after t role account hgrant _ ih =>
      right
      rw [hadmins] at ih
      rcases ih with ⟨hadmin, -⟩ | hsender
      · -- No role is administered by the pausers.
        cases role <;> cases hadmin
      · exact .granted (by simp) hgrant (hsender.mono (List.subset_append_left _ _))

/-- **The roles of the system are governed**, by whoever the constructor of the manager and the
token's first roles put in charge and those these have let in. -/
theorem roles_governed {args : USBSManager.Arguments}
    (hdeploy : USBSManager.deploy args = .ok w₀.manager) (hrun : Run Step w₀ tr w) :
    RolesGoverned args w₀ tr w := by
  have hhub : AccessControl.Governed w₀.hub.access (hubAccessHistory tr) w.hub.access :=
    AccessControl.governed (hrun.component_of_some fun _ _ _ => Step.hub_access)
  have htoken : AccessControl.Governed w₀.usbs.access (tokenAccessHistory tr) w.usbs.access :=
    AccessControl.governed (hrun.component_of_some fun _ _ _ => Step.token_access)
  refine ⟨hhub, htoken, hhub.adminRole.trans (deploy_access hdeploy).1, ?_⟩
  intro role account hrole
  exact delegated_of_derived hdeploy (hhub.derived role account hrole)

end World

open Sample in
theorem World.roles_governed_sample :
    RolesGoverned arguments world (playTrace next world mintAndRedeem)
      (play next world mintAndRedeem) :=
  roles_governed rfl (run_play (fun _ _ _ => step_of_next) _ _)

end BrivoUsbs
