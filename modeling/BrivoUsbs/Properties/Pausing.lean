import BrivoUsbs.Properties.Consent

/-!
# Pausing

A paused feature of the manager rests: over every run the events it is made of are missing, until a
manager admin unpauses it; `feature_rests` says so for the three features alike.

A paused token rests as well, and the manager with it: no balance changes, nothing is minted for a
deposit and no redemption is requested, until a pauser unpauses the token.  See `token_rests`.
-/

namespace BrivoUsbs

/-! ## The features of the manager -/

/-- The features with a pause of their own. -/
inductive Feature
  | subscription
  | redemption
  | offChainRedemption

namespace Feature

def isPaused (manager : USBSManager) : Feature → Bool
  | .subscription => manager.hub.params.subscriptionPaused
  | .redemption => manager.hub.params.redemptionPaused
  | .offChainRedemption => manager.managerParams.offChainRedemptionPaused

/-- The events the feature is made of. -/
def gates : Feature → HubEvent → Bool
  | .subscription, .mintRequested .. | .subscription, .mintCompleted .. => true
  | .redemption, .redemptionRequested .. | .redemption, .redemptionCompleted .. => true
  | .offChainRedemption, .redemptionRequestedServicedOffChain .. => true
  | _, _ => false

/-- The call that unpauses the feature. -/
def unpauseCall : Feature → USBSManager.Call
  | .subscription => .admin .unpauseSubscription
  | .redemption => .admin .unpauseRedemption
  | .offChainRedemption => .manager .unpauseOffChainRedemption

end Feature

lemma RWAHub.execAdmin_paused {hub hub' : RWAHub} {sender : Address} {call : AdminCall}
    (h : hub.execAdmin sender call = .ok hub') :
    (hub.params.subscriptionPaused = true → hub'.params.subscriptionPaused = true ∨
        call = .unpauseSubscription ∧ hub.access.hasRole .managerAdmin sender = true) ∧
      (hub.params.redemptionPaused = true → hub'.params.redemptionPaused = true ∨
        call = .unpauseRedemption ∧ hub.access.hasRole .managerAdmin sender = true) := by
  cases call <;>
    simp only [execAdmin, setMinimumRedemptionAmount, setMinimumDepositAmount, setMintFee,
      setRedemptionFee, setPricer, setFeeRecipient, setAssetSender, pauseSubscription,
      pauseRedemption, unpauseSubscription, unpauseRedemption, adminSet, bind_eq_ok, pure_eq_ok,
      AccessControl.checkRole_eq_ok] at h <;>
    obtain ⟨_, hrole, _, -, rfl⟩ := h
  case unpauseSubscription => exact ⟨fun _ => .inr ⟨rfl, hrole⟩, .inl⟩
  case unpauseRedemption => exact ⟨.inl, fun _ => .inr ⟨rfl, hrole⟩⟩
  case pauseSubscription => exact ⟨fun _ => .inl rfl, .inl⟩
  case pauseRedemption => exact ⟨.inl, fun _ => .inl rfl⟩
  all_goals exact ⟨.inl, .inl⟩

lemma USBSManager.execManagerSet_paused {manager manager' : USBSManager} {sender : Address}
    {call : ManagerCall} (h : manager.execManagerSet sender call = .ok manager')
    (hpaused : manager.managerParams.offChainRedemptionPaused = true) :
    manager'.managerParams.offChainRedemptionPaused = true ∨
      call = .unpauseOffChainRedemption ∧
        manager.hub.access.hasRole .managerAdmin sender = true := by
  cases call <;>
    simp only [execManagerSet, pauseOffChainRedemption, unpauseOffChainRedemption,
      setOffChainRedemptionMinimum, setBlocklist, setSanctionsList, managerSet, bind_eq_ok,
      pure_eq_ok, AccessControl.checkRole_eq_ok] at h <;>
    obtain ⟨_, hrole, _, -, rfl⟩ := h
  case unpauseOffChainRedemption => exact .inr ⟨rfl, hrole⟩
  case pauseOffChainRedemption => exact .inl rfl
  all_goals exact .inl hpaused

namespace World

variable {κ : Type} [IERC20 κ] {w₀ w w' : World κ} {a : Action κ} {sender : Address}
  {tr : List (Transition (World κ) (Action κ))} {feature : Feature}

/-- The entry points of a paused feature revert. -/
lemma execManager_gated {call : USBSManager.Call} {e : HubEvent}
    (h : w.execManager sender call = .ok w') (he : Attributed (.manager sender call : Action κ) e)
    (hgates : feature.gates e = true) : feature.isPaused w.manager = false := by
  cases he with
  | requestSubscription =>
      cases feature <;> cases hgates
      simp only [execManager, RWAHub.requestSubscription, bind_eq_ok, revertIf_eq_ok,
        exists_const, Bool.not_eq_true] at h
      obtain ⟨_, ⟨hopen, -⟩, -⟩ := h
      exact hopen
  | claimMint =>
      cases feature <;> cases hgates
      simp only [execManager, USBSManager.claimMint, bind_eq_ok, revertIf_eq_ok, exists_const,
        Bool.not_eq_true] at h
      obtain ⟨_, ⟨hopen, -⟩, -⟩ := h
      exact hopen
  | requestRedemption =>
      cases feature <;> cases hgates
      simp only [execManager, RWAHub.requestRedemption, bind_eq_ok, revertIf_eq_ok, exists_const,
        Bool.not_eq_true] at h
      obtain ⟨_, ⟨hopen, -⟩, -⟩ := h
      exact hopen
  | claimRedemption =>
      cases feature <;> cases hgates
      simp only [execManager, RWAHub.claimRedemption, bind_eq_ok, revertIf_eq_ok, exists_const,
        Bool.not_eq_true] at h
      obtain ⟨_, ⟨hopen, -⟩, -⟩ := h
      exact hopen
  | requestRedemptionServicedOffchain =>
      cases feature <;> cases hgates
      simp only [execManager, USBSManager.requestRedemptionServicedOffchain, bind_eq_ok,
        revertIf_eq_ok, exists_const, Bool.not_eq_true] at h
      obtain ⟨_, ⟨hopen, -⟩, -⟩ := h
      exact hopen
  | _ => cases feature <;> cases hgates

/-- A pause lasts, but for the call that ends it. -/
lemma execManager_isPaused {call : USBSManager.Call} (hsender : sender ≠ 0)
    (h : w.execManager sender call = .ok w') (hpaused : feature.isPaused w.manager = true) :
    feature.isPaused w'.manager = true ∨
      call = feature.unpauseCall ∧ w.hub.access.hasRole .managerAdmin sender = true := by
  have hparams := (execManager_emits hsender h).2
  have hmanager := execManager_managerParams h
  cases feature with
  | subscription =>
      rcases hparams with hsame | ⟨admin, rfl, hadmin⟩
      · exact .inl (by rw [Feature.isPaused, hsame]; exact hpaused)
      · refine ((RWAHub.execAdmin_paused hadmin).1 hpaused).imp_right fun hunpaused => ?_
        exact ⟨congrArg USBSManager.Call.admin hunpaused.1, hunpaused.2⟩
  | redemption =>
      rcases hparams with hsame | ⟨admin, rfl, hadmin⟩
      · exact .inl (by rw [Feature.isPaused, hsame]; exact hpaused)
      · refine ((RWAHub.execAdmin_paused hadmin).2 hpaused).imp_right fun hunpaused => ?_
        exact ⟨congrArg USBSManager.Call.admin hunpaused.1, hunpaused.2⟩
  | offChainRedemption =>
      rcases hmanager with hsame | ⟨setter, rfl, hsetter⟩
      · exact .inl (by rw [Feature.isPaused, hsame]; exact hpaused)
      · refine (USBSManager.execManagerSet_paused hsetter hpaused).imp_right fun hunpaused => ?_
        exact ⟨congrArg USBSManager.Call.manager hunpaused.1, hunpaused.2⟩

/-! ## Runs of a paused feature -/

/-- The feature is paused, and has rested since `w₀`. -/
structure Rests (feature : Feature) (w₀ w : World κ) : Prop where
  paused : feature.isPaused w.manager = true
  log : ∃ es, w.log = w₀.log ++ es ∧ ∀ e ∈ es, feature.gates e = false

/-- A manager admin unpauses the feature. -/
def Unpauses (feature : Feature) (t : Transition (World κ) (Action κ)) : Prop :=
  ∃ sender, t.label = .manager sender feature.unpauseCall ∧
    t.pre.hub.access.hasRole .managerAdmin sender = true

lemma Rests.step {t : Transition (World κ) (Action κ)} (hrests : Rests feature w₀ t.pre)
    (h : t.pre.Step t.label t.post) : Rests feature w₀ t.post ∨ Unpauses feature t := by
  obtain ⟨hpaused, es, hlog, hgates⟩ := hrests
  obtain ⟨es', hlog', hpath⟩ := h.emits
  have hgates' : ∀ e ∈ es', feature.gates e = false := by
    refine hpath.labels fun _ e _ hstep => Bool.eq_false_iff.mpr fun hgated => ?_
    have hopen : feature.isPaused t.pre.manager = false := by
      obtain ⟨pre, a, post⟩ := t
      have hattributed : Attributed a e := hstep.2
      cases a with
      | manager sender call => exact execManager_gated h.2 hattributed hgated
      | _ => cases hattributed
    rw [hpaused] at hopen
    cases hopen
  have hlasts : feature.isPaused t.post.manager = true ∨ Unpauses feature t := by
    by_cases hmanager : ∃ sender call, t.label = .manager sender call
    · obtain ⟨sender, call, hlabel⟩ := hmanager
      obtain ⟨hcaller, hexec⟩ := h
      rw [hlabel] at hcaller hexec
      refine (execManager_isPaused (hcaller sender rfl).1 hexec hpaused).imp_right ?_
      rintro ⟨rfl, hrole⟩
      exact ⟨sender, hlabel, hrole⟩
    · left
      have hsame := (exec_manager_eq (fun sender call heq => hmanager ⟨sender, call, heq⟩) h.2).1
      rw [hsame]
      exact hpaused
  refine hlasts.imp_left fun hpaused' => ⟨hpaused', es ++ es', ?_, fun e he => ?_⟩
  · rw [hlog', hlog, List.append_assoc]
  · exact (List.mem_append.mp he).elim (hgates e) (hgates' e)

/-- **A paused feature rests** until a manager admin unpauses it, whoever calls the system. -/
theorem feature_rests (hpaused : feature.isPaused w₀.manager = true) (hrun : Run Step w₀ tr w) :
    Rests feature w₀ w ∨ ∃ before t after, tr = before ++ t :: after ∧
      Rests feature w₀ t.pre ∧ Unpauses feature t :=
  hrun.until_ended (P := fun _ w => Rests feature w₀ w)
    ⟨hpaused, [], (List.append_nil _).symm, by simp⟩ fun _ _ _ hrests hstep => hrests.step hstep

end World

namespace Sample

def pausedWorld : World ERC20 :=
  play World.next world [.manager operator (.admin .pauseSubscription)]

/-- Nobody can subscribe before the operator unpauses the subscriptions. -/
def subscriptions : List (Action ERC20) := [
  .manager customer (.requestSubscription 100000000),
  .manager customer (.admin .unpauseSubscription),
  .manager operator (.admin .unpauseSubscription),
  .manager customer (.requestSubscription 100000000)]

end Sample

open Sample in
theorem World.feature_rests_sample :
    Rests .subscription pausedWorld (play next pausedWorld subscriptions) ∨
      ∃ before t after, playTrace next pausedWorld subscriptions = before ++ t :: after ∧
        Rests .subscription pausedWorld t.pre ∧ Unpauses .subscription t :=
  feature_rests (by decide +kernel) (run_play (fun _ _ _ => step_of_next) _ _)

/-! ## The token -/

namespace USBS

variable {token token' : USBS} {lists : Lists} {sender source dest : Address} {amount : Uint256}

lemma paused_of_beforeTokenTransfer
    (h : token.beforeTokenTransfer lists sender source dest amount = .ok ()) :
    token.paused = false := by
  simp only [beforeTokenTransfer, bind_eq_ok, require_eq_ok, exists_const] at h
  exact h.1

/-- Nothing moves while the token is paused. -/
lemma execHolder_paused {call : HolderCall} (h : token.execHolder lists sender call = .ok token')
    (hpaused : token.paused = true) : call.movement sender = none ∧ token'.paused = true := by
  obtain ⟨erc20, rfl, hoperates⟩ := execHolder_operates h
  refine ⟨?_, hpaused⟩
  have hparties : call.parties sender = none := by
    generalize call.parties sender = parties at hoperates
    cases hoperates with
    | approves => rfl
    | transfers _ hmoved =>
        obtain ⟨-, -, hhook, -⟩ := ERC20.internalTransfer_spec hmoved
        rw [paused_of_beforeTokenTransfer hhook] at hpaused
        cases hpaused
    | burns _ hburned =>
        obtain ⟨-, hhook, -⟩ := ERC20.internalBurn_spec hburned
        rw [paused_of_beforeTokenTransfer hhook] at hpaused
        cases hpaused
  cases call <;> first | rfl | cases hparties

lemma exec_paused {call : Call} (h : token.exec lists sender call = .ok token')
    (hpaused : token.paused = true) :
    call.movement sender = none ∧ (token'.paused = true ∨
      call = .unpause ∧ token.access.hasRole .pauserRole sender = true) := by
  cases call with
  | holder call => exact (execHolder_paused h hpaused).imp_right .inl
  | mint dest amount =>
      simp only [exec, mint, bind_eq_ok, require_eq_ok, pure_eq_ok, exists_const] at h
      obtain ⟨-, minted, hmint, -⟩ := h
      obtain ⟨-, hhook, -⟩ := ERC20.internalMint_spec hmint
      rw [paused_of_beforeTokenTransfer hhook] at hpaused
      cases hpaused
  | unpause =>
      simp only [exec, unpause, bind_eq_ok, require_eq_ok, exists_const] at h
      exact ⟨rfl, .inr ⟨rfl, h.1⟩⟩
  | access call =>
      simp only [exec, bind_eq_ok, pure_eq_ok] at h
      obtain ⟨access, -, rfl⟩ := h
      exact ⟨rfl, .inl hpaused⟩
  | _ =>
      simp only [exec, pause, setBlocklist, setAllowlist, setSanctionsList, bind_eq_ok,
        pure_eq_ok] at h
      obtain ⟨_, -, _, -, rfl⟩ := h
      exact ⟨rfl, .inl (by first | rfl | exact hpaused)⟩

end USBS

namespace World

variable {κ : Type} [IERC20 κ] {w₀ w : World κ} {tr : List (Transition (World κ) (Action κ))}

/-- The token is paused, and neither its records nor those the manager keeps of its movements have
changed since `w₀`. -/
structure TokenRests (w₀ w : World κ) : Prop where
  paused : w.usbs.paused = true
  accounts : w.usbs.accounts = w₀.usbs.accounts
  log : w.log.filterMap HubEvent.movement = w₀.log.filterMap HubEvent.movement

/-- A pauser of the token unpauses it. -/
def UnpausesToken (t : Transition (World κ) (Action κ)) : Prop :=
  ∃ sender, t.label = .usbs sender .unpause ∧
    t.pre.usbs.access.hasRole .pauserRole sender = true

lemma TokenRests.step {t : Transition (World κ) (Action κ)} (hrests : TokenRests w₀ t.pre)
    (h : t.pre.Step t.label t.post) : TokenRests w₀ t.post ∨ UnpausesToken t := by
  obtain ⟨hpaused, haccounts, hlog⟩ := hrests
  by_cases hunpause : ∃ sender, t.label = .usbs sender .unpause
  · obtain ⟨sender, hlabel⟩ := hunpause
    have hcall : t.pre.usbs.exec t.pre.lists sender .unpause = .ok t.post.usbs :=
      h.tokenCall (by rw [hlabel]; rfl)
    rcases (USBS.exec_paused hcall hpaused).2 with hstill | ⟨-, hrole⟩
    · simp only [USBS.exec, USBS.unpause, bind_eq_ok, require_eq_ok, pure_eq_ok] at hcall
      obtain ⟨-, -, -, -, hpost⟩ := hcall
      rw [← hpost] at hstill
      cases hstill
    · exact .inr ⟨sender, hlabel, hrole⟩
  · left
    obtain ⟨ms, hpath, hsends⟩ := h.token_calls
    obtain ⟨hpaused', hsame⟩ : t.post.usbs.paused = true ∧
        t.post.usbs.accounts = t.pre.usbs.accounts := by
      refine hpath.invariant (P := fun token => token.paused = true ∧
        token.accounts = t.pre.usbs.accounts) ⟨hpaused, rfl⟩ ?_
      rintro token m token' hm ⟨hpaused, hsame⟩ hcall
      obtain ⟨hmovement, hafter⟩ := USBS.exec_paused hcall hpaused
      have hposts := USBS.exec_posts hcall
      rw [hmovement] at hposts
      refine ⟨hafter.resolve_right ?_, hposts.eq_of_nil.trans hsame⟩
      rintro ⟨heq, -⟩
      have hlabel := hsends m hm
      generalize t.label = label at hlabel hunpause
      cases hlabel with
      | direct => exact hunpause ⟨_, congrArg _ heq⟩
      | _ => cases heq
    obtain ⟨es, hlog', hposts⟩ := h.posts
    have hposted := (Accounts.statement hposts).posted
    rw [hsame] at hposted
    have hnone : es.filterMap HubEvent.movement = [] :=
      (List.append_eq_nil_iff.mp (List.self_eq_append_right.mp hposted)).2
    exact ⟨hpaused', hsame.trans haccounts, by rw [hlog', List.filterMap_append, hnone,
      List.append_nil, hlog]⟩

/-- **A paused token rests** until a pauser unpauses it: no balance changes, and the manager
neither mints for a deposit nor takes a request for a redemption. -/
theorem token_rests (hpaused : w₀.usbs.paused = true) (hrun : Run Step w₀ tr w) :
    TokenRests w₀ w ∨ ∃ before t after, tr = before ++ t :: after ∧
      TokenRests w₀ t.pre ∧ UnpausesToken t :=
  hrun.until_ended (P := fun _ w => TokenRests w₀ w) ⟨hpaused, rfl, rfl⟩
    fun _ _ _ hrests hstep => hrests.step hstep

end World

namespace Sample

/-- The sample deployment with a paused token. -/
def restingWorld : World ERC20 := { world with usbs := { usbs with paused := true } }

end Sample

open Sample in
theorem World.token_rests_sample :
    TokenRests restingWorld (play next restingWorld mintAndRedeem) ∨
      ∃ before t after, playTrace next restingWorld mintAndRedeem = before ++ t :: after ∧
        TokenRests restingWorld t.pre ∧ UnpausesToken t :=
  token_rests rfl (run_play (fun _ _ _ => step_of_next) _ _)

end BrivoUsbs
