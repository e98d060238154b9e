import BrivoUsbs.Properties.Books

/-!
# The event log

`Step.emits` says that a step of the system appends events to the log of the hub, and that these
lead from the books before the step to the books after it.  `Attributed` adds which call an event
belongs to, so a condition on the calls of a run becomes a condition on its events.

A hub thus refines its own log: `Fresh.replay` recovers the tables by replaying the log from
empty books, and an invariant of the books is checked once for each event.
-/

namespace BrivoUsbs

/-- The sum of a quantity over a log. -/
def total (quantity : HubEvent → ℕ) (log : List HubEvent) : ℕ := (log.map quantity).sum

@[simp] lemma total_nil (quantity : HubEvent → ℕ) : total quantity [] = 0 := rfl

@[simp] lemma total_append (quantity : HubEvent → ℕ) (log log' : List HubEvent) :
    total quantity (log ++ log') = total quantity log + total quantity log' := by
  simp [total]

@[simp] lemma total_singleton (quantity : HubEvent → ℕ) (e : HubEvent) :
    total quantity [e] = quantity e := by
  simp [total]

lemma total_eq_zero {quantity : HubEvent → ℕ} {log : List HubEvent}
    (h : ∀ e ∈ log, quantity e = 0) : total quantity log = 0 :=
  List.sum_eq_zero (by simpa using h)

/-! ## What a step of the system does to the books -/

/-- The calls an event of the hub can belong to. -/
inductive Attributed {κ : Type} : Action κ → HubEvent → Prop
  | requestSubscription {sender : Address} {amount after fee : Uint256} {id : Bytes32} :
      Attributed (.manager sender (.requestSubscription amount))
        (.mintRequested sender id amount after fee)
  | claimMint {sender user : Address} {ids : List Bytes32} {id : Bytes32}
      {out amount price priceId : Uint256} (hid : id ∈ ids) :
      Attributed (.manager sender (.claimMint ids))
        (.mintCompleted user id out amount price priceId)
  | requestRedemption {sender : Address} {amount : Uint256} {id : Bytes32} :
      Attributed (.manager sender (.requestRedemption amount))
        (.redemptionRequested sender id amount)
  | claimRedemption {sender user : Address} {ids : List Bytes32} {id : Bytes32}
      {amount net price : Uint256} (hid : id ∈ ids) :
      Attributed (.manager sender (.claimRedemption ids))
        (.redemptionCompleted user id amount net price)
  | requestRedemptionServicedOffchain {sender : Address} {amount : Uint256}
      {id destination : Bytes32} :
      Attributed (.manager sender (.requestRedemptionServicedOffchain amount destination))
        (.redemptionRequestedServicedOffChain sender id amount destination)
  | addProof {sender user : Address} {txHash : Bytes32} {after fee timestamp : Uint256} :
      Attributed (.manager sender (.addProof txHash user after fee timestamp))
        (.depositProofAdded txHash user after fee timestamp)
  | setPriceIdForDeposits {sender : Address} {ids : List Bytes32} {priceIds : List Uint256}
      {id : Bytes32} {priceId : Uint256} (hmem : (id, priceId) ∈ ids.zip priceIds) :
      Attributed (.manager sender (.setPriceIdForDeposits ids priceIds))
        (.priceIdSetForDeposit id priceId)
  | setPriceIdForRedemptions {sender : Address} {ids : List Bytes32} {priceIds : List Uint256}
      {id : Bytes32} {priceId : Uint256} (hmem : (id, priceId) ∈ ids.zip priceIds) :
      Attributed (.manager sender (.setPriceIdForRedemptions ids priceIds))
        (.priceIdSetForRedemption id priceId)
  | overwriteDepositor {sender user oldUser : Address} {id : Bytes32}
      {after priceId oldPriceId oldAmount : Uint256} :
      Attributed (.manager sender (.overwriteDepositor id user after priceId))
        (.depositorOverwritten id oldUser user oldPriceId priceId oldAmount after)
  | overwriteRedeemer {sender user oldUser : Address} {id : Bytes32}
      {amount priceId oldPriceId oldAmount : Uint256} :
      Attributed (.manager sender (.overwriteRedeemer id user amount priceId))
        (.redeemerOverwritten id oldUser user oldPriceId priceId oldAmount amount)
  | setClaimableTimestamp {sender : Address} {claimTimestamp : Uint256} {ids : List Bytes32}
      {id : Bytes32} :
      Attributed (.manager sender (.setClaimableTimestamp claimTimestamp ids))
        (.claimableTimestampSet claimTimestamp id)
  | admin {sender : Address} {call : RWAHub.AdminCall} {event : ParameterEvent} :
      Attributed (.manager sender (.admin call)) (.parameterSet event)
  | manager {sender : Address} {call : USBSManager.ManagerCall} {event : ParameterEvent} :
      Attributed (.manager sender (.manager call)) (.parameterSet event)

lemma USBSManager.setClaimableTimestampEntries_managerParams (manager : USBSManager)
    (claimTimestamp : Uint256) (ids : List Bytes32) :
    (ids.foldl (setClaimableTimestampEntry claimTimestamp) manager).managerParams =
      manager.managerParams := by
  induction ids generalizing manager with
  | nil => rfl
  | cons id ids ih => exact ih (setClaimableTimestampEntry claimTimestamp manager id)

namespace World

variable {κ : Type} {w w' : World κ} {a : Action κ} {sender : Address}

/-- The prices the manager settles at. -/
abbrev prices (w : World κ) : Uint256 → Tx Error Uint256 := w.hub.prices w.pricers

abbrev books (w : World κ) : Books := w.hub.books

abbrev log (w : World κ) : List HubEvent := w.hub.log

/-- A step of the books during the action `a` in the world `w`. -/
def StepBy (w : World κ) (a : Action κ) (b : Books) (e : HubEvent) (b' : Books) : Prop :=
  Books.Step w.prices b e b' ∧ Attributed a e

variable {w₀ : World κ} {tr : List (Transition (World κ) (Action κ))}

/-- One step of replaying the log of a run: an event one of its transitions emits, or a parameter
the constructor sets. -/
def Replays (tr : List (Transition (World κ) (Action κ))) (b : Books) (e : HubEvent)
    (b' : Books) : Prop :=
  (∃ event, e = .parameterSet event ∧ b' = b) ∨ ∃ t ∈ tr, t.pre.StepBy t.label b e b'

lemma Replays.step {b b' : Books} {e : HubEvent} (h : Replays tr b e b') :
    ∃ prices, Books.Step prices b e b' := by
  rcases h with ⟨event, rfl, rfl⟩ | ⟨t, -, hstep, -⟩
  · exact ⟨fun _ => .error .empty, .parameterSet⟩
  · exact ⟨_, hstep⟩

/-- Each event but that of a parameter belongs to an action of the run. -/
lemma Replays.attributed {b b' : Books} {e : HubEvent} (h : Replays tr b e b')
    (he : ∀ event, e ≠ .parameterSet event) : ∃ t ∈ tr, Attributed t.label e := by
  rcases h with ⟨event, hevent, -⟩ | ⟨t, ht, -, hattributed⟩
  · exact absurd hevent (he event)
  · exact ⟨t, ht, hattributed⟩

/-- A manager without deposits and redemptions, whose log holds nothing but parameters. -/
structure Fresh (w : World κ) : Prop where
  books : w.books = Books.initial w.hub.decimalsMultiplier
  log : ∀ e ∈ w.log, ∃ event, e = .parameterSet event

lemma Deployed.fresh (h : w₀.Deployed) : w₀.Fresh := by
  obtain ⟨args, hdeploy⟩ := h
  simp only [USBSManager.deploy, RWAHub.deploy, bind_eq_ok, revertIf_eq_ok, pure_eq_ok,
    exists_const] at hdeploy
  obtain ⟨hub, ⟨-, -, -, -, exponent, -, multiplier, -, rfl⟩, -, -, hmanager⟩ := hdeploy
  constructor
  · simp only [World.books, World.hub, ← hmanager]
    rfl
  · simp only [World.log, World.hub, ← hmanager]
    simp

/-- Replaying the log of a fresh manager changes nothing. -/
lemma Fresh.replay_nil (h : w₀.Fresh) : Path (Replays tr) w₀.books w₀.log w₀.books := by
  have hlog := h.log
  generalize w₀.log = log at hlog
  induction log using List.reverseRecOn with
  | nil => exact .nil
  | append_singleton log e ih =>
      obtain ⟨event, rfl⟩ := hlog e (by simp)
      exact .snoc (ih fun e he => hlog e (List.mem_append_left _ he)) (.inl ⟨event, rfl, rfl⟩)

/-! ## The calls of the manager -/

lemma claimMint_updates {ids : List Bytes32} {manager' : USBSManager} {usbs' : USBS}
    (h : w.manager.claimMint w.usbs w.lists w.pricers w.self w.timestamp ids =
      .ok (manager', usbs')) :
    RWAHub.Updates (w.StepBy (.manager sender (.claimMint ids))) w.hub manager'.hub := by
  simp only [USBSManager.claimMint, bind_eq_ok, revertIf_eq_ok, exists_const] at h
  refine foldlM_invariant (P := fun s => RWAHub.Updates _ w.hub s.1.hub) ?_ (.refl _) h.2
  rintro id hid ⟨manager, usbs⟩ ⟨manager', usbs'⟩ hprev hentry
  have hsame : manager.hub.prices w.pricers = w.prices := by
    funext priceId
    rw [RWAHub.prices, hprev.2.1]
    rfl
  obtain ⟨out, price, -, hlog, hstep, hparams, haccess, -⟩ :=
    RWAHub.internalClaimMint_spec (USBSManager.internalClaimMint_hub hentry)
  rw [hsame] at hstep
  exact hprev.trans (.single hlog ⟨hstep, .claimMint hid⟩ hparams haccess)

lemma setPriceIdForDeposits_updates {ids : List Bytes32} {priceIds : List Uint256} {hub' : RWAHub}
    (h : w.hub.setPriceIdForDeposits sender ids priceIds = .ok hub') :
    RWAHub.Updates (w.StepBy (.manager sender (.setPriceIdForDeposits ids priceIds))) w.hub
      hub' := by
  simp only [RWAHub.setPriceIdForDeposits, bind_eq_ok, revertIf_eq_ok, exists_const] at h
  obtain ⟨_, -, -, hloop⟩ := h
  refine foldlM_rel .refl (fun h h' => h.trans h') ?_ hloop
  rintro ⟨id, priceId⟩ hmem hub hub' hentry
  obtain ⟨hlog, hstep, hparams, haccess⟩ := RWAHub.setPriceIdForDeposit_spec w.prices hentry
  exact .single hlog ⟨hstep, .setPriceIdForDeposits hmem⟩ hparams haccess

lemma setPriceIdForRedemptions_updates {ids : List Bytes32} {priceIds : List Uint256}
    {hub' : RWAHub} (h : w.hub.setPriceIdForRedemptions sender ids priceIds = .ok hub') :
    RWAHub.Updates (w.StepBy (.manager sender (.setPriceIdForRedemptions ids priceIds))) w.hub
      hub' := by
  simp only [RWAHub.setPriceIdForRedemptions, bind_eq_ok, revertIf_eq_ok, exists_const] at h
  obtain ⟨_, -, -, hloop⟩ := h
  refine foldlM_rel .refl (fun h h' => h.trans h') ?_ hloop
  rintro ⟨id, priceId⟩ hmem hub hub' hentry
  obtain ⟨hlog, hstep, hparams, haccess⟩ := RWAHub.setPriceIdForRedemption_spec w.prices hentry
  exact .single hlog ⟨hstep, .setPriceIdForRedemptions hmem⟩ hparams haccess

variable [IERC20 κ]

lemma claimRedemption_updates {ids : List Bytes32} {hub' : RWAHub} {token' : κ}
    (h : w.hub.claimRedemption w.collateral w.pricers w.self
      (w.manager.checkRestrictions w.lists) ids = .ok (hub', token')) :
    RWAHub.Updates (w.StepBy (.manager sender (.claimRedemption ids))) w.hub hub' := by
  simp only [RWAHub.claimRedemption, bind_eq_ok, revertIf_eq_ok, pure_eq_ok, exists_const,
    Prod.mk.injEq] at h
  obtain ⟨-, batch, hloop, _, -, rfl, -⟩ := h
  refine foldlM_invariant (P := fun s => RWAHub.Updates _ w.hub s.hub) ?_ (.refl _) hloop
  intro id hid batch batch' hprev hentry
  have hsame : batch.hub.prices w.pricers = w.prices := by
    funext priceId
    rw [RWAHub.prices, hprev.2.1]
    rfl
  obtain ⟨net, price, fee, -, hlog, hstep, hparams, haccess, -⟩ :=
    RWAHub.claimRedemptionEntry_spec hentry
  rw [hsame] at hstep
  exact hprev.trans (.single hlog ⟨hstep, .claimRedemption hid⟩ hparams haccess)

/-- **A call of the manager updates the books by its own events.**  Only the admin setters change
the parameters. -/
lemma execManager_emits {call : USBSManager.Call} (hsender : sender ≠ 0)
    (h : w.execManager sender call = .ok w') :
    Emits (w.StepBy (.manager sender call)) World.books World.log w w' ∧
      (w'.hub.params = w.hub.params ∨
        ∃ admin, call = .admin admin ∧ w.hub.execAdmin sender admin = .ok w'.hub) := by
  cases call with
  | requestSubscription amount =>
      simp only [execManager, bind_eq_ok, pure_eq_ok, Prod.exists] at h
      obtain ⟨hub', token', hcall, rfl⟩ := h
      obtain ⟨after, fee, hlog, hstep, hparams, -⟩ :=
        RWAHub.requestSubscription_spec w.prices hsender hcall
      exact ⟨.single hlog ⟨hstep, .requestSubscription⟩, .inl hparams⟩
  | claimMint ids =>
      simp only [execManager, bind_eq_ok, pure_eq_ok, Prod.exists] at h
      obtain ⟨manager', usbs', hcall, rfl⟩ := h
      obtain ⟨hemits, hparams, -⟩ := claimMint_updates hcall
      exact ⟨hemits, .inl hparams⟩
  | requestRedemption amount =>
      simp only [execManager, bind_eq_ok, pure_eq_ok, Prod.exists] at h
      obtain ⟨hub', usbs', hcall, rfl⟩ := h
      obtain ⟨hlog, hstep, hparams, -⟩ := RWAHub.requestRedemption_spec w.prices hcall
      exact ⟨.single hlog ⟨hstep, .requestRedemption⟩, .inl hparams⟩
  | claimRedemption ids =>
      simp only [execManager, bind_eq_ok, pure_eq_ok, Prod.exists] at h
      obtain ⟨hub', token', hcall, rfl⟩ := h
      obtain ⟨hemits, hparams, -⟩ := claimRedemption_updates hcall
      exact ⟨hemits, .inl hparams⟩
  | requestRedemptionServicedOffchain amount destination =>
      simp only [execManager, bind_eq_ok, pure_eq_ok, Prod.exists] at h
      obtain ⟨manager', usbs', hcall, rfl⟩ := h
      obtain ⟨e, rfl, hlog, hstep, hparams, -⟩ :=
        USBSManager.requestRedemptionServicedOffchain_spec w.prices hcall
      exact ⟨.single hlog ⟨hstep, .requestRedemptionServicedOffchain⟩, .inl hparams⟩
  | addProof txHash user after fee timestamp =>
      simp only [execManager, bind_eq_ok, pure_eq_ok] at h
      obtain ⟨hub', hcall, rfl⟩ := h
      obtain ⟨hlog, hstep, hparams, -⟩ := RWAHub.addProof_spec w.prices hcall
      exact ⟨.single hlog ⟨hstep, .addProof⟩, .inl hparams⟩
  | setPriceIdForDeposits ids priceIds =>
      simp only [execManager, bind_eq_ok, pure_eq_ok] at h
      obtain ⟨hub', hcall, rfl⟩ := h
      obtain ⟨hemits, hparams, -⟩ := setPriceIdForDeposits_updates hcall
      exact ⟨hemits, .inl hparams⟩
  | setPriceIdForRedemptions ids priceIds =>
      simp only [execManager, bind_eq_ok, pure_eq_ok] at h
      obtain ⟨hub', hcall, rfl⟩ := h
      obtain ⟨hemits, hparams, -⟩ := setPriceIdForRedemptions_updates hcall
      exact ⟨hemits, .inl hparams⟩
  | overwriteDepositor id user after priceId =>
      simp only [execManager, bind_eq_ok, pure_eq_ok] at h
      obtain ⟨hub', hcall, rfl⟩ := h
      obtain ⟨e, rfl, hlog, hstep, hparams, -⟩ := RWAHub.overwriteDepositor_spec w.prices hcall
      exact ⟨.single hlog ⟨hstep, .overwriteDepositor⟩, .inl hparams⟩
  | overwriteRedeemer id user amount priceId =>
      simp only [execManager, bind_eq_ok, pure_eq_ok] at h
      obtain ⟨hub', hcall, rfl⟩ := h
      obtain ⟨e, rfl, hlog, hstep, hparams, -⟩ := RWAHub.overwriteRedeemer_spec w.prices hcall
      exact ⟨.single hlog ⟨hstep, .overwriteRedeemer⟩, .inl hparams⟩
  | setClaimableTimestamp claimTimestamp ids =>
      simp only [execManager, bind_eq_ok, pure_eq_ok] at h
      obtain ⟨manager', hcall, rfl⟩ := h
      have hstep : ∀ b id, w.StepBy (.manager sender (.setClaimableTimestamp claimTimestamp ids))
          b (.claimableTimestampSet claimTimestamp id) b :=
        fun b id => ⟨.claimableTimestampSet, .setClaimableTimestamp⟩
      obtain ⟨hemits, hparams, -⟩ := USBSManager.setClaimableTimestamp_updates hstep hcall
      exact ⟨hemits, .inl hparams⟩
  | admin call =>
      simp only [execManager, bind_eq_ok, pure_eq_ok] at h
      obtain ⟨hub', hcall, rfl⟩ := h
      obtain ⟨event, hlog, hbooks, -⟩ := RWAHub.execAdmin_spec hcall
      refine ⟨.single hlog ⟨?_, .admin⟩, .inr ⟨call, rfl, hcall⟩⟩
      have hsame : books { w with manager := { w.manager with hub := hub' } } = w.books := hbooks
      rw [hsame]
      exact .parameterSet
  | manager call =>
      simp only [execManager, bind_eq_ok, pure_eq_ok] at h
      obtain ⟨manager', hcall, rfl⟩ := h
      obtain ⟨event, hhub, -⟩ := USBSManager.execManagerSet_spec hcall
      refine ⟨.single (e := .parameterSet event) ?_ ⟨?_, .manager⟩, .inl ?_⟩
      · simp only [log, hub, hhub]
      · simp only [books, hub, hhub, RWAHub.books]
        exact .parameterSet
      · simp only [hub, hhub]
  | access call =>
      simp only [execManager, bind_eq_ok, pure_eq_ok] at h
      obtain ⟨access, -, rfl⟩ := h
      exact ⟨⟨[], (List.append_nil _).symm, .nil⟩, .inl rfl⟩

/-- A call of the manager reaches neither the pricers nor the lists. -/
lemma execManager_frame {call : USBSManager.Call} (h : w.execManager sender call = .ok w') :
    w'.self = w.self ∧ w'.pricers = w.pricers ∧ w'.lists = w.lists := by
  cases call <;>
  · simp only [execManager, bind_eq_ok, pure_eq_ok] at h
    obtain ⟨_, -, rfl⟩ := h
    exact ⟨rfl, rfl, rfl⟩

/-- Of the calls of the manager only `setPricer` changes the pricer. -/
lemma execManager_pricer {call : USBSManager.Call} (hsender : sender ≠ 0)
    (h : w.execManager sender call = .ok w') :
    w'.hub.params.pricer = w.hub.params.pricer ∨
      call = .admin (.setPricer w'.hub.params.pricer) := by
  rcases (execManager_emits hsender h).2 with hparams | ⟨admin, rfl, hadmin⟩
  · exact .inl (congrArg Parameters.pricer hparams)
  · obtain ⟨event, -, -, -, hpricer⟩ := RWAHub.execAdmin_spec hadmin
    exact hpricer.imp_right (congrArg _)

/-- Of the calls of the manager only those of access control change the roles. -/
lemma execManager_access {call : USBSManager.Call} (hsender : sender ≠ 0)
    (h : w.execManager sender call = .ok w') :
    w'.hub.access = w.hub.access ∨
      ∃ access, call = .access access ∧ w.hub.access.exec sender access = .ok w'.hub.access := by
  cases call with
  | requestSubscription amount =>
      simp only [execManager, bind_eq_ok, pure_eq_ok, Prod.exists] at h
      obtain ⟨hub', token', hcall, rfl⟩ := h
      obtain ⟨-, -, -, -, -, haccess, -⟩ := RWAHub.requestSubscription_spec w.prices hsender hcall
      exact .inl haccess
  | claimMint ids =>
      simp only [execManager, bind_eq_ok, pure_eq_ok, Prod.exists] at h
      obtain ⟨manager', usbs', hcall, rfl⟩ := h
      have hupdates : RWAHub.Updates (w.StepBy (.manager sender (.claimMint ids))) w.hub
          manager'.hub := claimMint_updates hcall
      exact .inl hupdates.2.2
  | requestRedemption amount =>
      simp only [execManager, bind_eq_ok, pure_eq_ok, Prod.exists] at h
      obtain ⟨hub', usbs', hcall, rfl⟩ := h
      obtain ⟨-, -, -, haccess, -⟩ := RWAHub.requestRedemption_spec w.prices hcall
      exact .inl haccess
  | claimRedemption ids =>
      simp only [execManager, bind_eq_ok, pure_eq_ok, Prod.exists] at h
      obtain ⟨hub', token', hcall, rfl⟩ := h
      have hupdates : RWAHub.Updates (w.StepBy (.manager sender (.claimRedemption ids))) w.hub
          hub' := claimRedemption_updates hcall
      exact .inl hupdates.2.2
  | requestRedemptionServicedOffchain amount destination =>
      simp only [execManager, bind_eq_ok, pure_eq_ok, Prod.exists] at h
      obtain ⟨manager', usbs', hcall, rfl⟩ := h
      obtain ⟨-, -, -, -, -, haccess, -⟩ :=
        USBSManager.requestRedemptionServicedOffchain_spec w.prices hcall
      exact .inl haccess
  | addProof txHash user after fee timestamp =>
      simp only [execManager, bind_eq_ok, pure_eq_ok] at h
      obtain ⟨hub', hcall, rfl⟩ := h
      obtain ⟨-, -, -, haccess⟩ := RWAHub.addProof_spec w.prices hcall
      exact .inl haccess
  | setPriceIdForDeposits ids priceIds =>
      simp only [execManager, bind_eq_ok, pure_eq_ok] at h
      obtain ⟨hub', hcall, rfl⟩ := h
      exact .inl (setPriceIdForDeposits_updates hcall).2.2
  | setPriceIdForRedemptions ids priceIds =>
      simp only [execManager, bind_eq_ok, pure_eq_ok] at h
      obtain ⟨hub', hcall, rfl⟩ := h
      exact .inl (setPriceIdForRedemptions_updates hcall).2.2
  | overwriteDepositor id user after priceId =>
      simp only [execManager, bind_eq_ok, pure_eq_ok] at h
      obtain ⟨hub', hcall, rfl⟩ := h
      obtain ⟨-, -, -, -, -, haccess⟩ := RWAHub.overwriteDepositor_spec w.prices hcall
      exact .inl haccess
  | overwriteRedeemer id user amount priceId =>
      simp only [execManager, bind_eq_ok, pure_eq_ok] at h
      obtain ⟨hub', hcall, rfl⟩ := h
      obtain ⟨-, -, -, -, -, haccess⟩ := RWAHub.overwriteRedeemer_spec w.prices hcall
      exact .inl haccess
  | setClaimableTimestamp claimTimestamp ids =>
      simp only [execManager, bind_eq_ok, pure_eq_ok] at h
      obtain ⟨manager', hcall, rfl⟩ := h
      have hupdates : RWAHub.Updates (fun _ _ _ => True) w.hub manager'.hub :=
        USBSManager.setClaimableTimestamp_updates (fun _ _ => trivial) hcall
      exact .inl hupdates.2.2
  | admin call =>
      simp only [execManager, bind_eq_ok, pure_eq_ok] at h
      obtain ⟨hub', hcall, rfl⟩ := h
      obtain ⟨-, -, -, haccess, -⟩ := RWAHub.execAdmin_spec hcall
      exact .inl haccess
  | manager call =>
      simp only [execManager, bind_eq_ok, pure_eq_ok] at h
      obtain ⟨manager', hcall, rfl⟩ := h
      obtain ⟨event, hhub, -⟩ := USBSManager.execManagerSet_spec hcall
      left
      simp only [hub, hhub]
  | access call =>
      simp only [execManager, bind_eq_ok, pure_eq_ok] at h
      obtain ⟨access, haccess, rfl⟩ := h
      exact .inr ⟨call, rfl, haccess⟩

omit [IERC20 κ] in
lemma claimMint_managerParams {ids : List Bytes32} {manager' : USBSManager} {usbs' : USBS}
    (h : w.manager.claimMint w.usbs w.lists w.pricers w.self w.timestamp ids =
      .ok (manager', usbs')) : manager'.managerParams = w.manager.managerParams := by
  simp only [USBSManager.claimMint, bind_eq_ok, revertIf_eq_ok, exists_const] at h
  refine foldlM_invariant (P := fun s : USBSManager × USBS =>
    s.1.managerParams = w.manager.managerParams) ?_ rfl h.2
  rintro id - ⟨manager, usbs⟩ ⟨manager', usbs'⟩ hprev hentry
  simp only [USBSManager.internalClaimMint, bind_eq_ok, pure_eq_ok, Prod.mk.injEq] at hentry
  obtain ⟨_, -, _, -, claimed, -, rfl, -⟩ := hentry
  exact hprev

/-- Of the calls of the manager only its own setters change what these set. -/
lemma execManager_managerParams {call : USBSManager.Call}
    (h : w.execManager sender call = .ok w') :
    w'.manager.managerParams = w.manager.managerParams ∨
      ∃ setter, call = .manager setter ∧
        w.manager.execManagerSet sender setter = .ok w'.manager := by
  cases call with
  | claimMint ids =>
      simp only [execManager, bind_eq_ok, pure_eq_ok, Prod.exists] at h
      obtain ⟨manager', usbs', hcall, rfl⟩ := h
      exact .inl (claimMint_managerParams hcall)
  | requestRedemptionServicedOffchain amount destination =>
      simp only [execManager, USBSManager.requestRedemptionServicedOffchain, bind_eq_ok, pure_eq_ok,
        Prod.exists, Prod.mk.injEq] at h
      obtain ⟨_, _, ⟨_, -, _, -, _, -, _, -, rfl, rfl⟩, rfl⟩ := h
      exact .inl rfl
  | setClaimableTimestamp claimTimestamp ids =>
      simp only [execManager, USBSManager.setClaimableTimestamp, bind_eq_ok, pure_eq_ok] at h
      obtain ⟨_, ⟨_, -, _, -, rfl⟩, rfl⟩ := h
      exact .inl (USBSManager.setClaimableTimestampEntries_managerParams _ _ ids)
  | manager setter =>
      simp only [execManager, bind_eq_ok, pure_eq_ok] at h
      obtain ⟨manager', hcall, rfl⟩ := h
      exact .inr ⟨setter, rfl, hcall⟩
  | _ =>
      simp only [execManager, bind_eq_ok, pure_eq_ok] at h
      obtain ⟨_, -, rfl⟩ := h
      exact .inl rfl

/-- What an action other than a call of the manager leaves alone. -/
lemma exec_manager_eq (ha : ∀ sender call, a ≠ .manager sender call)
    (h : w.exec a = .ok w') :
    w'.manager = w.manager ∧ w'.self = w.self ∧
      ((∀ sender call, a ≠ .usbs sender call) → w'.usbs = w.usbs) := by
  cases a with
  | manager sender call => exact absurd rfl (ha sender call)
  | usbs sender call =>
      simp only [exec, bind_eq_ok, pure_eq_ok] at h
      obtain ⟨usbs, -, rfl⟩ := h
      exact ⟨rfl, rfl, fun husbs => absurd rfl (husbs sender call)⟩
  | pricer address sender call =>
      simp only [exec, execPricer] at h
      split at h
      · cases h
      · simp only [bind_eq_ok, pure_eq_ok] at h
        obtain ⟨pricer, -, rfl⟩ := h
        exact ⟨rfl, rfl, fun _ => rfl⟩
  | deployPricer address sender admin pricer =>
      simp only [exec] at h
      split at h
      · cases h
        exact ⟨rfl, rfl, fun _ => rfl⟩
      · cases h
  | wait timestamp =>
      simp only [exec] at h
      split at h
      · cases h
        exact ⟨rfl, rfl, fun _ => rfl⟩
      · cases h
  | _ =>
      cases h
      exact ⟨rfl, rfl, fun _ => rfl⟩

/-- The manager stays where it is. -/
lemma exec_self (h : w.exec a = .ok w') : w'.self = w.self := by
  by_cases ha : ∃ sender call, a = .manager sender call
  · obtain ⟨sender, call, rfl⟩ := ha
    exact (execManager_frame h).1
  · exact (exec_manager_eq (fun sender call heq => ha ⟨sender, call, heq⟩) h).2.1

/-- **A step of the system updates the books by its own events.** -/
theorem Step.emits (h : w.Step a w') : Emits (w.StepBy a) World.books World.log w w' := by
  obtain ⟨hcaller, hexec⟩ := h
  by_cases ha : ∃ sender call, a = .manager sender call
  · obtain ⟨sender, call, rfl⟩ := ha
    exact (execManager_emits (hcaller sender rfl).1 hexec).1
  · have hsame : w'.manager = w.manager :=
      (exec_manager_eq (fun sender call heq => ha ⟨sender, call, heq⟩) hexec).1
    refine ⟨[], ?_, ?_⟩
    · simp only [log, hub, hsame, List.append_nil]
    · simp only [books, hub, hsame]
      exact .nil

/-! ## Runs -/

/-- **Event sourcing.**  Replaying the log of a run of a fresh manager from empty books gives the
books at the end of the run. -/
theorem Fresh.replay (h : w₀.Fresh) (hrun : Run Step w₀ tr w) :
    Path (Replays tr) (Books.initial w₀.hub.decimalsMultiplier) w.log w.books := by
  have hemits : Emits (Replays tr) World.books World.log w₀ w :=
    (hrun.emits fun s a s' => Step.emits).mono fun x e y hemit => .inr hemit
  rw [← h.books]
  exact hemits.replay h.replay_nil

/-- A quantity of events that no parameter has grows along a run by what each step adds. -/
lemma Fresh.total_log {quantity : HubEvent → ℕ}
    {gain : Transition (World κ) (Action κ) → ℕ} (h : w₀.Fresh) (hrun : Run Step w₀ tr w)
    (hset : ∀ event, quantity (.parameterSet event) = 0)
    (hstep : ∀ w a w', w.Step a w' → ∃ es, w'.log = w.log ++ es ∧
      total quantity es = gain ⟨w, a, w'⟩) :
    total quantity w.log = (tr.map gain).sum := by
  induction hrun using Run.induction with
  | nil =>
      refine total_eq_zero fun e he => ?_
      obtain ⟨event, rfl⟩ := h.log e he
      exact hset event
  | snoc tr w a w' _ hlast ih =>
      obtain ⟨es, hlog, hgain⟩ := hstep w a w' hlast
      rw [hlog, total_append, ih, hgain]
      simp

/-- The log only grows along a run. -/
lemma log_extends (hrun : Run Step w₀ tr w) {s : World κ} (hs : Run.Visits tr w s) :
    s.log <+: w.log := by
  refine hrun.rel_of_visits (R := fun x y => x.log <+: y.log) (fun _ => List.prefix_rfl)
    List.IsPrefix.trans (fun t ht => ?_) hs
  have hstep := hrun.step_of_mem ht
  obtain ⟨es, hlog, -⟩ := Step.emits hstep
  exact ⟨es, hlog.symm⟩

end World

end BrivoUsbs
