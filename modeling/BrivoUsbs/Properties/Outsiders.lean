import BrivoUsbs.Properties.ManagerJournal
import BrivoUsbs.Properties.RoleGovernance

/-!
# What outsiders can do

An outsider holds no role of the manager, of the token or of a pricer.  However many of them act
together, and whatever others do meanwhile with the collateral and the lists, they change no role,
no parameter and no price.  Each deposit they mint for and each redemption they settle was priced
before they set out, is settled at that price, and once.  See `outsiders_confined`.

`ReleasedAt` says this of one event of the manager, `ReleasedBooks` and `ReleasedTimes` of all
events since the outsiders set out, together with what they leave of the entries and of the
timestamps.
-/

namespace BrivoUsbs

/-! ## The calls anybody may make -/

/-- A call of the manager that asks for no role. -/
def USBSManager.Call.isOpen : Call → Bool
  | .requestSubscription _ | .claimMint _ | .requestRedemption _ | .claimRedemption _
  | .requestRedemptionServicedOffchain .. | .access _ => true
  | _ => false

/-- An event of a call that asks for no role. -/
def HubEvent.isOpen : HubEvent → Bool
  | .mintRequested .. | .mintCompleted .. | .redemptionRequested .. | .redemptionCompleted ..
  | .redemptionRequestedServicedOffChain .. => true
  | _ => false

lemma Attributed.isOpen {κ : Type} {sender : Address} {call : USBSManager.Call} {e : HubEvent}
    (h : Attributed (.manager sender call : Action κ) e) (hcall : call.isOpen = true) :
    e.isOpen = true := by
  cases h <;> first | rfl | cases hcall

namespace World

variable {κ : Type} [IERC20 κ] {w₀ w w' : World κ} {a : Action κ} {sender : Address}
  {tr : List (Transition (World κ) (Action κ))}

/-- Who has no role asks for nothing that needs one. -/
lemma execManager_isOpen {call : USBSManager.Call} (h : w.execManager sender call = .ok w')
    (hnone : ∀ role, w.hub.access.hasRole role sender = false) : call.isOpen = true := by
  cases call with
  | addProof | setPriceIdForDeposits | setPriceIdForRedemptions | overwriteDepositor
  | overwriteRedeemer | setClaimableTimestamp =>
      simp only [execManager, RWAHub.addProof, RWAHub.setPriceIdForDeposits,
        RWAHub.setPriceIdForRedemptions, RWAHub.overwriteDepositor, RWAHub.overwriteRedeemer,
        USBSManager.setClaimableTimestamp, bind_eq_ok, AccessControl.checkRole_eq_ok, hnone,
        Bool.false_eq_true, false_and, exists_const, exists_false] at h
  | admin call =>
      cases call <;>
        simp only [execManager, RWAHub.execAdmin, RWAHub.setMinimumRedemptionAmount,
          RWAHub.setMinimumDepositAmount, RWAHub.setMintFee, RWAHub.setRedemptionFee,
          RWAHub.setPricer, RWAHub.setFeeRecipient, RWAHub.setAssetSender,
          RWAHub.pauseSubscription, RWAHub.pauseRedemption, RWAHub.unpauseSubscription,
          RWAHub.unpauseRedemption, RWAHub.adminSet, bind_eq_ok, AccessControl.checkRole_eq_ok,
          hnone, Bool.false_eq_true, false_and, exists_const, exists_false] at h
  | manager call =>
      cases call <;>
        simp only [execManager, USBSManager.execManagerSet, USBSManager.pauseOffChainRedemption,
          USBSManager.unpauseOffChainRedemption, USBSManager.setOffChainRedemptionMinimum,
          USBSManager.setBlocklist, USBSManager.setSanctionsList, USBSManager.managerSet,
          bind_eq_ok, AccessControl.checkRole_eq_ok, hnone, Bool.false_eq_true, false_and,
          exists_const, exists_false] at h
  | _ => rfl

end World

namespace USBS

variable {token token' : USBS} {lists : Lists} {sender : Address}

/-- A call that asks for no role of the token, but for that of the minter. -/
def Call.isMovement : Call → Bool
  | .holder _ | .mint .. => true
  | _ => false

/-- Movements, and whoever has no role, leave the roles and the settings of the token alone. -/
lemma exec_confined {call : Call} (h : token.exec lists sender call = .ok token')
    (hcall : call.isMovement = true ∨ ∀ role, token.access.hasRole role sender = false) :
    token'.access = token.access ∧ token'.settings = token.settings := by
  cases call with
  | holder call =>
      obtain ⟨erc20, rfl, -⟩ := execHolder_operates h
      exact ⟨rfl, rfl⟩
  | mint dest amount =>
      simp only [exec, mint, bind_eq_ok, pure_eq_ok] at h
      obtain ⟨_, -, minted, -, rfl⟩ := h
      exact ⟨rfl, rfl⟩
  | access call =>
      have hnone := hcall.resolve_left Bool.false_ne_true
      simp only [exec, bind_eq_ok, pure_eq_ok] at h
      obtain ⟨access, hcall, rfl⟩ := h
      exact ⟨AccessControl.exec_of_no_role hcall hnone, rfl⟩
  | _ =>
      have hnone := hcall.resolve_left Bool.false_ne_true
      simp only [exec, pause, unpause, setBlocklist, setAllowlist, setSanctionsList, bind_eq_ok,
        require_eq_ok, AccessControl.checkRole_eq_ok, hnone, Bool.false_eq_true, false_and,
        exists_const] at h

end USBS

/-- An account without roles changes nothing about a pricer. -/
lemma Pricer.exec_of_no_role {pricer pricer' : Pricer} {sender : Address} {call : Call}
    (h : pricer.exec sender call = .ok pricer')
    (hnone : ∀ role, pricer.access.hasRole role sender = false) : pricer' = pricer := by
  cases call with
  | access call =>
      simp only [exec, bind_eq_ok, pure_eq_ok] at h
      obtain ⟨access, hcall, rfl⟩ := h
      rw [AccessControl.exec_of_no_role hcall hnone]
  | _ =>
      simp only [exec, addPrice, updatePrice, bind_eq_ok, AccessControl.checkRole_eq_ok, hnone,
        Bool.false_eq_true, false_and, exists_const] at h

namespace World

variable {κ : Type} [IERC20 κ] {w₀ w w' : World κ} {a : Action κ} {sender : Address}
  {tr : List (Transition (World κ) (Action κ))}

lemma Step.token_confined (h : w.Step a w')
    (hnone : ∀ caller ∈ a.caller, ∀ role, w.usbs.access.hasRole role caller = false) :
    w'.usbs.access = w.usbs.access ∧ w'.usbs.settings = w.usbs.settings := by
  obtain ⟨ms, hpath, hsends⟩ := h.token_calls
  refine hpath.invariant (P := fun token =>
    token.access = w.usbs.access ∧ token.settings = w.usbs.settings) ⟨rfl, rfl⟩ ?_
  rintro token m token' hm ⟨haccess, hsettings⟩ hcall
  have hallowed :
      m.call.isMovement = true ∨ ∀ role, token.access.hasRole role m.sender = false := by
    rw [haccess]
    cases hsends m hm with
    | direct => exact .inr (hnone _ rfl)
    | _ => exact .inl rfl
  obtain ⟨haccess', hsettings'⟩ := USBS.exec_confined hcall hallowed
  exact ⟨haccess'.trans haccess, hsettings'.trans hsettings⟩

/-- A pricer that is there stays as it is, as long as those without a role on it call. -/
lemma Step.pricer_confined (h : w.Step a w') {address : Address} {pricer : Pricer}
    (hpricer : w.pricers address = some pricer)
    (hnone : ∀ caller ∈ a.caller, ∀ role, pricer.access.hasRole role caller = false) :
    w'.pricers address = some pricer := by
  obtain ⟨-, hexec⟩ := h
  cases a with
  | manager sender call => rw [(execManager_frame hexec).2.1, hpricer]
  | usbs sender call =>
      simp only [exec, bind_eq_ok, pure_eq_ok] at hexec
      obtain ⟨usbs, -, rfl⟩ := hexec
      exact hpricer
  | pricer address' sender call =>
      simp only [exec, execPricer] at hexec
      split at hexec
      · cases hexec
      next contract hcontract =>
        simp only [bind_eq_ok, pure_eq_ok] at hexec
        obtain ⟨contract', hcall, rfl⟩ := hexec
        dsimp only
        by_cases hsame : address = address'
        · subst hsame
          obtain rfl : contract = pricer := Option.some.inj (hcontract.symm.trans hpricer)
          rw [Function.update_self, Pricer.exec_of_no_role hcall (hnone sender rfl)]
        · rw [Function.update_of_ne hsame, hpricer]
  | deployPricer address' sender admin pricer' =>
      simp only [exec] at hexec
      split at hexec
      · next hvacant =>
          cases hexec
          have hne : address ≠ address' := by
            rintro rfl
            rw [hpricer] at hvacant
            cases hvacant
          dsimp only
          rw [Function.update_of_ne hne, hpricer]
      · cases hexec
  | wait timestamp =>
      simp only [exec] at hexec
      split at hexec
      · cases hexec
        exact hpricer
      · cases hexec
  | _ =>
      cases hexec
      exact hpricer

/-! ## The events of outsiders -/

/-- The event is about nothing that had not been released in the state `w₀`. -/
def ReleasedAt (w₀ : World κ) : HubEvent → Prop
  | .mintRequested .. | .redemptionRequested .. | .redemptionRequestedServicedOffChain .. => True
  | .mintCompleted user id _ amount price priceId =>
      w₀.books.deposits id = ⟨user, amount, priceId⟩ ∧ priceId ≠ 0 ∧
        w₀.prices priceId = .ok price
  | .redemptionCompleted user id amount _ price =>
      ∃ priceId, w₀.books.redemptions id = ⟨user, amount, priceId⟩ ∧ priceId ≠ 0 ∧
        w₀.prices priceId = .ok price
  | _ => False

end World

namespace HubEvent

/-- The deposit a mint is completed for. -/
def mintedDeposit : HubEvent → Option Bytes32
  | .mintCompleted _ id _ _ _ _ => some id
  | _ => none

/-- The redemption that is completed. -/
def settledRedemption : HubEvent → Option Bytes32
  | .redemptionCompleted _ id _ _ _ => some id
  | _ => none

end HubEvent

namespace World

variable {κ : Type} {w₀ w w' : World κ} {a : Action κ} {es : List HubEvent} {e : HubEvent}
  {tr : List (Transition (World κ) (Action κ))}

/-- The timestamps of `w₀` after the events `es`: what has been minted for had one. -/
structure ReleasedTimes (w₀ : World κ) (es : List HubEvent) (manager : USBSManager) : Prop where
  timestamps : ∀ id, manager.depositIdToClaimableTimestamp id =
    w₀.manager.depositIdToClaimableTimestamp id ∨ manager.depositIdToClaimableTimestamp id = 0
  minted : ∀ id ∈ es.filterMap HubEvent.mintedDeposit,
    w₀.manager.depositIdToClaimableTimestamp id ≠ 0

lemma ReleasedTimes.step {manager manager' : USBSManager}
    (h : ReleasedTimes w₀ es manager) (hstep : USBSManager.Records manager e manager')
    (hopen : e.isOpen = true) : ReleasedTimes w₀ (es ++ [e]) manager' := by
  obtain ⟨hadmits, rfl⟩ := hstep
  obtain ⟨htimestamps, hminted⟩ := h
  cases e with
  | mintCompleted user id out amount price priceId =>
      have hset : manager.depositIdToClaimableTimestamp id ≠ 0 := hadmits.2.2.2.2.2
      refine ⟨fun id' => ?_, fun id' hid' => ?_⟩
      · show Function.update manager.depositIdToClaimableTimestamp id 0 id' = _ ∨
          Function.update manager.depositIdToClaimableTimestamp id 0 id' = 0
        by_cases hsame : id' = id
        · subst hsame
          exact .inr (Function.update_self ..)
        · rw [Function.update_of_ne hsame]
          exact htimestamps id'
      · rw [List.filterMap_append] at hid'
        rcases List.mem_append.mp hid' with hmem | hmem
        · exact hminted id' hmem
        · obtain rfl : id' = id := by simpa [HubEvent.mintedDeposit] using hmem
          rwa [(htimestamps id').resolve_right hset] at hset
  | mintRequested | redemptionRequested | redemptionCompleted
  | redemptionRequestedServicedOffChain =>
      exact ⟨htimestamps, by simpa [HubEvent.mintedDeposit] using hminted⟩
  | _ => cases hopen

/-- A table whose entries with a price are still those of `table₀`, after the entries `ids` were
claimed. -/
structure Claimed {ρ : Type} (priceId : ρ → Uint256) (table₀ : Bytes32 → ρ) (ids : List Bytes32)
    (table : Bytes32 → ρ) : Prop where
  kept : ∀ id, table id = table₀ id ∨ priceId (table id) = 0
  claimed : ∀ id ∈ ids, priceId (table id) = 0
  once : ids.Nodup

section

variable {ρ : Type} {priceId : ρ → Uint256} {table₀ table : Bytes32 → ρ} {ids : List Bytes32}
  {id : Bytes32} {entry : ρ}

lemma Claimed.refl : Claimed priceId table₀ [] table₀ :=
  ⟨fun _ => .inl rfl, by simp, List.nodup_nil⟩

/-- Writing an entry without a price. -/
lemma Claimed.write (h : Claimed priceId table₀ ids table) (hentry : priceId entry = 0) :
    Claimed priceId table₀ ids (Function.update table id entry) := by
  have hwrite : ∀ id', priceId (table id') = 0 →
      priceId (Function.update table id entry id') = 0 := by
    intro id' hzero
    by_cases hsame : id' = id
    · subst hsame
      rwa [Function.update_self]
    · rwa [Function.update_of_ne hsame]
  refine ⟨fun id' => ?_, fun id' hid' => hwrite id' (h.claimed id' hid'), h.once⟩
  by_cases hsame : id' = id
  · subst hsame
    rw [Function.update_self]
    exact .inr hentry
  · rw [Function.update_of_ne hsame]
    exact h.kept id'

/-- Claiming an entry, which is still as it was. -/
lemma Claimed.claim (h : Claimed priceId table₀ ids table) (hset : priceId (table id) ≠ 0)
    (hentry : priceId entry = 0) :
    table id = table₀ id ∧
      Claimed priceId table₀ (ids ++ [id]) (Function.update table id entry) := by
  have hwritten : Claimed priceId table₀ ids (Function.update table id entry) := h.write hentry
  refine ⟨(h.kept id).resolve_right hset, hwritten.kept, fun id' hid' => ?_, ?_⟩
  · rcases List.mem_append.mp hid' with hmem | hmem
    · exact hwritten.claimed id' hmem
    · obtain rfl := List.mem_singleton.mp hmem
      rwa [Function.update_self]
  · have hnew : id ∉ ids := fun hmem => hset (h.claimed id hmem)
    exact List.nodup_append.mpr ⟨h.once, List.nodup_singleton id, by
      rintro x hx y hy rfl
      exact hnew (List.mem_singleton.mp hy ▸ hx)⟩

end

/-- The books of `w₀` after the events `es`, each of which had been released. -/
structure ReleasedBooks (w₀ : World κ) (es : List HubEvent) (b : Books) : Prop where
  deposits : Claimed Depositor.priceId w₀.books.deposits (es.filterMap HubEvent.mintedDeposit)
    b.deposits
  redemptions : Claimed Redeemer.priceId w₀.books.redemptions
    (es.filterMap HubEvent.settledRedemption) b.redemptions
  released : ∀ e ∈ es, w₀.ReleasedAt e

lemma ReleasedBooks.step {b b' : Books} (h : ReleasedBooks w₀ es b)
    (hstep : Books.Step w₀.prices b e b') (hopen : e.isOpen = true) :
    ReleasedBooks w₀ (es ++ [e]) b' := by
  obtain ⟨hdeposits, hredemptions, hreleased⟩ := h
  have hall : ∀ e', w₀.ReleasedAt e' → ∀ e'' ∈ es ++ [e'], w₀.ReleasedAt e'' := by
    intro e' he' e'' he''
    rcases List.mem_append.mp he'' with hmem | hmem
    · exact hreleased e'' hmem
    · obtain rfl := List.mem_singleton.mp hmem
      exact he'
  have hminted : ∀ e', HubEvent.mintedDeposit e' = none →
      (es ++ [e']).filterMap HubEvent.mintedDeposit = es.filterMap HubEvent.mintedDeposit := by
    intro e' he'
    simp [he']
  have hsettled : ∀ e', HubEvent.settledRedemption e' = none →
      (es ++ [e']).filterMap HubEvent.settledRedemption =
        es.filterMap HubEvent.settledRedemption := by
    intro e' he'
    simp [he']
  cases hstep with
  | mintRequested =>
      refine ⟨?_, ?_, hall _ trivial⟩
      · rw [hminted _ rfl]
        exact hdeposits.write rfl
      · rw [hsettled _ rfl]
        exact hredemptions
  | @mintCompleted id out price hset huser hprice hdefined hout =>
      obtain ⟨hkept, hclaimed⟩ :=
        hdeposits.claim hset (show Depositor.priceId .null = 0 from rfl)
      refine ⟨?_, ?_, hall _ ⟨hkept.symm, hset, hprice⟩⟩
      · rw [List.filterMap_append]
        exact hclaimed
      · rw [hsettled _ rfl]
        exact hredemptions
  | redemptionRequested =>
      refine ⟨?_, ?_, hall _ trivial⟩
      · rw [hminted _ rfl]
        exact hdeposits
      · rw [hsettled _ rfl]
        exact hredemptions.write rfl
  | redemptionRequestedServicedOffChain =>
      refine ⟨?_, ?_, hall _ trivial⟩
      · rw [hminted _ rfl]
        exact hdeposits
      · rw [hsettled _ rfl]
        exact hredemptions
  | @redemptionCompleted id net price fee hset hprice =>
      obtain ⟨hkept, hclaimed⟩ :=
        hredemptions.claim hset (show Redeemer.priceId .null = 0 from rfl)
      refine ⟨?_, ?_, hall _ ⟨_, hkept.symm, hset, hprice⟩⟩
      · rw [hminted _ rfl]
        exact hdeposits
      · rw [List.filterMap_append]
        exact hclaimed
  | _ => cases hopen

/-! ## Runs of outsiders -/

/-- The account has no role of the manager, of the token or of a pricer. -/
structure Outsider (w : World κ) (account : Address) : Prop where
  hub : ∀ role, w.hub.access.hasRole role account = false
  token : ∀ role, w.usbs.access.hasRole role account = false
  pricers : ∀ address pricer, w.pricers address = some pricer →
    ∀ role, pricer.access.hasRole role account = false

/-- What outsiders have made of the world `w₀`. -/
structure Confined (w₀ w : World κ) : Prop where
  access : w.hub.access = w₀.hub.access
  params : w.hub.params = w₀.hub.params
  managerParams : w.manager.managerParams = w₀.manager.managerParams
  tokenAccess : w.usbs.access = w₀.usbs.access
  tokenSettings : w.usbs.settings = w₀.usbs.settings
  pricers : ∀ address pricer, w₀.pricers address = some pricer → w.pricers address = some pricer
  events : ∃ es, w.log = w₀.log ++ es ∧ ReleasedBooks w₀ es w.books ∧
    ReleasedTimes w₀ es w.manager

lemma Confined.refl (w₀ : World κ) : Confined w₀ w₀ where
  access := rfl
  params := rfl
  managerParams := rfl
  tokenAccess := rfl
  tokenSettings := rfl
  pricers _ _ hpricer := hpricer
  events := ⟨[], (List.append_nil _).symm, ⟨.refl, .refl, by simp⟩, fun _ => .inl rfl, by simp⟩

lemma Confined.outsider {account : Address} (h : Confined w₀ w) (houtsider : w₀.Outsider account) :
    (∀ role, w.hub.access.hasRole role account = false) ∧
      ∀ role, w.usbs.access.hasRole role account = false := by
  rw [h.access, h.tokenAccess]
  exact ⟨houtsider.hub, houtsider.token⟩

variable [IERC20 κ]

/-- The manager's own parameters and roles are safe from those without a role. -/
lemma Step.hub_confined (h : w.Step a w')
    (hnone : ∀ caller ∈ a.caller, ∀ role, w.hub.access.hasRole role caller = false) :
    w'.hub.access = w.hub.access ∧ w'.hub.params = w.hub.params ∧
      w'.manager.managerParams = w.manager.managerParams ∧
      ∀ e, Attributed a e → e.isOpen = true := by
  obtain ⟨hcaller, hexec⟩ := h
  by_cases ha : ∃ sender call, a = .manager sender call
  · obtain ⟨sender, call, rfl⟩ := ha
    have hexec : w.execManager sender call = .ok w' := hexec
    have hopen := execManager_isOpen hexec (hnone sender rfl)
    refine ⟨?_, ?_, ?_, fun e he => he.isOpen hopen⟩
    · rcases execManager_access (hcaller sender rfl).1 hexec with hsame | ⟨access, -, haccess⟩
      · exact hsame
      · exact AccessControl.exec_of_no_role haccess (hnone sender rfl)
    · rcases (execManager_emits (hcaller sender rfl).1 hexec).2 with hsame | ⟨admin, rfl, -⟩
      · exact hsame
      · cases hopen
    · rcases execManager_managerParams hexec with hsame | ⟨setter, rfl, -⟩
      · exact hsame
      · cases hopen
  · have hsame : w'.manager = w.manager :=
      (exec_manager_eq (fun sender call heq => ha ⟨sender, call, heq⟩) hexec).1
    rw [hub, hub, hsame]
    refine ⟨rfl, rfl, rfl, fun e he => ?_⟩
    cases he <;> exact absurd ⟨_, _, rfl⟩ ha

/-- The events of a step, with what they do to the books and what they record. -/
lemma Step.events (h : w.Step a w') :
    ∃ es, w'.log = w.log ++ es ∧ Path (w.StepBy a) w.books es w'.books ∧
      Path USBSManager.Records w.manager.storage es w'.manager.storage := by
  obtain ⟨es, hlog, hpath⟩ := h.emits
  obtain ⟨es', hlog', hpath'⟩ := h.manager_journaled
  obtain rfl : es = es' := List.append_cancel_left (hlog.symm.trans hlog')
  exact ⟨es, hlog, hpath, hpath'⟩

/-- **A step of an outsider.** -/
lemma Confined.step (h : Confined w₀ w) (hpricer : (w₀.pricers w₀.hub.params.pricer).isSome)
    (hstep : w.Step a w') (houtsiders : ∀ caller ∈ a.caller, w₀.Outsider caller) :
    Confined w₀ w' := by
  have hnone : ∀ caller ∈ a.caller, (∀ role, w.hub.access.hasRole role caller = false) ∧
      ∀ role, w.usbs.access.hasRole role caller = false :=
    fun caller hcaller => h.outsider (houtsiders caller hcaller)
  obtain ⟨htokenAccess, hsettings⟩ :=
    hstep.token_confined fun caller hcaller => (hnone caller hcaller).2
  obtain ⟨haccess, hparams, hmanagerParams, hopen⟩ :=
    hstep.hub_confined fun caller hcaller => (hnone caller hcaller).1
  have hprices : w.prices = w₀.prices := by
    obtain ⟨pricer, hsome⟩ := Option.isSome_iff_exists.mp hpricer
    funext priceId
    rw [World.prices, World.prices, RWAHub.prices, RWAHub.prices, askPrice, askPrice, h.params,
      hsome, h.pricers _ _ hsome]
  refine ⟨haccess.trans h.access, hparams.trans h.params, hmanagerParams.trans h.managerParams,
    htokenAccess.trans h.tokenAccess, hsettings.trans h.tokenSettings, ?_, ?_⟩
  · intro address pricer hsome
    refine hstep.pricer_confined (h.pricers address pricer hsome) fun caller hcaller => ?_
    exact (houtsiders caller hcaller).pricers address pricer hsome
  · obtain ⟨es, hlog, hbooks, htimes⟩ := h.events
    obtain ⟨es', hlog', hpath, hrecords⟩ := hstep.events
    have hopens : ∀ e ∈ es', e.isOpen = true :=
      hpath.labels fun b e b' hstepBy => hopen e hstepBy.2
    refine ⟨es ++ es', by rw [hlog', hlog, List.append_assoc], ?_, ?_⟩
    · refine hpath.accumulate hbooks fun es b e b' he hbefore hstepBy => ?_
      exact hbefore.step (hprices ▸ hstepBy.1) (hopens e he)
    · have hstorage : ReleasedTimes w₀ es w.manager.storage := ⟨htimes.timestamps, htimes.minted⟩
      have hafter := hrecords.accumulate hstorage fun es manager e manager' he hbefore hrecord =>
        hbefore.step hrecord (hopens e he)
      exact ⟨hafter.timestamps, hafter.minted⟩

/-- **Outsiders are confined.**  A run in which only accounts without any role make transactions
leaves roles, parameters, settings and prices alone, and settles only what had been priced and, for
mints, timestamped before the run, each entry once and at its price. -/
theorem outsiders_confined (hpricer : (w₀.pricers w₀.hub.params.pricer).isSome)
    (hrun : Run Step w₀ tr w)
    (houtsiders : ∀ t ∈ tr, ∀ caller ∈ t.label.caller, w₀.Outsider caller) :
    Confined w₀ w :=
  (hrun.invariant (P := Confined w₀) (.refl w₀) fun t ht hpre hstep =>
    hpre.step hpricer hstep (houtsiders t ht)).1

end World

namespace Sample

/-- A deposit is priced and may be claimed. -/
def release : List (Action ERC20) := setup ++ [
  .pricer pricerAddress operator (.addPrice 1000000000000000000 999999),
  .manager operator (.addProof 0xABCD customer 50000000 0 999999),
  .manager operator (.setPriceIdForDeposits [0xABCD] [1]),
  .manager operator (.setClaimableTimestamp 1000000 [0xABCD])]

def released : World ERC20 := play World.next world release

/-- The customer claims the deposit, tries to claim it again and to set a price for a redemption. -/
def claim : List (Action ERC20) := [
  .manager customer (.claimMint [0xABCD]),
  .manager customer (.claimMint [0xABCD]),
  .usbs customer (.holder (.approve managerAddress 1000000000000000000000)),
  .manager customer (.requestRedemption 10000000000000000000),
  .manager customer (.setPriceIdForRedemptions [1] [1])]

lemma released_outsider : released.Outsider customer where
  hub role := by cases role <;> rfl
  token role := by cases role <;> rfl
  pricers address pricer hpricer role := by
    by_cases hsame : address = pricerAddress
    · subst hsame
      obtain rfl := Option.some.inj hpricer
      cases role <;> rfl
    · change Function.update (Function.update (fun _ => none) pricerAddress _) pricerAddress _
        address = some pricer at hpricer
      rw [Function.update_of_ne hsame, Function.update_of_ne hsame] at hpricer
      cases hpricer

end Sample

open Sample in
theorem World.outsiders_confined_sample :
    Confined released (play next released claim) := by
  have hcallers : ∀ t ∈ playTrace next released claim,
      t.label.caller.all (· = customer) = true := by decide +kernel
  refine outsiders_confined (by decide +kernel) (run_play (fun _ _ _ => step_of_next) _ _) ?_
  intro t ht caller hcaller
  have hcustomer := hcallers t ht
  rw [Option.mem_def.mp hcaller] at hcustomer
  obtain rfl : caller = customer := by simpa using hcustomer
  exact released_outsider

end BrivoUsbs
