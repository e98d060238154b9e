import BrivoUsbs.Contracts.ReentrancyGuard
import BrivoUsbs.Properties.DepositLedger
import BrivoUsbs.Properties.RedemptionLedger

/-!
# Reentrancy safety

Both ledgers survive a collateral that calls back.  Within one call of an entry point the books are
written before the collateral is called, and the event of the write is logged after it, so the log
is no longer the history of the books: events of the transactions the collateral makes may stand
before the event of a write that came first.  `Accounts` says that there is a history all the same,
which differs from the log by a reordering.  Since the guard keeps the five entry points out of
these transactions, the reordering keeps their events in order, and what the ledgers say of the log
carries over.
-/

namespace BrivoUsbs

/-! ## Histories of the books -/

/-- An event of an entry point with the `nonReentrant` modifier. -/
def HubEvent.isNonReentrant : HubEvent → Bool
  | .mintRequested .. => true
  | .mintCompleted .. => true
  | .redemptionRequested .. => true
  | .redemptionCompleted .. => true
  | .redemptionRequestedServicedOffChain .. => true
  | _ => false

lemma Attributed.isNonReentrant_eq {κ : Type} {a : Action κ} {e : HubEvent}
    (h : Attributed a e) : e.isNonReentrant = a.isNonReentrant := by
  cases h <;> rfl

/-- A step of the books, at whatever prices. -/
def Books.AnyStep (b : Books) (e : HubEvent) (b' : Books) : Prop :=
  ∃ prices, Books.Step prices b e b'

/-- The events of a log in another order, which keeps those of the guarded entry points in order. -/
structure Reordered (history log : List HubEvent) : Prop where
  perm : history.Perm log
  guarded : history.filter HubEvent.isNonReentrant = log.filter HubEvent.isNonReentrant

namespace Reordered

variable {history history' log log' : List HubEvent} {e : HubEvent}

lemma refl (log : List HubEvent) : Reordered log log := ⟨.refl _, rfl⟩

lemma append (h : Reordered history log) (h' : Reordered history' log') :
    Reordered (history ++ history') (log ++ log') where
  perm := h.perm.append h'.perm
  guarded := by rw [List.filter_append, List.filter_append, h.guarded, h'.guarded]

/-- An event may be logged after others that no guarded entry point logs. -/
lemma late (hquiet : ∀ e ∈ log, e.isNonReentrant = false) : Reordered (e :: log) (log ++ [e]) where
  perm := (List.perm_append_singleton e log).symm
  guarded := by
    have hnone : log.filter HubEvent.isNonReentrant = [] :=
      List.filter_eq_nil_iff.mpr fun e he => by simp [hquiet e he]
    rw [List.filter_append, hnone, List.filter_cons, hnone, List.filter_singleton]
    cases e.isNonReentrant <;> rfl

lemma total_eq (h : Reordered history log) (quantity : HubEvent → ℕ) :
    total quantity history = total quantity log :=
  (h.perm.map quantity).sum_eq

/-- What is read off the events of the guarded entry points only is the same in either order. -/
lemma filterMap_eq {β : Type} {f : HubEvent → Option β} (h : Reordered history log)
    (hf : ∀ e, e.isNonReentrant = false → f e = none) :
    history.filterMap f = log.filterMap f := by
  have hguarded : ∀ events : List HubEvent,
      (events.filter HubEvent.isNonReentrant).filterMap f = events.filterMap f := by
    intro events
    rw [List.filterMap_filter]
    refine List.filterMap_congr fun e _ => ?_
    split
    · rfl
    · next hquiet => exact (hf e (by simpa using hquiet)).symm
  rw [← hguarded, h.guarded, hguarded]

lemma issuedRedemptions_eq (h : Reordered history log) :
    issuedRedemptions history = issuedRedemptions log := by
  refine h.filterMap_eq fun e he => ?_
  cases e with
  | redemptionRequested => cases he
  | redemptionRequestedServicedOffChain => cases he
  | _ => rfl

lemma issuedDeposits_eq (h : Reordered history log) :
    issuedDeposits history = issuedDeposits log := by
  refine h.filterMap_eq fun e he => ?_
  cases e with
  | mintRequested => cases he
  | _ => rfl

end Reordered

namespace Guarded

variable {κ : Type} {g g' g'' : Guarded κ} {a : Action κ} {as : List (Action κ)} {depth : ℕ}

/-- `g'` is `g` after events whose history leads from the one's books to the other's. -/
def Accounts (g g' : Guarded κ) : Prop :=
  ∃ history es, g'.world.log = g.world.log ++ es ∧ Reordered history es ∧
    Path Books.AnyStep g.world.books history g'.world.books

lemma Accounts.refl (g : Guarded κ) : Accounts g g := ⟨[], [], by simp, .refl _, .nil⟩

lemma Accounts.trans (h : Accounts g g') (h' : Accounts g' g'') : Accounts g g'' := by
  obtain ⟨history, es, hlog, hreordered, hpath⟩ := h
  obtain ⟨history', es', hlog', hreordered', hpath'⟩ := h'
  exact ⟨history ++ history', es ++ es', by rw [hlog', hlog, List.append_assoc],
    hreordered.append hreordered', hpath.append hpath'⟩

/-- `g'` is `g` after events that lead from the one's books to the other's, none of them of a
guarded entry point, and the guard is as it was. -/
def Quiet (g g' : Guarded κ) : Prop :=
  ∃ es, g'.world.log = g.world.log ++ es ∧ (∀ e ∈ es, e.isNonReentrant = false) ∧
    Path Books.AnyStep g.world.books es g'.world.books ∧ g'.status = g.status

lemma Quiet.refl (g : Guarded κ) : Quiet g g := ⟨[], by simp, by simp, .nil, rfl⟩

lemma Quiet.trans (h : Quiet g g') (h' : Quiet g' g'') : Quiet g g'' := by
  obtain ⟨es, hlog, hquiet, hpath, hstatus⟩ := h
  obtain ⟨es', hlog', hquiet', hpath', hstatus'⟩ := h'
  refine ⟨es ++ es', by rw [hlog', hlog, List.append_assoc], fun e he => ?_, hpath.append hpath',
    hstatus'.trans hstatus⟩
  rcases List.mem_append.mp he with hmem | hmem
  · exact hquiet e hmem
  · exact hquiet' e hmem

lemma Quiet.status (h : Quiet g g') (hstatus : g.status = entered) : g'.status = entered := by
  obtain ⟨-, -, -, -, hsame⟩ := h
  exact hsame.trans hstatus

lemma Quiet.accounts (h : Quiet g g') : Accounts g g' := by
  obtain ⟨es, hlog, -, hpath, -⟩ := h
  exact ⟨es, es, hlog, .refl _, hpath⟩

/-- A write, quiet transactions, and then the event of the write. -/
lemma Quiet.accounts_late {written : Guarded κ} {e : HubEvent} (h : Quiet written g')
    (hstep : Books.AnyStep g.world.books e written.world.books)
    (hlog : written.world.log = g.world.log) : Accounts g (g'.emit e) := by
  obtain ⟨es, hes, hquiet, hpath, -⟩ := h
  refine ⟨e :: es, es ++ [e], ?_, .late hquiet, (Path.single hstep).append hpath⟩
  simp only [emit, withHub, World.log, World.hub] at hes hlog ⊢
  rw [hes, hlog, List.append_assoc]

/-! ## What one transaction does -/

lemma openSubscription_spec {sender : Address} {amount : Uint256} {hub : RWAHub}
    {subscription : RWAHub.Subscription} (hsender : sender ≠ 0)
    (h : g.world.hub.openSubscription sender g.checkRestrictions amount =
      .ok (hub, subscription)) :
    hub.log = g.world.log ∧
      Books.AnyStep g.world.books (subscription.event sender amount) hub.books := by
  simp only [RWAHub.openSubscription, bind_eq_ok, revertIf_eq_ok, pure_eq_ok, checkedSub_eq_ok,
    checkedAdd_eq_ok, Prod.mk.injEq, exists_const] at h
  obtain ⟨-, _, -, -, fee, -, after, hafter, next, hnext, rfl, rfl⟩ := h
  exact ⟨rfl, g.world.prices, .mintRequested hsender hnext hafter⟩

lemma closeRedemption_spec {id : Bytes32} {fees : Uint256} {hub : RWAHub}
    {claimed : RWAHub.ClaimedRedemption}
    (h : g.world.hub.closeRedemption g.world.pricers g.checkRestrictions id fees =
      .ok (hub, claimed)) :
    hub.log = g.world.log ∧
      Books.AnyStep g.world.books (claimed.event id) hub.books := by
  simp only [RWAHub.closeRedemption, bind_eq_ok, revertIf_eq_ok, pure_eq_ok, checkedSub_eq_ok,
    checkedAdd_eq_ok, Prod.mk.injEq, exists_const] at h
  obtain ⟨_, -, hset, price, hprice, due, hdue, fee, -, net, hnet, fees, -, rfl, rfl⟩ := h
  obtain ⟨hmultiplier, hdue⟩ := RWAHub.getRedemptionAmountForRwa_eq_ok hdue
  rw [hdue] at hnet
  exact ⟨rfl, g.world.prices, .redemptionCompleted hset hprice hmultiplier hnet⟩

variable [IERC20 κ]

lemma body_of_unguarded {step : Guarded κ → Action κ → Guarded κ → Prop}
    (ha : a.isNonReentrant = false) (h : Body step g a g') :
    g.world.exec a = .ok g'.world ∧ g'.status = g.status := by
  cases a with
  | manager sender call =>
      cases call with
      | requestSubscription amount => cases ha
      | claimRedemption ids => cases ha
      | _ => exact h
  | _ => exact h

/-- A transaction outside the guarded entry points is one of the plain system. -/
lemma stepAt_quiet (ha : a.isNonReentrant = false) (h : StepAt depth g a g') :
    g.world.Step a g'.world ∧ Quiet g g' := by
  cases depth with
  | zero => exact h.elim
  | succ depth =>
      obtain ⟨hcaller, hbody⟩ := h
      rw [ha, if_neg Bool.false_ne_true] at hbody
      obtain ⟨hexec, hstatus⟩ := body_of_unguarded ha hbody
      have hstep : g.world.Step a g'.world := ⟨hcaller, hexec⟩
      obtain ⟨es, hlog, hpath⟩ := hstep.emits
      refine ⟨hstep, es, hlog, fun e he => ?_, hpath.mono fun b e b' hemit => ⟨_, hemit.1⟩,
        hstatus⟩
      have hlabel := hpath.labels (Q := fun e => e.isNonReentrant = false) fun b e b' hemit =>
        hemit.2.isNonReentrant_eq.trans ha
      exact hlabel e he

/-- **The guard.**  While it is closed no guarded entry point takes a step. -/
lemma stepAt_entered (hstatus : g.status = entered) (h : StepAt depth g a g') :
    a.isNonReentrant = false := by
  cases depth with
  | zero => exact h.elim
  | succ depth =>
      by_contra hguarded
      rw [Bool.not_eq_false] at hguarded
      obtain ⟨-, hbody⟩ := h
      rw [if_pos hguarded] at hbody
      exact hbody.1 hstatus

/-- Whatever transactions are made while the guard is closed, they are quiet. -/
lemma path_quiet (hstatus : g.status = entered) (h : Path (StepAt depth) g as g') : Quiet g g' := by
  induction h with
  | nil => exact .refl g
  | snoc _ hlast ih =>
      exact ih.trans (stepAt_quiet (stepAt_entered (ih.status hstatus) hlast) hlast).2

lemma transfers_quiet {source dest : Address} {value : Uint256} (hstatus : g.status = entered)
    (h : Transfers (StepAt depth) source dest value g g') : Quiet g g' := by
  obtain ⟨before, after, mid, token, hbefore, -, hafter⟩ := h
  have hmid := path_quiet hstatus hbefore
  have hmoved : Quiet mid (mid.withCollateral token) :=
    ⟨[], by simp [withCollateral], by simp, .nil, rfl⟩
  exact hmid.trans (hmoved.trans (path_quiet (hmoved.status (hmid.status hstatus)) hafter))

lemma transfersFees_quiet {source : Address} {fees : Uint256} (hstatus : g.status = entered)
    (h : TransfersFees (StepAt depth) source fees g g') : Quiet g g' := by
  unfold TransfersFees at h
  split at h
  · exact transfers_quiet hstatus h
  · subst h
    exact .refl _

/-- The loop of `claimRedemption` accounts for what it does, entry by entry. -/
lemma settles_accounts {ids : List Bytes32} {fees fees' : Uint256} (hstatus : g.status = entered)
    (h : Settles (StepAt depth) ids fees g fees' g') : Accounts g g' ∧ g'.status = entered := by
  induction h with
  | nil => exact ⟨.refl _, hstatus⟩
  | @cons id ids fees fees' g paid g' hub claimed hclose hpay hrest ih =>
      obtain ⟨hlog, hstep⟩ := closeRedemption_spec hclose
      have hquiet : Quiet (g.withHub hub) paid := transfers_quiet hstatus hpay
      obtain ⟨haccounts, hleft⟩ := ih (hquiet.status hstatus)
      exact ⟨(hquiet.accounts_late hstep hlog).trans haccounts, hleft⟩

/-- An action of the plain system accounts for what it does, in the order of its log. -/
lemma accounts_of_step (h : g.world.Step a g'.world) : Accounts g g' := by
  obtain ⟨es, hlog, hpath⟩ := h.emits
  exact ⟨es, es, hlog, .refl _, hpath.mono fun b e b' hemit => ⟨_, hemit.1⟩⟩

/-- The body of a guarded entry point accounts for what it does. -/
lemma body_accounts (hcaller : ∀ caller ∈ a.caller, caller ≠ 0 ∧ caller ≠ g.world.self)
    (hstatus : g.status = entered) (h : Body (StepAt depth) g a g') : Accounts g g' := by
  have hplain : g.world.exec a = .ok g'.world ∧ g'.status = g.status → Accounts g g' :=
    fun h => accounts_of_step ⟨hcaller, h.1⟩
  cases a with
  | manager sender call =>
      cases call with
      | requestSubscription amount =>
          obtain ⟨hub, subscription, paidFees, paid, hopen, hfees, hpay, rfl⟩ := h
          obtain ⟨hlog, hstep⟩ := openSubscription_spec (hcaller sender rfl).1 hopen
          have hquiet : Quiet (g.withHub hub) paidFees := transfersFees_quiet hstatus hfees
          have hquiet' : Quiet paidFees paid := transfers_quiet (hquiet.status hstatus) hpay
          exact (hquiet.trans hquiet').accounts_late hstep hlog
      | claimRedemption ids =>
          obtain ⟨-, fees, settled, hsettles, hfees⟩ := h
          obtain ⟨haccounts, hstill⟩ := settles_accounts hstatus hsettles
          exact haccounts.trans (transfersFees_quiet hstill hfees).accounts
      | _ => exact hplain h
  | _ => exact hplain h

/-- **One transaction accounts for what it does**, however the collateral calls back, and leaves
the guard open. -/
lemma Step.accounts (hstatus : g.status = notEntered) (h : Step g a g') :
    Accounts g g' ∧ g'.status = notEntered := by
  obtain ⟨depth, h⟩ := h
  cases depth with
  | zero => exact h.elim
  | succ depth =>
      by_cases hguarded : a.isNonReentrant = true
      · obtain ⟨hcaller, hbody⟩ := h
        rw [if_pos hguarded] at hbody
        obtain ⟨-, left, hleft, rfl⟩ := hbody
        exact ⟨@body_accounts _ ⟨g.world, entered⟩ left _ _ _ hcaller rfl hleft, rfl⟩
      · rw [Bool.not_eq_true] at hguarded
        obtain ⟨-, hquiet⟩ := stepAt_quiet hguarded h
        obtain ⟨-, -, -, -, hsame⟩ := id hquiet
        exact ⟨hquiet.accounts, hsame.trans hstatus⟩

/-! ## Runs -/

variable {w₀ : World κ} {tr : List (Transition (Guarded κ) (Action κ))}

/-- Between transactions the guard is open, and the run so far is accounted for. -/
lemma run_accounts (hrun : Run Step ⟨w₀, notEntered⟩ tr g) :
    Accounts ⟨w₀, notEntered⟩ g ∧ g.status = notEntered := by
  refine (hrun.invariant (P := fun g => Accounts ⟨w₀, notEntered⟩ g ∧ g.status = notEntered)
    ⟨.refl _, rfl⟩ fun t _ hpre hstep => ?_).1
  obtain ⟨haccounts, hstatus⟩ := hpre
  obtain ⟨haccounts', hstatus'⟩ := Step.accounts hstatus hstep
  exact ⟨haccounts.trans haccounts', hstatus'⟩

/-- The log of a run of a fresh manager is a reordering of a history of its books. -/
lemma exists_history (hfresh : w₀.Fresh) (hrun : Run Step ⟨w₀, notEntered⟩ tr g) :
    ∃ history, Reordered history g.world.log ∧
      Path Books.AnyStep (Books.initial w₀.hub.decimalsMultiplier) history g.world.books := by
  obtain ⟨⟨history, es, hlog, hreordered, hpath⟩, -⟩ := run_accounts hrun
  have hstart : Path (World.Replays []) w₀.books w₀.log w₀.books := hfresh.replay_nil
  refine ⟨w₀.log ++ history, ?_, ?_⟩
  · rw [hlog]
    exact (Reordered.refl _).append hreordered
  · rw [← hfresh.books]
    exact (hstart.mono fun b e b' => World.Replays.step).append hpath

end Guarded

/-! ## The redemption ledger -/

/-- `RedeemerOverwritten` -/
def HubEvent.isRedeemerOverwritten : HubEvent → Bool
  | .redeemerOverwritten .. => true
  | _ => false

/-- What a log and the redemptions at its end have to do with each other. -/
structure RedemptionsSound (log : List HubEvent) (b : Books) : Prop where
  /-- The ids issued, in the order of the log, are `1, 2, …, n`. -/
  consecutive : ∃ n, (issuedRedemptions log).map BitVec.toNat = List.range' 1 n
  /-- The RWA requests are for is what the table holds plus what was settled. -/
  conserved : total HubEvent.requestedAmount log =
    ∑ id, (b.redemptions id).amountRwaTokenBurned.toNat + total HubEvent.completedAmount log
  /-- An id is settled for a user at most once, and for no user if it is one serviced off chain. -/
  once : ∀ id, log.countP (HubEvent.settlesRedemption id) + (offChainRedemptions log).count id ≤ 1

/-- A history without overwritten redemptions is one of the ledger. -/
lemma redemptions_of_history {multiplier : Uint256} {history : List HubEvent} {b : Books}
    (hpath : Path Books.AnyStep (Books.initial multiplier) history b)
    (hno : ∀ e ∈ history, e.isRedeemerOverwritten = false) :
    RedemptionsRecorded history b ∧
      Path Ledger.Step (fun _ => none) (history.map HubEvent.redemption) b.redemptionLedger ∧
      ∀ e ∈ history, e.completedAmount = e.redemption.settledWeight Ledger.byAmount := by
  induction hpath with
  | nil => exact ⟨.initial _, .nil, by simp⟩
  | snoc _ hlast ih =>
      obtain ⟨hrecorded, hledger, hamounts⟩ := ih fun e he => hno e (List.mem_append_left _ he)
      obtain ⟨prices, hstep⟩ := hlast
      have hother := hno _ (List.mem_append_right _ (List.mem_singleton.mpr rfl))
      obtain ⟨hrecorded', hledger'⟩ := hrecorded.step hstep fun id u u' p p' a a' heq => by
        rw [heq] at hother
        cases hother
      rw [List.map_append]
      refine ⟨hrecorded', .snoc hledger hledger', fun e he => ?_⟩
      rcases List.mem_append.mp he with hmem | hmem
      · exact hamounts e hmem
      · obtain rfl := List.mem_singleton.mp hmem
        exact hrecorded.completedAmount_eq hstep

/-- Soundness does not depend on the order of the log. -/
lemma RedemptionsSound.of_history {multiplier : Uint256} {history log : List HubEvent} {b : Books}
    (hreordered : Reordered history log)
    (hpath : Path Books.AnyStep (Books.initial multiplier) history b)
    (hno : ∀ e ∈ log, e.isRedeemerOverwritten = false) : RedemptionsSound log b := by
  obtain ⟨hrecorded, hledger, hamounts⟩ :=
    redemptions_of_history hpath fun e he => hno e (hreordered.perm.subset he)
  have hopened : history.map ((Ledger.Event.openedWeight Ledger.byAmount) ∘ HubEvent.redemption) =
      history.map HubEvent.requestedAmount := by
    refine List.map_congr_left fun e _ => ?_
    cases e with
    | redemptionCompleted user =>
        by_cases huser : user = 0
        · rw [Function.comp_apply, HubEvent.redemption_of_null huser]
          rfl
        · rw [Function.comp_apply, HubEvent.redemption_of_user huser]
          rfl
    | _ => rfl
  have hsettled : history.map ((Ledger.Event.settledWeight Ledger.byAmount) ∘ HubEvent.redemption) =
      history.map HubEvent.completedAmount :=
    List.map_congr_left fun e he => (hamounts e he).symm
  constructor
  · rw [← hreordered.issuedRedemptions_eq]
    exact ⟨_, hrecorded.issued.ids⟩
  · have hsum := Ledger.conservation Ledger.byAmount hledger
    rw [List.map_map, List.map_map, hopened, hsettled,
      World.outstanding_redemptionLedger hrecorded] at hsum
    rw [← hreordered.total_eq, ← hreordered.total_eq]
    exact hsum.symm
  · intro id
    have hopens := Ledger.countP_opens id hledger
    rw [countP_opens_redemption, countP_settles_redemption] at hopens
    have hissued := count_issuedRedemptions history id
    have honce := List.nodup_iff_count_le_one.mp hrecorded.issued.nodup id
    have hoffChain : (offChainRedemptions history).count id = (offChainRedemptions log).count id :=
      (hreordered.perm.filterMap _).count_eq id
    rw [← hreordered.perm.countP_eq, ← hoffChain]
    omega

/-! ## The deposit ledger -/

namespace HubEvent

/-- `DepositorOverwritten` -/
def isDepositorOverwritten : HubEvent → Bool
  | .depositorOverwritten .. => true
  | _ => false

/-- The proof an event adds: the transaction hash and the user. -/
def addedProof : HubEvent → Option (Bytes32 × Address)
  | .depositProofAdded txHash user _ _ _ => some (txHash, user)
  | _ => none

/-- The event opens a deposit under the id. -/
def opensDeposit (id : Bytes32) : HubEvent → Bool
  | .mintRequested _ i _ _ _ => i = id
  | .depositProofAdded txHash _ _ _ _ => txHash = id
  | _ => false

end HubEvent

/-- What a log and the deposits at its end have to do with each other. -/
structure DepositsSound (log : List HubEvent) (b : Books) : Prop where
  /-- The ids issued, in the order of the log, are `1, 2, …, n`. -/
  consecutive : ∃ n, (issuedDeposits log).map BitVec.toNat = List.range' 1 n
  /-- What was accepted is what the live entries hold plus what mints were completed for. -/
  conserved : total HubEvent.acceptedAmount log =
    ∑ id, World.liveAmount (b.deposits id) + total HubEvent.mintedForAmount log
  /-- A deposit is minted for as often as it was opened, less one while it is live. -/
  once : ∀ id, log.countP (HubEvent.opensDeposit id) =
    log.countP (HubEvent.completesMint id) + if (b.deposits id).user = 0 then 0 else 1

/-- A history without overwritten deposits is one of the ledger, if each proof in it names a user
and a hash that it does not issue. -/
lemma deposits_of_history {multiplier : Uint256} {history : List HubEvent} {b : Books}
    {ids : List Bytes32} (hpath : Path Books.AnyStep (Books.initial multiplier) history b)
    (hno : ∀ e ∈ history, e.isDepositorOverwritten = false)
    (hids : issuedDeposits history ⊆ ids)
    (hproofs : ∀ proof ∈ history.filterMap HubEvent.addedProof, proof.2 ≠ 0 ∧ proof.1 ∉ ids) :
    DepositsRecorded history b ∧
      Path Ledger.Step (fun _ => none) (history.map HubEvent.deposit) b.depositLedger := by
  induction hpath with
  | nil => exact ⟨.initial _, .nil⟩
  | @snoc history b b' e _ hlast ih =>
      rw [issuedDeposits_append] at hids
      rw [List.filterMap_append] at hproofs
      obtain ⟨hrecorded, hledger⟩ := ih (fun e he => hno e (List.mem_append_left _ he))
        (fun id hid => hids (List.mem_append_left _ hid))
        (fun proof hproof => hproofs proof (List.mem_append_left _ hproof))
      obtain ⟨prices, hstep⟩ := hlast
      have hother := hno _ (List.mem_append_right _ (List.mem_singleton.mpr rfl))
      have hproven : ∀ id ∈ provenDeposits history, id ∉ ids := by
        intro id hid
        obtain ⟨proof, hproof, hhash⟩ := List.mem_filterMap.mp hid
        cases proof with
        | depositProofAdded txHash user after fee timestamp =>
            obtain rfl := Option.some.inj hhash
            exact (hproofs (txHash, user) (List.mem_append_left _
              (List.mem_filterMap.mpr ⟨_, hproof, rfl⟩))).2
        | _ => cases hhash
      obtain ⟨hrecorded', hledger'⟩ := hrecorded.step hstep
        (fun id u u' p p' a a' heq => by
          rw [heq] at hother
          cases hother)
        (fun id user after fee timestamp heq => by
          refine (hproofs (id, user) (List.mem_append_right _ ?_)).1
          rw [heq]
          exact List.mem_singleton.mpr rfl)
        (fun id hid hmem => hproven id hmem (hids (List.mem_append_right _ hid)))
      rw [List.map_append]
      exact ⟨hrecorded', .snoc hledger hledger'⟩

lemma countP_opens_deposit (log : List HubEvent) (id : Bytes32) :
    (log.map HubEvent.deposit).countP (Ledger.Event.opens id) =
      log.countP (HubEvent.opensDeposit id) := by
  rw [List.countP_map]
  refine List.countP_congr fun e _ => ?_
  cases e <;> simp [HubEvent.deposit, HubEvent.opensDeposit, Ledger.Event.opens]

lemma countP_settles_deposit (log : List HubEvent) (id : Bytes32) :
    (log.map HubEvent.deposit).countP (Ledger.Event.settles id) =
      log.countP (HubEvent.completesMint id) := by
  rw [List.countP_map]
  refine List.countP_congr fun e _ => ?_
  cases e <;> simp [HubEvent.deposit, HubEvent.completesMint, Ledger.Event.settles]

lemma DepositsSound.of_history {multiplier : Uint256} {history log : List HubEvent} {b : Books}
    (hreordered : Reordered history log)
    (hpath : Path Books.AnyStep (Books.initial multiplier) history b)
    (hno : ∀ e ∈ log, e.isDepositorOverwritten = false)
    (hproofs : ∀ proof ∈ log.filterMap HubEvent.addedProof,
      proof.2 ≠ 0 ∧ proof.1 ∉ issuedDeposits log) : DepositsSound log b := by
  have hids := hreordered.issuedDeposits_eq
  have hissued : issuedDeposits history ⊆ issuedDeposits log := by
    rw [hids]
    exact List.Subset.refl _
  obtain ⟨hrecorded, hledger⟩ := deposits_of_history hpath
    (fun e he => hno e (hreordered.perm.subset he)) hissued
    (fun proof hproof => hproofs proof ((hreordered.perm.filterMap _).subset hproof))
  have hopened : (Ledger.Event.openedWeight Ledger.byAmount) ∘ HubEvent.deposit =
      HubEvent.acceptedAmount := by
    funext e
    cases e <;> rfl
  have hsettled : (Ledger.Event.settledWeight Ledger.byAmount) ∘ HubEvent.deposit =
      HubEvent.mintedForAmount := by
    funext e
    cases e <;> rfl
  have houtstanding : Ledger.outstanding Ledger.byAmount b.depositLedger =
      ∑ id, World.liveAmount (b.deposits id) :=
    Finset.sum_congr rfl fun id _ => World.slotWeight_claim id _
  constructor
  · rw [← hids]
    exact ⟨_, hrecorded.issued.ids⟩
  · have hsum := Ledger.conservation Ledger.byAmount hledger
    rw [List.map_map, List.map_map, hopened, hsettled, houtstanding] at hsum
    rw [← hreordered.total_eq, ← hreordered.total_eq]
    exact hsum.symm
  · intro id
    have hopens := Ledger.countP_opens id hledger
    rw [countP_opens_deposit, countP_settles_deposit, hreordered.perm.countP_eq,
      hreordered.perm.countP_eq] at hopens
    rw [hopens]
    unfold Books.depositLedger Depositor.claim
    split <;> rfl

/-! ## The plain system

A transaction of the plain system is one during which the collateral makes no transactions. -/

namespace RWAHub

variable {κ : Type} [IERC20 κ] {hub : RWAHub} {token : κ} {self sender : Address}
  {check : Address → Tx Error Unit} {pricers : Address → Option Pricer}

/-- The pieces of `requestSubscription` make up the function. -/
lemma requestSubscription_eq {amount : Uint256} :
    hub.requestSubscription token self sender check amount =
      hub.openSubscription sender check amount >>= fun opened =>
        opened.1.transferFees token self sender opened.2.feesInCollateral >>= fun token =>
          safeTransferFrom token self sender assetRecipient opened.2.depositAmountAfterFee >>=
            fun token => pure ({ opened.1 with
              log := opened.1.log ++ [opened.2.event sender amount] }, token) := by
  simp only [requestSubscription, openSubscription, bind_assoc, pure_bind]
  rfl

/-- The pieces of the loop body of `claimRedemption` make up the body. -/
lemma claimRedemptionEntry_eq_bind {batch : RedemptionBatch κ} {id : Bytes32} :
    claimRedemptionEntry pricers self check batch id =
      batch.hub.closeRedemption pricers check id batch.fees >>= fun closed =>
        safeTransferFrom batch.token self closed.1.params.assetSender closed.2.member.user
            closed.2.collateralDuePostFees >>=
          fun token => pure ⟨{ closed.1 with log := closed.1.log ++ [closed.2.event id] }, token,
            closed.2.fees⟩ := by
  simp only [claimRedemptionEntry, closeRedemption, bind_assoc, pure_bind]
  rfl

end RWAHub

namespace Guarded

variable {κ : Type} [IERC20 κ] {w w' w'' : World κ} {a : Action κ} {as : List (Action κ)}
  {step : Guarded κ → Action κ → Guarded κ → Prop} {g : Guarded κ} {sender : Address}

/-- The collateral may do nothing but move the tokens. -/
lemma transfers_of_transferFrom {source dest : Address} {value : Uint256} {token : κ}
    (h : safeTransferFrom g.world.collateral g.world.self source dest value = .ok token) :
    Transfers step source dest value g (g.withCollateral token) :=
  ⟨[], [], g, token, .nil, h, .nil⟩

lemma transfersFees_of_transferFees {source : Address} {fees : Uint256} {token : κ}
    (h : g.world.hub.transferFees g.world.collateral g.world.self source fees = .ok token) :
    TransfersFees step source fees g (g.withCollateral token) := by
  unfold RWAHub.transferFees at h
  unfold TransfersFees
  split at h
  · next hpos =>
      rw [if_pos hpos]
      exact transfers_of_transferFrom h
  · next hzero =>
      rw [if_neg hzero]
      cases h
      rfl

/-- The world `w` with the log of another. -/
def relog (w other : World κ) : World κ :=
  { w with manager := { w.manager with hub := { w.hub with log := other.log } } }

/-- A transaction outside the guarded entry points runs whether the guard is closed or not. -/
lemma stepAt_of_unguarded {status : Uint256} (ha : a.isNonReentrant = false) (h : w.Step a w') :
    StepAt 1 ⟨w, status⟩ a ⟨w', status⟩ := by
  obtain ⟨hcaller, hexec⟩ := h
  refine ⟨hcaller, ?_⟩
  rw [ha, if_neg Bool.false_ne_true]
  cases a with
  | manager sender call =>
      cases call with
      | requestSubscription amount => cases ha
      | claimRedemption ids => cases ha
      | _ => exact ⟨hexec, rfl⟩
  | _ => exact ⟨hexec, rfl⟩

lemma path_of_unguarded {status : Uint256} (hguard : ∀ a ∈ as, a.isNonReentrant = false)
    (h : Path World.Step w as w') : Path (StepAt 1) ⟨w, status⟩ as ⟨w', status⟩ := by
  induction h with
  | nil => exact .nil
  | snoc _ hlast ih =>
      refine .snoc (ih fun a ha => hguard a (List.mem_append_left _ ha)) ?_
      exact stepAt_of_unguarded (hguard _ (by simp)) hlast

/-- A subscription during which the collateral makes some transactions after it has moved the
tokens: they see its deposit, and precede its event. -/
lemma step_requestSubscription {amount : Uint256} {e : HubEvent}
    (h : w.Step (.manager sender (.requestSubscription amount)) w')
    (hlog : w'.log = w.log ++ [e]) (hpath : Path World.Step (relog w' w) as w'')
    (hguard : ∀ a ∈ as, a.isNonReentrant = false) :
    Step ⟨w, notEntered⟩ (.manager sender (.requestSubscription amount))
      ((⟨w'', notEntered⟩ : Guarded κ).emit e) := by
  obtain ⟨hcaller, hexec⟩ := h
  simp only [World.exec, World.execManager, RWAHub.requestSubscription_eq, bind_eq_ok, pure_eq_ok,
    Prod.exists, Prod.mk.injEq] at hexec
  obtain ⟨_, _, ⟨hub, subscription, hopen, paidFees, hfees, paid, hpay, rfl, rfl⟩, rfl⟩ := hexec
  have hsame : hub.log = w.log := by
    simp only [RWAHub.openSubscription, bind_eq_ok, pure_eq_ok, Prod.mk.injEq] at hopen
    obtain ⟨_, -, _, -, _, -, _, -, _, -, _, -, rfl, -⟩ := hopen
    rfl
  obtain rfl : subscription.event sender amount = e := by
    simp only [World.log, World.hub, hsame] at hlog
    exact (List.cons.inj (List.append_cancel_left hlog)).1
  have hguarded : (Action.manager sender (.requestSubscription amount) :
      Action κ).isNonReentrant = true := rfl
  refine ⟨2, hcaller, ?_⟩
  rw [if_pos hguarded]
  refine ⟨(by decide : notEntered ≠ entered), (⟨w'', entered⟩ : Guarded κ).emit _, ?_, rfl⟩
  refine ⟨hub, subscription, ((⟨w, entered⟩ : Guarded κ).withHub hub).withCollateral paidFees,
    ⟨w'', entered⟩, hopen, transfersFees_of_transferFees hfees, ?_, rfl⟩
  refine ⟨[], as, _, paid, .nil, hpay, ?_⟩
  have hcallback := @path_of_unguarded _ _ _ _ _ entered hguard hpath
  have hstart : relog { w with
      manager := { w.manager with
        hub := { hub with log := hub.log ++ [subscription.event sender amount] } }
      collateral := paid } w =
      ((((⟨w, entered⟩ : Guarded κ).withHub hub).withCollateral paidFees).withCollateral
        paid).world := by
    simp only [relog, withHub, withCollateral, ← hsame]
  rw [hstart] at hcallback
  exact hcallback

/-- A claim of one redemption without fees, during which the collateral makes some transactions
after it has paid out: they see the entry emptied, and precede its event. -/
lemma step_claimRedemption {id : Bytes32} {hub : RWAHub} {claimed : RWAHub.ClaimedRedemption}
    {token : κ} (hcaller : sender ≠ 0 ∧ sender ≠ w.self)
    (hpaused : w.hub.params.redemptionPaused = false)
    (hclose : w.hub.closeRedemption w.pricers (w.manager.checkRestrictions w.lists) id 0 =
      .ok (hub, claimed))
    (hpay : safeTransferFrom w.collateral w.self hub.params.assetSender claimed.member.user
      claimed.collateralDuePostFees = .ok token) (hfees : claimed.fees = 0)
    (hpath : Path World.Step
      { w with manager := { w.manager with hub := hub }, collateral := token } as w')
    (hguard : ∀ a ∈ as, a.isNonReentrant = false) :
    Step ⟨w, notEntered⟩ (.manager sender (.claimRedemption [id]))
      ((⟨w', notEntered⟩ : Guarded κ).emit (claimed.event id)) := by
  have hguarded : (Action.manager sender (.claimRedemption [id]) :
      Action κ).isNonReentrant = true := rfl
  refine ⟨2, fun caller hmem => Option.some.inj hmem ▸ hcaller, ?_⟩
  rw [if_pos hguarded]
  refine ⟨(by decide : notEntered ≠ entered), (⟨w', entered⟩ : Guarded κ).emit _, ?_, rfl⟩
  refine ⟨hpaused, claimed.fees, (⟨w', entered⟩ : Guarded κ).emit _, .cons hclose ?_ .nil, ?_⟩
  · exact ⟨[], as, _, token, .nil, hpay, path_of_unguarded hguard hpath⟩
  · rw [hfees, TransfersFees, if_neg (by decide)]

/-- The loop of `claimRedemption` in the plain system. -/
lemma settles_of_foldlM {ids : List Bytes32} {batch : RWAHub.RedemptionBatch κ} {hub : RWAHub}
    {token : κ} {fees : Uint256}
    (h : ids.foldlM (RWAHub.claimRedemptionEntry w.pricers w.self
      (w.manager.checkRestrictions w.lists)) ⟨hub, token, fees⟩ = .ok batch) :
    Settles step ids fees (((⟨w, entered⟩ : Guarded κ).withHub hub).withCollateral token) batch.fees
      (((⟨w, entered⟩ : Guarded κ).withHub batch.hub).withCollateral batch.token) := by
  induction ids generalizing hub token fees with
  | nil =>
      simp only [List.foldlM_nil, pure_eq_ok] at h
      subst h
      exact .nil
  | cons id ids ih =>
      simp only [List.foldlM_cons, RWAHub.claimRedemptionEntry_eq_bind, bind_eq_ok, pure_eq_ok,
        Prod.exists] at h
      obtain ⟨_, ⟨closed, claimed, hclose, paid, hpay, rfl⟩, hrest⟩ := h
      exact .cons hclose (transfers_of_transferFrom hpay) (ih hrest)

/-- **The plain system is part of this one**: each of its transactions is one during which the
collateral makes none. -/
theorem step_of_world (h : w.Step a w') : Step ⟨w, notEntered⟩ a ⟨w', notEntered⟩ := by
  by_cases hguarded : a.isNonReentrant = true
  · obtain ⟨hcaller, hexec⟩ := id h
    have hplain : Body (StepAt 0) ⟨w, entered⟩ a ⟨w', entered⟩ →
        Step ⟨w, notEntered⟩ a ⟨w', notEntered⟩ := by
      intro hbody
      refine ⟨1, hcaller, ?_⟩
      rw [if_pos hguarded]
      exact ⟨(by decide : notEntered ≠ entered), _, hbody, rfl⟩
    cases a with
    | manager sender call =>
        cases call with
        | requestSubscription amount =>
            obtain ⟨after, fee, hlog, -⟩ := World.step_requestSubscription h
            have hquiet : Path World.Step (relog w' w) [] (relog w' w) := .nil
            have hstep := step_requestSubscription h hlog hquiet (by simp)
            have hsame : (⟨relog w' w, notEntered⟩ : Guarded κ).emit (.mintRequested sender
                w.hub.subscriptionRequestCounter amount after fee) = ⟨w', notEntered⟩ := by
              simp only [relog, emit, withHub, World.hub] at hlog ⊢
              rw [← hlog]
            rw [hsame] at hstep
            exact hstep
        | claimRedemption ids =>
            apply hplain
            simp only [World.exec, World.execManager, RWAHub.claimRedemption, bind_eq_ok,
              revertIf_eq_ok, pure_eq_ok, exists_const, Prod.exists, Prod.mk.injEq] at hexec
            obtain ⟨_, _, ⟨hpaused, batch, hloop, paid, hfees, rfl, rfl⟩, rfl⟩ := hexec
            exact ⟨by simpa using hpaused, batch.fees, _, settles_of_foldlM hloop,
              transfersFees_of_transferFees hfees⟩
        | _ => exact hplain ⟨hexec, rfl⟩
    | _ => cases hguarded
  · exact ⟨1, stepAt_of_unguarded (by simpa using hguarded) h⟩

end Guarded

/-! ## Sample callbacks -/

namespace Sample

open Guarded (notEntered)

/-- The run of some transactions during which the collateral makes none. -/
def quietTrace (actions : List (Action ERC20)) :
    List (Transition (Guarded ERC20) (Action ERC20)) :=
  (playTrace World.next world actions).map
    fun t => ⟨⟨t.pre, notEntered⟩, t.label, ⟨t.post, notEntered⟩⟩

lemma run_quietTrace (actions : List (Action ERC20)) :
    Run Guarded.Step ⟨world, notEntered⟩ (quietTrace actions)
      ⟨play World.next world actions, notEntered⟩ := by
  have hrun : Run World.Step world (playTrace World.next world actions)
      (play World.next world actions) := run_play (fun _ _ _ => World.step_of_next) _ _
  exact hrun.map (f := fun w => (⟨w, notEntered⟩ : Guarded ERC20)) (g := Transition.label)
    fun _ => Guarded.step_of_world

/-- The subscription the collateral calls back from. -/
def subscribe : Action ERC20 := .manager customer (.requestSubscription 100000000)

/-- The transactions the collateral makes meanwhile: one of them prices the new deposit. -/
def callback : List (Action ERC20) := [
  .manager operator (.setPriceIdForDeposits [1] [1]),
  .manager operator (.addProof 0xABCD customer 50000000 0 999999)]

def beforeSubscription : World ERC20 := play World.next world setup

def afterSubscription : World ERC20 :=
  (beforeSubscription.next subscribe).get (by decide +kernel)

/-- The event of the subscription. -/
def subscribed : HubEvent := .mintRequested customer 1 100000000 100000000 0

/-- The system after a subscription with a callback. -/
def reentered : Guarded ERC20 :=
  (⟨play World.next (Guarded.relog afterSubscription beforeSubscription) callback,
    notEntered⟩ : Guarded ERC20).emit subscribed

lemma run_reentered :
    Run Guarded.Step ⟨world, notEntered⟩
      (quietTrace setup ++ [⟨⟨beforeSubscription, notEntered⟩, subscribe, reentered⟩])
      reentered := by
  apply (run_quietTrace setup).snoc
  have hsubscribe : beforeSubscription.Step subscribe afterSubscription :=
    World.step_of_next (Option.some_get _).symm
  have hcallback : Run World.Step (Guarded.relog afterSubscription beforeSubscription) _
      (play World.next (Guarded.relog afterSubscription beforeSubscription) callback) :=
    run_play (fun _ _ _ => World.step_of_next) _ callback
  exact Guarded.step_requestSubscription hsubscribe (by decide +kernel) hcallback.path
    (by decide +kernel)

/-- The claim the collateral calls back from. -/
def redeem : Action ERC20 := .manager customer (.claimRedemption [1])

/-- The transactions the collateral makes meanwhile: one of them prices the id that is being
settled once more. -/
def claimCallback : List (Action ERC20) := [
  .manager operator (.setPriceIdForRedemptions [1] [1]),
  .manager operator (.addProof 0xBEEF customer 50000000 0 999999)]

/-- The requests of `mintAndRedeem`, with the redemption priced. -/
def beforeClaim : World ERC20 := play World.next world mintAndRedeem.dropLast

/-- The claim up to its call of the collateral. -/
def closed : RWAHub × RWAHub.ClaimedRedemption :=
  (beforeClaim.hub.closeRedemption beforeClaim.pricers
    (beforeClaim.manager.checkRestrictions beforeClaim.lists) 1 0).toOption.get
      (by decide +kernel)

/-- The collateral after the payment. -/
def paid : ERC20 :=
  (safeTransferFrom beforeClaim.collateral beforeClaim.self closed.1.params.assetSender
    closed.2.member.user closed.2.collateralDuePostFees).toOption.get (by decide +kernel)

/-- The world the collateral calls back into. -/
def duringClaim : World ERC20 := { beforeClaim with
  manager := { beforeClaim.manager with hub := closed.1 }
  collateral := paid }

/-- The system after a claim with a callback. -/
def settled : Guarded ERC20 :=
  (⟨play World.next duringClaim claimCallback, notEntered⟩ : Guarded ERC20).emit (closed.2.event 1)

lemma run_settled :
    Run Guarded.Step ⟨world, notEntered⟩
      (quietTrace mintAndRedeem.dropLast ++ [⟨⟨beforeClaim, notEntered⟩, redeem, settled⟩])
      settled := by
  apply (run_quietTrace mintAndRedeem.dropLast).snoc
  have hclose : beforeClaim.hub.closeRedemption beforeClaim.pricers
      (beforeClaim.manager.checkRestrictions beforeClaim.lists) 1 0 = .ok closed :=
    toOption_eq_some.mp (Option.some_get (by decide +kernel)).symm
  have hpay : safeTransferFrom beforeClaim.collateral beforeClaim.self
      closed.1.params.assetSender closed.2.member.user closed.2.collateralDuePostFees =
        .ok paid :=
    toOption_eq_some.mp (Option.some_get (by decide +kernel)).symm
  have hcallback : Run World.Step duringClaim _ (play World.next duringClaim claimCallback) :=
    run_play (fun _ _ _ => World.step_of_next) _ claimCallback
  exact Guarded.step_claimRedemption (by decide +kernel) (by decide +kernel) hclose hpay
    (by decide +kernel) hcallback.path (by decide +kernel)

end Sample

namespace Guarded

variable {κ : Type} [IERC20 κ] {g : Guarded κ}

/-! ## Safety -/

variable {w₀ : World κ} {tr : List (Transition (Guarded κ) (Action κ))}

/-- **Redemptions survive reentrancy.**  In every run of a new manager in which no redemption is
overwritten, whatever transactions the collateral makes whenever it is called. -/
theorem redemptions_sound (hdeployed : w₀.Deployed)
    (hrun : Run Step ⟨w₀, notEntered⟩ tr g)
    (hno : ∀ e ∈ g.world.log, e.isRedeemerOverwritten = false) :
    RedemptionsSound g.world.log g.world.books := by
  obtain ⟨history, hreordered, hpath⟩ := exists_history hdeployed.fresh hrun
  exact .of_history hreordered hpath hno

open Sample in
theorem redemptions_sound_reentered :
    settled.world.log.drop 14 = [.priceIdSetForRedemption 1 1,
        .depositProofAdded 0xBEEF customer 50000000 0 999999,
        .redemptionCompleted customer 1 60000000000000000000 60000000 1000000000000000000] ∧
      offChainRedemptions settled.world.log = [2] ∧
      RedemptionsSound settled.world.log settled.world.books :=
  ⟨by decide +kernel, by decide +kernel,
    redemptions_sound world_deployed run_settled (by decide +kernel)⟩

/-- **Deposits survive reentrancy.**  In every run of a new manager in which no deposit is
overwritten and each proof names a user and a hash that is no issued id, whatever transactions the
collateral makes whenever it is called. -/
theorem deposits_sound (hdeployed : w₀.Deployed)
    (hrun : Run Step ⟨w₀, notEntered⟩ tr g)
    (hno : ∀ e ∈ g.world.log, e.isDepositorOverwritten = false)
    (hproofs : ∀ proof ∈ g.world.log.filterMap HubEvent.addedProof,
      proof.2 ≠ 0 ∧ proof.1 ∉ issuedDeposits g.world.log) :
    DepositsSound g.world.log g.world.books := by
  obtain ⟨history, hreordered, hpath⟩ := exists_history hdeployed.fresh hrun
  exact .of_history hreordered hpath hno hproofs

open Sample in
theorem deposits_sound_reentered : DepositsSound reentered.world.log reentered.world.books := by
  have hadded : reentered.world.log.filterMap HubEvent.addedProof = [(0xABCD, customer)] := by
    decide +kernel
  refine deposits_sound world_deployed run_reentered (by decide +kernel) fun proof hproof => ?_
  rw [hadded] at hproof
  obtain rfl := List.mem_singleton.mp hproof
  decide +kernel

end Guarded

end BrivoUsbs
