import BrivoUsbs.Framework.Counter
import BrivoUsbs.Framework.Ledger
import BrivoUsbs.Properties.EventLog

/-!
# The redemption ledger

Without `overwriteRedeemer`, the redemption table is a ledger of claims: a request opens a claim
of the caller over the burned amount under a fresh id, and a settlement that names a user closes
it.  `Recorded` is the invariant that makes this a refinement.  Its heart is `requested`: a slot
with a user was written by `requestRedemption`, so its id is one of those issued so far and the
counter never meets a live slot.

The slots a settlement can also empty are those without a user, into which the price setter wrote
a price id; they hold no amount, and the ledger does not see them.
-/

namespace BrivoUsbs

/-! ## What the log says about redemptions -/

namespace HubEvent

/-- The id a request for an on-chain redemption is given. -/
def requestedRedemption : HubEvent → Option Bytes32
  | .redemptionRequested _ id _ => some id
  | _ => none

/-- The id a request for a redemption serviced off chain is given. -/
def offChainRedemption : HubEvent → Option Bytes32
  | .redemptionRequestedServicedOffChain _ id _ _ => some id
  | _ => none

/-- The id either kind of request is given. -/
def issuedRedemption : HubEvent → Option Bytes32
  | .redemptionRequested _ id _ => some id
  | .redemptionRequestedServicedOffChain _ id _ _ => some id
  | _ => none

/-- The RWA burned by an on-chain request. -/
def requestedAmount : HubEvent → ℕ
  | .redemptionRequested _ _ amount => amount.toNat
  | _ => 0

/-- The RWA a settlement is for. -/
def completedAmount : HubEvent → ℕ
  | .redemptionCompleted _ _ amount _ _ => amount.toNat
  | _ => 0

/-- The event settles the redemption `id` of some user. -/
def settlesRedemption (id : Bytes32) : HubEvent → Bool
  | .redemptionCompleted user i _ _ _ => i = id ∧ user ≠ 0
  | _ => false

/-- The event as the redemption ledger sees it. -/
def redemption : HubEvent → Ledger.Event Bytes32 Address
  | .redemptionRequested user id amount => .opened id (user, amount.toNat)
  | .redemptionCompleted user id amount _ _ =>
      if user = 0 then .noted else .settled id (user, amount.toNat)
  | _ => .noted

variable {user : Address} {id : Bytes32} {amount net price : Uint256}

lemma redemption_of_null (h : user = 0) :
    redemption (.redemptionCompleted user id amount net price) = .noted := if_pos h

lemma redemption_of_user (h : user ≠ 0) :
    redemption (.redemptionCompleted user id amount net price) =
      .settled id (user, amount.toNat) := if_neg h

end HubEvent

def requestedRedemptions (log : List HubEvent) : List Bytes32 :=
  log.filterMap HubEvent.requestedRedemption

lemma requestedRedemptions_append (log log' : List HubEvent) :
    requestedRedemptions (log ++ log') =
      requestedRedemptions log ++ requestedRedemptions log' :=
  List.filterMap_append

def offChainRedemptions (log : List HubEvent) : List Bytes32 :=
  log.filterMap HubEvent.offChainRedemption

/-- The redemption ids issued so far, in order. -/
def issuedRedemptions (log : List HubEvent) : List Bytes32 :=
  log.filterMap HubEvent.issuedRedemption

/-- An entry as a claim, if it has a user. -/
def Redeemer.claim (entry : Redeemer) : Option (Address × ℕ) :=
  if entry.user = 0 then none else some (entry.user, entry.amountRwaTokenBurned.toNat)

/-- The redemption table as a ledger of claims. -/
def Books.redemptionLedger (b : Books) : Ledger Bytes32 Address :=
  fun id => (b.redemptions id).claim

/-- Writing an entry writes its claim. -/
lemma Books.redemptionLedger_update (b : Books) (id : Bytes32) (entry : Redeemer)
    (next : Uint256) :
    redemptionLedger { b with
        redemptions := Function.update b.redemptions id entry
        nextRedemption := next } =
      Function.update b.redemptionLedger id entry.claim := by
  funext i
  by_cases hi : i = id
  · subst hi
    simp [redemptionLedger]
  · simp [redemptionLedger, hi]

/-! ## The invariant -/

/-- The redemption table holds what the log recorded. -/
structure RedemptionsRecorded (log : List HubEvent) (b : Books) : Prop where
  issued : Consecutive (issuedRedemptions log) b.nextRedemption
  requested : ∀ id, (b.redemptions id).user ≠ 0 → id ∈ requestedRedemptions log
  empty : ∀ id, (b.redemptions id).user = 0 → (b.redemptions id).amountRwaTokenBurned = 0

namespace RedemptionsRecorded

variable {log : List HubEvent} {b b' : Books} {e : HubEvent}
  {prices : Uint256 → Tx Error Uint256}

lemma initial (multiplier : Uint256) : RedemptionsRecorded [] (Books.initial multiplier) where
  issued := ⟨rfl, rfl⟩
  requested := by simp [Books.initial, Redeemer.null]
  empty := by simp [Books.initial, Redeemer.null]

lemma requested_issued {id : Bytes32} (hid : id ∈ requestedRedemptions log) :
    id ∈ issuedRedemptions log := by
  simp only [requestedRedemptions, issuedRedemptions, List.mem_filterMap] at hid ⊢
  obtain ⟨e, he, hrequested⟩ := hid
  refine ⟨e, he, ?_⟩
  cases e <;> simp_all [HubEvent.requestedRedemption, HubEvent.issuedRedemption]

/-- A request never meets a live entry. -/
lemma next_free (h : RedemptionsRecorded log b) :
    (b.redemptions b.nextRedemption).user = 0 := by
  by_contra hlive
  exact absurd (h.issued.lt_next (requested_issued (h.requested _ hlive))) (lt_irrefl _)

lemma skip (h : RedemptionsRecorded log b) (he : e.issuedRedemption = none) :
    Consecutive (issuedRedemptions (log ++ [e])) b.nextRedemption := by
  have happend : issuedRedemptions (log ++ [e]) = issuedRedemptions log := by
    simp [issuedRedemptions, he]
  rw [happend]
  exact h.issued

lemma issue {next : Uint256} (h : RedemptionsRecorded log b)
    (he : e.issuedRedemption = some b.nextRedemption)
    (hnext : next.toNat = b.nextRedemption.toNat + 1) :
    Consecutive (issuedRedemptions (log ++ [e])) next := by
  have happend : issuedRedemptions (log ++ [e]) = issuedRedemptions log ++ [b.nextRedemption] := by
    simp [issuedRedemptions, he]
  rw [happend]
  exact h.issued.snoc hnext

/-- Events that leave the redemption table alone. -/
lemma frame (h : RedemptionsRecorded log b) (htable : b'.redemptions = b.redemptions)
    (hissued : Consecutive (issuedRedemptions (log ++ [e])) b'.nextRedemption) :
    RedemptionsRecorded (log ++ [e]) b' where
  issued := hissued
  requested id hid := by
    rw [htable] at hid
    rw [requestedRedemptions_append]
    exact List.mem_append_left _ (h.requested id hid)
  empty := by simpa [htable] using h.empty

/-- Events that write one entry. -/
lemma write {id : Bytes32} {entry : Redeemer} (h : RedemptionsRecorded log b)
    (htable : b'.redemptions = Function.update b.redemptions id entry)
    (hissued : Consecutive (issuedRedemptions (log ++ [e])) b'.nextRedemption)
    (hrequested : entry.user ≠ 0 → id ∈ requestedRedemptions (log ++ [e]))
    (hempty : entry.user = 0 → entry.amountRwaTokenBurned = 0) :
    RedemptionsRecorded (log ++ [e]) b' where
  issued := hissued
  requested i hi := by
    by_cases hsame : i = id
    · subst hsame
      rw [htable, Function.update_self] at hi
      exact hrequested hi
    · rw [htable, Function.update_of_ne hsame] at hi
      rw [requestedRedemptions_append]
      exact List.mem_append_left _ (h.requested i hi)
  empty i hi := by
    by_cases hsame : i = id
    · subst hsame
      rw [htable, Function.update_self] at hi ⊢
      exact hempty hi
    · rw [htable, Function.update_of_ne hsame] at hi ⊢
      exact h.empty i hi

/-- **One event.**  Every event but an overwrite keeps the invariant, and is a step of the
ledger. -/
theorem step (h : RedemptionsRecorded log b) (hstep : Books.Step prices b e b')
    (hno : ∀ id u u' p p' a a', e ≠ .redeemerOverwritten id u u' p p' a a') :
    RedemptionsRecorded (log ++ [e]) b' ∧
      Ledger.Step b.redemptionLedger e.redemption b'.redemptionLedger := by
  cases hstep with
  | @redemptionRequested user amount next huser hnext =>
      refine ⟨h.write rfl (h.issue rfl hnext) (fun _ => ?_) (fun h0 => absurd h0 huser), ?_⟩
      · simp [requestedRedemptions, HubEvent.requestedRedemption]
      · rw [Books.redemptionLedger_update]
        simp only [Redeemer.claim, if_neg huser]
        refine .opened ?_
        simp [Books.redemptionLedger, Redeemer.claim, h.next_free]
  | redemptionRequestedServicedOffChain hnext =>
      exact ⟨h.frame rfl (h.issue rfl hnext), .noted⟩
  | @priceIdSetForRedemption id priceId hunset =>
      refine ⟨h.write rfl (h.skip rfl) (fun hlive => ?_) (h.empty id), ?_⟩
      · rw [requestedRedemptions_append]
        exact List.mem_append_left _ (h.requested id hlive)
      · rw [Books.redemptionLedger_update]
        have hclaim : ({ b.redemptions id with priceId := priceId } : Redeemer).claim =
            b.redemptionLedger id := rfl
        rw [hclaim, Function.update_eq_self]
        exact .noted
  | @redemptionCompleted id net price fee hset hprice hmultiplier hnet =>
      refine ⟨h.write rfl (h.skip rfl) (fun h0 => absurd rfl h0) (fun _ => rfl), ?_⟩
      rw [Books.redemptionLedger_update]
      by_cases hlive : (b.redemptions id).user = 0
      · have hfree : Redeemer.null.claim = b.redemptionLedger id := by
          simp [Books.redemptionLedger, Redeemer.claim, Redeemer.null, hlive]
        rw [hfree, Function.update_eq_self]
        rw [HubEvent.redemption_of_null hlive]
        exact .noted
      · rw [HubEvent.redemption_of_user hlive]
        exact .settled (if_neg hlive)
  | redeemerOverwritten => exact absurd rfl (hno _ _ _ _ _ _ _)
  | mintRequested _ _ _ => exact ⟨h.frame rfl (h.skip rfl), .noted⟩
  | depositProofAdded _ => exact ⟨h.frame rfl (h.skip rfl), .noted⟩
  | priceIdSetForDeposit _ _ => exact ⟨h.frame rfl (h.skip rfl), .noted⟩
  | mintCompleted _ _ _ _ _ => exact ⟨h.frame rfl (h.skip rfl), .noted⟩
  | depositorOverwritten => exact ⟨h.frame rfl (h.skip rfl), .noted⟩
  | claimableTimestampSet => exact ⟨h.frame rfl (h.skip rfl), .noted⟩
  | parameterSet => exact ⟨h.frame rfl (h.skip rfl), .noted⟩

/-- The ledger sees the amount of every settlement: one without a user is over nothing. -/
lemma completedAmount_eq (h : RedemptionsRecorded log b)
    (hstep : Books.Step prices b e b') :
    e.completedAmount = e.redemption.settledWeight Ledger.byAmount := by
  cases hstep with
  | @redemptionCompleted id net price fee =>
      by_cases hlive : (b.redemptions id).user = 0
      · rw [HubEvent.redemption_of_null hlive, HubEvent.completedAmount, h.empty id hlive]
        rfl
      · rw [HubEvent.redemption_of_user hlive]
        rfl
  | _ => rfl

end RedemptionsRecorded

/-! ## Counting the events of an id -/

section Counting

variable {log : List HubEvent} (id : Bytes32)

/-- A redemption id is issued by one of the two request functions. -/
lemma count_issuedRedemptions (log : List HubEvent) (id : Bytes32) :
    (issuedRedemptions log).count id =
      (requestedRedemptions log).count id + (offChainRedemptions log).count id := by
  induction log with
  | nil => rfl
  | cons e log ih =>
      simp only [issuedRedemptions, requestedRedemptions, offChainRedemptions,
        List.filterMap_cons] at ih ⊢
      cases e <;> simp only [HubEvent.issuedRedemption, HubEvent.requestedRedemption,
        HubEvent.offChainRedemption, List.count_cons, ih] <;> omega

lemma countP_opens_redemption :
    (log.map HubEvent.redemption).countP (Ledger.Event.opens id) =
      (requestedRedemptions log).count id := by
  rw [List.countP_map, requestedRedemptions, List.count_filterMap]
  refine List.countP_congr fun e _ => ?_
  cases e with
  | redemptionCompleted user =>
      by_cases huser : user = 0
      · simp [HubEvent.redemption_of_null huser, HubEvent.requestedRedemption,
          Ledger.Event.opens]
      · simp [HubEvent.redemption_of_user huser, HubEvent.requestedRedemption,
          Ledger.Event.opens]
  | _ => simp [HubEvent.redemption, HubEvent.requestedRedemption, Ledger.Event.opens]

lemma countP_settles_redemption :
    (log.map HubEvent.redemption).countP (Ledger.Event.settles id) =
      log.countP (HubEvent.settlesRedemption id) := by
  rw [List.countP_map]
  refine List.countP_congr fun e _ => ?_
  cases e with
  | redemptionCompleted user =>
      by_cases huser : user = 0
      · rw [Function.comp_apply, HubEvent.redemption_of_null huser]
        simp [HubEvent.settlesRedemption, Ledger.Event.settles, huser]
      · have huser' : ¬ user = 0#160 := huser
        simp [HubEvent.redemption_of_user huser, HubEvent.settlesRedemption,
          Ledger.Event.settles, huser']
  | _ => simp [HubEvent.redemption, HubEvent.settlesRedemption, Ledger.Event.settles]

end Counting

/-! ## Runs -/

namespace World

variable {κ : Type} {w₀ w w' : World κ} {tr : List (Transition (World κ) (Action κ))}
  {a : Action κ}

/-- No event of a run without `overwriteRedeemer` is an overwrite. -/
lemma Replays.not_redeemerOverwritten {b b' : Books} {e : HubEvent} (h : Replays tr b e b')
    (hno : ∀ t ∈ tr, t.label.isOverwriteRedeemer = false) :
    ∀ id u u' p p' a a', e ≠ .redeemerOverwritten id u u' p p' a a' := by
  rintro id u u' p p' a a' rfl
  obtain ⟨t, ht, hattributed⟩ := h.attributed (by simp)
  have hlabel := hno t ht
  generalize t.label = a at hattributed hlabel
  cases hattributed with
  | overwriteRedeemer => exact absurd hlabel (by simp [Action.isOverwriteRedeemer])

variable [IERC20 κ]

/-- **Refinement.**  Along a run without `overwriteRedeemer` the table holds what the log
recorded, and the redemption ledger replays the log. -/
theorem redemptions_recorded (hfresh : w₀.Fresh) (hrun : Run Step w₀ tr w)
    (hno : ∀ t ∈ tr, t.label.isOverwriteRedeemer = false) :
    RedemptionsRecorded w.log w.books ∧
      Path Ledger.Step (fun _ => none) (w.log.map HubEvent.redemption)
        w.books.redemptionLedger ∧
      ∀ e ∈ w.log, e.completedAmount = e.redemption.settledWeight Ledger.byAmount := by
  have hreplay := hfresh.replay hrun
  generalize w.log = log, w.books = b at hreplay ⊢
  induction hreplay with
  | nil => exact ⟨.initial _, .nil, by simp⟩
  | snoc _ hlast ih =>
      obtain ⟨hrecorded, hpath, hamounts⟩ := ih
      obtain ⟨prices, hstep⟩ := hlast.step
      obtain ⟨hrecorded', hledger⟩ := hrecorded.step hstep (hlast.not_redeemerOverwritten hno)
      rw [List.map_append]
      refine ⟨hrecorded', .snoc hpath hledger, fun e he => ?_⟩
      rcases List.mem_append.mp he with hmem | hmem
      · exact hamounts e hmem
      · obtain rfl := List.mem_singleton.mp hmem
        exact hrecorded.completedAmount_eq hstep

/-- The RWA a transition burns through `requestRedemption`. -/
def burnedByRequest (t : Transition (World κ) (Action κ)) : ℕ :=
  match t.label with
  | .manager _ (.requestRedemption _) =>
      t.pre.usbs.erc20.totalSupply.toNat - t.post.usbs.erc20.totalSupply.toNat
  | _ => 0

/-- What a call of `requestRedemption` logs and burns. -/
lemma step_requestRedemption {sender : Address} {amount : Uint256}
    (h : w.Step (.manager sender (.requestRedemption amount)) w') :
    w'.log = w.log ++ [.redemptionRequested sender w.hub.redemptionRequestCounter amount] ∧
      w'.usbs.erc20.totalSupply.toNat + amount.toNat = w.usbs.erc20.totalSupply.toNat ∧
      w'.usbs.access = w.usbs.access := by
  have hexec := h.2
  simp only [exec, execManager, bind_eq_ok, pure_eq_ok, Prod.exists] at hexec
  obtain ⟨hub', usbs', hcall, rfl⟩ := hexec
  obtain ⟨hlog, -, -, -, hburn⟩ := RWAHub.requestRedemption_spec w.prices hcall
  obtain ⟨-, haccess, hsupply⟩ := USBS.burnFrom_spec hburn
  exact ⟨hlog, hsupply, haccess⟩

/-- No other call requests a redemption on chain. -/
lemma total_requestedAmount_eq_zero {es : List HubEvent} (h : w.Step a w')
    (hlog : w'.log = w.log ++ es)
    (hne : ∀ sender amount, a ≠ .manager sender (.requestRedemption amount)) :
    total HubEvent.requestedAmount es = 0 := by
  obtain ⟨es', hlog', hpath⟩ := h.emits
  obtain rfl : es = es' := List.append_cancel_left (hlog.symm.trans hlog')
  refine total_eq_zero (hpath.labels fun b e b' hemit => ?_)
  cases hemit.2 with
  | requestRedemption => exact absurd rfl (hne _ _)
  | _ => rfl

/-- The log records what `requestRedemption` burns. -/
lemma total_requestedAmount (hfresh : w₀.Fresh) (hrun : Run Step w₀ tr w) :
    total HubEvent.requestedAmount w.log = (tr.map burnedByRequest).sum := by
  refine hfresh.total_log hrun (fun _ => rfl) ?_
  intro w a w' hstep
  by_cases ha : ∃ sender amount, a = .manager sender (.requestRedemption amount)
  · obtain ⟨sender, amount, rfl⟩ := ha
    obtain ⟨hlog, hburned, -⟩ := step_requestRedemption hstep
    refine ⟨_, hlog, ?_⟩
    simp only [total_singleton, HubEvent.requestedAmount, burnedByRequest]
    omega
  · obtain ⟨es, hlog, -⟩ := hstep.emits
    refine ⟨es, hlog, ?_⟩
    rw [total_requestedAmount_eq_zero hstep hlog fun sender amount heq => ha ⟨sender, amount, heq⟩]
    unfold burnedByRequest
    split
    · next sender amount heq => exact absurd ⟨sender, amount, heq⟩ ha
    · rfl

/-- The amounts outstanding in the ledger are the amounts in the table. -/
lemma outstanding_redemptionLedger {log : List HubEvent} {b : Books}
    (h : RedemptionsRecorded log b) :
    Ledger.outstanding Ledger.byAmount b.redemptionLedger =
      ∑ id, (b.redemptions id).amountRwaTokenBurned.toNat := by
  refine Finset.sum_congr rfl fun id _ => ?_
  unfold Books.redemptionLedger Redeemer.claim
  by_cases hlive : (b.redemptions id).user = 0
  · rw [if_pos hlive, h.empty id hlive]
    rfl
  · rw [if_neg hlive]
    rfl

/-- **Redemption conservation.**  What `requestRedemption` burned is what the table holds plus
what was settled. -/
theorem burnedByRequest_conserved (hfresh : w₀.Fresh) (hrun : Run Step w₀ tr w)
    (hno : ∀ t ∈ tr, t.label.isOverwriteRedeemer = false) :
    (tr.map burnedByRequest).sum =
      ∑ id, (w.books.redemptions id).amountRwaTokenBurned.toNat +
        total HubEvent.completedAmount w.log := by
  obtain ⟨hrecorded, hledger, hamounts⟩ := redemptions_recorded hfresh hrun hno
  have hopened : (Ledger.Event.openedWeight Ledger.byAmount) ∘ HubEvent.redemption =
      HubEvent.requestedAmount := by
    funext e
    cases e with
    | redemptionCompleted user =>
        by_cases huser : user = 0
        · rw [Function.comp_apply, HubEvent.redemption_of_null huser]
          rfl
        · rw [Function.comp_apply, HubEvent.redemption_of_user huser]
          rfl
    | _ => rfl
  have hsettled : w.log.map ((Ledger.Event.settledWeight Ledger.byAmount) ∘ HubEvent.redemption) =
      w.log.map HubEvent.completedAmount :=
    List.map_congr_left fun e he => (hamounts e he).symm
  have hsum := Ledger.conservation Ledger.byAmount hledger
  rw [List.map_map, List.map_map, hopened, hsettled, outstanding_redemptionLedger hrecorded] at hsum
  rw [← total_requestedAmount hfresh hrun]
  exact hsum.symm

/-- No more is settled than was requested. -/
lemma total_completedAmount_le (hfresh : w₀.Fresh) (hrun : Run Step w₀ tr w)
    (hno : ∀ t ∈ tr, t.label.isOverwriteRedeemer = false) :
    total HubEvent.completedAmount w.log ≤ total HubEvent.requestedAmount w.log := by
  rw [total_requestedAmount hfresh hrun, burnedByRequest_conserved hfresh hrun hno]
  exact Nat.le_add_left _ _

/-- **At most one service.**  Under an id, at most one settlement for a user and at most one
off-chain request add up to at most one. -/
theorem settles_add_offChain_le_one (hfresh : w₀.Fresh) (hrun : Run Step w₀ tr w)
    (hno : ∀ t ∈ tr, t.label.isOverwriteRedeemer = false) (id : Bytes32) :
    w.log.countP (HubEvent.settlesRedemption id) + (offChainRedemptions w.log).count id ≤ 1 := by
  obtain ⟨hrecorded, hledger, -⟩ := redemptions_recorded hfresh hrun hno
  have hopens := Ledger.countP_opens id hledger
  rw [countP_opens_redemption, countP_settles_redemption] at hopens
  have hissued := count_issuedRedemptions w.log id
  have honce := List.nodup_iff_count_le_one.mp hrecorded.issued.nodup id
  omega

/-- An id issued for a redemption off chain holds nothing, before it is issued and after. -/
lemma offChain_empty {s : World κ} (hfresh : w₀.Fresh) (hrun : Run Step w₀ tr w)
    (hno : ∀ t ∈ tr, t.label.isOverwriteRedeemer = false) (hs : Run.Visits tr w s) {id : Bytes32}
    (hid : id ∈ offChainRedemptions w.log) :
    (s.books.redemptions id).user = 0 ∧ (s.books.redemptions id).amountRwaTokenBurned = 0 := by
  obtain ⟨tr', htr', hrun'⟩ := hrun.of_visits hs
  obtain ⟨hrecorded, -⟩ := redemptions_recorded hfresh hrun hno
  obtain ⟨hrecorded', -⟩ :=
    redemptions_recorded hfresh hrun' fun t ht => hno t (htr'.subset ht)
  have huser : (s.books.redemptions id).user = 0 := by
    -- Otherwise both request functions issued the id.
    by_contra hlive
    obtain ⟨rest, hrest⟩ := log_extends hrun hs
    have hrequested : id ∈ requestedRedemptions w.log := by
      rw [← hrest, requestedRedemptions_append]
      exact List.mem_append_left _ (hrecorded'.requested id hlive)
    have hissued := count_issuedRedemptions w.log id
    have honce := List.nodup_iff_count_le_one.mp hrecorded.issued.nodup id
    have hpos := List.count_pos_iff.mpr hrequested
    have hpos' := List.count_pos_iff.mpr hid
    omega
  exact ⟨huser, hrecorded'.empty id huser⟩

/-- The redemption side of a run that ends in `w`. -/
structure RedemptionsConserved (tr : List (Transition (World κ) (Action κ))) (w : World κ) :
    Prop where
  /-- The issued ids are `1, 2, …, n`. -/
  consecutive : ∃ n, (issuedRedemptions w.log).map BitVec.toNat = List.range' 1 n
  /-- What was burned is what the table holds plus what was settled. -/
  conserved : (tr.map burnedByRequest).sum =
    ∑ id, (w.hub.redemptionIdToRedeemer id).amountRwaTokenBurned.toNat +
      total HubEvent.completedAmount w.log
  /-- In no state of the run does an off-chain id hold a user or an amount. -/
  offChain : ∀ id ∈ offChainRedemptions w.log, ∀ s, Run.Visits tr w s →
    (s.hub.redemptionIdToRedeemer id).user = 0 ∧
      (s.hub.redemptionIdToRedeemer id).amountRwaTokenBurned = 0
  /-- Nor is an off-chain id settled on chain for anybody. -/
  offChain_unsettled : ∀ id ∈ offChainRedemptions w.log,
    w.log.countP (HubEvent.settlesRedemption id) = 0
  /-- An id is settled for a user at most once. -/
  once : ∀ id, w.log.countP (HubEvent.settlesRedemption id) ≤ 1

/-- **Redemption ledger conservation and no double service.**  In every run of a new manager
without `overwriteRedeemer`, whatever the collateral is and whoever calls. -/
theorem redemptions_conserved (hdeployed : w₀.Deployed) (hrun : Run Step w₀ tr w)
    (hno : ∀ t ∈ tr, t.label.isOverwriteRedeemer = false) : RedemptionsConserved tr w where
  consecutive := ⟨_, (redemptions_recorded hdeployed.fresh hrun hno).1.issued.ids⟩
  conserved := burnedByRequest_conserved hdeployed.fresh hrun hno
  offChain id hid s hs := offChain_empty hdeployed.fresh hrun hno hs hid
  offChain_unsettled id hid := by
    have hone := settles_add_offChain_le_one hdeployed.fresh hrun hno id
    have hpos := List.count_pos_iff.mpr hid
    omega
  once id := by
    have hone := settles_add_offChain_le_one hdeployed.fresh hrun hno id
    omega

open Sample in
theorem redemptions_conserved_sample :
    RedemptionsConserved (playTrace next world mintAndRedeem) (play next world mintAndRedeem) :=
  redemptions_conserved world_deployed (run_play (fun _ _ _ => step_of_next) _ _)
    (by decide +kernel)

end World

end BrivoUsbs
