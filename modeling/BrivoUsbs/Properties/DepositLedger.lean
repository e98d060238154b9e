import BrivoUsbs.Framework.Counter
import BrivoUsbs.Framework.Ledger
import BrivoUsbs.Properties.EventLog

/-!
# The deposit ledger

Two kinds of calls open deposits: `requestSubscription` under the next value of a counter, and
`addProof` under the hash of an off-chain transaction.  Both write to one table, and only the
second one looks whether the slot is free.  As long as the two kinds of ids do not meet, and
nothing is overwritten, the table is a ledger of claims: a deposit is opened once, keeps its user
and amount, and is settled by minting exactly what it is worth at the price of its price id.
-/

namespace BrivoUsbs

/-! ## What the log says about deposits -/

namespace HubEvent

/-- The id a subscription is given. -/
def issuedDeposit : HubEvent → Option Bytes32
  | .mintRequested _ id _ _ _ => some id
  | _ => none

/-- The transaction hash a proof is added under. -/
def provenDeposit : HubEvent → Option Bytes32
  | .depositProofAdded txHash _ _ _ _ => some txHash
  | _ => none

/-- The collateral accepted for a deposit, after fees. -/
def acceptedAmount : HubEvent → ℕ
  | .mintRequested _ _ _ after _ => after.toNat
  | .depositProofAdded _ _ after _ _ => after.toNat
  | _ => 0

/-- The collateral a mint is completed for. -/
def mintedForAmount : HubEvent → ℕ
  | .mintCompleted _ _ _ amount _ _ => amount.toNat
  | _ => 0

/-- The event completes the mint of deposit `id`. -/
def completesMint (id : Bytes32) : HubEvent → Bool
  | .mintCompleted _ i _ _ _ _ => i = id
  | _ => false

/-- The event as the deposit ledger sees it. -/
def deposit : HubEvent → Ledger.Event Bytes32 Address
  | .mintRequested user id _ after _ => .opened id (user, after.toNat)
  | .depositProofAdded txHash user after _ _ => .opened txHash (user, after.toNat)
  | .mintCompleted user id _ amount _ _ => .settled id (user, amount.toNat)
  | _ => .noted

end HubEvent

/-- The deposit ids issued so far, in order. -/
def issuedDeposits (log : List HubEvent) : List Bytes32 := log.filterMap HubEvent.issuedDeposit

/-- The transaction hashes proofs were added under. -/
def provenDeposits (log : List HubEvent) : List Bytes32 := log.filterMap HubEvent.provenDeposit

lemma issuedDeposits_append (log log' : List HubEvent) :
    issuedDeposits (log ++ log') = issuedDeposits log ++ issuedDeposits log' :=
  List.filterMap_append

lemma provenDeposits_append (log log' : List HubEvent) :
    provenDeposits (log ++ log') = provenDeposits log ++ provenDeposits log' :=
  List.filterMap_append

/-- An entry as a claim, if it has a user. -/
def Depositor.claim (entry : Depositor) : Option (Address × ℕ) :=
  if entry.user = 0 then none else some (entry.user, entry.amountDepositedMinusFees.toNat)

/-- The deposit table as a ledger of claims. -/
def Books.depositLedger (b : Books) : Ledger Bytes32 Address := fun id => (b.deposits id).claim

/-- Writing an entry writes its claim. -/
lemma Books.depositLedger_update (b : Books) (id : Bytes32) (entry : Depositor)
    (next : Uint256) :
    depositLedger { b with
        deposits := Function.update b.deposits id entry
        nextDeposit := next } =
      Function.update b.depositLedger id entry.claim := by
  funext i
  by_cases hi : i = id
  · subst hi
    simp [depositLedger]
  · simp [depositLedger, hi]

/-! ## The invariant -/

/-- The deposit table holds what the log recorded. -/
structure DepositsRecorded (log : List HubEvent) (b : Books) : Prop where
  issued : Consecutive (issuedDeposits log) b.nextDeposit
  recorded : ∀ id, (b.deposits id).user ≠ 0 → id ∈ issuedDeposits log ∨ id ∈ provenDeposits log
  empty : ∀ id, (b.deposits id).user = 0 → b.deposits id = .null

namespace DepositsRecorded

variable {log : List HubEvent} {b b' : Books} {e : HubEvent}
  {prices : Uint256 → Tx Error Uint256}

lemma initial (multiplier : Uint256) : DepositsRecorded [] (Books.initial multiplier) where
  issued := ⟨rfl, rfl⟩
  recorded := by simp [Books.initial, Depositor.null]
  empty := by simp [Books.initial]

lemma skip (h : DepositsRecorded log b) (he : e.issuedDeposit = none) :
    Consecutive (issuedDeposits (log ++ [e])) b.nextDeposit := by
  have happend : issuedDeposits (log ++ [e]) = issuedDeposits log := by
    simp [issuedDeposits, he]
  rw [happend]
  exact h.issued

lemma issue {next : Uint256} (h : DepositsRecorded log b)
    (he : e.issuedDeposit = some b.nextDeposit)
    (hnext : next.toNat = b.nextDeposit.toNat + 1) :
    Consecutive (issuedDeposits (log ++ [e])) next := by
  have happend : issuedDeposits (log ++ [e]) = issuedDeposits log ++ [b.nextDeposit] := by
    simp [issuedDeposits, he]
  rw [happend]
  exact h.issued.snoc hnext

lemma recorded_append (h : DepositsRecorded log b) {id : Bytes32}
    (hlive : (b.deposits id).user ≠ 0) :
    id ∈ issuedDeposits (log ++ [e]) ∨ id ∈ provenDeposits (log ++ [e]) := by
  rw [issuedDeposits_append, provenDeposits_append]
  exact (h.recorded id hlive).imp (List.mem_append_left _) (List.mem_append_left _)

/-- The slot of the next subscription is free, unless a proof was added under its id. -/
lemma next_free (h : DepositsRecorded log b) (hproven : b.nextDeposit ∉ provenDeposits log) :
    (b.deposits b.nextDeposit).user = 0 := by
  by_contra hlive
  rcases h.recorded _ hlive with hmem | hmem
  · exact h.issued.next_notMem hmem
  · exact hproven hmem

/-- Events that leave the deposit table alone. -/
lemma frame (h : DepositsRecorded log b) (htable : b'.deposits = b.deposits)
    (hissued : Consecutive (issuedDeposits (log ++ [e])) b'.nextDeposit) :
    DepositsRecorded (log ++ [e]) b' where
  issued := hissued
  recorded id hid := by
    rw [htable] at hid
    exact h.recorded_append hid
  empty := by simpa [htable] using h.empty

/-- Events that write one entry. -/
lemma write {id : Bytes32} {entry : Depositor} (h : DepositsRecorded log b)
    (htable : b'.deposits = Function.update b.deposits id entry)
    (hissued : Consecutive (issuedDeposits (log ++ [e])) b'.nextDeposit)
    (hrecorded : entry.user ≠ 0 →
      id ∈ issuedDeposits (log ++ [e]) ∨ id ∈ provenDeposits (log ++ [e]))
    (hempty : entry.user = 0 → entry = .null) :
    DepositsRecorded (log ++ [e]) b' where
  issued := hissued
  recorded i hi := by
    by_cases hsame : i = id
    · subst hsame
      rw [htable, Function.update_self] at hi
      exact hrecorded hi
    · rw [htable, Function.update_of_ne hsame] at hi
      exact h.recorded_append hi
  empty i hi := by
    by_cases hsame : i = id
    · subst hsame
      rw [htable, Function.update_self] at hi ⊢
      exact hempty hi
    · rw [htable, Function.update_of_ne hsame] at hi ⊢
      exact h.empty i hi

/-- **One event.**  An event that is no overwrite, adds no proof without a user and issues no id
a proof was added under keeps the invariant, and is a step of the ledger. -/
theorem step (h : DepositsRecorded log b) (hstep : Books.Step prices b e b')
    (hno : ∀ id u u' p p' a a', e ≠ .depositorOverwritten id u u' p p' a a')
    (hproof : ∀ id user after fee ts, e = .depositProofAdded id user after fee ts → user ≠ 0)
    (hdisjoint : ∀ id ∈ issuedDeposits [e], id ∉ provenDeposits log) :
    DepositsRecorded (log ++ [e]) b' ∧
      Ledger.Step b.depositLedger e.deposit b'.depositLedger := by
  cases hstep with
  | @mintRequested user amount after fee next huser hnext hamount =>
      have hfree : (b.deposits b.nextDeposit).user = 0 :=
        h.next_free (hdisjoint _ (List.mem_singleton.mpr rfl))
      refine ⟨h.write rfl (h.issue rfl hnext) (fun _ => .inl ?_) (fun h0 => absurd h0 huser), ?_⟩
      · simp [issuedDeposits, HubEvent.issuedDeposit]
      · rw [Books.depositLedger_update, Depositor.claim, if_neg huser]
        exact .opened (if_pos hfree)
  | @depositProofAdded txHash user after fee timestamp hfree =>
      have huser : user ≠ 0 := hproof _ _ _ _ _ rfl
      refine ⟨h.write rfl (h.skip rfl) (fun _ => .inr ?_) (fun h0 => absurd h0 huser), ?_⟩
      · simp [provenDeposits, HubEvent.provenDeposit]
      · rw [Books.depositLedger_update, Depositor.claim, if_neg huser]
        exact .opened (if_pos hfree)
  | @priceIdSetForDeposit id priceId hlive hunset =>
      refine ⟨h.write rfl (h.skip rfl) (fun _ => h.recorded_append hlive)
        (fun h0 => absurd h0 hlive), ?_⟩
      rw [Books.depositLedger_update]
      have hclaim : ({ b.deposits id with priceId := priceId } : Depositor).claim =
          b.depositLedger id := rfl
      rw [hclaim, Function.update_eq_self]
      exact .noted
  | @mintCompleted id out price hset huser hprice hdefined hout =>
      refine ⟨h.write rfl (h.skip rfl) (fun h0 => absurd rfl h0) (fun _ => rfl), ?_⟩
      rw [Books.depositLedger_update]
      exact .settled (if_neg huser)
  | depositorOverwritten => exact absurd rfl (hno _ _ _ _ _ _ _)
  | redemptionRequested _ _ => exact ⟨h.frame rfl (h.skip rfl), .noted⟩
  | redemptionRequestedServicedOffChain _ => exact ⟨h.frame rfl (h.skip rfl), .noted⟩
  | priceIdSetForRedemption _ => exact ⟨h.frame rfl (h.skip rfl), .noted⟩
  | redemptionCompleted _ _ _ _ => exact ⟨h.frame rfl (h.skip rfl), .noted⟩
  | redeemerOverwritten => exact ⟨h.frame rfl (h.skip rfl), .noted⟩
  | claimableTimestampSet => exact ⟨h.frame rfl (h.skip rfl), .noted⟩
  | parameterSet => exact ⟨h.frame rfl (h.skip rfl), .noted⟩

end DepositsRecorded

/-! ## A batch of claims -/

namespace USBSManager

variable {lists : Lists} {pricers : Address → Option Pricer} {self : Address}
  {timestamp : Uint256}

/-- The RWA minted for a deposit at the price of its price id. -/
def owed (hub : RWAHub) (pricers : Address → Option Pricer) (id : Bytes32) : ℕ :=
  hub.books.mintAmount (hub.depositIdToDepositor id).amountDepositedMinusFees
    ((hub.prices pricers (hub.depositIdToDepositor id).priceId).toOption.getD 0)

/-- What one entry of a batch does: it mints what it owes to its user and is emptied. -/
lemma internalClaimMint_owed {manager manager' : USBSManager} {usbs usbs' : USBS} {id : Bytes32}
    (h : manager.internalClaimMint usbs lists pricers self timestamp id = .ok (manager', usbs')) :
    (manager.hub.depositIdToDepositor id).user ≠ 0 ∧
      (∃ price, manager.hub.prices pricers (manager.hub.depositIdToDepositor id).priceId =
        .ok price ∧ price ≠ 0) ∧
      (∀ account, (usbs'.erc20.balances account).toNat = (usbs.erc20.balances account).toNat +
        if (manager.hub.depositIdToDepositor id).user = account then owed manager.hub pricers id
        else 0) ∧
      manager'.hub.depositIdToDepositor =
        Function.update manager.hub.depositIdToDepositor id .null ∧
      manager'.hub.decimalsMultiplier = manager.hub.decimalsMultiplier ∧
      manager'.hub.params = manager.hub.params := by
  obtain ⟨out, price, hprice, -, hstep, hparams, -, hmint⟩ :=
    RWAHub.internalClaimMint_spec (internalClaimMint_hub h)
  obtain ⟨huser, -, htable, hdefined, hout, hmultiplier⟩ := hstep.of_mintCompleted
  obtain ⟨-, -, -, -, hbalance, hother⟩ := USBS.mint_spec hmint
  have howed : owed manager.hub pricers id = out.toNat := by
    rw [owed, hprice, hout]
    rfl
  refine ⟨huser, ⟨price, hprice, hdefined⟩, fun account => ?_, htable, hmultiplier, hparams⟩
  by_cases hsame : (manager.hub.depositIdToDepositor id).user = account
  · rw [if_pos hsame, ← hsame, hbalance, howed]
  · rw [if_neg hsame, hother account (Ne.symm hsame), Nat.add_zero]

/-- **A batch of claims** names each deposit once, and mints to everybody what their deposits
owed before the batch. -/
theorem claimMint_loop {ids : List Bytes32} {manager manager' : USBSManager} {usbs usbs' : USBS}
    (h : ids.foldlM (fun state id =>
      state.1.internalClaimMint state.2 lists pricers self timestamp id) (manager, usbs) =
        .ok (manager', usbs')) :
    ids.Nodup ∧
      (∀ id ∈ ids, (manager.hub.depositIdToDepositor id).user ≠ 0 ∧
        ∃ price, manager.hub.prices pricers (manager.hub.depositIdToDepositor id).priceId =
          .ok price ∧ price ≠ 0) ∧
      ∀ account, (usbs'.erc20.balances account).toNat = (usbs.erc20.balances account).toNat +
        (ids.map fun id => if (manager.hub.depositIdToDepositor id).user = account
          then owed manager.hub pricers id else 0).sum := by
  induction ids generalizing manager usbs with
  | nil =>
      simp only [List.foldlM_nil, pure_eq_ok, Prod.mk.injEq] at h
      obtain ⟨rfl, rfl⟩ := h
      simp
  | cons first ids ih =>
      simp only [List.foldlM_cons, bind_eq_ok, Prod.exists] at h
      obtain ⟨mid, usbsMid, hfirst, hrest⟩ := h
      obtain ⟨huser, hprice, hbalance, htable, hmultiplier, hparams⟩ :=
        internalClaimMint_owed hfirst
      obtain ⟨hnodup, hlive, hbalances⟩ := ih hrest
      -- The first entry is empty afterwards, so no later claim is of the same deposit.
      have hne : ∀ id ∈ ids, id ≠ first := by
        rintro id hid rfl
        have hempty := (hlive id hid).1
        rw [htable, Function.update_self] at hempty
        exact hempty rfl
      have hentry : ∀ id ∈ ids,
          mid.hub.depositIdToDepositor id = manager.hub.depositIdToDepositor id := by
        intro id hid
        rw [htable, Function.update_of_ne (hne id hid)]
      have hprices : mid.hub.prices pricers = manager.hub.prices pricers := by
        funext priceId
        rw [RWAHub.prices, RWAHub.prices, hparams]
      refine ⟨List.nodup_cons.mpr ⟨fun hmem => hne first hmem rfl, hnodup⟩, ?_, fun account => ?_⟩
      · intro id hid
        rcases List.mem_cons.mp hid with rfl | hmem
        · exact ⟨huser, hprice⟩
        · rw [← hentry id hmem, ← hprices]
          exact hlive id hmem
      · have howed : ids.map (fun id => if (mid.hub.depositIdToDepositor id).user = account
            then owed mid.hub pricers id else 0) =
            ids.map fun id => if (manager.hub.depositIdToDepositor id).user = account
              then owed manager.hub pricers id else 0 := by
          refine List.map_congr_left fun id hid => ?_
          rw [owed, owed, hentry id hid, hprices]
          simp only [Books.mintAmount, RWAHub.books, hmultiplier]
        rw [hbalances, hbalance, howed, List.map_cons, List.sum_cons, Nat.add_assoc]

end USBSManager

/-! ## Runs -/

namespace World

variable {κ : Type} {w₀ w w' : World κ} {tr : List (Transition (World κ) (Action κ))}
  {a : Action κ} {id : Bytes32}

/-- Every proof added names a user, and a hash that is not among the given ids. -/
def ProofsAvoid (tr : List (Transition (World κ) (Action κ))) (ids : List Bytes32) : Prop :=
  ∀ t ∈ tr, ∀ proof ∈ t.label.addedProofs, proof.2 ≠ 0 ∧ proof.1 ∉ ids

instance (tr : List (Transition (World κ) (Action κ))) (ids : List Bytes32) :
    Decidable (ProofsAvoid tr ids) :=
  haveI (t : Transition (World κ) (Action κ)) :
      Decidable (∀ proof ∈ t.label.addedProofs, proof.2 ≠ 0 ∧ proof.1 ∉ ids) :=
    List.decidableBAll _ t.label.addedProofs
  List.decidableBAll _ tr

lemma Replays.not_depositorOverwritten {b b' : Books} {e : HubEvent} (h : Replays tr b e b')
    (hno : ∀ t ∈ tr, t.label.isOverwriteDepositor = false) :
    ∀ id u u' p p' a a', e ≠ .depositorOverwritten id u u' p p' a a' := by
  rintro id u u' p p' a a' rfl
  obtain ⟨t, ht, hattributed⟩ := h.attributed (by simp)
  have hlabel := hno t ht
  generalize t.label = a at hattributed hlabel
  cases hattributed with
  | overwriteDepositor => exact absurd hlabel (by simp [Action.isOverwriteDepositor])

lemma Replays.proof {b b' : Books} {ids : List Bytes32} {user : Address}
    {after fee timestamp : Uint256}
    (h : Replays tr b (.depositProofAdded id user after fee timestamp) b')
    (hproofs : ProofsAvoid tr ids) : user ≠ 0 ∧ id ∉ ids := by
  obtain ⟨t, ht, hattributed⟩ := h.attributed (by simp)
  have hlabel := hproofs t ht
  generalize t.label = a at hattributed hlabel
  cases hattributed with
  | addProof => exact hlabel (id, user) (List.mem_singleton.mpr rfl)

variable [IERC20 κ]

/-- **Refinement.**  Along a run without `overwriteDepositor`, whose proofs avoid the issued ids,
the table holds what the log recorded, and the deposit ledger replays the log. -/
theorem deposits_recorded (hfresh : w₀.Fresh) (hrun : Run Step w₀ tr w)
    (hno : ∀ t ∈ tr, t.label.isOverwriteDepositor = false) {ids : List Bytes32}
    (hids : issuedDeposits w.log ⊆ ids) (hproofs : ProofsAvoid tr ids) :
    DepositsRecorded w.log w.books ∧
      Path Ledger.Step (fun _ => none) (w.log.map HubEvent.deposit) w.books.depositLedger ∧
      ∀ id ∈ provenDeposits w.log, id ∉ ids := by
  have hreplay := hfresh.replay hrun
  generalize w.log = log, w.books = b at hreplay hids ⊢
  induction hreplay with
  | nil => exact ⟨.initial _, .nil, by simp [provenDeposits]⟩
  | @snoc log b b' e _ hlast ih =>
      rw [issuedDeposits_append] at hids
      obtain ⟨hrecorded, hpath, hproven⟩ := ih fun id hid => hids (List.mem_append_left _ hid)
      obtain ⟨prices, hstep⟩ := hlast.step
      have hproof : ∀ id user after fee ts, e = .depositProofAdded id user after fee ts →
          user ≠ 0 ∧ id ∉ ids := by
        rintro id user after fee ts rfl
        exact hlast.proof hproofs
      obtain ⟨hrecorded', hledger⟩ := hrecorded.step hstep (hlast.not_depositorOverwritten hno)
        (fun id user after fee ts he => (hproof id user after fee ts he).1)
        fun id hid hmem => hproven id hmem (hids (List.mem_append_right _ hid))
      rw [List.map_append, provenDeposits_append]
      refine ⟨hrecorded', .snoc hpath hledger, fun id hid => ?_⟩
      rcases List.mem_append.mp hid with hmem | hmem
      · exact hproven id hmem
      · cases e with
        | depositProofAdded txHash user after fee ts =>
            obtain rfl : id = txHash := by simpa [provenDeposits, HubEvent.provenDeposit] using hmem
            exact (hproof id user after fee ts rfl).2
        | _ => simp [provenDeposits, HubEvent.provenDeposit] at hmem

/-! ## Conservation -/

/-- What a call of `requestSubscription` logs and writes. -/
lemma step_requestSubscription {sender : Address} {amount : Uint256}
    (h : w.Step (.manager sender (.requestSubscription amount)) w') :
    ∃ after fee : Uint256,
      w'.log = w.log ++
        [.mintRequested sender w.hub.subscriptionRequestCounter amount after fee] ∧
      after.toNat + fee.toNat = amount.toNat ∧
      fee.toNat = amount.toNat * w.hub.params.mintFee.toNat / 10000 ∧
      w'.hub.depositIdToDepositor = Function.update w.hub.depositIdToDepositor
        w.hub.subscriptionRequestCounter ⟨sender, after, 0⟩ := by
  have hexec := h.2
  simp only [exec, execManager, bind_eq_ok, pure_eq_ok, Prod.exists] at hexec
  obtain ⟨hub', token', hcall, rfl⟩ := hexec
  obtain ⟨after, fee, hlog, hbooks, -, -, hfee⟩ :=
    RWAHub.requestSubscription_spec w.prices (h.1 sender rfl).1 hcall
  obtain ⟨-, hamount, htable⟩ := hbooks.of_mintRequested
  exact ⟨after, fee, hlog, hamount, hfee, htable⟩

/-- What a call of `addProof` requires and logs. -/
lemma step_addProof {sender user : Address} {txHash : Bytes32} {after fee timestamp : Uint256}
    (h : w.Step (.manager sender (.addProof txHash user after fee timestamp)) w') :
    w'.log = w.log ++ [.depositProofAdded txHash user after fee timestamp] ∧
      (w.hub.depositIdToDepositor txHash).user = 0 := by
  have hexec := h.2
  simp only [exec, execManager, bind_eq_ok, pure_eq_ok] at hexec
  obtain ⟨hub', hcall, rfl⟩ := hexec
  obtain ⟨hlog, hbooks, -⟩ := RWAHub.addProof_spec w.prices hcall
  exact ⟨hlog, hbooks.of_depositProofAdded.1⟩

/-- The collateral a transition accepts for deposits, after fees. -/
def acceptedBy (t : Transition (World κ) (Action κ)) : ℕ :=
  match t.label with
  | .manager _ (.requestSubscription amount) =>
      amount.toNat - amount.toNat * t.pre.hub.params.mintFee.toNat / 10000
  | .manager _ (.addProof _ _ depositAmountAfterFee _ _) => depositAmountAfterFee.toNat
  | _ => 0

/-- The log records what is accepted. -/
lemma total_acceptedAmount (hfresh : w₀.Fresh) (hrun : Run Step w₀ tr w) :
    total HubEvent.acceptedAmount w.log = (tr.map acceptedBy).sum := by
  refine hfresh.total_log hrun (fun _ => rfl) ?_
  intro w a w' hstep
  by_cases hrequest : ∃ sender amount, a = .manager sender (.requestSubscription amount)
  · obtain ⟨sender, amount, rfl⟩ := hrequest
    obtain ⟨after, fee, hlog, hamount, hfee, -⟩ := step_requestSubscription hstep
    refine ⟨_, hlog, ?_⟩
    simp only [total_singleton, HubEvent.acceptedAmount, acceptedBy]
    omega
  · by_cases hproof : ∃ sender txHash user after fee timestamp,
        a = .manager sender (.addProof txHash user after fee timestamp)
    · obtain ⟨sender, txHash, user, after, fee, timestamp, rfl⟩ := hproof
      obtain ⟨hlog, -⟩ := step_addProof hstep
      exact ⟨_, hlog, by simp [HubEvent.acceptedAmount, acceptedBy]⟩
    · obtain ⟨es, hlog, hpath⟩ := hstep.emits
      refine ⟨es, hlog, ?_⟩
      have hnone : acceptedBy ⟨w, a, w'⟩ = 0 := by
        unfold acceptedBy
        split
        · next sender amount heq => exact absurd ⟨sender, amount, heq⟩ hrequest
        · next sender txHash user after fee timestamp heq =>
            exact absurd ⟨sender, txHash, user, after, fee, timestamp, heq⟩ hproof
        · rfl
      rw [hnone]
      refine total_eq_zero (hpath.labels fun b e b' hemit => ?_)
      cases hemit.2 with
      | requestSubscription => exact absurd ⟨_, _, rfl⟩ hrequest
      | addProof => exact absurd ⟨_, _, _, _, _, _, rfl⟩ hproof
      | _ => rfl

/-- The amount of a live entry. -/
def liveAmount (entry : Depositor) : ℕ :=
  if entry.user = 0 then 0 else entry.amountDepositedMinusFees.toNat

lemma slotWeight_claim (id : Bytes32) (entry : Depositor) :
    Ledger.slotWeight Ledger.byAmount id entry.claim = liveAmount entry := by
  unfold Depositor.claim liveAmount
  split <;> rfl

/-- **Deposit conservation.**  What was accepted is what the live entries hold plus what mints
were completed for. -/
theorem acceptedBy_conserved (hfresh : w₀.Fresh) (hrun : Run Step w₀ tr w)
    (hno : ∀ t ∈ tr, t.label.isOverwriteDepositor = false)
    (hproofs : ProofsAvoid tr (issuedDeposits w.log)) :
    (tr.map acceptedBy).sum =
      ∑ id, liveAmount (w.hub.depositIdToDepositor id) + total HubEvent.mintedForAmount w.log := by
  obtain ⟨-, hledger, -⟩ :=
    deposits_recorded hfresh hrun hno (List.Subset.refl _) hproofs
  have hopened : (Ledger.Event.openedWeight Ledger.byAmount) ∘ HubEvent.deposit =
      HubEvent.acceptedAmount := by
    funext e
    cases e <;> rfl
  have hsettled : (Ledger.Event.settledWeight Ledger.byAmount) ∘ HubEvent.deposit =
      HubEvent.mintedForAmount := by
    funext e
    cases e <;> rfl
  have houtstanding : Ledger.outstanding Ledger.byAmount w.books.depositLedger =
      ∑ id, liveAmount (w.hub.depositIdToDepositor id) := by
    exact Finset.sum_congr rfl fun id _ => slotWeight_claim id _
  have hsum := Ledger.conservation Ledger.byAmount hledger
  rw [List.map_map, List.map_map, hopened, hsettled, houtstanding] at hsum
  rw [← total_acceptedAmount hfresh hrun]
  exact hsum.symm

/-! ## Life cycle -/

/-- What one transition may do to the deposits. -/
structure LifeCycle (t : Transition (World κ) (Action κ)) : Prop where
  /-- A deposit starts without a price id. -/
  created : ∀ id, (t.pre.hub.depositIdToDepositor id).user = 0 →
    (t.post.hub.depositIdToDepositor id).user ≠ 0 →
      (t.post.hub.depositIdToDepositor id).priceId = 0
  /-- A deposit is claimed, or keeps its user, its amount and the price id it has. -/
  kept : ∀ id, (t.pre.hub.depositIdToDepositor id).user ≠ 0 →
    (id ∈ t.label.claimedDeposits ∧ t.post.hub.depositIdToDepositor id = .null) ∨
      ((t.post.hub.depositIdToDepositor id).user = (t.pre.hub.depositIdToDepositor id).user ∧
        (t.post.hub.depositIdToDepositor id).amountDepositedMinusFees =
          (t.pre.hub.depositIdToDepositor id).amountDepositedMinusFees ∧
        ((t.pre.hub.depositIdToDepositor id).priceId ≠ 0 →
          (t.post.hub.depositIdToDepositor id).priceId =
            (t.pre.hub.depositIdToDepositor id).priceId))

/-- A deposit starts without a price id: only a later call of the price setter attaches one. -/
lemma created_step (h : w.Step a w') (hno : a.isOverwriteDepositor = false)
    (hfree : (w.hub.depositIdToDepositor id).user = 0)
    (hlive : (w'.hub.depositIdToDepositor id).user ≠ 0) :
    (w'.hub.depositIdToDepositor id).priceId = 0 := by
  have hunset : ((w'.books.deposits id).user = 0 ∨ (w'.books.deposits id).priceId = 0 ∧
      ∀ sender ids priceIds, a ≠ .manager sender (.setPriceIdForDeposits ids priceIds)) := by
    refine (Step.emits h).invariant (P := fun b : Books => (b.deposits id).user = 0 ∨
      (b.deposits id).priceId = 0 ∧
        ∀ sender ids priceIds, a ≠ .manager sender (.setPriceIdForDeposits ids priceIds))
      (.inl hfree) ?_
    rintro b e b' hb ⟨hstep, hattributed⟩
    cases hstep with
    | mintRequested =>
        by_cases hsame : id = b.nextDeposit
        · subst hsame
          cases hattributed
          exact .inr ⟨by simp, by simp⟩
        · simpa only [Function.update_of_ne hsame] using hb
    | @depositProofAdded txHash =>
        by_cases hsame : id = txHash
        · subst hsame
          cases hattributed
          exact .inr ⟨by simp, by simp⟩
        · simpa only [Function.update_of_ne hsame] using hb
    | @priceIdSetForDeposit assigned priceId hassigned =>
        by_cases hsame : id = assigned
        · subst hsame
          cases hattributed
          rcases hb with hfree | ⟨-, hne⟩
          · exact absurd hfree hassigned
          · exact absurd rfl (hne _ _ _)
        · simpa only [Function.update_of_ne hsame] using hb
    | @mintCompleted claimed =>
        by_cases hsame : id = claimed
        · exact .inl (by simp [hsame, Depositor.null])
        · simpa only [Function.update_of_ne hsame] using hb
    | depositorOverwritten =>
        cases hattributed
        simp [Action.isOverwriteDepositor] at hno
    | _ => exact hb
  exact (hunset.resolve_left hlive).1

/-- Only its own claim takes a deposit away, and only an unset price id changes. -/
lemma kept_step (h : w.Step a w') (hno : a.isOverwriteDepositor = false)
    (hnext : ∀ sender amount, a = .manager sender (.requestSubscription amount) →
      (w.hub.depositIdToDepositor w.hub.subscriptionRequestCounter).user = 0)
    (hlive : (w.hub.depositIdToDepositor id).user ≠ 0) :
    (id ∈ a.claimedDeposits ∧ w'.hub.depositIdToDepositor id = .null) ∨
      ((w'.hub.depositIdToDepositor id).user = (w.hub.depositIdToDepositor id).user ∧
        (w'.hub.depositIdToDepositor id).amountDepositedMinusFees =
          (w.hub.depositIdToDepositor id).amountDepositedMinusFees ∧
        ((w.hub.depositIdToDepositor id).priceId ≠ 0 →
          (w'.hub.depositIdToDepositor id).priceId =
            (w.hub.depositIdToDepositor id).priceId)) := by
  by_cases hrequest : ∃ sender amount, a = .manager sender (.requestSubscription amount)
  · obtain ⟨sender, amount, rfl⟩ := hrequest
    have hfree := hnext sender amount rfl
    obtain ⟨after, fee, -, -, -, htable⟩ := step_requestSubscription h
    have hne : id ≠ w.hub.subscriptionRequestCounter := by
      rintro rfl
      exact hlive hfree
    have hsame : w'.hub.depositIdToDepositor id = w.hub.depositIdToDepositor id := by
      rw [htable, Function.update_of_ne hne]
    rw [hsame]
    exact .inr ⟨rfl, rfl, fun _ => rfl⟩
  · refine (Step.emits h).invariant (P := fun b : Books =>
      (id ∈ a.claimedDeposits ∧ b.deposits id = .null) ∨
        ((b.deposits id).user = (w.books.deposits id).user ∧
          (b.deposits id).amountDepositedMinusFees =
            (w.books.deposits id).amountDepositedMinusFees ∧
          ((w.books.deposits id).priceId ≠ 0 →
            (b.deposits id).priceId = (w.books.deposits id).priceId)))
      (.inr ⟨rfl, rfl, fun _ => rfl⟩) ?_
    rintro b e b' hb ⟨hstep, hattributed⟩
    cases hstep with
    | mintRequested =>
        cases hattributed
        exact absurd ⟨_, _, rfl⟩ hrequest
    | @depositProofAdded txHash user after fee timestamp hfree =>
        have hne : id ≠ txHash := by
          rintro rfl
          rcases hb with ⟨hclaimed, -⟩ | ⟨huser, -, -⟩
          · cases hattributed
            cases hclaimed
          · exact hlive (huser ▸ hfree)
        simpa only [Function.update_of_ne hne] using hb
    | @priceIdSetForDeposit assigned priceId hassigned hunset =>
        by_cases hsame : id = assigned
        · subst hsame
          rcases hb with ⟨-, hnull⟩ | ⟨huser, hamount, hpriceId⟩
          · rw [hnull] at hassigned
            exact absurd rfl hassigned
          · refine .inr ⟨by simpa using huser, by simpa using hamount, fun hset => ?_⟩
            rw [hpriceId hset] at hunset
            exact absurd hunset hset
        · simpa only [Function.update_of_ne hsame] using hb
    | @mintCompleted claimed =>
        by_cases hsame : id = claimed
        · subst hsame
          cases hattributed with
          | claimMint hid => exact .inl ⟨hid, by simp⟩
        · simpa only [Function.update_of_ne hsame] using hb
    | depositorOverwritten =>
        cases hattributed
        simp [Action.isOverwriteDepositor] at hno
    | _ => exact hb

/-- Along a run whose proofs avoid the issued ids, a subscription gets a free slot. -/
lemma requestSubscription_free (hfresh : w₀.Fresh) (hrun : Run Step w₀ tr w)
    (hno : ∀ t ∈ tr, t.label.isOverwriteDepositor = false)
    (hproofs : ProofsAvoid tr (issuedDeposits w.log)) {t : Transition (World κ) (Action κ)}
    (ht : t ∈ tr) {sender : Address} {amount : Uint256}
    (hlabel : t.label = .manager sender (.requestSubscription amount)) :
    (t.pre.hub.depositIdToDepositor t.pre.hub.subscriptionRequestCounter).user = 0 := by
  obtain ⟨tr', tr'', rfl, hpre, hstep⟩ := hrun.exists_prefix ht
  have hextends : t.pre.log <+: w.log := log_extends hrun (Run.visits_pre ht)
  obtain ⟨hrecorded, -, hproven⟩ := deposits_recorded hfresh hpre
    (fun t ht => hno t (List.mem_append_left _ ht)) (hextends.filterMap _).subset
    fun t ht => hproofs t (List.mem_append_left _ ht)
  refine hrecorded.next_free fun hmem => hproven _ hmem ?_
  -- The call itself issues the id.
  rw [hlabel] at hstep
  obtain ⟨after, fee, hlog, -⟩ := step_requestSubscription hstep
  have hissued : t.pre.hub.subscriptionRequestCounter ∈ issuedDeposits t.post.log := by
    rw [hlog, issuedDeposits_append]
    exact List.mem_append_right _ (List.mem_singleton.mpr rfl)
  exact ((log_extends hrun (Run.visits_post ht)).filterMap _).subset hissued

/-- A call of `claimMint` names each deposit once, finds a price for it, and mints to every
account what its deposits owed. -/
structure MintsOwed (t : Transition (World κ) (Action κ)) (ids : List Bytes32) : Prop where
  nodup : ids.Nodup
  priced : ∀ id ∈ ids, ∃ price,
    t.pre.prices (t.pre.hub.depositIdToDepositor id).priceId = .ok price ∧ price ≠ 0
  minted : ∀ account, (t.post.usbs.erc20.balances account).toNat =
    (t.pre.usbs.erc20.balances account).toNat +
      (ids.map fun id => if (t.pre.hub.depositIdToDepositor id).user = account
        then USBSManager.owed t.pre.hub t.pre.pricers id else 0).sum

lemma mintsOwed_step {sender : Address} {ids : List Bytes32}
    (h : w.Step (.manager sender (.claimMint ids)) w') :
    MintsOwed ⟨w, .manager sender (.claimMint ids), w'⟩ ids := by
  have hexec := h.2
  simp only [exec, execManager, USBSManager.claimMint, bind_eq_ok, revertIf_eq_ok, pure_eq_ok,
    exists_const, Prod.exists] at hexec
  obtain ⟨manager', usbs', ⟨-, hloop⟩, rfl⟩ := hexec
  obtain ⟨hnodup, hlive, hbalances⟩ := USBSManager.claimMint_loop hloop
  exact ⟨hnodup, fun id hid => (hlive id hid).2, hbalances⟩

/-- The deposit side of a run that ends in `w`. -/
structure DepositsConserved (tr : List (Transition (World κ) (Action κ))) (w : World κ) :
    Prop where
  /-- What was accepted is what the live entries hold plus what mints were completed for. -/
  conserved : (tr.map acceptedBy).sum =
    ∑ id, liveAmount (w.hub.depositIdToDepositor id) + total HubEvent.mintedForAmount w.log
  /-- Every transition respects the life cycle of the deposits. -/
  lifeCycle : ∀ t ∈ tr, LifeCycle t
  /-- Whoever calls `claimMint`, the recorded users get what they are owed. -/
  minted : ∀ t ∈ tr, ∀ sender ids, t.label = .manager sender (.claimMint ids) → MintsOwed t ids

/-- **Deposit ledger conservation and life cycle.**  In every run of a new manager without
`overwriteDepositor`, in which each proof names a user and a hash that is no issued id. -/
theorem deposits_conserved (hdeployed : w₀.Deployed) (hrun : Run Step w₀ tr w)
    (hno : ∀ t ∈ tr, t.label.isOverwriteDepositor = false)
    (hproofs : ProofsAvoid tr (issuedDeposits w.log)) : DepositsConserved tr w where
  conserved := acceptedBy_conserved hdeployed.fresh hrun hno hproofs
  lifeCycle t ht := by
    have hstep := hrun.step_of_mem ht
    exact
      { created := fun id hfree hlive => created_step hstep (hno t ht) hfree hlive
        kept := fun id hlive => kept_step hstep (hno t ht)
          (fun sender amount hlabel =>
            requestSubscription_free hdeployed.fresh hrun hno hproofs ht hlabel) hlive }
  minted t ht sender ids hlabel := by
    have hstep := hrun.step_of_mem ht
    obtain ⟨pre, a, post⟩ := t
    subst hlabel
    exact mintsOwed_step hstep

open Sample in
theorem deposits_conserved_sample :
    DepositsConserved (playTrace next world mintAndRedeem) (play next world mintAndRedeem) :=
  deposits_conserved world_deployed (run_play (fun _ _ _ => step_of_next) _ _)
    (by decide +kernel) (by decide +kernel)

end World

end BrivoUsbs
