import BrivoUsbs.Properties.DepositLedger

/-!
# Slots of the deposit table

The deposit table forgets: a claimed entry is deleted, and what was under its id before is only in
the log.  Two checks would have to remember more than the table does.

`addProof` rejects a transaction hash whose entry is live, but not one whose deposit has been
minted already.  `proofs_once_iff` says that a proof is credited once, and minted for once, on
exactly the runs that add no proof after its mint.

`requestSubscription` writes to the slot of its counter without looking.  `subscriptions_spare_iff`
says that it meets no pending deposit exactly if whatever was put under that id before has been
cleared again.
-/

namespace BrivoUsbs

/-! ## Proofs in the log -/

namespace HubEvent

/-- The event credits a proof of `txHash` to some user. -/
def provesFor (txHash : Bytes32) : HubEvent → Bool
  | .depositProofAdded h user _ _ _ => h = txHash ∧ user ≠ 0
  | _ => false

/-- The event issues `id` to a subscription. -/
def issues (id : Bytes32) : HubEvent → Bool
  | .mintRequested _ i _ _ _ => i = id
  | _ => false

lemma of_issues {id : Bytes32} {e : HubEvent} (h : e.issues id = true) :
    e.provesFor id = false ∧ e.completesMint id = false := by
  cases e with
  | mintRequested => exact ⟨rfl, rfl⟩
  | _ => cases h

/-- Follow slot `id`: whether a proof opened the deposit there last, and how many mints were
completed under `id` with that answer.  Only the next subscription under `id` takes the answer
back; a mint leaves it as it is, so every further mint for the same proof counts again. -/
def countMints (id : Bytes32) (state : Bool × ℕ) (e : HubEvent) : Bool × ℕ :=
  (e.provesFor id || (state.1 && !e.issues id),
    state.2 + (state.1 && e.completesMint id).toNat)

end HubEvent

/-- The mints completed for proofs of `txHash`. -/
def mintsForProof (txHash : Bytes32) (log : List HubEvent) : ℕ :=
  (log.foldl (HubEvent.countMints txHash) (false, 0)).2

/-- A proof of `txHash` was credited, and has been minted for since. -/
def spentProof (txHash : Bytes32) : List HubEvent → Bool
  | [] => false
  | e :: log =>
      (e.provesFor txHash && log.any (HubEvent.completesMint txHash)) || spentProof txHash log

section

variable {txHash : Bytes32} {log : List HubEvent} {e : HubEvent}

lemma spentProof_append :
    spentProof txHash (log ++ [e]) =
      (spentProof txHash log ||
        (log.any (HubEvent.provesFor txHash) && e.completesMint txHash)) := by
  induction log with
  | nil => simp [spentProof]
  | cons e' log ih =>
      simp only [List.cons_append, spentProof, ih, List.any_append, List.any_cons, List.any_nil,
        Bool.or_false]
      rw [Bool.and_or_distrib_left, Bool.and_or_distrib_right]
      ac_rfl

lemma any_provesFor_of_spentProof (h : spentProof txHash log = true) :
    0 < log.countP (HubEvent.provesFor txHash) := by
  induction log with
  | nil => cases h
  | cons e log ih =>
      rw [List.countP_cons]
      simp only [spentProof, Bool.or_eq_true, Bool.and_eq_true] at h
      rcases h with ⟨hproves, -⟩ | hrest
      · rw [if_pos hproves]
        omega
      · have hpos := ih hrest
        omega

end

/-! ## What the table holds back

Nothing in `countMints` or in the plain count of mints knows that a claim empties its slot; this
is what the replay of the books adds. -/

/-- Slot `id` holds a user. -/
def Books.live (b : Books) (id : Bytes32) : Bool := (b.deposits id).user ≠ 0

section

variable (b : Books) (id : Bytes32) (entry : Depositor) (next : Uint256)

lemma Books.live_update_self :
    live { b with
        deposits := Function.update b.deposits id entry
        nextDeposit := next } id = decide (entry.user ≠ 0) := by
  simp only [live, Function.update_self]

lemma Books.live_update_of_ne {i : Bytes32} (hne : i ≠ id) :
    live { b with
        deposits := Function.update b.deposits id entry
        nextDeposit := next } i = b.live i := by
  simp only [live, Function.update_of_ne hne]

end

/-- **The balance of one event.**  What is minted under an id, or live there afterwards, was live
before, or is opened by a proof or a subscription. -/
lemma Books.Step.balance {prices : Uint256 → Tx Error Uint256} {b b' : Books} {e : HubEvent}
    (h : Books.Step prices b e b')
    (hno : ∀ id u u' p p' a a', e ≠ .depositorOverwritten id u u' p p' a a') (id : Bytes32) :
    (e.completesMint id).toNat + (b'.live id).toNat ≤
      (b.live id).toNat + (e.provesFor id).toNat + (e.issues id).toNat := by
  -- An event that mints nothing under the id and leaves its slot.
  have hskip : e.completesMint id = false → b'.live id = b.live id →
      (e.completesMint id).toNat + (b'.live id).toNat ≤
        (b.live id).toNat + (e.provesFor id).toNat + (e.issues id).toNat := by
    intro hcompletes hlive
    rw [hcompletes, hlive, Bool.toNat_false]
    omega
  cases h with
  | mintRequested huser hnext hamount =>
      rcases eq_or_ne id b.nextDeposit with rfl | hne
      · simp only [live_update_self, decide_eq_true huser, HubEvent.completesMint,
          HubEvent.issues, decide_true, Bool.toNat_true, Bool.toNat_false]
        omega
      · exact hskip rfl (live_update_of_ne _ _ _ _ hne)
  | @depositProofAdded proven user after fee timestamp hfree =>
      rcases eq_or_ne id proven with rfl | hne
      · simp only [live_update_self, HubEvent.completesMint, HubEvent.provesFor, true_and,
          Bool.toNat_false]
        omega
      · exact hskip rfl (live_update_of_ne _ _ _ _ hne)
  | @priceIdSetForDeposit assigned priceId hassigned hunset =>
      rcases eq_or_ne id assigned with rfl | hne
      · exact hskip rfl (live_update_self _ _ _ _)
      · exact hskip rfl (live_update_of_ne _ _ _ _ hne)
  | @mintCompleted claimed out price hset huser =>
      rcases eq_or_ne id claimed with rfl | hne
      · have hbefore : b.live id = true := decide_eq_true huser
        simp only [live_update_self, hbefore, HubEvent.completesMint, Depositor.null,
          decide_true, ne_eq, not_true, decide_false, Bool.toNat_true, Bool.toNat_false]
        omega
      · exact hskip (decide_eq_false hne.symm) (live_update_of_ne _ _ _ _ hne)
  | depositorOverwritten => exact absurd rfl (hno _ _ _ _ _ _ _)
  | _ => exact hskip rfl rfl

/-- The mints completed under `txHash`, with the deposit that is still to be minted there, are
covered by what was opened under it. -/
structure MintsOpened (txHash : Bytes32) (log : List HubEvent) (b : Books) : Prop where
  /-- Those for a proof by the proofs credited. -/
  proven : mintsForProof txHash log +
      ((log.foldl (HubEvent.countMints txHash) (false, 0)).1 && b.live txHash).toNat ≤
    log.countP (HubEvent.provesFor txHash)
  /-- All of them by the proofs credited and the subscriptions issued. -/
  opened : log.countP (HubEvent.completesMint txHash) + (b.live txHash).toNat ≤
    log.countP (HubEvent.provesFor txHash) + log.countP (HubEvent.issues txHash)

namespace MintsOpened

variable {txHash : Bytes32} {log : List HubEvent} {b b' : Books} {e : HubEvent}

lemma initial (txHash : Bytes32) (multiplier : Uint256) :
    MintsOpened txHash [] (Books.initial multiplier) where
  proven := by simp [mintsForProof]
  opened := by simp [Books.live, Books.initial, Depositor.null]

/-- An event that balances keeps the mints covered. -/
lemma append (h : MintsOpened txHash log b)
    (hbalance : (e.completesMint txHash).toNat + (b'.live txHash).toNat ≤
      (b.live txHash).toNat + (e.provesFor txHash).toNat + (e.issues txHash).toNat) :
    MintsOpened txHash (log ++ [e]) b' := by
  obtain ⟨hproven, hopened⟩ := h
  have hcount : ∀ P : HubEvent → Bool, (log ++ [e]).countP P = log.countP P + (P e).toNat := by
    intro P
    rw [List.countP_append, List.countP_singleton]
    cases P e <;> rfl
  constructor
  · rw [mintsForProof] at hproven ⊢
    rw [List.foldl_append, List.foldl_cons, List.foldl_nil, hcount, HubEvent.countMints]
    generalize log.foldl (HubEvent.countMints txHash) (false, 0) = state at hproven ⊢
    obtain ⟨flag, mints⟩ := state
    cases flag with
    | false =>
        -- The count starts with the first proof.
        have hle := Bool.toNat_le_toNat (Bool.and_le_left (e.provesFor txHash) (b'.live txHash))
        simp only [Bool.false_and, Bool.or_false, Bool.toNat_false, Nat.add_zero] at hproven ⊢
        omega
    | true =>
        simp only [Bool.true_and] at hproven ⊢
        cases hissues : e.issues txHash with
        | true =>
            -- A subscription takes the slot: the deposit there is no longer the proof's.
            obtain ⟨hproves, hcompletes⟩ := HubEvent.of_issues hissues
            simp only [hproves, hcompletes, Bool.not_true, Bool.or_false, Bool.false_and,
              Bool.toNat_false, Nat.add_zero]
            omega
        | false =>
            rw [hissues] at hbalance
            simp only [Bool.not_false, Bool.or_true, Bool.true_and, Bool.toNat_false,
              Nat.add_zero] at hbalance ⊢
            omega
  · rw [hcount, hcount, hcount]
    omega

end MintsOpened

/-! ## A proof is credited once -/

namespace World

variable {κ : Type} {w₀ w w' : World κ} {tr : List (Transition (World κ) (Action κ))}
  {a : Action κ}

/-- Every transaction hash is credited at most once and backs at most one mint, and all that is
minted under it besides is minted for subscriptions that were issued it as their id. -/
def ProofsOnce (tr : List (Transition (World κ) (Action κ))) (w : World κ) : Prop :=
  ∀ txHash, tr.countP (fun t => t.label.creditsProof txHash) ≤ 1 ∧
    mintsForProof txHash w.log ≤ 1 ∧
    w.log.countP (HubEvent.completesMint txHash) ≤ 1 + w.log.countP (HubEvent.issues txHash)

/-- The transition adds a proof, for some user, whose deposit has been minted before. -/
def ReusesProof (t : Transition (World κ) (Action κ)) : Prop :=
  ∃ txHash, t.label.creditsProof txHash = true ∧ spentProof txHash t.pre.log = true

lemma creditsProof_iff {txHash : Bytes32} :
    a.creditsProof txHash = true ↔ ∃ proof ∈ a.addedProofs, proof.1 = txHash ∧ proof.2 ≠ 0 := by
  unfold Action.creditsProof Action.addedProofs
  split <;> simp

/-- Only the hash the transition adds has to be looked at. -/
lemma reusesProof_iff {t : Transition (World κ) (Action κ)} :
    ReusesProof t ↔
      ∃ proof ∈ t.label.addedProofs, proof.2 ≠ 0 ∧ spentProof proof.1 t.pre.log = true := by
  simp only [ReusesProof, creditsProof_iff]
  constructor
  · rintro ⟨_, ⟨proof, hadded, rfl, huser⟩, hspent⟩
    exact ⟨proof, hadded, huser, hspent⟩
  · rintro ⟨proof, hadded, huser, hspent⟩
    exact ⟨_, ⟨proof, hadded, rfl, huser⟩, hspent⟩

instance (t : Transition (World κ) (Action κ)) : Decidable (ReusesProof t) :=
  haveI : Decidable (∃ proof ∈ t.label.addedProofs,
      proof.2 ≠ 0 ∧ spentProof proof.1 t.pre.log = true) :=
    List.decidableBEx _ t.label.addedProofs
  decidable_of_iff _ reusesProof_iff.symm

variable [IERC20 κ]

lemma step_creditsProof {txHash : Bytes32} (h : w.Step a w')
    (hcredits : a.creditsProof txHash = true) :
    (w.hub.depositIdToDepositor txHash).user = 0 := by
  unfold Action.creditsProof at hcredits
  split at hcredits
  · simp only [decide_eq_true_eq] at hcredits
    obtain ⟨rfl, -⟩ := hcredits
    exact (step_addProof h).2
  · cases hcredits

/-- The log records the proofs credited. -/
lemma countP_provesFor (hfresh : w₀.Fresh) (hrun : Run Step w₀ tr w) (txHash : Bytes32) :
    w.log.countP (HubEvent.provesFor txHash) =
      tr.countP (fun t => t.label.creditsProof txHash) := by
  have htotal : total (fun e => if e.provesFor txHash then 1 else 0) w.log =
      (tr.map fun t => if t.label.creditsProof txHash then 1 else 0).sum := by
    refine hfresh.total_log hrun (fun _ => rfl) ?_
    intro w a w' hstep
    by_cases hproof : ∃ sender h user after fee timestamp,
        a = .manager sender (.addProof h user after fee timestamp)
    · obtain ⟨sender, h, user, after, fee, timestamp, rfl⟩ := hproof
      obtain ⟨hlog, -⟩ := step_addProof hstep
      exact ⟨_, hlog, total_singleton _ _⟩
    · obtain ⟨es, hlog, hpath⟩ := hstep.emits
      refine ⟨es, hlog, ?_⟩
      have hnone : a.creditsProof txHash = false := by
        unfold Action.creditsProof
        split
        · next sender h user after fee timestamp =>
            exact absurd ⟨sender, h, user, after, fee, timestamp, rfl⟩ hproof
        · rfl
      rw [hnone]
      refine total_eq_zero (hpath.labels fun b e b' hemit => ?_)
      cases hemit.2 with
      | addProof => exact absurd ⟨_, _, _, _, _, _, rfl⟩ hproof
      | _ => rfl
  rwa [total, Ledger.sum_boole_eq_countP, Ledger.sum_boole_eq_countP] at htotal

/-- Without `overwriteDepositor`, the deposit of a credited proof is live or has been minted. -/
lemma provesFor_live_or_spent (hfresh : w₀.Fresh) (hrun : Run Step w₀ tr w)
    (hno : ∀ t ∈ tr, t.label.isOverwriteDepositor = false) (txHash : Bytes32) :
    w.log.any (HubEvent.provesFor txHash) = true →
      (w.hub.depositIdToDepositor txHash).user ≠ 0 ∨ spentProof txHash w.log = true := by
  have hreplay := hfresh.replay hrun
  have hbooks : w.hub.depositIdToDepositor = w.books.deposits := rfl
  rw [hbooks]
  generalize w.log = log, w.books = b at hreplay ⊢
  induction hreplay with
  | nil => simp
  | @snoc log b b' e _ hlast ih =>
      rw [spentProof_append, List.any_append, Bool.or_eq_true, Bool.or_eq_true, Bool.and_eq_true]
      -- An event that neither proves nor completes leaves the three conditions alone.
      have hother : e.provesFor txHash = false → e.completesMint txHash = false →
          ((b.deposits txHash).user ≠ 0 → (b'.deposits txHash).user ≠ 0) →
            (log.any (HubEvent.provesFor txHash) = true ∨
              [e].any (HubEvent.provesFor txHash) = true) →
            (b'.deposits txHash).user ≠ 0 ∨ spentProof txHash log = true ∨
              log.any (HubEvent.provesFor txHash) = true ∧ e.completesMint txHash = true := by
        intro hproves hcompletes hkeeps hany
        rcases hany with hany | hany
        · exact (ih hany).imp hkeeps .inl
        · simp [hproves] at hany
      have hoverwrite := hlast.not_depositorOverwritten hno
      obtain ⟨prices, hstep⟩ := hlast.step
      cases hstep with
      | mintRequested huser hnext hamount =>
          refine hother rfl rfl fun hlive => ?_
          by_cases hsame : txHash = b.nextDeposit
          · simpa [hsame] using huser
          · simpa only [Function.update_of_ne hsame] using hlive
      | @depositProofAdded h user after fee timestamp hfree =>
          by_cases hsame : txHash = h
          · subst hsame
            by_cases huser : user = 0
            · refine hother ?_ rfl fun hlive => absurd hfree hlive
              simp [HubEvent.provesFor, huser]
            · exact fun _ => .inl (by simpa using huser)
          · refine hother ?_ rfl fun hlive => ?_
            · simp [HubEvent.provesFor, Ne.symm hsame]
            · simpa only [Function.update_of_ne hsame] using hlive
      | @priceIdSetForDeposit assigned priceId hlive hunset =>
          refine hother rfl rfl fun hlive => ?_
          by_cases hsame : txHash = assigned
          · simpa [hsame] using hsame ▸ hlive
          · simpa only [Function.update_of_ne hsame] using hlive
      | @mintCompleted claimed =>
          by_cases hsame : txHash = claimed
          · intro hany
            rcases hany with hany | hany
            · exact .inr (.inr ⟨hany, by simp [HubEvent.completesMint, hsame]⟩)
            · simp [HubEvent.provesFor] at hany
          · refine hother rfl ?_ fun hlive => ?_
            · simp [HubEvent.completesMint, Ne.symm hsame]
            · simpa only [Function.update_of_ne hsame] using hlive
      | depositorOverwritten => exact absurd rfl (hoverwrite _ _ _ _ _ _ _)
      | _ => exact hother rfl rfl id

/-- Without `overwriteDepositor`, the mints are covered by what was opened. -/
lemma mints_opened (hfresh : w₀.Fresh) (hrun : Run Step w₀ tr w)
    (hno : ∀ t ∈ tr, t.label.isOverwriteDepositor = false) (txHash : Bytes32) :
    MintsOpened txHash w.log w.books := by
  have hreplay := hfresh.replay hrun
  generalize w.log = log, w.books = b at hreplay ⊢
  induction hreplay with
  | nil => exact .initial _ _
  | snoc _ hlast ih =>
      obtain ⟨prices, hstep⟩ := hlast.step
      exact ih.append (hstep.balance (hlast.not_depositorOverwritten hno) txHash)

/-- **A deposit proof is credited once**, and backs at most one mint, on exactly the runs without
`overwriteDepositor` that add no proof whose deposit has been minted already. -/
theorem proofs_once_iff (hdeployed : w₀.Deployed) (hrun : Run Step w₀ tr w)
    (hno : ∀ t ∈ tr, t.label.isOverwriteDepositor = false) :
    ProofsOnce tr w ↔ ∀ t ∈ tr, ¬ ReusesProof t := by
  constructor
  · rintro honce t ht ⟨txHash, hcredits, hspent⟩
    obtain ⟨tr', tr'', rfl, hpre, -⟩ := hrun.exists_prefix ht
    -- The proof was credited before, and is credited again.
    have hbefore := any_provesFor_of_spentProof hspent
    rw [countP_provesFor hdeployed.fresh hpre] at hbefore
    have hcount := (honce txHash).1
    rw [List.countP_append, List.countP_cons, if_pos hcredits] at hcount
    omega
  · intro hreuse txHash
    have hcount : tr.countP (fun t => t.label.creditsProof txHash) ≤ 1 := by
      induction hrun using Run.induction with
      | nil => simp
      | snoc tr w a w' hinit hlast ih =>
          have hbefore := ih (fun t ht => hno t (List.mem_append_left _ ht))
            fun t ht => hreuse t (List.mem_append_left _ ht)
          rw [List.countP_append, List.countP_singleton]
          by_cases hcredits : a.creditsProof txHash = true
          · have hfree := step_creditsProof hlast hcredits
            have hnone : tr.countP (fun t => t.label.creditsProof txHash) = 0 := by
              by_contra hpos
              rw [← countP_provesFor hdeployed.fresh hinit] at hpos
              have hany : w.log.any (HubEvent.provesFor txHash) = true :=
                List.any_eq_true.mpr (List.countP_pos_iff.mp (Nat.pos_of_ne_zero hpos))
              rcases provesFor_live_or_spent hdeployed.fresh hinit
                (fun t ht => hno t (List.mem_append_left _ ht)) txHash hany with hlive | hspent
              · exact hlive hfree
              · exact hreuse ⟨w, a, w'⟩ (by simp) ⟨txHash, hcredits, hspent⟩
            rw [hnone]
            split <;> simp
          · rw [if_neg (by simpa using hcredits)]
            exact hbefore
    obtain ⟨hproven, hopened⟩ := mints_opened hdeployed.fresh hrun hno txHash
    rw [countP_provesFor hdeployed.fresh hrun] at hproven hopened
    exact ⟨hcount, by omega, by omega⟩

open Sample in
theorem proofs_once_sample :
    (playTrace next world mintAndRedeem).countP (fun t => t.label.creditsProof 0xABCD) = 1 ∧
      mintsForProof 0xABCD (play next world mintAndRedeem).log = 1 ∧
      ProofsOnce (playTrace next world mintAndRedeem) (play next world mintAndRedeem) :=
  ⟨by decide +kernel, by decide +kernel,
    (proofs_once_iff world_deployed (run_play (fun _ _ _ => step_of_next) _ _)
      (by decide +kernel)).mpr (by decide +kernel)⟩

open Sample in
/-- The relayer adds the proof of one off-chain transfer again after its mint. -/
def reusedProof : List (Action ERC20) := setup ++ [
  .pricer pricerAddress operator (.addPrice 1000000000000000000 999999),
  .manager operator (.addProof 0xABCD customer 50000000 0 999999),
  .manager operator (.setPriceIdForDeposits [0xABCD] [1]),
  .manager operator (.setClaimableTimestamp 1000000 [0xABCD]),
  .manager customer (.claimMint [0xABCD]),
  .manager operator (.addProof 0xABCD customer 50000000 0 999999),
  .manager operator (.setPriceIdForDeposits [0xABCD] [1]),
  .manager operator (.setClaimableTimestamp 1000000 [0xABCD]),
  .manager customer (.claimMint [0xABCD])]

open Sample in
/-- The proof is credited twice, and the customer is minted twice the 50 USBS it is worth. -/
theorem reusedProof_credited_twice :
    world.Deployed ∧
      Run Step world (playTrace next world reusedProof) (play next world reusedProof) ∧
      (∀ t ∈ playTrace next world reusedProof, t.label.isOverwriteDepositor = false) ∧
      ¬ ProofsOnce (playTrace next world reusedProof) (play next world reusedProof) ∧
      (playTrace next world reusedProof).countP (fun t => t.label.creditsProof 0xABCD) = 2 ∧
      mintsForProof 0xABCD (play next world reusedProof).log = 2 ∧
      (play next world reusedProof).usbs.erc20.balances customer = 100000000000000000000 := by
  have htwice : (playTrace next world reusedProof).countP
      (fun t => t.label.creditsProof 0xABCD) = 2 := by
    decide +kernel
  refine ⟨world_deployed, run_play (fun _ _ _ => step_of_next) _ _, by decide +kernel, ?_, htwice,
    by decide +kernel, by decide +kernel⟩
  intro honce
  have hcount := (honce 0xABCD).1
  omega

/-! ## A subscription meets no pending deposit -/

end World

namespace HubEvent

/-- The event puts a user into slot `id` other than through a subscription. -/
def occupies (id : Bytes32) : HubEvent → Bool
  | .depositProofAdded h user _ _ _ => h = id ∧ user ≠ 0
  | .depositorOverwritten i _ user _ _ _ _ => i = id ∧ user ≠ 0
  | _ => false

/-- The event clears slot `id`. -/
def vacates (id : Bytes32) : HubEvent → Bool
  | .mintCompleted _ i _ _ _ _ => i = id
  | .depositorOverwritten i _ user _ _ _ _ => i = id ∧ user = 0
  | _ => false

end HubEvent

/-- A proof or an overwrite has put a user into slot `id`, and nothing has cleared it since. -/
def occupied (id : Bytes32) (log : List HubEvent) : Bool :=
  log.foldl (fun state e => e.occupies id || (state && !e.vacates id)) false

lemma occupied_append {id : Bytes32} {log : List HubEvent} {e : HubEvent} :
    occupied id (log ++ [e]) = (e.occupies id || (occupied id log && !e.vacates id)) := by
  simp [occupied]

namespace World

variable {κ : Type} {w₀ w w' : World κ} {tr : List (Transition (World κ) (Action κ))}
  {a : Action κ}

/-- The slot the transition issues is free, and it changes no live deposit. -/
def SparesDeposits (t : Transition (World κ) (Action κ)) : Prop :=
  (t.pre.hub.depositIdToDepositor t.pre.hub.subscriptionRequestCounter).user = 0 ∧
    ∀ id, (t.pre.hub.depositIdToDepositor id).user ≠ 0 →
      t.post.hub.depositIdToDepositor id = t.pre.hub.depositIdToDepositor id

variable [IERC20 κ]

/-- A subscription writes to the slot it issues only. -/
lemma step_requestSubscription_entry (h : w.Step a w')
    (hrequest : a.isRequestSubscription = true) {id : Bytes32}
    (hne : id ≠ w.hub.subscriptionRequestCounter) :
    w'.hub.depositIdToDepositor id = w.hub.depositIdToDepositor id := by
  unfold Action.isRequestSubscription at hrequest
  split at hrequest
  · obtain ⟨after, fee, -, -, -, htable⟩ := step_requestSubscription h
    rw [htable, Function.update_of_ne hne]
  · cases hrequest

/-- A slot no subscription was issued holds a user exactly if the log says it is occupied. -/
lemma live_iff_occupied (hfresh : w₀.Fresh) (hrun : Run Step w₀ tr w) :
    Consecutive (issuedDeposits w.log) w.hub.subscriptionRequestCounter ∧
      ∀ id, id ∉ issuedDeposits w.log →
        ((w.hub.depositIdToDepositor id).user ≠ 0 ↔ occupied id w.log = true) := by
  have hreplay := hfresh.replay hrun
  have hbooks : w.hub.depositIdToDepositor = w.books.deposits ∧
    w.hub.subscriptionRequestCounter = w.books.nextDeposit := ⟨rfl, rfl⟩
  rw [hbooks.1, hbooks.2]
  generalize w.log = log, w.books = b at hreplay ⊢
  induction hreplay with
  | nil => exact ⟨⟨rfl, rfl⟩, by simp [Books.initial, Depositor.null, occupied]⟩
  | @snoc log b b' e _ hlast ih =>
      obtain ⟨hissued, hlive⟩ := ih
      obtain ⟨prices, hstep⟩ := hlast.step
      -- An event that neither occupies nor vacates a slot leaves both sides alone.
      have hother : ∀ id, e.occupies id = false → e.vacates id = false →
          (b'.deposits id).user = (b.deposits id).user → id ∉ issuedDeposits (log ++ [e]) →
            ((b'.deposits id).user ≠ 0 ↔ occupied id (log ++ [e]) = true) := by
        intro id hoccupies hvacates huser hid
        rw [issuedDeposits_append] at hid
        rw [huser, occupied_append, hoccupies, hvacates, Bool.false_or, Bool.not_false,
          Bool.and_true]
        exact hlive id fun hmem => hid (List.mem_append_left _ hmem)
      have hskip : issuedDeposits [e] = [] →
          Consecutive (issuedDeposits (log ++ [e])) b.nextDeposit := by
        intro he
        rwa [issuedDeposits_append, he, List.append_nil]
      cases hstep with
      | mintRequested huser hnext hamount =>
          refine ⟨?_, fun id hid => hother id rfl rfl ?_ hid⟩
          · rw [issuedDeposits_append]
            exact hissued.snoc hnext
          · have hne : id ≠ b.nextDeposit := by
              rintro rfl
              rw [issuedDeposits_append] at hid
              exact hid (List.mem_append_right _ (List.mem_singleton.mpr rfl))
            simp only [Function.update_of_ne hne]
      | @depositProofAdded h user after fee timestamp hfree =>
          refine ⟨hskip rfl, fun id hid => ?_⟩
          by_cases hsame : id = h
          · subst hsame
            have hempty : occupied id log = false := by
              rw [issuedDeposits_append] at hid
              have hiff := hlive id fun hmem => hid (List.mem_append_left _ hmem)
              simpa [hfree] using hiff
            simp [occupied_append, hempty, HubEvent.occupies]
          · exact hother id (by simp [HubEvent.occupies, Ne.symm hsame]) rfl
              (by simp only [Function.update_of_ne hsame]) hid
      | @priceIdSetForDeposit assigned priceId hassigned hunset =>
          refine ⟨hskip rfl, fun id hid => hother id rfl rfl ?_ hid⟩
          by_cases hsame : id = assigned
          · simp [hsame]
          · simp only [Function.update_of_ne hsame]
      | @mintCompleted claimed =>
          refine ⟨hskip rfl, fun id hid => ?_⟩
          by_cases hsame : id = claimed
          · simp [hsame, occupied_append, HubEvent.occupies, HubEvent.vacates, Depositor.null]
          · exact hother id rfl (by simp [HubEvent.vacates, Ne.symm hsame])
              (by simp only [Function.update_of_ne hsame]) hid
      | @depositorOverwritten overwritten user =>
          refine ⟨hskip rfl, fun id hid => ?_⟩
          by_cases hsame : id = overwritten
          · by_cases huser : user = 0 <;>
              simp [hsame, occupied_append, HubEvent.occupies, HubEvent.vacates, huser]
          · exact hother id (by simp [HubEvent.occupies, Ne.symm hsame])
              (by simp [HubEvent.vacates, Ne.symm hsame])
              (by simp only [Function.update_of_ne hsame]) hid
      | _ => exact ⟨hskip rfl, fun id hid => hother id rfl rfl rfl hid⟩

/-- **A subscription meets no pending deposit** in exactly the runs in which, whenever one
succeeds, whatever proofs and overwrites put under its id has been cleared. -/
theorem subscriptions_spare_iff (hdeployed : w₀.Deployed) (hrun : Run Step w₀ tr w) :
    (∀ t ∈ tr, t.label.isRequestSubscription = true → SparesDeposits t) ↔
      ∀ t ∈ tr, t.label.isRequestSubscription = true →
        occupied t.pre.hub.subscriptionRequestCounter t.pre.log = false := by
  refine forall₂_congr fun t ht => imp_congr_right fun hrequest => ?_
  obtain ⟨tr', tr'', -, hpre, hstep⟩ := hrun.exists_prefix ht
  obtain ⟨hissued, hlive⟩ := live_iff_occupied hdeployed.fresh hpre
  have hslot := hlive _ hissued.next_notMem
  constructor
  · rintro ⟨hfree, -⟩
    simpa [hfree] using hslot
  · intro hempty
    have hfree :
        (t.pre.hub.depositIdToDepositor t.pre.hub.subscriptionRequestCounter).user = 0 := by
      simpa [hempty] using hslot
    refine ⟨hfree, fun id hid => ?_⟩
    have hne : id ≠ t.pre.hub.subscriptionRequestCounter := by
      rintro rfl
      exact hid hfree
    exact step_requestSubscription_entry hstep hrequest hne

open Sample in
theorem subscriptions_spare_sample :
    (playTrace next world mintAndRedeem).any (fun t => t.label.isRequestSubscription) = true ∧
      ∀ t ∈ playTrace next world mintAndRedeem, t.label.isRequestSubscription = true →
        SparesDeposits t :=
  ⟨by decide +kernel, (subscriptions_spare_iff world_deployed
    (run_play (fun _ _ _ => step_of_next) _ _)).mpr (by decide +kernel)⟩

open Sample in
/-- A proof is added under the id the next subscription will be issued. -/
def collidingProof : List (Action ERC20) := setup ++ [
  .manager operator (.addProof 1 operator 50000000 0 999999),
  .manager customer (.requestSubscription 100000000)]

open Sample in
/-- The subscription destroys the operator's pending deposit. -/
theorem collidingProof_destroyed :
    world.Deployed ∧
      Run Step world (playTrace next world collidingProof) (play next world collidingProof) ∧
      ∃ t ∈ playTrace next world collidingProof, t.label.isRequestSubscription = true ∧
        t.pre.hub.subscriptionRequestCounter = 1 ∧
        t.pre.hub.depositIdToDepositor 1 = ⟨operator, 50000000, 0⟩ ∧
        t.post.hub.depositIdToDepositor 1 = ⟨customer, 100000000, 0⟩ ∧ ¬ SparesDeposits t := by
  have hdestroyed : ∃ t ∈ playTrace next world collidingProof,
      t.label.isRequestSubscription = true ∧ t.pre.hub.subscriptionRequestCounter = 1 ∧
        t.pre.hub.depositIdToDepositor 1 = ⟨operator, 50000000, 0⟩ ∧
        t.post.hub.depositIdToDepositor 1 = ⟨customer, 100000000, 0⟩ := by
    decide +kernel
  refine ⟨world_deployed, run_play (fun _ _ _ => step_of_next) _ _, ?_⟩
  obtain ⟨t, ht, hrequest, hcounter, hpre, hpost⟩ := hdestroyed
  refine ⟨t, ht, hrequest, hcounter, hpre, hpost, fun hspares => ?_⟩
  have hfree := hspares.1
  rw [hcounter, hpre] at hfree
  exact absurd hfree (by decide)

end World

end BrivoUsbs
