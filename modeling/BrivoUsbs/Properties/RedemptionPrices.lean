import BrivoUsbs.Properties.RedemptionLedger

/-!
# Price ids of redemptions

`setPriceIdForDeposits` only writes to live entries.  `setPriceIdForRedemptions` does not look at
the user, so it also writes price ids into slots no request has used yet, into slots of settled
redemptions, and into the slots of off-chain ids.  Such a price id sits on an entry without a
user, and the next request that is issued the slot wipes it out.

Assigning to live entries only is all that is missing: `priceIds_attached_iff` says that the
redemption side keeps the discipline of the deposit side on exactly the runs that do.
-/

namespace BrivoUsbs

/-! ## One call of the price setter -/

namespace RWAHub

variable {hub hub' : RWAHub} {l : List (Bytes32 × Uint256)}

/-- The loop skips no slot it has set: setting it again would revert. -/
lemma setPriceIdForRedemption_kept {id : Bytes32}
    (h : l.foldlM setPriceIdForRedemption hub = .ok hub')
    (hset : (hub.redemptionIdToRedeemer id).priceId ≠ 0) :
    hub'.redemptionIdToRedeemer id = hub.redemptionIdToRedeemer id := by
  refine foldlM_invariant
    (P := fun s => s.redemptionIdToRedeemer id = hub.redemptionIdToRedeemer id) ?_ rfl h
  rintro ⟨i, priceId⟩ - s s' hs hentry
  simp only [setPriceIdForRedemption, bind_eq_ok, revertIf_eq_ok, pure_eq_ok, not_not,
    exists_const] at hentry
  obtain ⟨hunset, rfl⟩ := hentry
  have hne : id ≠ i := by
    rintro rfl
    rw [hs] at hunset
    exact hset hunset
  simpa only [Function.update_of_ne hne] using hs

/-- The loop attaches every price id of its list. -/
lemma setPriceIdForRedemption_assigned {id : Bytes32} {priceId : Uint256}
    (h : l.foldlM setPriceIdForRedemption hub = .ok hub') (hmem : (id, priceId) ∈ l)
    (hpriceId : priceId ≠ 0) : (hub'.redemptionIdToRedeemer id).priceId = priceId := by
  induction l generalizing hub with
  | nil => simp at hmem
  | cons assignment l ih =>
      simp only [List.foldlM_cons, bind_eq_ok] at h
      obtain ⟨mid, hfirst, hrest⟩ := h
      rcases List.mem_cons.mp hmem with heq | hmem
      · subst heq
        simp only [setPriceIdForRedemption, bind_eq_ok, revertIf_eq_ok, pure_eq_ok, not_not,
          exists_const] at hfirst
        obtain ⟨-, rfl⟩ := hfirst
        rw [setPriceIdForRedemption_kept hrest (by simpa using hpriceId)]
        simp
      · exact ih hrest hmem

/-- The loop leaves every user alone. -/
lemma setPriceIdForRedemption_user (h : l.foldlM setPriceIdForRedemption hub = .ok hub')
    (id : Bytes32) :
    (hub'.redemptionIdToRedeemer id).user = (hub.redemptionIdToRedeemer id).user := by
  refine foldlM_invariant (P := fun s => (s.redemptionIdToRedeemer id).user =
    (hub.redemptionIdToRedeemer id).user) ?_ rfl h
  rintro ⟨i, priceId⟩ - s s' hs hentry
  simp only [setPriceIdForRedemption, bind_eq_ok, revertIf_eq_ok, pure_eq_ok, not_not,
    exists_const] at hentry
  obtain ⟨-, rfl⟩ := hentry
  by_cases hsame : id = i
  · subst hsame
    simpa using hs
  · simpa only [Function.update_of_ne hsame] using hs

/-- The loop writes no price id but those of its list. -/
lemma setPriceIdForRedemption_priceId (h : l.foldlM setPriceIdForRedemption hub = .ok hub')
    (id : Bytes32) :
    (hub'.redemptionIdToRedeemer id).priceId = (hub.redemptionIdToRedeemer id).priceId ∨
      (id, (hub'.redemptionIdToRedeemer id).priceId) ∈ l := by
  refine foldlM_invariant (P := fun s => (s.redemptionIdToRedeemer id).priceId =
    (hub.redemptionIdToRedeemer id).priceId ∨ (id, (s.redemptionIdToRedeemer id).priceId) ∈ l)
    ?_ (.inl rfl) h
  rintro ⟨i, priceId⟩ hmem s s' hs hentry
  simp only [setPriceIdForRedemption, bind_eq_ok, revertIf_eq_ok, pure_eq_ok, not_not,
    exists_const] at hentry
  obtain ⟨-, rfl⟩ := hentry
  by_cases hsame : id = i
  · subst hsame
    simpa using .inr hmem
  · simpa only [Function.update_of_ne hsame] using hs

end RWAHub

namespace World

variable {κ : Type} [IERC20 κ] {w₀ w w' : World κ}
  {tr : List (Transition (World κ) (Action κ))} {a : Action κ} {sender : Address}

/-- What a call of `setPriceIdForRedemptions` does to the table. -/
lemma step_setPriceIdForRedemptions {ids : List Bytes32} {priceIds : List Uint256}
    (h : w.Step (.manager sender (.setPriceIdForRedemptions ids priceIds)) w') :
    (∀ id, (w'.hub.redemptionIdToRedeemer id).user = (w.hub.redemptionIdToRedeemer id).user) ∧
      (∀ id priceId, (id, priceId) ∈ ids.zip priceIds → priceId ≠ 0 →
        (w'.hub.redemptionIdToRedeemer id).priceId = priceId) ∧
      ∀ id, (w'.hub.redemptionIdToRedeemer id).priceId =
          (w.hub.redemptionIdToRedeemer id).priceId ∨
        (id, (w'.hub.redemptionIdToRedeemer id).priceId) ∈ ids.zip priceIds := by
  have hexec := h.2
  simp only [exec, execManager, RWAHub.setPriceIdForRedemptions, bind_eq_ok, revertIf_eq_ok,
    pure_eq_ok, exists_const] at hexec
  obtain ⟨hub', ⟨_, -, -, hloop⟩, rfl⟩ := hexec
  exact ⟨RWAHub.setPriceIdForRedemption_user hloop,
    fun id priceId => RWAHub.setPriceIdForRedemption_assigned hloop,
    RWAHub.setPriceIdForRedemption_priceId hloop⟩

/-! ## Attached price ids -/

/-- Attached price ids sit on live entries. -/
def PriceIdsLive (w : World κ) : Prop :=
  ∀ id, (w.hub.redemptionIdToRedeemer id).priceId ≠ 0 →
    (w.hub.redemptionIdToRedeemer id).user ≠ 0

/-- The transition keeps every attached price id, unless it settles the redemption. -/
def KeepsPriceIds (t : Transition (World κ) (Action κ)) : Prop :=
  ∀ id, (t.pre.hub.redemptionIdToRedeemer id).priceId ≠ 0 →
    (t.post.hub.redemptionIdToRedeemer id).priceId =
        (t.pre.hub.redemptionIdToRedeemer id).priceId ∨
      id ∈ t.label.claimedRedemptions

/-- In every state of the run attached price ids sit on live entries, and no transition loses
one. -/
def PriceIdsAttached (tr : List (Transition (World κ) (Action κ))) (w : World κ) : Prop :=
  (∀ s, Run.Visits tr w s → s.PriceIdsLive) ∧ ∀ t ∈ tr, KeepsPriceIds t

/-- The transition attaches price ids to live redemptions only. -/
def AssignsToLive (t : Transition (World κ) (Action κ)) : Prop :=
  ∀ assignment ∈ t.label.redemptionAssignments, assignment.2 ≠ 0 →
    (t.pre.hub.redemptionIdToRedeemer assignment.1).user ≠ 0

instance (t : Transition (World κ) (Action κ)) : Decidable (AssignsToLive t) :=
  List.decidableBAll _ t.label.redemptionAssignments

lemma priceIdsLive_step (h : w.Step a w') (hno : a.isOverwriteRedeemer = false)
    (hassigns : AssignsToLive ⟨w, a, w'⟩) (hlive : w.PriceIdsLive) : w'.PriceIdsLive := by
  by_cases ha : ∃ sender ids priceIds, a = .manager sender (.setPriceIdForRedemptions ids priceIds)
  · obtain ⟨sender, ids, priceIds, rfl⟩ := ha
    obtain ⟨husers, -, hpriceIds⟩ := step_setPriceIdForRedemptions h
    intro id hset
    rw [husers]
    rcases hpriceIds id with hsame | hmem
    · exact hlive id (hsame ▸ hset)
    · exact hassigns _ hmem hset
  · refine (Step.emits h).invariant (P := fun b : Books => ∀ id, (b.redemptions id).priceId ≠ 0 →
      (b.redemptions id).user ≠ 0) hlive ?_
    rintro b e b' hb ⟨hstep, hattributed⟩
    cases hstep with
    | redemptionRequested huser hnext =>
        intro id hset
        by_cases hsame : id = b.nextRedemption
        · simpa [hsame] using huser
        · simp only [Function.update_of_ne hsame] at hset ⊢
          exact hb id hset
    | @redemptionCompleted settled =>
        intro id hset
        by_cases hsame : id = settled
        · simp [hsame, Redeemer.null] at hset
        · simp only [Function.update_of_ne hsame] at hset ⊢
          exact hb id hset
    | priceIdSetForRedemption hunset =>
        cases hattributed
        exact absurd ⟨_, _, _, rfl⟩ ha
    | redeemerOverwritten =>
        cases hattributed
        simp [Action.isOverwriteRedeemer] at hno
    | _ => exact hb

/-- Nothing but a settlement takes a price id from a live entry: the price setter refuses to
assign twice, and a request never meets a live entry. -/
lemma keepsPriceIds_step (h : w.Step a w') (hno : a.isOverwriteRedeemer = false)
    (hrecorded : RedemptionsRecorded w.log w.books) (hlive : w.PriceIdsLive) :
    KeepsPriceIds ⟨w, a, w'⟩ := by
  intro id hset
  by_cases hclaim : id ∈ a.claimedRedemptions
  · exact .inr hclaim
  · left
    have hlt : id.toNat < w.books.nextRedemption.toNat :=
      hrecorded.issued.lt_next
        (RedemptionsRecorded.requested_issued (hrecorded.requested id (hlive id hset)))
    have hkept := (Step.emits h).invariant (P := fun b : Books =>
      b.redemptions id = w.books.redemptions id ∧ id.toNat < b.nextRedemption.toNat) ⟨rfl, hlt⟩ ?_
    · exact congrArg Redeemer.priceId hkept.1
    rintro b e b' ⟨hsame, hb⟩ ⟨hstep, hattributed⟩
    cases hstep with
    | redemptionRequested huser hnext =>
        have hne : id ≠ b.nextRedemption := by
          rintro rfl
          exact lt_irrefl _ hb
        simp only [Function.update_of_ne hne]
        exact ⟨hsame, by omega⟩
    | redemptionRequestedServicedOffChain hnext => exact ⟨hsame, by simp only; omega⟩
    | @priceIdSetForRedemption assigned priceId hunset =>
        have hne : id ≠ assigned := by
          rintro rfl
          rw [hsame] at hunset
          exact hset hunset
        simp only [Function.update_of_ne hne]
        exact ⟨hsame, hb⟩
    | @redemptionCompleted settled =>
        have hne : id ≠ settled := by
          rintro rfl
          cases hattributed with
          | claimRedemption hid => exact hclaim hid
        simp only [Function.update_of_ne hne]
        exact ⟨hsame, hb⟩
    | redeemerOverwritten =>
        cases hattributed
        simp [Action.isOverwriteRedeemer] at hno
    | _ => exact ⟨hsame, hb⟩

/-- **Price ids sit on live redemptions and stay there** on exactly the runs without
`overwriteRedeemer` in which price ids are assigned to live redemptions only. -/
theorem priceIds_attached_iff (hdeployed : w₀.Deployed) (hrun : Run Step w₀ tr w)
    (hno : ∀ t ∈ tr, t.label.isOverwriteRedeemer = false) :
    PriceIdsAttached tr w ↔ ∀ t ∈ tr, AssignsToLive t := by
  constructor
  · rintro ⟨hlive, -⟩ t ht ⟨id, priceId⟩ hmem hpriceId
    obtain ⟨tr', tr'', -, -, hstep⟩ := hrun.exists_prefix ht
    obtain ⟨pre, a, post⟩ := t
    -- Only one kind of call assigns anything.
    cases a with
    | manager sender call =>
        cases call with
        | setPriceIdForRedemptions ids priceIds =>
            obtain ⟨husers, hassigned, -⟩ := step_setPriceIdForRedemptions hstep
            have hset : (post.hub.redemptionIdToRedeemer id).priceId ≠ 0 := by
              rw [hassigned id priceId hmem hpriceId]
              exact hpriceId
            rw [← husers]
            exact hlive post (.inr ⟨_, ht, .inr rfl⟩) id hset
        | _ => cases hmem
    | _ => cases hmem
  · intro hassigns
    have hinitial : w₀.PriceIdsLive := by
      intro id hset
      have hbooks := congrArg (fun b => (b.redemptions id).priceId) hdeployed.fresh.books
      exact absurd hbooks hset
    obtain ⟨hend, hall⟩ := hrun.invariant hinitial fun t ht hpre hstep =>
      priceIdsLive_step hstep (hno t ht) (hassigns t ht) hpre
    refine ⟨?_, fun t ht => ?_⟩
    · rintro s (rfl | ⟨t, ht, rfl | rfl⟩)
      · exact hend
      · exact (hall t ht).1
      · exact (hall t ht).2
    · obtain ⟨tr', tr'', rfl, hpre, hstep⟩ := hrun.exists_prefix ht
      have hrecorded := redemptions_recorded hdeployed.fresh hpre fun t ht =>
        hno t (List.mem_append_left _ ht)
      exact keepsPriceIds_step hstep (hno t ht) hrecorded.1 (hall t ht).1

open Sample in
theorem priceIds_attached_sample :
    PriceIdsAttached (playTrace next world mintAndRedeem) (play next world mintAndRedeem) :=
  (priceIds_attached_iff world_deployed (run_play (fun _ _ _ => step_of_next) _ _)
    (by decide +kernel)).mpr (by decide +kernel)

open Sample in
/-- A price id is assigned to redemption 1 before anybody has requested it. -/
def earlyPriceId : List (Action ERC20) := setup ++ [
  .pricer pricerAddress operator (.addPrice 1000000000000000000 999999),
  .manager operator (.setPriceIdForRedemptions [1] [1]),
  .manager customer (.requestSubscription 100000000),
  .manager operator (.setPriceIdForDeposits [1] [1]),
  .manager operator (.setClaimableTimestamp 1000000 [1]),
  .manager customer (.claimMint [1]),
  .usbs customer (.holder (.approve managerAddress 1000000000000000000000)),
  .manager customer (.requestRedemption 60000000000000000000)]

open Sample in
/-- In this run the price id sits on an entry without a user, and the request then wipes it
out. -/
theorem earlyPriceId_lost :
    world.Deployed ∧
      Run Step world (playTrace next world earlyPriceId) (play next world earlyPriceId) ∧
      (∀ t ∈ playTrace next world earlyPriceId, t.label.isOverwriteRedeemer = false) ∧
      (¬ ∀ s, Run.Visits (playTrace next world earlyPriceId) (play next world earlyPriceId) s →
        s.PriceIdsLive) ∧
      ¬ ∀ t ∈ playTrace next world earlyPriceId, KeepsPriceIds t := by
  have hdangling : ∃ t ∈ playTrace next world earlyPriceId,
      (t.post.hub.redemptionIdToRedeemer 1).priceId ≠ 0 ∧
        (t.post.hub.redemptionIdToRedeemer 1).user = 0 := by
    decide +kernel
  have hwiped : ∃ t ∈ playTrace next world earlyPriceId, 1 ∉ t.label.claimedRedemptions ∧
      (t.pre.hub.redemptionIdToRedeemer 1).priceId ≠ 0 ∧
        (t.post.hub.redemptionIdToRedeemer 1).priceId = 0 := by
    decide +kernel
  refine ⟨world_deployed, run_play (fun _ _ _ => step_of_next) _ _, by decide +kernel, ?_, ?_⟩
  · intro hlive
    obtain ⟨t, ht, hset, huser⟩ := hdangling
    exact hlive t.post (Run.visits_post ht) 1 hset huser
  · intro hkeeps
    obtain ⟨t, ht, hclaim, hset, hunset⟩ := hwiped
    rcases hkeeps t ht 1 hset with hsame | hmem
    · exact hset (hsame ▸ hunset)
    · exact hclaim hmem

end World

end BrivoUsbs
