import BrivoUsbs.Contracts.World
import BrivoUsbs.Framework.Batch

/-!
# Batches of price ids

`setPriceIdForDeposits` and `setPriceIdForRedemptions` are one loop over two tables, with a check
that the other one lacks.  `PriceIds` is what they have in common, and `PriceIds.Law` what follows
for both: a batch is accepted if its entries can be assigned and nothing but zero is assigned to an
entry that is listed again, and it is the same as its assignments one by one.
-/

namespace BrivoUsbs

namespace RWAHub

/-- A table of the hub whose entries are assigned price ids. -/
structure PriceIds (ρ : Type) where
  entries : RWAHub → Bytes32 → ρ
  store : RWAHub → (Bytes32 → ρ) → List HubEvent → RWAHub
  check : ρ → Tx Error Unit
  setPriceId : Uint256 → ρ → ρ
  event : Bytes32 × Uint256 → HubEvent
  store_self : ∀ hub, store hub (entries hub) hub.log = hub
  entries_store : ∀ hub table log, entries (store hub table log) = table
  log_store : ∀ hub table log, (store hub table log).log = log
  store_store : ∀ hub table log table' log',
    store (store hub table log) table' log' = store hub table' log'
  access_store : ∀ hub table log, (store hub table log).access = hub.access
  setPriceId_setPriceId : ∀ priceId priceId' entry,
    setPriceId priceId' (setPriceId priceId entry) = setPriceId priceId' entry

/-- Deposits are assigned price ids if they are live. -/
def depositPriceIds : PriceIds Depositor where
  entries := depositIdToDepositor
  store hub table log := { hub with depositIdToDepositor := table, log := log }
  check depositor := do
    revertIf (depositor.user = 0) .depositorNull
    revertIf (depositor.priceId ≠ 0) .priceIdAlreadySet
  setPriceId priceId depositor := { depositor with priceId := priceId }
  event assignment := .priceIdSetForDeposit assignment.1 assignment.2
  store_self _ := rfl
  entries_store _ _ _ := rfl
  log_store _ _ _ := rfl
  store_store _ _ _ _ _ := rfl
  access_store _ _ _ := rfl
  setPriceId_setPriceId _ _ _ := rfl

/-- Redemptions are, whether they are live or not. -/
def redemptionPriceIds : PriceIds Redeemer where
  entries := redemptionIdToRedeemer
  store hub table log := { hub with redemptionIdToRedeemer := table, log := log }
  check redeemer := revertIf (redeemer.priceId ≠ 0) .priceIdAlreadySet
  setPriceId priceId redeemer := { redeemer with priceId := priceId }
  event assignment := .priceIdSetForRedemption assignment.1 assignment.2
  store_self _ := rfl
  entries_store _ _ _ := rfl
  log_store _ _ _ := rfl
  store_store _ _ _ _ _ := rfl
  access_store _ _ _ := rfl
  setPriceId_setPriceId _ _ _ := rfl

namespace PriceIds

variable {ρ : Type} (s : PriceIds ρ) {hub hub' : RWAHub} {sender : Address}
  {ids : List Bytes32} {priceIds : List Uint256}

/-- The body of the loop. -/
def assign (hub : RWAHub) (assignment : Bytes32 × Uint256) : Tx Error RWAHub := do
  s.check (s.entries hub assignment.1)
  return s.store hub
    (Function.update (s.entries hub) assignment.1
      (s.setPriceId assignment.2 (s.entries hub assignment.1)))
    (hub.log ++ [s.event assignment])

/-- The whole function. -/
def assignAll (hub : RWAHub) (msgSender : Address) (ids : List Bytes32)
    (priceIds : List Uint256) : Tx Error RWAHub := do
  hub.access.checkRole .priceIdSetterRole msgSender
  revertIf (ids.length ≠ priceIds.length) .arraySizeMismatch
  (ids.zip priceIds).foldlM s.assign hub

/-- The loop writes a table of entries. -/
lemma foldlM_assign (hub : RWAHub) (l : List (Bytes32 × Uint256)) :
    l.foldlM s.assign hub =
      l.foldlM (Batch.assign s.check s.setPriceId) (s.entries hub) >>= fun table =>
        pure (s.store hub table (hub.log ++ l.map s.event)) := by
  have hround : ∀ table log a, s.assign (s.store hub table log) a =
      Batch.assign s.check s.setPriceId table a >>= fun table' =>
        pure (s.store hub table' (log ++ [s.event a])) := by
    intro table log a
    simp only [assign, Batch.assign, s.entries_store, s.log_store, s.store_store, bind_assoc,
      pure_bind]
  conv_lhs => rw [← s.store_self hub]
  exact Batch.foldlM_store hround l (s.entries hub) hub.log

lemma foldlM_assign_eq_ok {l : List (Bytes32 × Uint256)} :
    l.foldlM s.assign hub = .ok hub' ↔
      (∀ a ∈ l, s.check (s.entries hub a.1) = .ok ()) ∧
        l.Pairwise (fun a b =>
          a.1 = b.1 → s.check (s.setPriceId a.2 (s.entries hub a.1)) = .ok ()) ∧
        hub' = s.store hub (Batch.assigned s.setPriceId (s.entries hub) l)
          (hub.log ++ l.map s.event) := by
  simp only [foldlM_assign, bind_eq_ok, pure_eq_ok,
    Batch.foldlM_assign_eq_ok s.setPriceId_setPriceId]
  constructor
  · rintro ⟨_, ⟨hpass, hagain, rfl⟩, rfl⟩
    exact ⟨hpass, hagain, rfl⟩
  · rintro ⟨hpass, hagain, rfl⟩
    exact ⟨_, ⟨hpass, hagain, rfl⟩, rfl⟩

/-! ## The law of a batch -/

/-- What holds of `call` as a batch of assignments, to the entries that are `assignable`. -/
structure Law (assignable : ρ → Prop)
    (call : RWAHub → List Bytes32 → List Uint256 → Tx Error RWAHub) (hub : RWAHub)
    (ids : List Bytes32) (priceIds : List Uint256) : Prop where
  succeeds_iff : (∃ hub', call hub ids priceIds = .ok hub') ↔
    ids.length = priceIds.length ∧ (∀ id ∈ ids, assignable (s.entries hub id)) ∧
      (ids.zip priceIds).Pairwise fun a b => a.1 = b.1 → a.2 = 0
  last : ∀ hub', call hub ids priceIds = .ok hub' → ∀ before id priceId after,
    ids.zip priceIds = before ++ (id, priceId) :: after → id ∉ after.map Prod.fst →
      s.entries hub' id = s.setPriceId priceId (s.entries hub id)
  unlisted : ∀ hub', call hub ids priceIds = .ok hub' → ∀ id, id ∉ ids →
    s.entries hub' id = s.entries hub id
  only_priceId : ∀ hub', call hub ids priceIds = .ok hub' → ∀ id,
    s.entries hub' id = s.entries hub id ∨
      ∃ priceId, s.entries hub' id = s.setPriceId priceId (s.entries hub id)
  frame : ∀ hub', call hub ids priceIds = .ok hub' →
    hub' = s.store hub (s.entries hub') (hub.log ++ (ids.zip priceIds).map s.event)
  one_by_one : ids.length = priceIds.length →
    call hub ids priceIds = (ids.zip priceIds).foldlM (fun hub a => call hub [a.1] [a.2]) hub

lemma assignAll_eq (hrole : hub.access.hasRole .priceIdSetterRole sender = true)
    (hlength : ids.length = priceIds.length) :
    s.assignAll hub sender ids priceIds = (ids.zip priceIds).foldlM s.assign hub := by
  have hrole' : hub.access.checkRole .priceIdSetterRole sender = .ok () :=
    AccessControl.checkRole_eq_ok.mpr hrole
  have hlength' : (revertIf (ids.length ≠ priceIds.length) .arraySizeMismatch : Tx Error Unit) =
      .ok () := revertIf_eq_ok.mpr (not_not.mpr hlength)
  rw [assignAll, hrole', hlength']
  rfl

lemma assignAll_eq_ok (hrole : hub.access.hasRole .priceIdSetterRole sender = true) :
    s.assignAll hub sender ids priceIds = .ok hub' ↔
      ids.length = priceIds.length ∧ (ids.zip priceIds).foldlM s.assign hub = .ok hub' := by
  simp only [assignAll, bind_eq_ok, AccessControl.checkRole_eq_ok, revertIf_eq_ok, not_not, hrole,
    exists_const, true_and]

/-- Assignments one by one check the role each time, which none of them changes. -/
lemma foldlM_assignAll (l : List (Bytes32 × Uint256))
    (hrole : hub.access.hasRole .priceIdSetterRole sender = true) :
    l.foldlM (fun hub a => s.assignAll hub sender [a.1] [a.2]) hub = l.foldlM s.assign hub := by
  induction l generalizing hub with
  | nil => rfl
  | cons a l ih =>
      have hfirst : s.assignAll hub sender [a.1] [a.2] = s.assign hub a := by
        have hlength : [a.1].length = [a.2].length := rfl
        rw [s.assignAll_eq hrole hlength]
        exact List.foldlM_cons.trans (bind_pure _)
      rw [List.foldlM_cons, List.foldlM_cons, hfirst]
      cases hassign : s.assign hub a with
      | error r => rfl
      | ok hub' =>
          simp only [assign, bind_eq_ok, pure_eq_ok] at hassign
          obtain ⟨_, -, rfl⟩ := hassign
          exact ih (by rwa [s.access_store])

/-- **A batch of price ids obeys the law**, if the check lets exactly the assignable entries pass,
and these stay assignable exactly when zero is assigned. -/
theorem law {assignable : ρ → Prop} (hcheck : ∀ entry, s.check entry = .ok () ↔ assignable entry)
    (hagain : ∀ entry priceId, assignable entry →
      (assignable (s.setPriceId priceId entry) ↔ priceId = 0))
    (hrole : hub.access.hasRole .priceIdSetterRole sender = true) (ids : List Bytes32)
    (priceIds : List Uint256) :
    s.Law assignable (fun hub => s.assignAll hub sender) hub ids priceIds := by
  have hspec : ∀ hub', s.assignAll hub sender ids priceIds = .ok hub' ↔
      ids.length = priceIds.length ∧ (∀ id ∈ ids, assignable (s.entries hub id)) ∧
        ((ids.zip priceIds).Pairwise fun a b => a.1 = b.1 → a.2 = 0) ∧
        hub' = s.store hub (Batch.assigned s.setPriceId (s.entries hub) (ids.zip priceIds))
          (hub.log ++ (ids.zip priceIds).map s.event) := by
    intro hub'
    rw [s.assignAll_eq_ok hrole]
    refine and_congr_right fun hlength => ?_
    have hkeys : (ids.zip priceIds).map Prod.fst = ids := List.map_fst_zip hlength.le
    have hpass : (∀ a ∈ ids.zip priceIds, s.check (s.entries hub a.1) = .ok ()) ↔
        ∀ id ∈ ids, assignable (s.entries hub id) := by
      conv_rhs => rw [← hkeys, List.forall_mem_map]
      simp only [hcheck]
    rw [s.foldlM_assign_eq_ok, hpass]
    refine and_congr_right fun hassignable => and_congr_left fun _ => ?_
    refine List.Pairwise.iff_of_mem fun {a b} ha _ => imp_congr_right fun _ => ?_
    rw [hcheck]
    exact hagain _ _ (hassignable a.1 (List.of_mem_zip ha).1)
  refine ⟨⟨?_, ?_⟩, ?_, ?_, ?_, ?_, fun hlength => ?_⟩
  · rintro ⟨hub', h⟩
    obtain ⟨hlength, hpass, hzero, -⟩ := (hspec hub').mp h
    exact ⟨hlength, hpass, hzero⟩
  · rintro ⟨hlength, hpass, hzero⟩
    exact ⟨_, (hspec _).mpr ⟨hlength, hpass, hzero, rfl⟩⟩
  · intro hub' h before id priceId after hsplit hlast
    obtain ⟨-, -, -, rfl⟩ := (hspec hub').mp h
    rw [s.entries_store, hsplit]
    exact Batch.assigned_last s.setPriceId_setPriceId hlast
  · intro hub' h id hid
    obtain ⟨hlength, -, -, rfl⟩ := (hspec hub').mp h
    rw [s.entries_store]
    refine Batch.assigned_unlisted ?_
    rwa [List.map_fst_zip hlength.le]
  · intro hub' h id
    obtain ⟨-, -, -, rfl⟩ := (hspec hub').mp h
    rw [s.entries_store]
    exact Batch.assigned_eq_or s.setPriceId_setPriceId
  · intro hub' h
    obtain ⟨-, -, -, rfl⟩ := (hspec hub').mp h
    rw [s.entries_store]
  · rw [s.foldlM_assignAll _ hrole]
    exact s.assignAll_eq hrole hlength

end PriceIds

lemma setPriceIdForDeposits_eq : setPriceIdForDeposits = depositPriceIds.assignAll := by
  have hround : setPriceIdForDeposit = depositPriceIds.assign := by
    funext hub assignment
    simp only [setPriceIdForDeposit, PriceIds.assign, depositPriceIds, bind_assoc]
  funext hub msgSender ids priceIds
  rw [setPriceIdForDeposits, hround]
  rfl

lemma setPriceIdForRedemptions_eq : setPriceIdForRedemptions = redemptionPriceIds.assignAll := rfl

lemma depositPriceIds_check (depositor : Depositor) :
    depositPriceIds.check depositor = .ok () ↔ depositor.user ≠ 0 ∧ depositor.priceId = 0 := by
  simp only [depositPriceIds, bind_eq_ok, revertIf_eq_ok, not_not, exists_const, ne_eq]

lemma redemptionPriceIds_check (redeemer : Redeemer) :
    redemptionPriceIds.check redeemer = .ok () ↔ redeemer.priceId = 0 := by
  simp only [redemptionPriceIds, revertIf_eq_ok, not_not]

end RWAHub

/-! ## The two setters -/

namespace World

variable {κ : Type} [IERC20 κ]

/-- **What a batch of price ids does**, for deposits and, without the check of the user, for
redemptions.  A batch that is rejected changes nothing. -/
theorem setPriceIds_exact (w : World κ) {sender : Address}
    (hrole : w.hub.access.hasRole .priceIdSetterRole sender = true) (ids : List Bytes32)
    (priceIds : List Uint256) :
    (RWAHub.depositPriceIds.Law (fun depositor => depositor.user ≠ 0 ∧ depositor.priceId = 0)
        (fun hub => hub.setPriceIdForDeposits sender) w.hub ids priceIds ∧
      ∀ r, w.hub.setPriceIdForDeposits sender ids priceIds = .error r →
        play next w [.manager sender (.setPriceIdForDeposits ids priceIds)] = w) ∧
    (RWAHub.redemptionPriceIds.Law (fun redeemer => redeemer.priceId = 0)
        (fun hub => hub.setPriceIdForRedemptions sender) w.hub ids priceIds ∧
      ∀ r, w.hub.setPriceIdForRedemptions sender ids priceIds = .error r →
        play next w [.manager sender (.setPriceIdForRedemptions ids priceIds)] = w) := by
  rw [RWAHub.setPriceIdForDeposits_eq, RWAHub.setPriceIdForRedemptions_eq]
  refine ⟨⟨?_, fun r herror => play_of_none (next_of_error (r := r) ?_)⟩,
    ⟨?_, fun r herror => play_of_none (next_of_error (r := r) ?_)⟩⟩
  · exact RWAHub.depositPriceIds.law RWAHub.depositPriceIds_check
      (fun depositor priceId hlive => and_iff_right hlive.1) hrole ids priceIds
  · simp only [exec, execManager, RWAHub.setPriceIdForDeposits_eq, herror]
    rfl
  · exact RWAHub.redemptionPriceIds.law RWAHub.redemptionPriceIds_check
      (fun redeemer priceId _ => Iff.rfl) hrole ids priceIds
  · simp only [exec, execManager, RWAHub.setPriceIdForRedemptions_eq, herror]
    rfl

open Sample in
/-- Two proofs wait for their price ids. -/
def pendingProofs : List (Action ERC20) := setup ++ [
  .manager operator (.addProof 0xABCD customer 50000000 0 999999),
  .manager operator (.addProof 0xABCE customer 70000000 0 999999)]

open Sample in
/-- An entry may be listed twice if it is first assigned zero, and not otherwise. -/
theorem setPriceIds_exact_sample :
    (∃ hub', (play next world pendingProofs).hub.setPriceIdForDeposits operator
        [0xABCD, 0xABCE, 0xABCD] [0, 1, 2] = .ok hub' ∧
      hub'.depositIdToDepositor 0xABCD = ⟨customer, 50000000, 2⟩) ∧
    ¬ ∃ hub', (play next world pendingProofs).hub.setPriceIdForDeposits operator
      [0xABCD, 0xABCE, 0xABCD] [3, 1, 3] = .ok hub' := by
  have hrole : (play next world pendingProofs).hub.access.hasRole .priceIdSetterRole operator =
      true := by decide +kernel
  have hlive : (play next world pendingProofs).hub.depositIdToDepositor 0xABCD =
      ⟨customer, 50000000, 0⟩ := by decide +kernel
  have hassignable : ∀ id ∈ ([0xABCD, 0xABCE, 0xABCD] : List Bytes32),
      ((play next world pendingProofs).hub.depositIdToDepositor id).user ≠ 0 ∧
        ((play next world pendingProofs).hub.depositIdToDepositor id).priceId = 0 := by
    simp only [List.forall_mem_cons, List.not_mem_nil, false_imp_iff, implies_true, and_true]
    decide +kernel
  generalize play next world pendingProofs = w at hrole hlive hassignable ⊢
  obtain ⟨⟨haccepted, -⟩, -⟩ := setPriceIds_exact w hrole [0xABCD, 0xABCE, 0xABCD] [0, 1, 2]
  obtain ⟨⟨hrejected, -⟩, -⟩ := setPriceIds_exact w hrole [0xABCD, 0xABCE, 0xABCD] [3, 1, 3]
  constructor
  · obtain ⟨hub', h⟩ := haccepted.succeeds_iff.mpr ⟨rfl, hassignable, by decide⟩
    have hlast := haccepted.last hub' h [(0xABCD, 0), (0xABCE, 1)] 0xABCD 2 [] rfl (by simp)
    refine ⟨hub', h, hlast.trans ?_⟩
    simp only [RWAHub.depositPriceIds, hlive]
  · rw [hrejected.succeeds_iff]
    exact fun h => absurd h.2.2 (by decide)

end World

end BrivoUsbs
