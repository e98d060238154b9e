import BrivoUsbs.Framework.Batch
import BrivoUsbs.Properties.DepositLedger
import BrivoUsbs.Properties.Screening
import BrivoUsbs.Properties.Supply
import Mathlib.Algebra.Order.BigOperators.Group.List

/-!
# Batches of mints

A call of `claimMint` takes its deposits one by one, and each of them changes what the later ones
find: its entry and its timestamp are gone, and there are more tokens.  The conditions for the
deposits are independent nevertheless.  What is worked out for one depends on its own entry
(`mintOrder`), what the token asks of its user does not depend on the balances (`MintsTo`), and as
nobody has more tokens than there are, the supply is all that has to fit.  `claimMint_exact`
concludes when a batch succeeds and what it does then.
-/

namespace BrivoUsbs

/-! ## A mint of the token -/

namespace USBS

variable {token token' : USBS} {lists : Lists} {sender account : Address} {amount : Uint256}

/-- What a mint asks of its parties. -/
structure MintsTo (token : USBS) (lists : Lists) (sender account : Address) : Prop where
  role : token.access.hasRole .minterRole sender = true
  nonzero : account ≠ 0
  passes : token.Passes lists sender 0 account

/-- Tokens have been created or burned, and nothing else has happened to the token. -/
def Issues (token token' : USBS) : Prop :=
  ∃ balances totalSupply log, token' = { token with erc20 := { token.erc20 with
    balances := balances, totalSupply := totalSupply, log := log } }

lemma Issues.refl (token : USBS) : Issues token token := ⟨_, _, _, rfl⟩

lemma Issues.trans {token'' : USBS} (h : Issues token token') (h' : Issues token' token'') :
    Issues token token'' := by
  obtain ⟨_, _, _, rfl⟩ := h
  obtain ⟨balances, totalSupply, log, rfl⟩ := h'
  exact ⟨balances, totalSupply, log, rfl⟩

/-- The balances and the supply do not decide who may be minted to. -/
lemma Issues.mintsTo_iff (h : Issues token token') :
    token'.MintsTo lists sender account ↔ token.MintsTo lists sender account := by
  obtain ⟨_, _, _, rfl⟩ := h
  have hpasses : ∀ erc20 : ERC20, ({ token with erc20 := erc20 } : USBS).Passes lists sender 0
      account ↔ token.Passes lists sender 0 account := by
    intro erc20
    rw [← @beforeTokenTransfer_eq_ok _ _ _ _ _ 0 (), ← @beforeTokenTransfer_eq_ok _ _ _ _ _ 0 ()]
    rfl
  exact ⟨fun h => ⟨h.role, h.nonzero, (hpasses _).mp h.passes⟩,
    fun h => ⟨h.role, h.nonzero, (hpasses _).mpr h.passes⟩⟩

lemma mint_eq_ok :
    token.mint lists sender account amount = .ok token' ↔
      token.MintsTo lists sender account ∧ ∃ supply balance : Uint256,
        supply.toNat = token.erc20.totalSupply.toNat + amount.toNat ∧
          balance.toNat = (token.erc20.balances account).toNat + amount.toNat ∧
          token' = { token with erc20 := { token.erc20 with
            totalSupply := supply
            balances := Function.update token.erc20.balances account balance
            log := token.erc20.log ++ [.transfer 0 account amount] } } := by
  simp only [mint, ERC20.internalMint, bind_eq_ok, require_eq_ok, pure_eq_ok, exists_const,
    checkedAdd_eq_ok, beforeTokenTransfer_eq_ok]
  constructor
  · rintro ⟨hrole, _, ⟨hnonzero, hpasses, supply, hsupply, balance, hbalance, rfl⟩, rfl⟩
    exact ⟨⟨hrole, hnonzero, hpasses⟩, supply, balance, hsupply, hbalance, rfl⟩
  · rintro ⟨⟨hrole, hnonzero, hpasses⟩, supply, balance, hsupply, hbalance, rfl⟩
    exact ⟨hrole, _, ⟨hnonzero, hpasses, supply, hsupply, balance, hbalance, rfl⟩, rfl⟩

/-- As nobody has more than there is, only the supply has to fit. -/
lemma exists_mint (hbalanced : token.erc20.Balanced) :
    (∃ token', token.mint lists sender account amount = .ok token') ↔
      token.MintsTo lists sender account ∧
        token.erc20.totalSupply.toNat + amount.toNat < 2 ^ 256 := by
  constructor
  · rintro ⟨token', h⟩
    obtain ⟨hmints, supply, -, hsupply, -⟩ := mint_eq_ok.mp h
    exact ⟨hmints, hsupply ▸ supply.isLt⟩
  · rintro ⟨hmints, hfits⟩
    have hle := hbalanced.balance_le account
    obtain ⟨supply, hsupply⟩ := exists_toNat_eq hfits
    obtain ⟨balance, hbalance⟩ := @exists_toNat_eq
      ((token.erc20.balances account).toNat + amount.toNat) (by omega)
    exact ⟨_, mint_eq_ok.mpr ⟨hmints, supply, balance, hsupply, hbalance, rfl⟩⟩

end USBS

/-! ## The claim of one deposit -/

namespace USBSManager

variable {manager manager' : USBSManager} {usbs usbs' : USBS} {lists : Lists}
  {pricers : Address → Option Pricer} {self : Address} {timestamp : Uint256}
  {id first : Bytes32} {ids : List Bytes32} {order : Uint256 × Uint256}

/-- The price of a deposit that can be claimed by now, and the tokens owed for it. -/
def mintOrder (manager : USBSManager) (pricers : Address → Option Pricer) (timestamp : Uint256)
    (depositId : Bytes32) : Tx Error (Uint256 × Uint256) := do
  revertIf (manager.depositIdToClaimableTimestamp depositId = 0) .claimableTimestampNotSet
  revertIf (timestamp < manager.depositIdToClaimableTimestamp depositId) .mintNotYetClaimable
  let depositor := manager.hub.depositIdToDepositor depositId
  revertIf (depositor.priceId = 0) .priceIdNotSet
  let price ← askPrice pricers manager.hub.params.pricer depositor.priceId
  let rwaOwed ← manager.hub.getMintAmountForPrice depositor.amountDepositedMinusFees price
  return (price, rwaOwed)

/-- The manager after a deposit is claimed. -/
def complete (manager : USBSManager) (depositId : Bytes32) (order : Uint256 × Uint256) :
    USBSManager := { manager with
  hub := { manager.hub with
    depositIdToDepositor := Function.update manager.hub.depositIdToDepositor depositId .null
    log := manager.hub.log ++ [.mintCompleted (manager.hub.depositIdToDepositor depositId).user
      depositId order.2 (manager.hub.depositIdToDepositor depositId).amountDepositedMinusFees
      order.1 (manager.hub.depositIdToDepositor depositId).priceId] }
  depositIdToClaimableTimestamp :=
    Function.update manager.depositIdToClaimableTimestamp depositId 0 }

lemma complete_entry (hne : id ≠ first) :
    (manager.complete first order).hub.depositIdToDepositor id =
      manager.hub.depositIdToDepositor id := Function.update_of_ne hne _ _

/-- The claim of a deposit is its order, and the mint. -/
lemma internalClaimMint_eq :
    manager.internalClaimMint usbs lists pricers self timestamp id = (do
      let order ← manager.mintOrder pricers timestamp id
      let usbs ← usbs.mint lists self (manager.hub.depositIdToDepositor id).user order.2
      return (manager.complete id order, usbs)) := by
  simp only [internalClaimMint, RWAHub.internalClaimMint, mintOrder, bind_assoc, pure_bind]
  rfl

/-- An order is for what is owed. -/
lemma mintOrder_owed (h : manager.mintOrder pricers timestamp id = .ok order) :
    order.2.toNat = owed manager.hub pricers id := by
  simp only [mintOrder, bind_eq_ok, revertIf_eq_ok, pure_eq_ok, exists_const] at h
  obtain ⟨-, -, -, price, hprice, out, hout, rfl⟩ := h
  rw [owed, RWAHub.prices, hprice]
  exact (RWAHub.getMintAmountForPrice_eq_ok hout).2

/-- A deposit with a timestamp is left when another one is claimed. -/
lemma mintOrder_complete :
    (∃ order', (manager.complete first order).mintOrder pricers timestamp id = .ok order') ↔
      id ≠ first ∧ ∃ order', manager.mintOrder pricers timestamp id = .ok order' := by
  by_cases hsame : id = first
  · subst hsame
    refine iff_of_false ?_ fun h => h.1 rfl
    rintro ⟨order', h⟩
    simp only [mintOrder, complete, bind_eq_ok, revertIf_eq_ok, Function.update_self,
      exists_const] at h
    exact h.1 trivial
  · have horder : (manager.complete first order).mintOrder pricers timestamp id =
        manager.mintOrder pricers timestamp id := by
      simp only [mintOrder, complete, Function.update_of_ne hsame, RWAHub.getMintAmountForPrice,
        RWAHub.scaleUp]
    rw [horder]
    exact (and_iff_right hsame).symm

lemma owed_complete (hne : id ≠ first) :
    owed (manager.complete first order).hub pricers id = owed manager.hub pricers id := by
  rw [owed, complete_entry hne]
  rfl

/-- What the claim of a deposit asks, besides room for the tokens. -/
structure Claimable (manager : USBSManager) (usbs : USBS) (lists : Lists)
    (pricers : Address → Option Pricer) (self : Address) (timestamp : Uint256)
    (depositId : Bytes32) : Prop where
  order : ∃ order, manager.mintOrder pricers timestamp depositId = .ok order
  mints : usbs.MintsTo lists self (manager.hub.depositIdToDepositor depositId).user

lemma internalClaimMint_balanced (hbalanced : usbs.erc20.Balanced)
    (h : manager.internalClaimMint usbs lists pricers self timestamp id = .ok (manager', usbs')) :
    usbs'.erc20.Balanced := by
  obtain ⟨out, -, -, -, -, -, -, hmint⟩ := RWAHub.internalClaimMint_spec (internalClaimMint_hub h)
  exact @USBS.exec_balanced _ _ _ _ (.mint _ out) hbalanced hmint

/-- **When one deposit can be claimed.** -/
lemma exists_internalClaimMint (hbalanced : usbs.erc20.Balanced) :
    (∃ claimed, manager.internalClaimMint usbs lists pricers self timestamp id = .ok claimed) ↔
      manager.Claimable usbs lists pricers self timestamp id ∧
        usbs.erc20.totalSupply.toNat + owed manager.hub pricers id < 2 ^ 256 := by
  simp only [internalClaimMint_eq, bind_eq_ok, pure_eq_ok]
  constructor
  · rintro ⟨-, order, horder, usbs', hmint, rfl⟩
    obtain ⟨hmints, hfits⟩ := (USBS.exists_mint hbalanced).mp ⟨usbs', hmint⟩
    rw [mintOrder_owed horder] at hfits
    exact ⟨⟨⟨order, horder⟩, hmints⟩, hfits⟩
  · rintro ⟨⟨⟨order, horder⟩, hmints⟩, hfits⟩
    rw [← mintOrder_owed horder] at hfits
    obtain ⟨usbs', hmint⟩ := (USBS.exists_mint hbalanced).mpr ⟨hmints, hfits⟩
    exact ⟨_, order, horder, usbs', hmint, rfl⟩

/-- What the claim of a deposit leaves: its own entry is gone, and the supply has grown. -/
lemma internalClaimMint_complete
    (h : manager.internalClaimMint usbs lists pricers self timestamp first =
      .ok (manager', usbs')) :
    (∃ order, manager' = manager.complete first order) ∧ USBS.Issues usbs usbs' ∧
      usbs'.erc20.totalSupply.toNat =
        usbs.erc20.totalSupply.toNat + owed manager.hub pricers first := by
  simp only [internalClaimMint_eq, bind_eq_ok, pure_eq_ok, Prod.mk.injEq] at h
  obtain ⟨order, horder, minted, hmint, rfl, rfl⟩ := h
  obtain ⟨-, supply, balance, hsupply, -, rfl⟩ := USBS.mint_eq_ok.mp hmint
  refine ⟨⟨order, rfl⟩, ⟨_, _, _, rfl⟩, ?_⟩
  rw [← mintOrder_owed horder]
  exact hsupply

/-- A claim takes away its own deposit from what can be claimed, and nothing else. -/
lemma claimable_complete (h : USBS.Issues usbs usbs') :
    (manager.complete first order).Claimable usbs' lists pricers self timestamp id ↔
      id ≠ first ∧ manager.Claimable usbs lists pricers self timestamp id := by
  constructor
  · rintro ⟨horder, hmints⟩
    obtain ⟨hne, horder⟩ := mintOrder_complete.mp horder
    rw [complete_entry hne] at hmints
    exact ⟨hne, horder, h.mintsTo_iff.mp hmints⟩
  · rintro ⟨hne, horder, hmints⟩
    refine ⟨mintOrder_complete.mpr ⟨hne, horder⟩, ?_⟩
    rw [complete_entry hne]
    exact h.mintsTo_iff.mpr hmints

/-! ## The loop -/

lemma sum_owed_complete (h : ∀ id ∈ ids, id ≠ first) :
    (ids.map (owed (manager.complete first order).hub pricers)).sum =
      (ids.map (owed manager.hub pricers)).sum := by
  rw [List.map_congr_left fun id hid => owed_complete (h id hid)]

/-- **When a batch can be claimed**, told from the state before it. -/
lemma exists_claimMint_loop (hbalanced : usbs.erc20.Balanced) :
    (∃ claimed, ids.foldlM (fun state id =>
        state.1.internalClaimMint state.2 lists pricers self timestamp id) (manager, usbs) =
          .ok claimed) ↔
      ids.Nodup ∧ (∀ id ∈ ids, manager.Claimable usbs lists pricers self timestamp id) ∧
        usbs.erc20.totalSupply.toNat + (ids.map (owed manager.hub pricers)).sum < 2 ^ 256 := by
  induction ids generalizing manager usbs with
  | nil => simp [usbs.erc20.totalSupply.isLt]
  | cons first ids ih =>
      simp only [List.foldlM_cons, bind_eq_ok, List.nodup_cons, List.forall_mem_cons,
        List.map_cons, List.sum_cons]
      constructor
      · rintro ⟨claimed, ⟨manager₁, usbs₁⟩, hfirst, hrest⟩
        obtain ⟨hclaimable, -⟩ := (exists_internalClaimMint hbalanced).mp ⟨_, hfirst⟩
        obtain ⟨⟨order, rfl⟩, hissues, hsupply⟩ := internalClaimMint_complete hfirst
        have hbalanced' := internalClaimMint_balanced hbalanced hfirst
        obtain ⟨hnodup, hall, hfits⟩ := (ih hbalanced').mp ⟨_, hrest⟩
        have hne : ∀ id ∈ ids, id ≠ first := fun id hid =>
          ((claimable_complete hissues).mp (hall id hid)).1
        rw [sum_owed_complete hne] at hfits
        exact ⟨⟨fun hmem => hne first hmem rfl, hnodup⟩, ⟨hclaimable, fun id hid =>
          ((claimable_complete hissues).mp (hall id hid)).2⟩, by omega⟩
      · rintro ⟨⟨hnot, hnodup⟩, ⟨hclaimable, hall⟩, hfits⟩
        obtain ⟨⟨manager₁, usbs₁⟩, hfirst⟩ :=
          (exists_internalClaimMint hbalanced).mpr ⟨hclaimable, by omega⟩
        obtain ⟨⟨order, rfl⟩, hissues, hsupply⟩ := internalClaimMint_complete hfirst
        have hne : ∀ id ∈ ids, id ≠ first := fun id hid => ne_of_mem_of_not_mem hid hnot
        have hafter : ∀ id ∈ ids, (manager.complete first order).Claimable usbs₁ lists pricers self
            timestamp id := fun id hid =>
          (claimable_complete hissues).mpr ⟨hne id hid, hall id hid⟩
        rw [← Nat.add_assoc, ← hsupply, ← @sum_owed_complete manager pricers first ids order hne]
          at hfits
        obtain ⟨claimed, hrest⟩ := (ih (internalClaimMint_balanced hbalanced hfirst)).mpr
          ⟨hnodup, hafter, hfits⟩
        exact ⟨claimed, _, hfirst, hrest⟩

/-- What a batch leaves, besides the balances. -/
lemma claimMint_loop_spec
    (h : ids.foldlM (fun state id =>
      state.1.internalClaimMint state.2 lists pricers self timestamp id) (manager, usbs) =
        .ok (manager', usbs')) :
    manager' = { manager with
        hub := { manager.hub with
          depositIdToDepositor := Batch.cleared .null manager.hub.depositIdToDepositor ids
          log := manager'.hub.log }
        depositIdToClaimableTimestamp :=
          Batch.cleared 0 manager.depositIdToClaimableTimestamp ids } ∧
      USBS.Issues usbs usbs' ∧
      usbs'.erc20.totalSupply.toNat =
        usbs.erc20.totalSupply.toNat + (ids.map (owed manager.hub pricers)).sum := by
  induction ids generalizing manager usbs with
  | nil =>
      simp only [List.foldlM_nil, pure_eq_ok, Prod.mk.injEq] at h
      obtain ⟨rfl, rfl⟩ := h
      exact ⟨rfl, .refl usbs, rfl⟩
  | cons first ids ih =>
      have hnot : first ∉ ids := (List.nodup_cons.mp (claimMint_loop h).1).1
      simp only [List.foldlM_cons, bind_eq_ok, Prod.exists] at h
      obtain ⟨manager₁, usbs₁, hfirst, hrest⟩ := h
      obtain ⟨⟨order, rfl⟩, hissues, hsupply⟩ := internalClaimMint_complete hfirst
      obtain ⟨hmanager, hissues', hsupply'⟩ := ih hrest
      have hne : ∀ id ∈ ids, id ≠ first := fun id hid => ne_of_mem_of_not_mem hid hnot
      refine ⟨hmanager, hissues.trans hissues', ?_⟩
      rw [hsupply', hsupply, sum_owed_complete hne, List.map_cons, List.sum_cons, Nat.add_assoc]

end USBSManager

/-! ## Batches in the system -/

namespace World

variable {κ : Type} [IERC20 κ] {w₀ w w' : World κ} {tr : List (Transition (World κ) (Action κ))}
  {sender : Address} {ids xs ys : List Bytes32}

/-- The world after a call of `claimMint`, if it succeeds. -/
def minted (w : World κ) (sender : Address) (depositIds : List Bytes32) : Option (World κ) :=
  (w.execManager sender (.claimMint depositIds)).toOption

/-- What a batch of claims does when it succeeds. -/
structure Mints (w : World κ) (depositIds : List Bytes32) (w' : World κ) : Prop where
  cleared : ∀ id ∈ depositIds, w'.hub.depositIdToDepositor id = .null ∧
    w'.manager.depositIdToClaimableTimestamp id = 0
  others : ∀ id, id ∉ depositIds →
    w'.hub.depositIdToDepositor id = w.hub.depositIdToDepositor id ∧
      w'.manager.depositIdToClaimableTimestamp id = w.manager.depositIdToClaimableTimestamp id
  balances : ∀ account, (w'.usbs.erc20.balances account).toNat =
    (w.usbs.erc20.balances account).toNat +
      (depositIds.map fun id => if (w.hub.depositIdToDepositor id).user = account
        then USBSManager.owed w.hub w.pricers id else 0).sum
  totalSupply : w'.usbs.erc20.totalSupply.toNat = w.usbs.erc20.totalSupply.toNat +
    (depositIds.map (USBSManager.owed w.hub w.pricers)).sum
  -- Everything but these two tables, the balances and the supply is as before.
  rest : w'.storage = { w.storage with
    manager := { w.storage.manager with
      hub := { w.storage.manager.hub with depositIdToDepositor := w'.hub.depositIdToDepositor }
      depositIdToClaimableTimestamp := w'.manager.depositIdToClaimableTimestamp }
    usbs := { w.usbs with erc20 := { w.usbs.erc20.storage with
      balances := w'.usbs.erc20.balances, totalSupply := w'.usbs.erc20.totalSupply } } }

lemma minted_eq_some :
    w.minted sender ids = some w' ↔ w.hub.params.subscriptionPaused = false ∧
      ∃ manager' usbs', ids.foldlM (fun state id =>
          state.1.internalClaimMint state.2 w.lists w.pricers w.self w.timestamp id)
            (w.manager, w.usbs) = .ok (manager', usbs') ∧
        w' = { w with manager := manager', usbs := usbs' } := by
  simp only [minted, toOption_eq_some, execManager, USBSManager.claimMint, bind_eq_ok,
    revertIf_eq_ok, pure_eq_ok, exists_const, Bool.not_eq_true, Prod.exists, and_assoc]
  constructor
  · rintro ⟨manager', usbs', hopen, hloop, rfl⟩
    exact ⟨hopen, manager', usbs', hloop, rfl⟩
  · rintro ⟨hopen, manager', usbs', hloop, rfl⟩
    exact ⟨manager', usbs', hopen, hloop, rfl⟩

/-- **When a batch can be claimed in a world.** -/
lemma exists_minted (hbalanced : w.usbs.erc20.Balanced)
    (hopen : w.hub.params.subscriptionPaused = false) :
    (∃ w', w.minted sender ids = some w') ↔
      ids.Nodup ∧ (∀ id ∈ ids,
        w.manager.Claimable w.usbs w.lists w.pricers w.self w.timestamp id) ∧
        w.usbs.erc20.totalSupply.toNat +
          (ids.map (USBSManager.owed w.hub w.pricers)).sum < 2 ^ 256 := by
  rw [← USBSManager.exists_claimMint_loop hbalanced]
  simp only [minted_eq_some, hopen, true_and]
  constructor
  · rintro ⟨-, manager', usbs', hloop, rfl⟩
    exact ⟨_, hloop⟩
  · rintro ⟨⟨manager', usbs'⟩, hloop⟩
    exact ⟨_, manager', usbs', hloop, rfl⟩

/-- Room for a batch is room for each of its deposits. -/
lemma exists_minted_iff_each (hbalanced : w.usbs.erc20.Balanced)
    (hopen : w.hub.params.subscriptionPaused = false) :
    (∃ w', w.minted sender ids = some w') ↔
      ids.Nodup ∧ (∀ id ∈ ids, ∃ w', w.minted sender [id] = some w') ∧
        w.usbs.erc20.totalSupply.toNat +
          (ids.map (USBSManager.owed w.hub w.pricers)).sum < 2 ^ 256 := by
  simp only [exists_minted hbalanced hopen, List.nodup_singleton, List.forall_mem_singleton,
    List.map_singleton, List.sum_singleton, true_and]
  constructor
  · rintro ⟨hnodup, hall, hfits⟩
    refine ⟨hnodup, ?_, hfits⟩
    intro id hid
    have hle := List.le_sum_of_mem
      (List.mem_map_of_mem (f := USBSManager.owed w.hub w.pricers) hid)
    exact ⟨hall id hid, by omega⟩
  · rintro ⟨hnodup, hall, hfits⟩
    exact ⟨hnodup, fun id hid => (hall id hid).1, hfits⟩

lemma exists_minted_perm (hbalanced : w.usbs.erc20.Balanced)
    (hopen : w.hub.params.subscriptionPaused = false) (hperm : xs.Perm ys) :
    (∃ w', w.minted sender xs = some w') ↔ ∃ w', w.minted sender ys = some w' := by
  rw [exists_minted hbalanced hopen, exists_minted hbalanced hopen, hperm.nodup_iff,
    (hperm.map _).sum_eq]
  simp only [hperm.mem_iff]

/-- **What a batch does in a world.** -/
lemma minted_mints (h : w.minted sender ids = some w') : w.Mints ids w' := by
  obtain ⟨-, manager', usbs', hloop, rfl⟩ := minted_eq_some.mp h
  obtain ⟨-, -, hbalances⟩ := USBSManager.claimMint_loop hloop
  obtain ⟨hmanager, ⟨balances, totalSupply, log, husbs⟩, hsupply⟩ :=
    USBSManager.claimMint_loop_spec hloop
  refine ⟨?_, ?_, hbalances, hsupply, ?_⟩
  · intro id hid
    rw [hmanager]
    dsimp only
    rw [Batch.cleared_apply, Batch.cleared_apply, if_pos hid, if_pos hid]
    exact ⟨rfl, rfl⟩
  · intro id hid
    rw [hmanager]
    dsimp only
    rw [Batch.cleared_apply, Batch.cleared_apply, if_neg hid, if_neg hid]
    exact ⟨rfl, rfl⟩
  · subst husbs
    rw [hmanager]
    rfl

omit [IERC20 κ] in
/-- The effects of a batch determine the world after it, and do not depend on the order. -/
lemma Mints.storage_eq {w'' : World κ} (h : w.Mints xs w') (h' : w.Mints ys w'')
    (hperm : xs.Perm ys) : w'.storage = w''.storage := by
  have hdeposits : w'.hub.depositIdToDepositor = w''.hub.depositIdToDepositor := by
    funext id
    by_cases hid : id ∈ xs
    · rw [(h.cleared id hid).1, (h'.cleared id (hperm.mem_iff.mp hid)).1]
    · rw [(h.others id hid).1, (h'.others id (mt hperm.mem_iff.mpr hid)).1]
  have htimestamps : w'.manager.depositIdToClaimableTimestamp =
      w''.manager.depositIdToClaimableTimestamp := by
    funext id
    by_cases hid : id ∈ xs
    · rw [(h.cleared id hid).2, (h'.cleared id (hperm.mem_iff.mp hid)).2]
    · rw [(h.others id hid).2, (h'.others id (mt hperm.mem_iff.mpr hid)).2]
  have hbalances : w'.usbs.erc20.balances = w''.usbs.erc20.balances := by
    funext account
    apply BitVec.eq_of_toNat_eq
    rw [h.balances, h'.balances, (hperm.map _).sum_eq]
  have hsupply : w'.usbs.erc20.totalSupply = w''.usbs.erc20.totalSupply := by
    apply BitVec.eq_of_toNat_eq
    rw [h.totalSupply, h'.totalSupply, (hperm.map _).sum_eq]
  rw [h.rest, h'.rest, hdeposits, htimestamps, hbalances, hsupply]

/-! ## Splitting a batch -/

lemma minted_open (hopen : w.hub.params.subscriptionPaused = false)
    (h : w.minted sender ids = some w') : w'.hub.params.subscriptionPaused = false := by
  obtain ⟨-, manager', usbs', hloop, rfl⟩ := minted_eq_some.mp h
  obtain ⟨hmanager, -⟩ := USBSManager.claimMint_loop_spec hloop
  rw [hmanager]
  exact hopen

/-- A batch is the call of its first part and then of the rest, by anybody. -/
lemma minted_append {sender₁ sender₂ : Address}
    (hopen : w.hub.params.subscriptionPaused = false) :
    w.minted sender (xs ++ ys) = (w.minted sender₁ xs).bind fun w' => w'.minted sender₂ ys := by
  refine Option.ext fun w₂ => ?_
  rw [Option.bind_eq_some_iff, minted_eq_some, List.foldlM_append]
  simp only [bind_eq_ok]
  constructor
  · rintro ⟨-, manager₂, usbs₂, ⟨⟨manager₁, usbs₁⟩, hfirst, hrest⟩, rfl⟩
    have h₁ : w.minted sender₁ xs = some { w with manager := manager₁, usbs := usbs₁ } :=
      minted_eq_some.mpr ⟨hopen, manager₁, usbs₁, hfirst, rfl⟩
    exact ⟨_, h₁, minted_eq_some.mpr ⟨minted_open hopen h₁, manager₂, usbs₂, hrest, rfl⟩⟩
  · rintro ⟨w₁, h₁, h₂⟩
    obtain ⟨-, manager₁, usbs₁, hfirst, rfl⟩ := minted_eq_some.mp h₁
    obtain ⟨-, manager₂, usbs₂, hrest, rfl⟩ := minted_eq_some.mp h₂
    exact ⟨hopen, manager₂, usbs₂, ⟨_, hfirst, hrest⟩, rfl⟩

/-- **A batch is any sequence of calls that it is split into.** -/
lemma foldlM_minted {calls : List (Address × List Bytes32)}
    (hopen : w.hub.params.subscriptionPaused = false) :
    calls.foldlM (fun w call => w.minted call.1 call.2) w =
      w.minted sender (calls.map Prod.snd).flatten := by
  induction calls generalizing w with
  | nil => exact (minted_eq_some.mpr ⟨hopen, w.manager, w.usbs, rfl, rfl⟩).symm
  | cons call calls ih =>
      rw [List.foldlM_cons, List.map_cons, List.flatten_cons,
        @minted_append _ _ w sender call.2 _ call.1 sender hopen]
      refine Option.bind_congr fun w' h => ?_
      exact ih (minted_open hopen h)

/-! ## The batch as a whole -/

/-- **What a batch of claimed mints is**, in every state the system reaches while subscriptions
are open: it succeeds if and only if each deposit is listed once and could be claimed alone, and
the supply has room for what is owed for all of them.  It gives each user what is owed and clears
the deposits it lists, and order and calls of the claims do not matter. -/
theorem claimMint_exact (husbs : w₀.usbs.Reachable) (hrun : Run Step w₀ tr w)
    (hopen : w.hub.params.subscriptionPaused = false) (sender : Address) (ids : List Bytes32) :
    ((∃ w', w.minted sender ids = some w') ↔
      ids.Nodup ∧ (∀ id ∈ ids, ∃ w', w.minted sender [id] = some w') ∧
        w.usbs.erc20.totalSupply.toNat +
          (ids.map (USBSManager.owed w.hub w.pricers)).sum < 2 ^ 256) ∧
    (∀ w', w.minted sender ids = some w' → w.Mints ids w') ∧
    (∀ ids', ids'.Perm ids →
      (w.minted sender ids').map storage = (w.minted sender ids).map storage) ∧
    ∀ calls : List (Address × List Bytes32), (calls.map Prod.snd).flatten = ids →
      calls.foldlM (fun w call => w.minted call.1 call.2) w = w.minted sender ids := by
  have hbalanced := (reachable_usbs husbs hrun).balanced
  refine ⟨exists_minted_iff_each hbalanced hopen, fun w' => minted_mints, ?_, ?_⟩
  · intro ids' hperm
    have hiff := @exists_minted_perm κ _ w sender ids' ids hbalanced hopen hperm
    refine map_eq_map ?_ ?_
    · intro w' h
      obtain ⟨w'', h''⟩ := hiff.mp ⟨w', h⟩
      exact ⟨w'', h'', (minted_mints h'').storage_eq (minted_mints h) hperm.symm⟩
    · intro w' h
      exact Option.isSome_iff_exists.mpr (hiff.mpr ⟨w', h⟩)
  · intro calls hcalls
    rw [← hcalls]
    exact foldlM_minted hopen

open Sample in
/-- Two deposits wait to be claimed. -/
def claimableDeposits : List (Action ERC20) := setup ++ [
  .pricer pricerAddress operator (.addPrice 1000000000000000000 999999),
  .manager customer (.requestSubscription 100000000),
  .manager operator (.addProof 0xABCD customer 50000000 0 999999),
  .manager operator (.setPriceIdForDeposits [1, 0xABCD] [1, 1]),
  .manager operator (.setClaimableTimestamp 1000000 [1, 0xABCD])]

open Sample in
/-- They are claimed together, in either order, but not one of them twice. -/
theorem claimMint_exact_sample :
    (∃ w', (play next world claimableDeposits).minted customer [0xABCD, 1] = some w' ∧
      w'.usbs.erc20.balances customer = 150000000000000000000) ∧
    ¬ ∃ w', (play next world claimableDeposits).minted customer [1, 1] = some w' := by
  have hrun : Run Step world (playTrace next world claimableDeposits)
      (play next world claimableDeposits) := run_play (fun _ _ _ => step_of_next) _ _
  have hopen : (play next world claimableDeposits).hub.params.subscriptionPaused = false := by
    decide +kernel
  have hproof : ((play next world claimableDeposits).minted customer [0xABCD]).isSome = true := by
    decide +kernel
  have hdeposit : ((play next world claimableDeposits).minted customer [1]).isSome = true := by
    decide +kernel
  have hfits : (play next world claimableDeposits).usbs.erc20.totalSupply.toNat +
      ([0xABCD, 1].map (USBSManager.owed (play next world claimableDeposits).hub
        (play next world claimableDeposits).pricers)).sum < 2 ^ 256 := by
    decide +kernel
  have howed : ((play next world claimableDeposits).usbs.erc20.balances customer).toNat +
      ([0xABCD, 1].map fun id =>
        if ((play next world claimableDeposits).hub.depositIdToDepositor id).user = customer
        then USBSManager.owed (play next world claimableDeposits).hub
          (play next world claimableDeposits).pricers id else 0).sum = 150000000000000000000 := by
    decide +kernel
  generalize play next world claimableDeposits = w at hrun hopen hproof hdeposit hfits howed ⊢
  obtain ⟨hsucceeds, hmints, -⟩ := claimMint_exact (.empty rfl) hrun hopen customer [0xABCD, 1]
  obtain ⟨htwice, -⟩ := claimMint_exact (.empty rfl) hrun hopen customer [1, 1]
  constructor
  · obtain ⟨w', h⟩ := hsucceeds.mpr ⟨by decide, by
      simp only [List.forall_mem_cons, List.not_mem_nil, false_imp_iff, implies_true, and_true]
      exact ⟨Option.isSome_iff_exists.mp hproof, Option.isSome_iff_exists.mp hdeposit⟩, hfits⟩
    refine ⟨w', h, BitVec.eq_of_toNat_eq ?_⟩
    rw [(hmints w' h).balances, howed]
    rfl
  · rw [htwice]
    exact fun h => absurd h.1 (by decide)

end World

end BrivoUsbs
