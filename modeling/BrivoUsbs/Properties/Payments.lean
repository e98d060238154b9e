import BrivoUsbs.Contracts.ERC20
import BrivoUsbs.Framework.Bill

/-!
# Payments out of one account

A spender pays a bill out of an account by one `safeTransferFrom` after the other.  As long as the
account is none of the payees, whether the payments succeed and what they leave depends on the sums
of the bill alone: `payAll_spec` and `exists_payAll` give the exact condition and effect, and
`Payable.congr` and `Paid.storage_eq` conclude that bills with the same sums are the same to pay.
-/

namespace BrivoUsbs

/-- Payments as a bill. -/
def billOf (payments : List (Address × Uint256)) : Bill Address :=
  payments.map fun payment => (payment.1, payment.2.toNat)

@[simp] lemma billOf_nil : billOf [] = [] := rfl

@[simp] lemma billOf_cons {payment : Address × Uint256} {payments : List (Address × Uint256)} :
    billOf (payment :: payments) = (payment.1, payment.2.toNat) :: billOf payments := rfl

@[simp] lemma billOf_append {payments payments' : List (Address × Uint256)} :
    billOf (payments ++ payments') = billOf payments ++ billOf payments' := List.map_append

namespace ERC20

variable {token token' token'' : ERC20} {spender source payee : Address} {amount : Uint256}
  {bill bill' : Bill Address} {payments payments' : List (Address × Uint256)}

/-! ## One payment -/

lemma spendAllowance_infinite (h : token.allowances source spender = maxUint256) :
    token.spendAllowance source spender amount = .ok token := by
  rw [spendAllowance, if_pos h]

lemma spendAllowance_finite (h : token.allowances source spender ≠ maxUint256) :
    token.spendAllowance source spender amount = .ok token' ↔
      amount ≤ token.allowances source spender ∧ source ≠ 0 ∧ spender ≠ 0 ∧
        token' = { token with
          allowances := Function.update token.allowances source
            (Function.update (token.allowances source) spender
              (token.allowances source spender - amount))
          log := token.log ++ [.approval source spender
            (token.allowances source spender - amount)] } := by
  rw [spendAllowance, if_neg h]
  simp only [internalApprove, bind_eq_ok, require_eq_ok, pure_eq_ok, exists_const]
  exact and_congr_right fun _ => and_congr_right fun _ => and_congr_right fun _ => eq_comm

lemma internalTransfer_eq_ok (hne : payee ≠ source) :
    token.internalTransfer noHook source payee amount = .ok token' ↔
      source ≠ 0 ∧ payee ≠ 0 ∧ amount ≤ token.balances source ∧
        ∃ credited : Uint256, credited.toNat = (token.balances payee).toNat + amount.toNat ∧
          token' = { token with
            balances := Function.update
              (Function.update token.balances source (token.balances source - amount)) payee
              credited
            log := token.log ++ [.transfer source payee amount] } := by
  simp only [internalTransfer, noHook, bind_eq_ok, require_eq_ok, pure_eq_ok, exists_const,
    checkedAdd_eq_ok, Function.update_of_ne hne, true_and]
  refine and_congr_right fun _ => and_congr_right fun _ => and_congr_right fun _ => ?_
  exact exists_congr fun _ => and_congr_right fun _ => eq_comm

lemma safeTransferFrom_eq :
    safeTransferFrom token spender source payee amount =
      token.transferFrom noHook spender source payee amount := by
  simp only [safeTransferFrom, IERC20.transferFrom, bind_assoc, pure_bind, require]
  exact bind_pure _

/-- When a spender can pay a bill out of an account that is none of the payees. -/
structure Payable (token : ERC20) (spender source : Address) (bill : Bill Address) : Prop where
  parties : ∀ payee ∈ bill.map Prod.fst, payee ≠ 0 ∧ source ≠ 0 ∧
    (token.allowances source spender ≠ maxUint256 → spender ≠ 0)
  allowance : token.allowances source spender ≠ maxUint256 →
    bill.total ≤ (token.allowances source spender).toNat
  balance : bill.total ≤ (token.balances source).toNat
  room : ∀ payee, payee ≠ source →
    (token.balances payee).toNat + bill.credit payee < 2 ^ 256

/-- What paying the bill does.  An infinite allowance stays as it is. -/
structure Paid (token : ERC20) (spender source : Address) (bill : Bill Address)
    (token' : ERC20) : Prop where
  debited : (token'.balances source).toNat + bill.total = (token.balances source).toNat
  credited : ∀ payee, payee ≠ source →
    (token'.balances payee).toNat = (token.balances payee).toNat + bill.credit payee
  infinite : token.allowances source spender = maxUint256 →
    token'.allowances source spender = maxUint256
  finite : token.allowances source spender ≠ maxUint256 →
    (token'.allowances source spender).toNat + bill.total =
      (token.allowances source spender).toNat
  others : ∀ owner other, ¬ (owner = source ∧ other = spender) →
    token'.allowances owner other = token.allowances owner other
  totalSupply : token'.totalSupply = token.totalSupply

/-- A finite allowance stays finite. -/
lemma Paid.infinite_iff (h : Paid token spender source bill token') :
    token'.allowances source spender = maxUint256 ↔
      token.allowances source spender = maxUint256 := by
  refine ⟨fun hinfinite => by_contra fun hfinite => ?_, h.infinite⟩
  have hspent := h.finite hfinite
  have hbound := (token.allowances source spender).isLt
  have hmax : maxUint256.toNat = 2 ^ 256 - 1 := BitVec.toNat_allOnes
  rw [hinfinite, hmax] at hspent
  refine hfinite (BitVec.eq_of_toNat_eq ?_)
  omega

/-- A part of a bill can be paid if the whole can. -/
lemma Payable.left (h : Payable token spender source (bill ++ bill')) :
    Payable token spender source bill := by
  have hbalance := h.balance
  rw [Bill.total_append] at hbalance
  refine ⟨?_, ?_, by omega, ?_⟩
  · intro payee hpayee
    apply h.parties payee
    rw [List.map_append]
    exact List.mem_append_left _ hpayee
  · intro hne
    have hallowance := h.allowance hne
    rw [Bill.total_append] at hallowance
    omega
  · intro payee hne
    have hroom := h.room payee hne
    rw [Bill.credit_append] at hroom
    omega

/-- Paying a bill leaves what another one can be paid of. -/
lemma Paid.payable_append_iff (h : Paid token spender source bill token') :
    Payable token spender source (bill ++ bill') ↔
      Payable token spender source bill ∧ Payable token' spender source bill' := by
  have hsource := h.debited
  have hfinite := h.finite
  have hsame := not_congr h.infinite_iff
  constructor
  · intro hboth
    have hbalance := hboth.balance
    rw [Bill.total_append] at hbalance
    refine ⟨hboth.left, ?_, ?_, by omega, ?_⟩
    · intro payee hpayee
      obtain ⟨hpayee', hsource', hspender⟩ := hboth.parties payee (by
        rw [List.map_append]
        exact List.mem_append_right _ hpayee)
      exact ⟨hpayee', hsource', fun hne => hspender (hsame.mp hne)⟩
    · intro hne
      have hallowance := hboth.allowance (hsame.mp hne)
      have hspent := hfinite (hsame.mp hne)
      rw [Bill.total_append] at hallowance
      omega
    · intro payee hne
      have hroom := hboth.room payee hne
      rw [Bill.credit_append] at hroom
      rw [h.credited payee hne]
      omega
  · rintro ⟨hfirst, hrest⟩
    have hbalance := hrest.balance
    refine ⟨?_, ?_, ?_, ?_⟩
    · intro payee hpayee
      rw [List.map_append] at hpayee
      rcases List.mem_append.mp hpayee with hmem | hmem
      · exact hfirst.parties payee hmem
      · obtain ⟨hpayee', hsource', hspender⟩ := hrest.parties payee hmem
        exact ⟨hpayee', hsource', fun hne => hspender (hsame.mpr hne)⟩
    · intro hne
      have hallowance := hrest.allowance (hsame.mpr hne)
      have hspent := hfinite hne
      rw [Bill.total_append]
      omega
    · rw [Bill.total_append]
      omega
    · intro payee hne
      have hroom := hrest.room payee hne
      rw [h.credited payee hne] at hroom
      rw [Bill.credit_append]
      omega

lemma Paid.append (h : Paid token spender source bill token')
    (h' : Paid token' spender source bill' token'') :
    Paid token spender source (bill ++ bill') token'' := by
  have hsource := h.debited
  have hsource' := h'.debited
  refine ⟨?_, ?_, ?_, ?_, ?_, h'.totalSupply.trans h.totalSupply⟩
  · rw [Bill.total_append]
    omega
  · intro payee hne
    rw [h'.credited payee hne, h.credited payee hne, Bill.credit_append, Nat.add_assoc]
  · intro hinfinite
    exact h'.infinite (h.infinite hinfinite)
  · intro hne
    have hspent := h.finite hne
    have hspent' := h'.finite (mt h.infinite_iff.mp hne)
    rw [Bill.total_append]
    omega
  · intro owner other hother
    exact (h'.others owner other hother).trans (h.others owner other hother)

/-- What is paid is told by the sums of the bill. -/
lemma Paid.storage_eq (hsame : Bill.Same bill bill')
    (h : Paid token spender source bill token')
    (h' : Paid token spender source bill' token'') : token'.storage = token''.storage := by
  have htotal := hsame.total
  have hbalances : token'.balances = token''.balances := by
    funext account
    apply BitVec.eq_of_toNat_eq
    by_cases hne : account = source
    · subst hne
      have hsource := h.debited
      have hsource' := h'.debited
      omega
    · rw [h.credited account hne, h'.credited account hne, hsame.credit]
  have hallowances : token'.allowances = token''.allowances := by
    funext owner other
    by_cases hpair : owner = source ∧ other = spender
    · obtain ⟨rfl, rfl⟩ := hpair
      by_cases hinfinite : token.allowances owner other = maxUint256
      · rw [h.infinite hinfinite, h'.infinite hinfinite]
      · have hspent := h.finite hinfinite
        have hspent' := h'.finite hinfinite
        apply BitVec.eq_of_toNat_eq
        omega
    · rw [h.others owner other hpair, h'.others owner other hpair]
  rw [storage, storage, hbalances, hallowances, h.totalSupply, h'.totalSupply]

lemma Payable.congr (hsame : Bill.Same bill bill') (h : Payable token spender source bill) :
    Payable token spender source bill' := by
  refine ⟨fun payee hpayee => h.parties payee ((hsame.payees payee).mpr hpayee), ?_, ?_, ?_⟩
  · rw [← hsame.total]
    exact h.allowance
  · rw [← hsame.total]
    exact h.balance
  · simp only [← hsame.credit]
    exact h.room

/-! ## A payment, and a list of them -/

/-- A payment of one entry succeeds if it is payable. -/
lemma exists_payment (hne : payee ≠ source)
    (h : Payable token spender source [(payee, amount.toNat)]) :
    ∃ token', safeTransferFrom token spender source payee amount = .ok token' := by
  obtain ⟨hpayee, hsource, hspender⟩ := h.parties payee (by simp)
  have hbalance : amount ≤ token.balances source := BitVec.le_def.mpr (by simpa using h.balance)
  have hroom : (token.balances payee).toNat + amount.toNat < 2 ^ 256 := by
    simpa using h.room payee hne
  obtain ⟨credited, hcredited⟩ := exists_toNat_eq hroom
  simp only [safeTransferFrom_eq, transferFrom, bind_eq_ok]
  by_cases hinfinite : token.allowances source spender = maxUint256
  · exact ⟨_, token, spendAllowance_infinite hinfinite,
      (internalTransfer_eq_ok hne).mpr ⟨hsource, hpayee, hbalance, credited, hcredited, rfl⟩⟩
  · have hallowance : amount ≤ token.allowances source spender :=
      BitVec.le_def.mpr (by simpa using h.allowance hinfinite)
    exact ⟨_, _, (spendAllowance_finite hinfinite).mpr
      ⟨hallowance, hsource, hspender hinfinite, rfl⟩,
      (internalTransfer_eq_ok hne).mpr ⟨hsource, hpayee, hbalance, credited, hcredited, rfl⟩⟩

/-- A transfer debits and credits its parties. -/
lemma internalTransfer_balances (hne : payee ≠ source)
    (h : token.internalTransfer noHook source payee amount = .ok token') :
    source ≠ 0 ∧ payee ≠ 0 ∧ amount.toNat ≤ (token.balances source).toNat ∧
      (∀ account, account ≠ source →
        (token.balances account).toNat + Bill.credit account [(payee, amount.toNat)] < 2 ^ 256) ∧
      (token'.balances source).toNat + amount.toNat = (token.balances source).toNat ∧
      (∀ account, account ≠ source → (token'.balances account).toNat =
        (token.balances account).toNat + Bill.credit account [(payee, amount.toNat)]) ∧
      token'.allowances = token.allowances ∧ token'.totalSupply = token.totalSupply := by
  obtain ⟨hsource, hpayee, hbalance, credited, hcredited, rfl⟩ :=
    (internalTransfer_eq_ok hne).mp h
  have hle : amount.toNat ≤ (token.balances source).toNat := hbalance
  refine ⟨hsource, hpayee, hle, ?_, ?_, ?_, rfl, rfl⟩
  · intro account _
    by_cases hsame : payee = account
    · subst hsame
      simpa [← hcredited] using credited.isLt
    · simpa [hsame] using (token.balances account).isLt
  · dsimp only
    rw [Function.update_of_ne hne.symm, Function.update_self, BitVec.toNat_sub_of_le hbalance,
      Nat.sub_add_cancel hle]
  · intro account hother
    dsimp only
    by_cases hsame : payee = account
    · subst hsame
      simpa using hcredited
    · rw [Function.update_of_ne (Ne.symm hsame), Function.update_of_ne hother]
      simp [hsame]

/-- A payment that succeeds was payable, and is paid. -/
lemma payment_spec (hne : payee ≠ source)
    (h : safeTransferFrom token spender source payee amount = .ok token') :
    Payable token spender source [(payee, amount.toNat)] ∧
      Paid token spender source [(payee, amount.toNat)] token' := by
  simp only [safeTransferFrom_eq, transferFrom, bind_eq_ok] at h
  obtain ⟨spent, hspent, hmoved⟩ := h
  obtain ⟨hbalances, hsupply, -⟩ := spendAllowance_spec hspent
  obtain ⟨hsource, hpayee, hbalance, hroom, hdebited, hcredited, hallowances, hsupply'⟩ :=
    internalTransfer_balances hne hmoved
  rw [hbalances] at hbalance hroom hdebited hcredited
  have hparties : (token.allowances source spender ≠ maxUint256 → spender ≠ 0) →
      ∀ p ∈ [(payee, amount.toNat)].map Prod.fst, p ≠ 0 ∧ source ≠ 0 ∧
        (token.allowances source spender ≠ maxUint256 → spender ≠ 0) := by
    intro hspender p hp
    obtain rfl : p = payee := by simpa using hp
    exact ⟨hpayee, hsource, hspender⟩
  by_cases hinfinite : token.allowances source spender = maxUint256
  · rw [spendAllowance_infinite hinfinite] at hspent
    obtain rfl := Except.ok.inj hspent
    exact ⟨⟨hparties fun hfinite => absurd hinfinite hfinite,
      fun hfinite => absurd hinfinite hfinite, by simpa using hbalance, hroom⟩,
      by simpa using hdebited, hcredited, fun _ => by rw [hallowances, hinfinite],
      fun hfinite => absurd hinfinite hfinite, fun owner other _ => by rw [hallowances], hsupply'⟩
  · obtain ⟨hallowance, -, hspender, rfl⟩ := (spendAllowance_finite hinfinite).mp hspent
    have hle : amount.toNat ≤ (token.allowances source spender).toNat := hallowance
    refine ⟨⟨hparties fun _ => hspender, fun _ => by simpa using hle, by simpa using hbalance,
      hroom⟩, by simpa using hdebited, hcredited, fun hfinite => absurd hfinite hinfinite,
      fun _ => ?_, fun owner other hother => ?_, hsupply'⟩
    · rw [hallowances]
      dsimp only
      rw [Function.update_self, Function.update_self, BitVec.toNat_sub_of_le hallowance,
        Bill.total_cons, Bill.total_nil, Nat.add_zero, Nat.sub_add_cancel hle]
    · rw [hallowances]
      dsimp only
      by_cases howner : owner = source
      · subst howner
        have hne' : other ≠ spender := fun hsame => hother ⟨rfl, hsame⟩
        rw [Function.update_self, Function.update_of_ne hne']
      · rw [Function.update_of_ne howner]

/-- Payments one by one. -/
def payAll (token : ERC20) (spender source : Address) (payments : List (Address × Uint256)) :
    Tx Error ERC20 :=
  payments.foldlM (fun token payment =>
    safeTransferFrom token spender source payment.1 payment.2) token

lemma payAll_singleton {payment : Address × Uint256} :
    token.payAll spender source [payment] =
      safeTransferFrom token spender source payment.1 payment.2 := by
  simp [payAll]

lemma payAll_append :
    token.payAll spender source (payments ++ payments') = .ok token' ↔
      ∃ token'', token.payAll spender source payments = .ok token'' ∧
        token''.payAll spender source payments' = .ok token' := by
  rw [payAll, List.foldlM_append, bind_eq_ok]
  rfl

lemma Payable.nil : Payable token spender source [] := by
  refine ⟨by simp, fun _ => Nat.zero_le _, Nat.zero_le _, fun payee _ => ?_⟩
  exact (token.balances payee).isLt

lemma Paid.refl : Paid token spender source [] token :=
  ⟨rfl, fun _ _ => rfl, id, fun _ => rfl, fun _ _ _ => rfl, rfl⟩

/-- **What payments do**, if they succeed. -/
lemma payAll_spec (hne : ∀ payment ∈ payments, payment.1 ≠ source)
    (h : token.payAll spender source payments = .ok token') :
    Payable token spender source (billOf payments) ∧
      Paid token spender source (billOf payments) token' := by
  induction payments generalizing token with
  | nil =>
      simp only [payAll, List.foldlM_nil, pure_eq_ok] at h
      subst h
      exact ⟨.nil, .refl⟩
  | cons payment payments ih =>
      simp only [payAll, List.foldlM_cons, bind_eq_ok] at h
      obtain ⟨first, hfirst, hrest⟩ := h
      obtain ⟨hpayable, hpaid⟩ := payment_spec (hne payment List.mem_cons_self) hfirst
      obtain ⟨hpayable', hpaid'⟩ := ih (fun p hp => hne p (List.mem_cons_of_mem _ hp)) hrest
      exact ⟨hpaid.payable_append_iff.mpr ⟨hpayable, hpayable'⟩, hpaid.append hpaid'⟩

/-- **When payments succeed.** -/
lemma exists_payAll (hne : ∀ payment ∈ payments, payment.1 ≠ source)
    (h : Payable token spender source (billOf payments)) :
    ∃ token', token.payAll spender source payments = .ok token' := by
  induction payments generalizing token with
  | nil => exact ⟨token, rfl⟩
  | cons payment payments ih =>
      have hfirst : Payable token spender source [(payment.1, payment.2.toNat)] := Payable.left h
      have hother := hne payment List.mem_cons_self
      obtain ⟨first, hpay⟩ := exists_payment hother hfirst
      obtain ⟨-, hpaid⟩ := payment_spec hother hpay
      obtain ⟨-, hrest⟩ := hpaid.payable_append_iff.mp h
      obtain ⟨token', htoken'⟩ := ih (fun p hp => hne p (List.mem_cons_of_mem _ hp)) hrest
      refine ⟨token', ?_⟩
      simp only [payAll, List.foldlM_cons, bind_eq_ok]
      exact ⟨first, hpay, htoken'⟩

end ERC20

end BrivoUsbs
