import Mathlib.Algebra.BigOperators.Group.List.Basic
import Mathlib.Algebra.GroupWithZero.Nat
import Mathlib.Tactic.Common

/-!
# Bills

A bill is a list of amounts for payees.  What paying it does is told by what it adds up to, in all
and for each payee, so bills of which these agree are `Same`: a payee may be billed at once or in
parts, and the order does not matter.
-/

namespace BrivoUsbs

/-- Amounts for payees. -/
abbrev Bill (π : Type) := List (π × ℕ)

namespace Bill

variable {π : Type} [DecidableEq π] {bill bill' : Bill π} {payee : π} {amount : ℕ}

def total (bill : Bill π) : ℕ := (bill.map Prod.snd).sum

/-- What the bill adds up to for one payee. -/
def credit (payee : π) (bill : Bill π) : ℕ :=
  (bill.map fun entry => if entry.1 = payee then entry.2 else 0).sum

omit [DecidableEq π] in
@[simp] lemma total_nil : total ([] : Bill π) = 0 := rfl

omit [DecidableEq π] in
@[simp] lemma total_cons {entry : π × ℕ} : total (entry :: bill) = entry.2 + total bill := rfl

omit [DecidableEq π] in
@[simp] lemma total_append : total (bill ++ bill') = total bill + total bill' := by
  simp [total]

@[simp] lemma credit_nil : credit payee ([] : Bill π) = 0 := rfl

@[simp] lemma credit_cons {entry : π × ℕ} :
    credit payee (entry :: bill) = (if entry.1 = payee then entry.2 else 0) + credit payee bill :=
  rfl

@[simp] lemma credit_append :
    credit payee (bill ++ bill') = credit payee bill + credit payee bill' := by
  simp [credit]

/-- Bills with the same sums and payees. -/
structure Same (bill bill' : Bill π) : Prop where
  total : bill.total = bill'.total
  credit : ∀ payee, bill.credit payee = bill'.credit payee
  payees : ∀ payee, payee ∈ bill.map Prod.fst ↔ payee ∈ bill'.map Prod.fst

lemma Same.symm (h : Same bill bill') : Same bill' bill :=
  ⟨h.total.symm, fun payee => (h.credit payee).symm, fun payee => (h.payees payee).symm⟩

lemma Same.of_perm (h : bill.Perm bill') : Same bill bill' :=
  ⟨(h.map _).sum_eq, fun _ => (h.map _).sum_eq, fun _ => (h.map _).mem_iff⟩

end Bill

end BrivoUsbs
