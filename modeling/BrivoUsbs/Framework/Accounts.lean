import BrivoUsbs.Framework.Path
import Mathlib.Algebra.GroupWithZero.Nat
import Mathlib.Algebra.Order.Monoid.Defs

/-!
# Accounts

A movement takes an amount from one account and adds it to another.  Without a source it creates
the amount, and without a destination it destroys it.  `Accounts` are the balances, their sum and
the movements so far; to post a movement changes all three, and a `Statement` says what a list of
movements adds up to.

A budget is drawn from and granted to: `Run.within_budget` bounds what is drawn over a run.
-/

namespace BrivoUsbs

structure Movement (π : Type) where
  source : Option π
  dest : Option π
  amount : ℕ
  deriving DecidableEq

namespace Movement

variable {π : Type} [DecidableEq π]

/-- What the movement takes from the account. -/
def debit (account : π) (m : Movement π) : ℕ := if m.source = some account then m.amount else 0

/-- What the movement adds to the account. -/
def credit (account : π) (m : Movement π) : ℕ := if m.dest = some account then m.amount else 0

def created (m : Movement π) : ℕ := if m.source = none then m.amount else 0

def destroyed (m : Movement π) : ℕ := if m.dest = none then m.amount else 0

end Movement

structure Accounts (π : Type) where
  balance : π → ℕ
  supply : ℕ
  posted : List (Movement π)

namespace Accounts

variable {π : Type} [DecidableEq π] {accounts accounts' : Accounts π} {ms : List (Movement π)}

structure Post (accounts : Accounts π) (m : Movement π) (accounts' : Accounts π) : Prop where
  balance : ∀ account, accounts'.balance account + m.debit account =
    accounts.balance account + m.credit account
  supply : accounts'.supply + m.destroyed = accounts.supply + m.created
  posted : accounts'.posted = accounts.posted ++ [m]

/-- The movements `ms` are those between the two states of the accounts, and account for every
balance and for the supply. -/
structure Statement (accounts : Accounts π) (ms : List (Movement π)) (accounts' : Accounts π) :
    Prop where
  posted : accounts'.posted = accounts.posted ++ ms
  balance : ∀ account, accounts'.balance account + (ms.map (Movement.debit account)).sum =
    accounts.balance account + (ms.map (Movement.credit account)).sum
  supply : accounts'.supply + (ms.map Movement.destroyed).sum =
    accounts.supply + (ms.map Movement.created).sum

/-- **Posted movements are accounted for.** -/
lemma statement (h : Path Post accounts ms accounts') : Statement accounts ms accounts' where
  posted := by
    induction h with
    | nil => exact (List.append_nil _).symm
    | snoc _ hpost ih => rw [hpost.posted, ih, List.append_assoc]
  balance account := h.conserved fun _ _ _ hpost => hpost.balance account
  supply := h.conserved fun _ _ _ hpost => hpost.supply

end Accounts

/-- **Within the budget.**  If each step draws at most what is left of a budget, after what it adds
to it, then all steps together draw at most the budget at the start and what was added. -/
lemma Run.within_budget {σ α M : Type} [AddCommMonoid M] [PartialOrder M] [IsOrderedAddMonoid M]
    {step : σ → α → σ → Prop} {s₀ s : σ} {tr : List (Transition σ α)}
    {drawn granted : Transition σ α → M} (budget : σ → M) (h : Run step s₀ tr s)
    (hstep : ∀ t, step t.pre t.label t.post →
      drawn t + budget t.post ≤ budget t.pre + granted t) :
    (tr.map drawn).sum + budget s ≤ budget s₀ + (tr.map granted).sum := by
  induction h using Run.induction with
  | nil => simp
  | snoc tr s a s' _ hlast ih =>
      simp only [List.map_append, List.map_cons, List.map_nil, List.sum_append, List.sum_cons,
        List.sum_nil, add_zero]
      calc
        (tr.map drawn).sum + drawn ⟨s, a, s'⟩ + budget s'
            = (tr.map drawn).sum + (drawn ⟨s, a, s'⟩ + budget s') := add_assoc ..
        _ ≤ (tr.map drawn).sum + (budget s + granted ⟨s, a, s'⟩) :=
              add_le_add le_rfl (hstep ⟨s, a, s'⟩ hlast)
        _ = (tr.map drawn).sum + budget s + granted ⟨s, a, s'⟩ := (add_assoc ..).symm
        _ ≤ budget s₀ + (tr.map granted).sum + granted ⟨s, a, s'⟩ := add_le_add ih le_rfl
        _ = budget s₀ + ((tr.map granted).sum + granted ⟨s, a, s'⟩) := add_assoc ..

end BrivoUsbs
