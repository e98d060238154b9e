import BrivoUsbs.Framework.Path
import BrivoUsbs.Framework.Word

/-!
# Ledgers of claims

The abstract purpose of a request table: a claim over an amount is *opened* under a free id by
its owner, stays as it is, and is *settled* once, which frees the id again.  `conservation` is
the one law everything else is read off: for any way of weighing claims, what was opened is what
is outstanding plus what was settled.  Weighing by amount gives the conservation of value, and
weighing by one at a fixed id gives the bound on how often an id can be settled.
-/

namespace BrivoUsbs

/-- The outstanding claims: under each id, nothing or an owner and an amount. -/
abbrev Ledger (ι π : Type) := ι → Option (π × ℕ)

namespace Ledger

variable {ι π : Type} [DecidableEq ι]

inductive Event (ι π : Type)
  | opened (id : ι) (claim : π × ℕ)
  | settled (id : ι) (claim : π × ℕ)
  /-- Anything that leaves the outstanding claims alone. -/
  | noted

inductive Step (ledger : Ledger ι π) : Event ι π → Ledger ι π → Prop
  | opened {id : ι} {claim : π × ℕ} (hfree : ledger id = none) :
      Step ledger (.opened id claim) (Function.update ledger id (some claim))
  | settled {id : ι} {claim : π × ℕ} (hlive : ledger id = some claim) :
      Step ledger (.settled id claim) (Function.update ledger id none)
  | noted : Step ledger .noted ledger

variable {M : Type} [AddCommMonoid M] (weight : ι → π × ℕ → M)

/-- The weight one event opens. -/
def Event.openedWeight : Event ι π → M
  | .opened id claim => weight id claim
  | _ => 0

/-- The weight one event settles. -/
def Event.settledWeight : Event ι π → M
  | .settled id claim => weight id claim
  | _ => 0

/-- The weight under one id. -/
def slotWeight (id : ι) (slot : Option (π × ℕ)) : M := slot.elim 0 (weight id)

variable [Fintype ι]

/-- The weight of all outstanding claims. -/
def outstanding (ledger : Ledger ι π) : M := ∑ id, slotWeight weight id (ledger id)

lemma Step.balance {ledger ledger' : Ledger ι π} {e : Event ι π} (h : Step ledger e ledger') :
    outstanding weight ledger' + e.settledWeight weight =
      outstanding weight ledger + e.openedWeight weight := by
  cases h with
  | @opened id claim hfree =>
      have hsum := sum_table_update ledger (slotWeight weight) id (some claim)
      rw [hfree] at hsum
      exact hsum
  | @settled id claim hlive =>
      have hsum := sum_table_update ledger (slotWeight weight) id none
      rw [hlive] at hsum
      exact hsum
  | noted => rfl

/-- **Conservation.**  Whatever claims are weighed by, the weight opened along a path is the
weight outstanding at its end plus the weight settled on the way. -/
theorem conservation {ledger : Ledger ι π} {es : List (Event ι π)}
    (h : Path Step (fun _ => none) es ledger) :
    outstanding weight ledger + (es.map (Event.settledWeight weight)).sum =
      (es.map (Event.openedWeight weight)).sum := by
  have hsum := h.conserved fun s e s' hstep => Step.balance weight hstep
  rw [hsum]
  simp [outstanding, slotWeight]

/-! ## Amounts, and the number of claims under an id -/

/-- Weigh a claim by its amount. -/
def byAmount (_ : ι) (claim : π × ℕ) : ℕ := claim.2

/-- Count the claims under one id. -/
def atId (id i : ι) (_ : π × ℕ) : ℕ := if i = id then 1 else 0

/-- The event opens a claim under the id. -/
def Event.opens (id : ι) : Event ι π → Bool
  | .opened i _ => i = id
  | _ => false

/-- The event settles the claim under the id. -/
def Event.settles (id : ι) : Event ι π → Bool
  | .settled i _ => i = id
  | _ => false

lemma sum_boole_eq_countP {α : Type} (p : α → Bool) (l : List α) :
    (l.map fun a => if p a then 1 else 0).sum = l.countP p := by
  induction l with
  | nil => rfl
  | cons a l ih =>
      rw [List.map_cons, List.sum_cons, ih, List.countP_cons]
      exact Nat.add_comm _ _

lemma outstanding_atId (id : ι) (ledger : Ledger ι π) :
    outstanding (atId id) ledger = if (ledger id).isSome then 1 else 0 := by
  unfold outstanding
  rw [Finset.sum_eq_single id]
  · cases h : ledger id <;> simp [slotWeight, atId]
  · intro i _ hi
    cases h : ledger i <;> simp [slotWeight, atId, hi]
  · simp

/-- **At most one claim at a time.**  Along a path an id is opened once for every time it is
settled, and once more if a claim is outstanding under it. -/
theorem countP_opens (id : ι) {ledger : Ledger ι π} {es : List (Event ι π)}
    (h : Path Step (fun _ => none) es ledger) :
    es.countP (Event.opens id) =
      es.countP (Event.settles id) + if (ledger id).isSome then 1 else 0 := by
  have hopened : Event.openedWeight (π := π) (atId id) =
      fun e => if e.opens id then 1 else 0 := by
    funext e
    cases e <;> simp [Event.openedWeight, Event.opens, atId]
  have hsettled : Event.settledWeight (π := π) (atId id) =
      fun e => if e.settles id then 1 else 0 := by
    funext e
    cases e <;> simp [Event.settledWeight, Event.settles, atId]
  have hsum := conservation (atId id) h
  rw [hopened, hsettled, sum_boole_eq_countP, sum_boole_eq_countP, outstanding_atId] at hsum
  omega

end Ledger

end BrivoUsbs
