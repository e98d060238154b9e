import BrivoUsbs.Contracts.PricerWithOracle
import BrivoUsbs.Contracts.World

/-!
# The manager over a pricer with an oracle

`OracleSystem` is the world together with a `PricerWithOracle` that stands at an address of it, and
the oracle of that pricer.  The manager asks it for prices like any other pricer if it is set up
to.  They share the clock, which is the oracle's.

A step is a transaction in the world, or one with this pricer or its oracle.
-/

namespace BrivoUsbs

structure OracleSystem (κ ω φ : Type) where
  world : World κ
  pricer : PricerWorld ω φ
  listed : world.pricers pricer.self = some pricer.pricer
  clock : world.timestamp = pricer.timestamp

namespace OracleSystem

variable {κ ω φ : Type}

/-- The world asks this pricer from now on. -/
def connect (world : World κ) (pricer : PricerWorld ω φ) : OracleSystem κ ω φ where
  world := { world with
    pricers := Function.update world.pricers pricer.self (some pricer.pricer)
    timestamp := pricer.timestamp }
  pricer := pricer
  listed := Function.update_self ..
  clock := rfl

inductive Action (κ φ : Type)
  | world (action : BrivoUsbs.Action κ)
  | pricer (action : PricerAction φ)

def Action.caller : Action κ φ → Option Address
  | .world action => action.caller
  | .pricer action => action.caller

/-- At its address the pricer has code of its own, and the clock is the oracle's. -/
def Action.isReplaced (self : Address) : Action κ φ → Bool
  | .world (.pricer address _ _) => address = self
  | .world (.wait _) => true
  | _ => false

variable [IERC20 κ] [IRWAOracleSetter ω φ]

def exec (s : OracleSystem κ ω φ) : Action κ φ → Tx Error (OracleSystem κ ω φ)
  | .world action => do
      let world ← s.world.exec action
      return connect world s.pricer
  | .pricer action => do
      let pricer ← s.pricer.exec action
      return connect s.world pricer

/-- One transaction, or a move of the environment.  Nobody but the code of the manager and of the
pricer calls from their addresses. -/
def Step (s : OracleSystem κ ω φ) (a : Action κ φ) (s' : OracleSystem κ ω φ) : Prop :=
  (∀ caller ∈ a.caller, caller ≠ 0 ∧ caller ≠ s.world.self ∧ caller ≠ s.pricer.self) ∧
    a.isReplaced s.pricer.self = false ∧ s.exec a = .ok s'

/-- One step as a function: nothing if the transaction is rejected. -/
def next (s : OracleSystem κ ω φ) (a : Action κ φ) : Option (OracleSystem κ ω φ) :=
  if a.caller.all (fun caller => caller ≠ 0 ∧ caller ≠ s.world.self ∧ caller ≠ s.pricer.self) &&
      !a.isReplaced s.pricer.self then
    (s.exec a).toOption
  else none

lemma step_of_next {s s' : OracleSystem κ ω φ} {a : Action κ φ} (h : s.next a = some s') :
    s.Step a s' := by
  unfold next at h
  split at h
  · next hallowed =>
      rw [Bool.and_eq_true, Bool.not_eq_true'] at hallowed
      exact ⟨by simpa [Option.all_eq_true] using hallowed.1, hallowed.2, toOption_eq_some.mp h⟩
  · cases h

/-- What a step of the system is to the pricer. -/
lemma Step.pricer {s s' : OracleSystem κ ω φ} {a : Action κ φ} (h : s.Step a s') :
    s'.pricer = s.pricer ∨ ∃ action, a = .pricer action ∧ s.pricer.Step action s'.pricer := by
  obtain ⟨hcaller, -, hexec⟩ := h
  cases a with
  | world action =>
      simp only [exec, bind_eq_ok, pure_eq_ok] at hexec
      obtain ⟨_, -, rfl⟩ := hexec
      exact .inl rfl
  | pricer action =>
      simp only [exec, bind_eq_ok, pure_eq_ok] at hexec
      obtain ⟨pricer', hpricer, rfl⟩ := hexec
      exact .inr ⟨action, rfl, fun caller hmem => (hcaller caller hmem).2.2, hpricer⟩

end OracleSystem

end BrivoUsbs
