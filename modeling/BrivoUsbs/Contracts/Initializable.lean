import BrivoUsbs.Contracts.AccessControl

/-!
# Initializers

The vendored `Initializable`, with which an upgradeable contract replaces its constructor.  The
modifier `initializer` wraps the body of a function, so it is two functions here: what happens
before the body and what happens after it.
-/

namespace BrivoUsbs

structure Initializable where
  /-- `_initialized`, the version -/
  initialized : BitVec 8
  /-- `_initializing` -/
  initializing : Bool
  /-- The events `Initialized`, by their version. -/
  log : List (BitVec 8)

namespace Initializable

/-- Untouched storage. -/
def empty : Initializable := ⟨0, false, []⟩

/-- `type(uint8).max` -/
def maxVersion : BitVec 8 := BitVec.allOnes 8

/-- The modifier `initializer` before the body, with its `isTopLevelCall`.  `isContract` says
whether there is code at the contract's own address. -/
def beginInitializer (init : Initializable) (isContract : Bool) :
    Tx Error (Initializable × Bool) := do
  let isTopLevelCall := !init.initializing
  require (isTopLevelCall = true ∧ init.initialized < 1 ∨
    isContract = false ∧ init.initialized = 1) "Initializable: contract is already initialized"
  return ({ init with
    initialized := 1
    initializing := if isTopLevelCall then true else init.initializing }, isTopLevelCall)

/-- The modifier `initializer` after the body. -/
def endInitializer (init : Initializable) (isTopLevelCall : Bool) : Initializable :=
  if isTopLevelCall then { init with initializing := false, log := init.log ++ [1] } else init

def onlyInitializing (init : Initializable) : Tx Error Unit :=
  require (init.initializing = true) "Initializable: contract is not initializing"

/-- `_disableInitializers` -/
def disableInitializers (init : Initializable) : Tx Error Initializable := do
  require (init.initializing = false) "Initializable: contract is initializing"
  return if init.initialized < maxVersion then
    { init with initialized := maxVersion, log := init.log ++ [maxVersion] }
  else init

/-! ## Initialized contracts -/

/-- The contract has a version and is not being initialized. -/
def Done (init : Initializable) : Prop := init.initialized ≠ 0 ∧ init.initializing = false

/-- A contract with code is not initialized twice. -/
lemma Done.beginInitializer_ne_ok {init : Initializable} (h : init.Done)
    {result : Initializable × Bool} : init.beginInitializer true ≠ .ok result := by
  obtain ⟨hversion, -⟩ := h
  simp only [beginInitializer, ne_eq, bind_eq_ok, require_eq_ok, not_exists, not_and]
  rintro _ (⟨-, hlt⟩ | ⟨hcode, -⟩)
  · have hzero : init.initialized = 0 := by bv_omega
    exact absurd hzero hversion
  · cases hcode

lemma beginInitializer_empty (isContract : Bool) :
    empty.beginInitializer isContract = .ok (⟨1, true, []⟩, true) := by
  rfl

/-- One initialization of untouched storage. -/
def once : Initializable := ⟨1, false, [1]⟩

lemma once_done : once.Done := ⟨by decide, rfl⟩

/-- An implementation contract, of which the constructor disables the initializers. -/
def disabled : Initializable := ⟨maxVersion, false, [maxVersion]⟩

lemma disabled_done : disabled.Done := ⟨by decide, rfl⟩

lemma disableInitializers_empty : empty.disableInitializers = .ok disabled := rfl

end Initializable

end BrivoUsbs
