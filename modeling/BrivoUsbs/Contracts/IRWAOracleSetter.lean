import BrivoUsbs.Contracts.AccessControl
import BrivoUsbs.Framework.Path

/-!
# Oracles

`IRWAOracleSetter` is what the pricer sees of an oracle: its last price with the timestamp, and
`setPrice`.  An instance also says what a successful `setPrice` does to the two.  `φ` is what the
oracle itself looks at on the chain.

`OracleWorld` is an oracle in its surroundings, where anybody may call it at any time and
whatever it looks at may change.
-/

namespace BrivoUsbs

class IRWAOracleSetter (ω : Type) (φ : outParam Type) where
  /-- `price` and `timestamp` -/
  getPriceData : ω → Uint256 × Uint256
  setPrice : ω → (feed : φ) → (blockTimestamp : Uint256) → (msgSender : Address) → Int256 →
    Tx Error ω
  /-- The oracle's role management. -/
  execAccess : ω → (msgSender : Address) → AccessControl.Call → Tx Error ω
  /-- An update stores the price together with the block time. -/
  getPriceData_of_setPrice {oracle oracle' : ω} {feed : φ} {blockTimestamp : Uint256}
    {msgSender : Address} {price : Int256} :
    setPrice oracle feed blockTimestamp msgSender price = .ok oracle' →
      getPriceData oracle' = (price, blockTimestamp)
  getPriceData_of_execAccess {oracle oracle' : ω} {msgSender : Address}
    {call : AccessControl.Call} :
    execAccess oracle msgSender call = .ok oracle' → getPriceData oracle' = getPriceData oracle
  /-- `LatestPriceMismatch` is an error of the pricer. -/
  setPrice_ne_latestPriceMismatch (oracle : ω) (feed : φ) (blockTimestamp : Uint256)
    (msgSender : Address) (price : Int256) :
    setPrice oracle feed blockTimestamp msgSender price ≠ .error (.custom .latestPriceMismatch)

/-- An oracle, what it looks at, and the clock. -/
structure OracleWorld (ω φ : Type) where
  oracle : ω
  feed : φ
  timestamp : Uint256

inductive OracleAction (φ : Type)
  | setPrice (msgSender : Address) (newPrice : Int256)
  | access (msgSender : Address) (call : AccessControl.Call)
  /-- What the oracle looks at changes. -/
  | feed (feed : φ)
  /-- Blocks pass. -/
  | wait (timestamp : Uint256)

namespace OracleAction

variable {φ : Type}

/-- The account a call is sent from. -/
def caller : OracleAction φ → Option Address
  | .setPrice msgSender _ => some msgSender
  | .access msgSender _ => some msgSender
  | .feed _ | .wait _ => none

def isSetPrice : OracleAction φ → Bool
  | .setPrice .. => true
  | _ => false

end OracleAction

namespace OracleWorld

variable {ω φ : Type} [IRWAOracleSetter ω φ]

def getPriceData (w : OracleWorld ω φ) : Uint256 × Uint256 :=
  IRWAOracleSetter.getPriceData w.oracle

def exec (w : OracleWorld ω φ) : OracleAction φ → Tx Error (OracleWorld ω φ)
  | .setPrice msgSender newPrice => do
      let oracle ← IRWAOracleSetter.setPrice w.oracle w.feed w.timestamp msgSender newPrice
      return { w with oracle := oracle }
  | .access msgSender call => do
      let oracle ← IRWAOracleSetter.execAccess w.oracle msgSender call
      return { w with oracle := oracle }
  | .feed feed => .ok { w with feed := feed }
  | .wait timestamp =>
      if w.timestamp ≤ timestamp then .ok { w with timestamp := timestamp } else .error .empty

def Step (w : OracleWorld ω φ) (a : OracleAction φ) (w' : OracleWorld ω φ) : Prop :=
  w.exec a = .ok w'

/-- One step as a function: nothing if the call is rejected. -/
def next (w : OracleWorld ω φ) (a : OracleAction φ) : Option (OracleWorld ω φ) :=
  (w.exec a).toOption

lemma step_of_next {w w' : OracleWorld ω φ} {a : OracleAction φ} (h : w.next a = some w') :
    w.Step a w' := toOption_eq_some.mp h

lemma next_of_error {w : OracleWorld ω φ} {a : OracleAction φ} {r : Revert Error}
    (h : w.exec a = .error r) : w.next a = none := toOption_of_error h

/-- The number of accepted updates of a run. -/
def updates (tr : List (Transition (OracleWorld ω φ) (OracleAction φ))) : ℕ :=
  tr.countP fun t => t.label.isSetPrice

omit [IRWAOracleSetter ω φ] in
lemma updates_snoc {tr : List (Transition (OracleWorld ω φ) (OracleAction φ))}
    {t : Transition (OracleWorld ω φ) (OracleAction φ)} :
    updates (tr ++ [t]) = updates tr + t.label.isSetPrice.toNat := by
  cases h : t.label.isSetPrice <;> simp [updates, h]

/-- The clock only moves forward, and what is on record is old or stems from a `setPrice` now. -/
lemma Step.getPriceData {w w' : OracleWorld ω φ} {a : OracleAction φ} (h : w.Step a w') :
    w.timestamp ≤ w'.timestamp ∧
      (w'.getPriceData = w.getPriceData ∨
        ∃ sender price, a = .setPrice sender price ∧ w'.timestamp = w.timestamp ∧
          w'.getPriceData = (price, w.timestamp)) := by
  unfold Step at h
  cases a with
  | setPrice sender price =>
      simp only [exec, bind_eq_ok, pure_eq_ok] at h
      obtain ⟨oracle, hset, rfl⟩ := h
      have hdata := IRWAOracleSetter.getPriceData_of_setPrice hset
      exact ⟨BitVec.le_refl _, .inr ⟨sender, price, rfl, rfl, hdata⟩⟩
  | access sender call =>
      simp only [exec, bind_eq_ok, pure_eq_ok] at h
      obtain ⟨oracle, hcall, rfl⟩ := h
      exact ⟨BitVec.le_refl _, .inl (IRWAOracleSetter.getPriceData_of_execAccess hcall)⟩
  | feed feed =>
      cases h
      exact ⟨BitVec.le_refl _, .inl rfl⟩
  | wait timestamp =>
      simp only [exec] at h
      split at h
      · next hle =>
          cases h
          exact ⟨hle, .inl rfl⟩
      · cases h

lemma Step.getPriceData_frame {w w' : OracleWorld ω φ} {a : OracleAction φ} (h : w.Step a w')
    (ha : a.isSetPrice = false) : w'.getPriceData = w.getPriceData := by
  rcases (Step.getPriceData h).2 with hsame | ⟨sender, price, rfl, -, -⟩
  · exact hsame
  · cases ha

end OracleWorld

end BrivoUsbs
