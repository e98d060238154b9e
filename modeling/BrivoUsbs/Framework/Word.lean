import BrivoUsbs.Framework.Revert
import Mathlib.Algebra.BigOperators.Group.Finset.Basic
import Mathlib.Data.BitVec
import Mathlib.Data.Fintype.EquivFin
import Mathlib.Tactic.Ring

/-!
# Machine words and tables

The fixed-width types of the source are bit vectors, so a cast between `uint256`, `int256` and
`bytes32` is the identity and the bounds of a type never appear as hypotheses.  Arithmetic is
checked: `checkedAdd` and its siblings go through `toUint256`, which reverts when an exact
result leaves the range, and each operation has one specification lemma stating its result in
`ℕ` (or in `ℤ` for the signed operations) exactly.  An array in storage is a list, which cannot
be read past its end.

A storage mapping is a function out of a finite type, so "the sum over the table" is a
`Finset.univ` sum, and `sum_table_update` says how writing one slot changes it.
-/

namespace BrivoUsbs

abbrev Uint256 := BitVec 256
abbrev Int256 := BitVec 256
abbrev Bytes32 := BitVec 256
abbrev Address := BitVec 160

variable {ε : Type}

/-! ## Checked `uint256` arithmetic -/

/-- An exact natural number as a `uint256`. -/
def toUint256 (n : ℕ) : Tx ε Uint256 :=
  if n < 2 ^ 256 then .ok (BitVec.ofNat 256 n) else .error (.panic .arithmetic)

@[simp] lemma toUint256_eq_ok {n : ℕ} {x : Uint256} :
    (toUint256 n : Tx ε Uint256) = .ok x ↔ x.toNat = n := by
  unfold toUint256
  constructor
  · intro h
    split at h
    · next hn =>
        cases h
        rw [BitVec.toNat_ofNat, Nat.mod_eq_of_lt hn]
    · cases h
  · rintro rfl
    rw [if_pos x.isLt]
    simp

lemma toUint256_eq_error {n : ℕ} {r : Revert ε} (h : toUint256 n = .error r) :
    r = .panic .arithmetic := by
  unfold toUint256 at h
  split at h
  · cases h
  · exact (Except.error.inj h).symm

def checkedAdd (x y : Uint256) : Tx ε Uint256 := toUint256 (x.toNat + y.toNat)

def checkedMul (x y : Uint256) : Tx ε Uint256 := toUint256 (x.toNat * y.toNat)

def checkedSub (x y : Uint256) : Tx ε Uint256 :=
  if y.toNat ≤ x.toNat then .ok (x - y) else .error (.panic .arithmetic)

def checkedDiv (x y : Uint256) : Tx ε Uint256 :=
  if y = 0 then .error (.panic .divisionByZero) else .ok (x / y)

def checkedPow (base exponent : ℕ) : Tx ε Uint256 := toUint256 (base ^ exponent)

@[simp] lemma checkedAdd_eq_ok {x y z : Uint256} :
    (checkedAdd x y : Tx ε Uint256) = .ok z ↔ z.toNat = x.toNat + y.toNat :=
  toUint256_eq_ok

@[simp] lemma checkedMul_eq_ok {x y z : Uint256} :
    (checkedMul x y : Tx ε Uint256) = .ok z ↔ z.toNat = x.toNat * y.toNat :=
  toUint256_eq_ok

@[simp] lemma checkedPow_eq_ok {b e : ℕ} {z : Uint256} :
    (checkedPow b e : Tx ε Uint256) = .ok z ↔ z.toNat = b ^ e :=
  toUint256_eq_ok

@[simp] lemma checkedSub_eq_ok {x y z : Uint256} :
    (checkedSub x y : Tx ε Uint256) = .ok z ↔ z.toNat + y.toNat = x.toNat := by
  unfold checkedSub
  constructor
  · intro h
    split at h
    · next hle =>
        cases h
        rw [BitVec.toNat_sub_of_le hle]
        exact Nat.sub_add_cancel hle
    · cases h
  · intro h
    have hle : y.toNat ≤ x.toNat := by omega
    rw [if_pos hle]
    congr 1
    apply BitVec.eq_of_toNat_eq
    rw [BitVec.toNat_sub_of_le hle]
    omega

@[simp] lemma checkedDiv_eq_ok {x y z : Uint256} :
    (checkedDiv x y : Tx ε Uint256) = .ok z ↔ y ≠ 0 ∧ z.toNat = x.toNat / y.toNat := by
  unfold checkedDiv
  split
  · next h => simp [h]
  · next h =>
      have hz : (.ok (x / y) : Tx ε Uint256) = .ok z ↔ x / y = z := by simp
      rw [hz, ← BitVec.toNat_inj, BitVec.toNat_udiv]
      exact ⟨fun e => ⟨h, e.symm⟩, fun e => e.2.symm⟩

/-- An exact result exists as a `uint256` if it is in range. -/
lemma exists_toNat_eq {n : ℕ} (h : n < 2 ^ 256) : ∃ x : Uint256, x.toNat = n :=
  ⟨BitVec.ofNat 256 n, by rw [BitVec.toNat_ofNat, Nat.mod_eq_of_lt h]⟩

lemma toNat_pos {x : Uint256} (h : x ≠ 0) : 0 < x.toNat := by
  have hne : x.toNat ≠ 0 := fun hzero => h (BitVec.eq_of_toNat_eq hzero)
  exact Nat.pos_of_ne_zero hne

/-- An exact sum is the sum of the words. -/
lemma eq_add_of_toNat {x y z : Uint256} (h : z.toNat = x.toNat + y.toNat) : z = x + y := by
  apply BitVec.eq_of_toNat_eq
  rw [BitVec.toNat_add, ← h, Nat.mod_eq_of_lt z.isLt]

/-- An exact difference is the difference of the words. -/
lemma eq_sub_of_toNat {x y z : Uint256} (h : z.toNat + y.toNat = x.toNat) : z = x - y := by
  apply BitVec.eq_of_toNat_eq
  have hle : y.toNat ≤ x.toNat := Nat.le.intro ((Nat.add_comm _ _).trans h)
  rw [BitVec.toNat_sub_of_le hle]
  omega

/-! ## Checked `int256` arithmetic -/

/-- An exact integer as an `int256`. -/
def toInt256 (z : ℤ) : Tx ε Int256 :=
  if -2 ^ 255 ≤ z ∧ z < 2 ^ 255 then .ok (BitVec.ofInt 256 z) else .error (.panic .arithmetic)

@[simp] lemma toInt256_eq_ok {z : ℤ} {x : Int256} :
    (toInt256 z : Tx ε Int256) = .ok x ↔ x.toInt = z := by
  unfold toInt256
  constructor
  · intro h
    split at h
    · next hz =>
        cases h
        exact BitVec.toInt_ofInt_eq_self (by decide) hz.1 hz.2
    · cases h
  · rintro rfl
    rw [if_pos ⟨x.le_toInt, x.toInt_lt⟩]
    simp

lemma toInt256_eq_error {z : ℤ} {r : Revert ε} (h : toInt256 z = .error r) :
    r = .panic .arithmetic := by
  unfold toInt256 at h
  split at h
  · cases h
  · exact (Except.error.inj h).symm

def signedSub (x y : Int256) : Tx ε Int256 := toInt256 (x.toInt - y.toInt)

def signedMul (x y : Int256) : Tx ε Int256 := toInt256 (x.toInt * y.toInt)

/-- Signed division truncates toward zero. -/
def signedDiv (x y : Int256) : Tx ε Int256 :=
  if y = 0 then .error (.panic .divisionByZero) else toInt256 (x.toInt.tdiv y.toInt)

def signedNeg (x : Int256) : Tx ε Int256 := toInt256 (-x.toInt)

@[simp] lemma signedSub_eq_ok {x y z : Int256} :
    (signedSub x y : Tx ε Int256) = .ok z ↔ z.toInt = x.toInt - y.toInt :=
  toInt256_eq_ok

@[simp] lemma signedMul_eq_ok {x y z : Int256} :
    (signedMul x y : Tx ε Int256) = .ok z ↔ z.toInt = x.toInt * y.toInt :=
  toInt256_eq_ok

@[simp] lemma signedNeg_eq_ok {x z : Int256} :
    (signedNeg x : Tx ε Int256) = .ok z ↔ z.toInt = -x.toInt :=
  toInt256_eq_ok

@[simp] lemma signedDiv_eq_ok {x y z : Int256} :
    (signedDiv x y : Tx ε Int256) = .ok z ↔ y ≠ 0 ∧ z.toInt = x.toInt.tdiv y.toInt := by
  unfold signedDiv
  split <;> simp_all

/-- The value of a word that is not negative as an `int256`. -/
lemma toNat_of_toInt_nonneg {x : Int256} (h : 0 ≤ x.toInt) : (x.toNat : ℤ) = x.toInt := by
  have hlt := x.isLt
  rw [BitVec.toInt_eq_toNat_cond] at h ⊢
  by_cases hsmall : 2 * x.toNat < 2 ^ 256
  · rw [if_pos hsmall]
  · rw [if_neg hsmall] at h
    omega

lemma toInt_of_toNat_lt {x : Int256} (h : x.toNat < 2 ^ 255) : x.toInt = x.toNat := by
  rw [BitVec.toInt_eq_toNat_cond, if_pos (by omega)]

/-! ## The words of inline assembly

Assembly arithmetic is that of the machine: addition and multiplication wrap, which is what they
do on bit vectors, and a division by zero gives zero. -/

namespace Evm

def div (x y : Uint256) : Uint256 := if y = 0 then 0 else x / y

def mod (x y : Uint256) : Uint256 := if y = 0 then 0 else x % y

def gt (x y : Uint256) : Uint256 := if y < x then 1 else 0

def isZero (x : Uint256) : Uint256 := if x = 0 then 1 else 0

end Evm

/-! ## Storage arrays -/

section

variable {α : Type}

def arrayLength (array : List α) : Uint256 := BitVec.ofNat 256 array.length

def arrayPush (array : List α) (a : α) : Tx ε (List α) :=
  if array.length < 2 ^ 64 then .ok (array ++ [a]) else .error (.panic .arrayTooLarge)

def arrayGet (array : List α) (index : Uint256) : Tx ε α :=
  match array[index.toNat]? with
  | some a => .ok a
  | none => .error (.panic .indexOutOfBounds)

def arraySet (array : List α) (index : Uint256) (a : α) : Tx ε (List α) :=
  if index.toNat < array.length then .ok (array.set index.toNat a)
  else .error (.panic .indexOutOfBounds)

@[simp] lemma arrayPush_eq_ok {array pushed : List α} {a : α} :
    (arrayPush array a : Tx ε (List α)) = .ok pushed ↔
      array.length < 2 ^ 64 ∧ pushed = array ++ [a] := by
  unfold arrayPush
  split <;> simp_all [eq_comm]

lemma arrayPush_eq_error {array : List α} {a : α} {r : Revert ε}
    (h : arrayPush array a = .error r) : r = .panic .arrayTooLarge := by
  unfold arrayPush at h
  split at h
  · cases h
  · exact (Except.error.inj h).symm

@[simp] lemma arrayGet_eq_ok {array : List α} {index : Uint256} {a : α} :
    (arrayGet array index : Tx ε α) = .ok a ↔ array[index.toNat]? = some a := by
  unfold arrayGet
  split <;> simp_all

lemma toNat_arrayLength {array : List α} (h : array.length < 2 ^ 256) :
    (arrayLength array).toNat = array.length := by
  rw [arrayLength, BitVec.toNat_ofNat, Nat.mod_eq_of_lt h]

end

/-! ## Sums over a table -/

instance instFintypeWord {w : ℕ} : Fintype (BitVec w) :=
  Fintype.ofEquiv (Fin (2 ^ w)) BitVec.equivFin.symm.toEquiv

/-- Writing one slot of a table replaces that slot's contribution to any sum over the table. -/
lemma sum_table_update {ι β M : Type*} [Fintype ι] [DecidableEq ι] [AddCommMonoid M]
    (table : ι → β) (weight : ι → β → M) (i : ι) (value : β) :
    ∑ j, weight j (Function.update table i value j) + weight i (table i) =
      ∑ j, weight j (table j) + weight i value := by
  have hrest : ∑ j ∈ Finset.univ.erase i, weight j (Function.update table i value j) =
      ∑ j ∈ Finset.univ.erase i, weight j (table j) :=
    Finset.sum_congr rfl fun j hj => by
      rw [Function.update_of_ne (Finset.ne_of_mem_erase hj)]
  rw [← Finset.sum_erase_add _ _ (Finset.mem_univ i), hrest, Function.update_self,
    ← Finset.sum_erase_add _ (fun j => weight j (table j)) (Finset.mem_univ i)]
  exact add_right_comm _ _ _

end BrivoUsbs
