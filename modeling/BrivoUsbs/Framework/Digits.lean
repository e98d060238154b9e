import Mathlib.Data.Nat.Digits.Lemmas

/-!
# Digits

`digits base width value` are the last digits of a number, the highest first, and `ofDigits` reads
digits.  Reading what was written gives the number modulo the power of the base that does not fit,
so numbers that fit are read back.  `drop_set_self` is for the loops that write the digits into a
buffer, from the last one.
-/

namespace BrivoUsbs

namespace Digits

/-- The last `width` digits of a number. -/
def digits (base : ℕ) : (width : ℕ) → ℕ → List ℕ
  | 0, _ => []
  | width + 1, value => digits base width (value / base) ++ [value % base]

def ofDigits (base : ℕ) (ds : List ℕ) : ℕ := ds.foldl (fun value d => value * base + d) 0

variable {base width value d : ℕ}

@[simp] lemma length_digits : (digits base width value).length = width := by
  induction width generalizing value with
  | zero => rfl
  | succ width ih => rw [digits, List.length_append, ih, List.length_singleton]

lemma lt_of_mem_digits (hbase : 0 < base) (h : d ∈ digits base width value) : d < base := by
  induction width generalizing value with
  | zero => cases h
  | succ width ih =>
      rcases List.mem_append.mp h with hmem | hmem
      · exact ih hmem
      · obtain rfl := List.mem_singleton.mp hmem
        exact Nat.mod_lt _ hbase

/-- **What was written is read**, up to what does not fit. -/
lemma ofDigits_digits : ofDigits base (digits base width value) = value % base ^ width := by
  induction width generalizing value with
  | zero => rw [pow_zero, Nat.mod_one]; rfl
  | succ width ih =>
      rw [digits, ofDigits, List.foldl_append, List.foldl_cons, List.foldl_nil, ← ofDigits, ih,
        pow_succ', Nat.mod_mul, mul_comm base, add_comm]

lemma ofDigits_digits_of_lt (h : value < base ^ width) :
    ofDigits base (digits base width value) = value := by
  rw [ofDigits_digits, Nat.mod_eq_of_lt h]

/-- **What was read is written**, if every digit is one of the base. -/
lemma digits_ofDigits {ds : List ℕ} (hds : ∀ d ∈ ds, d < base) :
    digits base ds.length (ofDigits base ds) = ds := by
  induction ds using List.reverseRecOn with
  | nil => rfl
  | append_singleton ds d ih =>
      have hd : d < base := hds d (by simp)
      have hlow : (ofDigits base ds * base + d) / base = ofDigits base ds := by
        rw [mul_comm, Nat.mul_add_div (by omega), Nat.div_eq_of_lt hd, add_zero]
      have hlast : (ofDigits base ds * base + d) % base = d := by
        rw [mul_comm, Nat.mul_add_mod, Nat.mod_eq_of_lt hd]
      have hread : ofDigits base (ds ++ [d]) = ofDigits base ds * base + d := by
        rw [ofDigits, List.foldl_append]
        rfl
      rw [List.length_append, List.length_singleton, digits, hread, hlow, hlast,
        ih fun d hmem => hds d (List.mem_append_left _ hmem)]

/-- How many digits a number has; zero has none. -/
def numDigits (base value : ℕ) : ℕ := (Nat.digits base value).length

lemma numDigits_zero : numDigits base 0 = 0 := by
  rw [numDigits, Nat.digits_zero, List.length_nil]

lemma numDigits_of_pos (hbase : 1 < base) (hvalue : 0 < value) :
    numDigits base value = numDigits base (value / base) + 1 := by
  rw [numDigits, Nat.digits_def' hbase hvalue, List.length_cons, numDigits]

lemma lt_pow_numDigits (hbase : 1 < base) : value < base ^ numDigits base value :=
  Nat.lt_base_pow_length_digits hbase

lemma numDigits_le (hbase : 1 < base) {k : ℕ} (h : value < base ^ k) : numDigits base value ≤ k :=
  (Nat.digits_length_le_iff hbase value).mpr h

end Digits

/-- Writing a symbol in front of the last ones of a buffer. -/
lemma drop_set_self {α : Type*} {buffer : List α} {i : ℕ} (h : i < buffer.length) (symbol : α) :
    (buffer.set i symbol).drop i = symbol :: buffer.drop (i + 1) := by
  rw [List.drop_set, if_neg (lt_irrefl i), Nat.sub_self, List.drop_eq_getElem_cons h,
    List.set_cons_zero]

end BrivoUsbs
