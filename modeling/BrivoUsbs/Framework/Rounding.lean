import Mathlib.Algebra.Order.Floor.Div
import Mathlib.Algebra.Order.Ring.Abs
import Mathlib.Data.Rat.Floor
import Mathlib.GroupTheory.GroupAction.Ring
import Mathlib.Tactic.Linarith
import Mathlib.Tactic.Ring

/-!
# Rounded quotients

What a comparison of rounded quotients says about the exact ones.  Quotients of integers are
truncated toward zero, and a bound on one is a bound on its dividend (`abs_tdiv_le_iff`), strict
and one unit wider.  Two quotients each lose less than a unit, so a bound on their difference is
off by less than two (`abs_sub_lt_of_abs_tdiv_sub_le`), and by exactly what the two remainders come
to (`abs_tdiv_sub_tdiv_le_iff`).

Quotients of natural numbers are rounded down, or up by `⌈/⌉`.  Splitting a dividend gains up to
a unit for each extra piece when rounding up (`sum_ceilDiv_le`) and nothing when rounding down
(`sum_div_le`), and converting there and back loses what one division can hide from the other
(`le_roundTrip_add`).

A chain of values of which each is within fixed ratios of the one before grows at most
geometrically (`geometric_step`, `geometric_step_lt`).
-/

namespace BrivoUsbs.Rounding

variable {a b c d k : ℤ}

/-! ## Truncated quotients -/

lemma abs_tdiv (hb : 0 < b) : |a.tdiv b| = |a| / b := by
  rcases le_total 0 a with ha | ha
  · rw [Int.tdiv_eq_ediv_of_nonneg ha, abs_of_nonneg ha,
      abs_of_nonneg (Int.ediv_nonneg ha hb.le)]
  · have hneg : 0 ≤ -a := neg_nonneg.mpr ha
    rw [← neg_neg a, Int.neg_tdiv, abs_neg, abs_neg, Int.tdiv_eq_ediv_of_nonneg hneg,
      abs_of_nonneg hneg, abs_of_nonneg (Int.ediv_nonneg hneg hb.le)]

/-- A bound on a truncated quotient, as one on the dividend. -/
lemma abs_tdiv_le_iff (hb : 0 < b) : |a.tdiv b| ≤ k ↔ |a| < (k + 1) * b := by
  rw [abs_tdiv hb, ← Int.lt_add_one_iff, Int.ediv_lt_iff_lt_mul hb]

/-- The difference of two quotients over the common divisor, split into that of the truncated ones
and that of the remainders. -/
lemma mul_sub_mul_eq_tdiv_add_tmod (a b c d : ℤ) :
    a * d - c * b = (a.tdiv b - c.tdiv d) * (b * d) + (a.tmod b * d - c.tmod d * b) := by
  calc
    a * d - c * b
        = (b * a.tdiv b + a.tmod b) * d - (d * c.tdiv d + c.tmod d) * b := by
          rw [Int.mul_tdiv_add_tmod, Int.mul_tdiv_add_tmod]
    _ = (a.tdiv b - c.tdiv d) * (b * d) + (a.tmod b * d - c.tmod d * b) := by ring

lemma abs_tmod_sub_tmod_lt (hb : 0 < b) (hd : 0 < d) :
    |a.tmod b * d - c.tmod d * b| < 2 * (b * d) := by
  have hleft : |a.tmod b| < b := abs_lt.mpr ⟨Int.lt_tmod_of_pos a hb, Int.tmod_lt_of_pos a hb⟩
  have hright : |c.tmod d| < d := abs_lt.mpr ⟨Int.lt_tmod_of_pos c hd, Int.tmod_lt_of_pos c hd⟩
  calc
    |a.tmod b * d - c.tmod d * b|
        ≤ |a.tmod b * d| + |c.tmod d * b| := abs_sub _ _
    _ = |a.tmod b| * d + |c.tmod d| * b := by
          rw [abs_mul, abs_mul, abs_of_pos hd, abs_of_pos hb]
    _ < b * d + d * b :=
          add_lt_add (mul_lt_mul_of_pos_right hleft hd) (mul_lt_mul_of_pos_right hright hb)
    _ = 2 * (b * d) := by ring

/-- **Two truncated quotients are off by less than two units together.** -/
lemma abs_sub_lt_of_abs_tdiv_sub_le (hb : 0 < b) (hd : 0 < d)
    (h : |a.tdiv b - c.tdiv d| ≤ k) : |a * d - c * b| < (k + 2) * (b * d) := by
  have hpos := mul_pos hb hd
  calc
    |a * d - c * b|
        ≤ |(a.tdiv b - c.tdiv d) * (b * d)| + |a.tmod b * d - c.tmod d * b| := by
          rw [mul_sub_mul_eq_tdiv_add_tmod]
          exact abs_add_le _ _
    _ = |a.tdiv b - c.tdiv d| * (b * d) + |a.tmod b * d - c.tmod d * b| := by
          rw [abs_mul, abs_of_pos hpos]
    _ < k * (b * d) + 2 * (b * d) :=
          add_lt_add_of_le_of_lt (mul_le_mul_of_nonneg_right h hpos.le)
            (abs_tmod_sub_tmod_lt hb hd)
    _ = (k + 2) * (b * d) := by ring

/-- If the remainder is less than two units, a multiple that is negative beside a sum that is not
can only be `-1`. -/
lemma abs_le_iff_sub_mul_le {m q r s : ℤ} (hm : 0 < m) (hs : s = q * m + r) (hnonneg : 0 ≤ s)
    (hr : r < 2 * m) (hk : 1 ≤ k) : |q| ≤ k ↔ s - k * m ≤ r := by
  rw [abs_le]
  constructor
  · rintro ⟨-, hle⟩
    have hmul := mul_le_mul_of_nonneg_right hle hm.le
    linarith
  · intro hle
    have hupper : q ≤ k := le_of_mul_le_mul_right (by linarith) hm
    have hlower : -2 < q := lt_of_mul_lt_mul_right (by linarith) hm.le
    exact ⟨by omega, hupper⟩

/-- **A bound on the difference of two truncated quotients**, in exact arithmetic: as far as the
exact difference exceeds the bound, the remainders take it off, counted in its direction. -/
lemma abs_tdiv_sub_tdiv_le_iff (hb : 0 < b) (hd : 0 < d) (hk : 1 ≤ k) :
    |a.tdiv b - c.tdiv d| ≤ k ↔
      |a * d - c * b| - k * (b * d) ≤
        (a * d - c * b).sign * (a.tmod b * d - c.tmod d * b) := by
  have hsplit := mul_sub_mul_eq_tdiv_add_tmod a b c d
  obtain ⟨hlow, hhigh⟩ := abs_lt.mp (abs_tmod_sub_tmod_lt (a := a) (c := c) hb hd)
  have hpos := mul_pos hb hd
  rcases lt_trichotomy (a * d - c * b) 0 with hneg | hzero | hrise
  · rw [abs_of_neg hneg, Int.sign_eq_neg_one_of_neg hneg, ← abs_neg, neg_one_mul]
    exact abs_le_iff_sub_mul_le hpos (by linarith) (by linarith) (by linarith) hk
  · rw [hzero, abs_zero, Int.sign_zero, zero_mul, abs_le]
    rw [hzero] at hsplit
    have hlower : -2 < a.tdiv b - c.tdiv d := lt_of_mul_lt_mul_right (by linarith) hpos.le
    have hupper : a.tdiv b - c.tdiv d < 2 := lt_of_mul_lt_mul_right (by linarith) hpos.le
    have hbound := mul_pos (by omega : 0 < k) hpos
    exact ⟨fun _ => by linarith, fun _ => ⟨by omega, by omega⟩⟩
  · rw [abs_of_pos hrise, Int.sign_eq_one_of_pos hrise, one_mul]
    exact abs_le_iff_sub_mul_le hpos hsplit hrise.le hhigh hk

/-! ## Quotients rounded up -/

/-- Rounding up adds one to the quotient unless the division is exact. -/
lemma ceilDiv_eq_div_add {n d : ℕ} (hd : 0 < d) :
    n ⌈/⌉ d = n / d + if n % d = 0 then 0 else 1 := by
  have hsplit := Nat.div_add_mod n d
  have hrest := Nat.mod_lt n hd
  rw [Nat.ceilDiv_eq_add_pred_div]
  split
  · next hexact =>
      refine Nat.div_eq_of_lt_le ?_ ?_
      · rw [Nat.add_zero, Nat.mul_comm]
        omega
      · rw [Nat.succ_mul, Nat.mul_comm]
        omega
  · next hinexact =>
      refine Nat.div_eq_of_lt_le ?_ ?_
      · rw [Nat.add_mul, Nat.one_mul, Nat.mul_comm]
        omega
      · rw [Nat.succ_mul, Nat.add_mul, Nat.one_mul, Nat.mul_comm]
        omega

/-- A quotient rounded up is the ceiling of the exact one. -/
lemma natCeil_div {n d : ℕ} (hd : 0 < d) : ⌈(n : ℚ) / d⌉₊ = n ⌈/⌉ d := by
  have hpos : (0 : ℚ) < d := Nat.cast_pos.mpr hd
  refine eq_of_forall_ge_iff fun k => ?_
  rw [Nat.ceil_le, div_le_iff₀ hpos, ceilDiv_le_iff_le_mul hd, mul_comm]
  exact_mod_cast Iff.rfl

/-! ## Splitting and converting back -/

section

variable {d f u v x y : ℕ} {l : List ℕ}

/-- Taking a rounded-down share leaves the rest rounded up. -/
lemma sub_div_eq_ceilDiv (hd : 0 < d) (hf : f ≤ d) :
    x - x * f / d = (x * (d - f)) ⌈/⌉ d := by
  refine eq_of_forall_ge_iff fun k => ?_
  have hsplit : x * (d - f) + x * f = x * d := by rw [← Nat.mul_add, Nat.sub_add_cancel hf]
  rw [ceilDiv_le_iff_le_mul hd, Nat.sub_le_iff_le_add, Nat.add_comm, ← Nat.sub_le_iff_le_add,
    Nat.le_div_iff_mul_le hd, Nat.sub_mul, Nat.sub_le_iff_le_add, Nat.mul_comm d k]
  omega

lemma ceilDiv_le_ceilDiv (hd : 0 < d) (h : x ≤ y) : x ⌈/⌉ d ≤ y ⌈/⌉ d :=
  (gc_mul_ceilDiv hd).monotone_l h

lemma ceilDiv_add_ceilDiv_le (hd : 0 < d) : x ⌈/⌉ d + y ⌈/⌉ d ≤ (x + y) ⌈/⌉ d + 1 := by
  have hsum : (x + d - 1) / d + (y + d - 1) / d ≤ ((x + d - 1) + (y + d - 1)) / d :=
    Nat.div_add_div_le_add_div
  rw [Nat.ceilDiv_eq_add_pred_div, Nat.ceilDiv_eq_add_pred_div, Nat.ceilDiv_eq_add_pred_div,
    ← Nat.add_div_right _ hd]
  refine hsum.trans (Nat.div_le_div_right ?_)
  omega

/-- **Rounding the pieces up** gains at most a unit for each piece but the first. -/
lemma sum_ceilDiv_le (hd : 0 < d) (hne : l ≠ []) :
    (l.map (· ⌈/⌉ d)).sum + 1 ≤ l.sum ⌈/⌉ d + l.length := by
  induction l with
  | nil => exact absurd rfl hne
  | cons x l ih =>
      rcases eq_or_ne l [] with rfl | hrest
      · simp
      · have hadd := ceilDiv_add_ceilDiv_le (x := x) (y := l.sum) hd
        have hpieces := ih hrest
        simp only [List.map_cons, List.sum_cons, List.length_cons]
        omega

/-- **Rounding the pieces down** gains nothing. -/
lemma sum_div_le : (l.map (· / d)).sum ≤ l.sum / d := by
  induction l with
  | nil => simp
  | cons x l ih =>
      rw [List.map_cons, List.sum_cons, List.sum_cons]
      exact (Nat.add_le_add_left ih _).trans Nat.div_add_div_le_add_div

/-- Converting there and back at one rate never gains. -/
lemma roundTrip_le : x * u / v * v / u ≤ x := by
  refine Nat.div_le_of_le_mul ?_
  rw [Nat.mul_comm u x]
  exact Nat.div_mul_le_self _ _

/-- **Converting there and back loses little:** at most what the first division hides, rounded up
by the second. -/
lemma le_roundTrip_add (hu : 0 < u) (hv : 0 < v) :
    x ≤ x * u / v * v / u + (v - 1) ⌈/⌉ u := by
  have hhidden : v - 1 ≤ u * ((v - 1) ⌈/⌉ u) := (ceilDiv_le_iff_le_mul hu).mp le_rfl
  have hround : x * u < (x * u / v + 1) * v := by
    rw [Nat.mul_comm _ v]
    exact Nat.lt_mul_div_succ _ hv
  rw [← Nat.sub_le_iff_le_add, Nat.le_div_iff_mul_le hu, Nat.sub_mul, Nat.sub_le_iff_le_add,
    Nat.mul_comm (_ ⌈/⌉ u) u]
  rw [Nat.add_mul] at hround
  omega

end

/-! ## Geometric growth

Values are bounded by powers of two ratios.  The lower bound is stated; an upper one is the lower
one of the negated values. -/

variable {x₀ x y p q : ℤ} {n : ℕ}

lemma mul_pow_succ_le (hp : 0 ≤ p) (h : x₀ * p ^ n ≤ x * q ^ n) :
    x₀ * p ^ (n + 1) ≤ p * x * q ^ n := by
  calc
    x₀ * p ^ (n + 1) = x₀ * p ^ n * p := by ring
    _ ≤ x * q ^ n * p := mul_le_mul_of_nonneg_right h hp
    _ = p * x * q ^ n := by ring

/-- One more factor on a bound by powers. -/
lemma geometric_step (hp : 0 ≤ p) (hq : 0 ≤ q) (h : x₀ * p ^ n ≤ x * q ^ n)
    (hstep : p * x ≤ q * y) : x₀ * p ^ (n + 1) ≤ y * q ^ (n + 1) := by
  calc
    x₀ * p ^ (n + 1) ≤ p * x * q ^ n := mul_pow_succ_le hp h
    _ ≤ q * y * q ^ n := mul_le_mul_of_nonneg_right hstep (pow_nonneg hq n)
    _ = y * q ^ (n + 1) := by ring

/-- One more strict factor on a bound by powers. -/
lemma geometric_step_lt (hp : 0 ≤ p) (hq : 0 < q) (h : x₀ * p ^ n ≤ x * q ^ n)
    (hstep : p * x < q * y) : x₀ * p ^ (n + 1) < y * q ^ (n + 1) := by
  calc
    x₀ * p ^ (n + 1) ≤ p * x * q ^ n := mul_pow_succ_le hp h
    _ < q * y * q ^ n := mul_lt_mul_of_pos_right hstep (pow_pos hq n)
    _ = y * q ^ (n + 1) := by ring

/-- A bound by powers still holds for larger ones of the two ratios. -/
lemma geometric_le {m : ℕ} (hp : 0 ≤ p) (hq : 0 ≤ q) (h : x₀ * p ^ n ≤ x * q ^ n)
    (hx : p * x ≤ q * x) (hnm : n ≤ m) : x₀ * p ^ m ≤ x * q ^ m := by
  induction m, hnm using Nat.le_induction with
  | base => exact h
  | succ m _ ih => exact geometric_step hp hq ih hx

end BrivoUsbs.Rounding
