import BrivoUsbs.Framework.Word
import Mathlib.Data.List.Nodup

/-!
# Enumerable sets

The vendored `EnumerableSet`: a storage array of the elements, and for each element its position
plus one.  An element is removed by moving the last one into its place, so the order is not kept.

`WellFormed` is the relation between array and index map that every operation keeps.  Under it the
set is the set of the elements of its array, `add` and `remove` do to it what they say, and none
of the subtractions and array accesses of `remove` can fail.
-/

namespace BrivoUsbs

structure EnumerableSet (α : Type) where
  values : List α
  indexes : α → Uint256

namespace EnumerableSet

variable {α ε : Type}

def empty : EnumerableSet α where
  values := []
  indexes _ := 0

def contains (set : EnumerableSet α) (value : α) : Bool := set.indexes value ≠ 0

def length (set : EnumerableSet α) : Uint256 := arrayLength set.values

/-- `at` -/
def valueAt (set : EnumerableSet α) (index : Uint256) : Tx ε α := arrayGet set.values index

section

variable [DecidableEq α]

/-- `_add`, with the flag it returns. -/
def add (set : EnumerableSet α) (value : α) : Tx ε (EnumerableSet α × Bool) :=
  if set.contains value = false then do
    let values ← arrayPush set.values value
    return (⟨values, Function.update set.indexes value (arrayLength values)⟩, true)
  else return (set, false)

/-- The branch of `_remove` that moves the last element into the place of the removed one. -/
def moveLast (set : EnumerableSet α) (valueIndex toDeleteIndex lastIndex : Uint256) :
    Tx ε (EnumerableSet α) :=
  if lastIndex ≠ toDeleteIndex then do
    let lastvalue ← arrayGet set.values lastIndex
    let values ← arraySet set.values toDeleteIndex lastvalue
    return ⟨values, Function.update set.indexes lastvalue valueIndex⟩
  else return set

/-- `_remove`, with the flag it returns. -/
def remove (set : EnumerableSet α) (value : α) : Tx ε (EnumerableSet α × Bool) :=
  let valueIndex := set.indexes value
  if valueIndex ≠ 0 then do
    let toDeleteIndex ← checkedSub valueIndex 1
    let lastIndex ← checkedSub set.length 1
    let set ← set.moveLast valueIndex toDeleteIndex lastIndex
    -- The array is not empty here, so `pop` finds an element.
    return (⟨set.values.dropLast, Function.update set.indexes value 0⟩, true)
  else return (set, false)

end

/-! ## The representation invariant -/

/-- Each element of the array, and nothing else, is indexed, by its position plus one. -/
structure WellFormed (set : EnumerableSet α) : Prop where
  /-- `push` does not let an array grow longer. -/
  small : set.values.length ≤ 2 ^ 64
  indexed : ∀ i value, set.values[i]? = some value ↔ (set.indexes value).toNat = i + 1

namespace WellFormed

variable {set : EnumerableSet α} {a : α}

lemma of_empty : (empty : EnumerableSet α).WellFormed where
  small := Nat.zero_le _
  indexed i value := by simp [empty]

lemma mem_iff (h : set.WellFormed) : a ∈ set.values ↔ set.indexes a ≠ 0 := by
  rw [List.mem_iff_getElem?]
  constructor
  · rintro ⟨i, hi⟩ hzero
    have hindex := (h.indexed i a).mp hi
    rw [hzero] at hindex
    exact absurd hindex (Nat.succ_ne_zero i).symm
  · intro hindex
    have hpos : (set.indexes a).toNat ≠ 0 := fun hzero => hindex (BitVec.eq_of_toNat_eq hzero)
    refine ⟨(set.indexes a).toNat - 1, (h.indexed _ a).mpr ?_⟩
    omega

lemma contains_iff (h : set.WellFormed) : set.contains a = true ↔ a ∈ set.values := by
  rw [h.mem_iff, contains, decide_eq_true_iff]

/-- An element is at one position only. -/
lemma eq_of_getElem? (h : set.WellFormed) {i j : ℕ} (hi : set.values[i]? = some a)
    (hj : set.values[j]? = some a) : i = j := by
  have hindex := (h.indexed i a).mp hi
  rw [(h.indexed j a).mp hj] at hindex
  omega

lemma nodup (h : set.WellFormed) : set.values.Nodup := by
  rw [List.nodup_iff_getElem?_ne_getElem?]
  intro i j hij hj heq
  have hlast : set.values[j]? = some set.values[j] := List.getElem?_eq_getElem hj
  have hsame : i = j := h.eq_of_getElem? (heq.trans hlast) hlast
  omega

lemma toNat_length (h : set.WellFormed) : set.length.toNat = set.values.length :=
  toNat_arrayLength (h.small.trans_lt (Nat.pow_lt_pow_right (by decide) (by decide)))

end WellFormed

/-! ## What the operations do -/

variable [DecidableEq α] {set set' : EnumerableSet α} {value a : α} {flag : Bool}

/-- A new element goes to the end. -/
lemma WellFormed.push (h : set.WellFormed) (hroom : set.values.length < 2 ^ 64)
    (hnew : value ∉ set.values) :
    WellFormed ⟨set.values ++ [value],
      Function.update set.indexes value (arrayLength (set.values ++ [value]))⟩ := by
  have hlength : (set.values ++ [value]).length = set.values.length + 1 := by simp
  have hindex : (arrayLength (set.values ++ [value])).toNat = set.values.length + 1 := by
    rw [toNat_arrayLength, hlength]
    omega
  constructor
  · dsimp only
    omega
  · intro i a
    dsimp only
    rw [List.getElem?_append]
    by_cases hsame : a = value
    · subst hsame
      rw [Function.update_self, hindex]
      split
      · next hlt =>
          have hne : set.values[i]? ≠ some a := fun heq => hnew (List.mem_of_getElem? heq)
          exact ⟨fun heq => absurd heq hne, fun heq => by omega⟩
      · next hge =>
          rw [List.getElem?_singleton]
          split
          · next hzero => exact ⟨fun _ => by omega, fun _ => rfl⟩
          · next hzero =>
              constructor
              · intro heq
                cases heq
              · intro heq
                omega
    · rw [Function.update_of_ne hsame, ← h.indexed]
      split
      · exact Iff.rfl
      · next hge =>
          rw [List.getElem?_eq_none (not_lt.mp hge), List.getElem?_singleton]
          split
          · simp [Ne.symm hsame]
          · exact Iff.rfl

/-- `add` inserts the element, and says whether it was new. -/
lemma add_spec (h : set.WellFormed) (hadd : (set.add value : Tx ε _) = .ok (set', flag)) :
    set'.WellFormed ∧ (∀ a, a ∈ set'.values ↔ a ∈ set.values ∨ a = value) ∧
      (flag = true ↔ value ∉ set.values) := by
  unfold add at hadd
  split at hadd
  · next hnew =>
      have hnot : value ∉ set.values := by
        rw [← h.contains_iff, hnew]
        exact Bool.false_ne_true
      simp only [bind_eq_ok, arrayPush_eq_ok, pure_eq_ok, Prod.mk.injEq] at hadd
      obtain ⟨_, ⟨hroom, rfl⟩, rfl, rfl⟩ := hadd
      exact ⟨h.push hroom hnot, by simp, by simp [hnot]⟩
  · next hold =>
      simp only [pure_eq_ok, Prod.mk.injEq] at hadd
      obtain ⟨rfl, rfl⟩ := hadd
      have hmem : value ∈ set.values := h.contains_iff.mp (by simpa using hold)
      refine ⟨h, fun a => ⟨.inl, fun hor => ?_⟩, by simp [hmem]⟩
      rcases hor with hin | rfl
      · exact hin
      · exact hmem

/-- `add` fails only if the array is full. -/
lemma exists_add (h : set.WellFormed)
    (hroom : value ∈ set.values ∨ set.values.length < 2 ^ 64) :
    ∃ set' flag, (set.add value : Tx ε _) = .ok (set', flag) := by
  unfold add
  split
  · next hnew =>
      have hlt : set.values.length < 2 ^ 64 := by
        refine hroom.resolve_left fun hmem => ?_
        rw [h.contains_iff.mpr hmem] at hnew
        cases hnew
      rw [arrayPush, if_pos hlt]
      exact ⟨_, _, rfl⟩
  · exact ⟨set, false, rfl⟩

/-- Moving the last element into the hole keeps the rest of the array indexed. -/
lemma WellFormed.swapPop (h : set.WellFormed) {i : ℕ} {last : α}
    (hvalue : set.values[i]? = some value)
    (hlast : set.values[set.values.length - 1]? = some last) :
    WellFormed ⟨(set.values.set i last).dropLast,
      Function.update (Function.update set.indexes last (set.indexes value)) value 0⟩ := by
  have hi : i < set.values.length := (List.getElem?_eq_some_iff.mp hvalue).1
  have hsmall := h.small
  have hindex := (h.indexed i value).mp hvalue
  have hlastIndex := (h.indexed _ last).mp hlast
  -- The last element is the removed one exactly if the hole is at the end.
  have hsame : last = value ↔ i = set.values.length - 1 := by
    constructor
    · rintro rfl
      exact h.eq_of_getElem? hvalue hlast
    · rintro rfl
      exact Option.some.inj (hlast.symm.trans hvalue)
  have hget : ∀ j, ((set.values.set i last).dropLast)[j]? =
      if j < set.values.length - 1 then if i = j then some last else set.values[j]? else none := by
    intro j
    rw [List.dropLast_eq_take, List.length_set, List.getElem?_take, List.getElem?_set]
    split
    · split
      · rfl
      · rfl
    · rfl
  constructor
  · simp only [List.length_dropLast, List.length_set]
    omega
  · intro j a
    have ha := h.indexed j a
    dsimp only
    rw [hget]
    by_cases hremoved : a = value
    · subst hremoved
      rw [Function.update_self]
      refine ⟨fun heq => ?_, fun hzero => absurd hzero.symm (Nat.succ_ne_zero j)⟩
      split at heq
      · split at heq
        · have := hsame.mp (Option.some.inj heq)
          omega
        · have := h.eq_of_getElem? hvalue heq
          omega
      · cases heq
    · rw [Function.update_of_ne hremoved]
      by_cases hmoved : a = last
      · subst hmoved
        rw [Function.update_self, hindex]
        have hne : i ≠ set.values.length - 1 := fun heq => hremoved (hsame.mpr heq)
        constructor
        · intro heq
          split at heq
          · split at heq
            · omega
            · have := h.eq_of_getElem? heq hlast
              omega
          · cases heq
        · intro heq
          rw [if_pos (by omega), if_pos (by omega)]
      · rw [Function.update_of_ne hmoved, ← ha]
        constructor
        · intro heq
          split at heq
          · split at heq
            · exact absurd (Option.some.inj heq).symm hmoved
            · exact heq
          · cases heq
        · intro heq
          have hj : j < set.values.length := (List.getElem?_eq_some_iff.mp heq).1
          have hhole : i ≠ j := by
            rintro rfl
            exact hremoved (Option.some.inj (heq.symm.trans hvalue))
          have hend : j ≠ set.values.length - 1 := by
            rintro rfl
            exact hmoved (Option.some.inj (heq.symm.trans hlast))
          rw [if_pos (by omega), if_neg hhole, heq]

/-- What is left is everything but the removed element. -/
lemma WellFormed.mem_swapPop (h : set.WellFormed) {i : ℕ} {last : α}
    (hvalue : set.values[i]? = some value)
    (hlast : set.values[set.values.length - 1]? = some last) :
    a ∈ (set.values.set i last).dropLast ↔ a ∈ set.values ∧ a ≠ value := by
  have hwell := h.swapPop hvalue hlast
  have hmem := @WellFormed.mem_iff _ _ a hwell
  dsimp only at hmem
  rw [hmem, h.mem_iff]
  by_cases hremoved : a = value
  · simp [hremoved]
  · rw [Function.update_of_ne hremoved]
    by_cases hmoved : a = last
    · subst hmoved
      rw [Function.update_self]
      have hin : set.indexes a ≠ 0 := h.mem_iff.mp (List.mem_of_getElem? hlast)
      have hne : set.indexes value ≠ 0 := h.mem_iff.mp (List.mem_of_getElem? hvalue)
      exact ⟨fun _ => ⟨hin, hremoved⟩, fun _ => hne⟩
    · rw [Function.update_of_ne hmoved]
      exact ⟨fun hin => ⟨hin, hremoved⟩, fun hin => hin.1⟩

/-- Moving the last element into its own place changes nothing. -/
lemma moveLast_eq {toDeleteIndex lastIndex : Uint256} {last : α}
    (hvalue : set.values[toDeleteIndex.toNat]? = some value)
    (hlast : set.values[lastIndex.toNat]? = some last) :
    (set.moveLast (set.indexes value) toDeleteIndex lastIndex : Tx ε _) =
      .ok ⟨set.values.set toDeleteIndex.toNat last,
        Function.update set.indexes last (set.indexes value)⟩ := by
  obtain ⟨hlt, hget⟩ := List.getElem?_eq_some_iff.mp hvalue
  unfold moveLast
  split
  · rw [arrayGet_eq_ok.mpr hlast]
    simp only [arraySet, if_pos hlt]
    rfl
  · next hsame =>
      rw [not_not] at hsame
      subst hsame
      obtain rfl : value = last := Option.some.inj (hvalue.symm.trans hlast)
      rw [Function.update_eq_self, ← hget, List.set_getElem_self]
      rfl

/-- `remove` takes the element out, says whether it was there, and never fails. -/
lemma remove_spec (h : set.WellFormed) (value : α) :
    ∃ set' flag, (set.remove value : Tx ε _) = .ok (set', flag) ∧ set'.WellFormed ∧
      (∀ a, a ∈ set'.values ↔ a ∈ set.values ∧ a ≠ value) ∧
      (flag = true ↔ value ∈ set.values) := by
  by_cases hmem : value ∈ set.values
  · have hne : set.indexes value ≠ 0 := h.mem_iff.mp hmem
    obtain ⟨i, hvalue⟩ := List.mem_iff_getElem?.mp hmem
    have hi : i < set.values.length := (List.getElem?_eq_some_iff.mp hvalue).1
    have hindex := (h.indexed i value).mp hvalue
    have hlength := h.toNat_length
    have hone : (1 : Uint256).toNat = 1 := rfl
    have hdelete : (1 : Uint256).toNat ≤ (set.indexes value).toNat := by omega
    have hnonempty : (1 : Uint256).toNat ≤ set.length.toNat := by omega
    have htoDelete : (set.indexes value - 1).toNat = i := by
      rw [BitVec.toNat_sub_of_le hdelete]
      omega
    have hlastIndex : (set.length - 1).toNat = set.values.length - 1 := by
      rw [BitVec.toNat_sub_of_le hnonempty]
      omega
    obtain ⟨last, hlast⟩ : ∃ last, set.values[set.values.length - 1]? = some last :=
      ⟨_, List.getElem?_eq_getElem (by omega)⟩
    have hmoved := moveLast_eq (ε := ε) (htoDelete.symm ▸ hvalue) (hlastIndex.symm ▸ hlast)
    refine ⟨_, true, ?_, h.swapPop hvalue hlast, fun a => h.mem_swapPop hvalue hlast,
      by simp [hmem]⟩
    simp only [remove, if_pos hne, checkedSub, if_pos hdelete, if_pos hnonempty]
    show (set.moveLast (set.indexes value) (set.indexes value - 1) (set.length - 1) >>= _) = _
    rw [hmoved, htoDelete]
    rfl
  · have hzero : set.indexes value = 0 := not_not.mp fun hne => hmem (h.mem_iff.mpr hne)
    refine ⟨set, false, ?_, h, fun a => ?_, by simp [hmem]⟩
    · simp only [remove, hzero, ne_eq, not_true_eq_false, if_false]
      rfl
    · refine ⟨fun ha => ⟨ha, ?_⟩, fun ha => ha.1⟩
      rintro rfl
      exact hmem ha

end EnumerableSet

end BrivoUsbs
