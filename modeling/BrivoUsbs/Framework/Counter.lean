import Mathlib.Data.BitVec
import Mathlib.Data.List.Nodup

/-!
# Counters

A counter that starts at one and hands out its value before it counts up.  `Consecutive ids next`
says that `ids` are what it has handed out so far: `1, 2, …`, all below `next`.
-/

namespace BrivoUsbs

variable {w : ℕ}

/-- The ids handed out so far are `1, 2, …` up to the counter. -/
structure Consecutive (ids : List (BitVec w)) (next : BitVec w) : Prop where
  next : next.toNat = ids.length + 1
  ids : ids.map BitVec.toNat = List.range' 1 ids.length

namespace Consecutive

variable {ids : List (BitVec w)} {next next' id : BitVec w}

/-- Handing out one more id. -/
lemma snoc (h : Consecutive ids next) (hnext : next'.toNat = next.toNat + 1) :
    Consecutive (ids ++ [next]) next' := by
  have hlen := h.next
  constructor
  · rw [List.length_append, List.length_singleton]
    omega
  · rw [List.map_append, h.ids, List.length_append, List.length_singleton, List.range'_1_concat,
      Nat.add_comm 1, ← hlen]
    rfl

/-- The counter is ahead of every id handed out. -/
lemma lt_next (h : Consecutive ids next) (hid : id ∈ ids) : id.toNat < next.toNat := by
  have hmem : id.toNat ∈ ids.map BitVec.toNat := List.mem_map_of_mem hid
  rw [h.ids, List.mem_range'_1] at hmem
  have hnext := h.next
  omega

lemma next_notMem (h : Consecutive ids next) : next ∉ ids :=
  fun hmem => absurd (h.lt_next hmem) (lt_irrefl _)

lemma nodup (h : Consecutive ids next) : ids.Nodup := by
  refine List.Nodup.of_map BitVec.toNat ?_
  rw [h.ids]
  exact List.nodup_range'

end Consecutive

end BrivoUsbs
