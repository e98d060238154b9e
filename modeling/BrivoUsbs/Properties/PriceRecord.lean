import BrivoUsbs.Contracts.Pricer
import BrivoUsbs.Framework.Path
import Mathlib.Data.List.MinMax

/-!
# The price record

What the storage of the pricer represents.  The ids are `1, 2, …` up to the counter, and these are
the ids with a price.  The pointer is moved by a strict comparison with the entry it points at,
starting at the empty entry `0`, so it is the first id, `0` included, under which the timestamp is
latest: `Recorded.latest` says so with `argmax`, which keeps the first of several candidates too.
-/

namespace BrivoUsbs

/-- The first candidate depends on the values in the list only. -/
lemma argmax_congr {α β : Type} [LinearOrder β] [DecidableEq α] {f g : α → β} {l : List α}
    (h : ∀ a ∈ l, f a = g a) : l.argmax f = l.argmax g := by
  ext m
  rw [List.argmax_eq_some_iff, List.argmax_eq_some_iff]
  refine and_congr_right fun hm => ?_
  rw [h m hm]
  refine and_congr (forall₂_congr fun a ha => by rw [h a ha]) (forall₂_congr fun a ha => ?_)
  rw [h a ha]

namespace Pricer

variable {pricer pricer' s : Pricer} {sender deployer admin updater : Address} {call : Call}
  {id priceId price timestamp : Uint256}

/-! ## Calls as steps -/

/-- One call by anybody. -/
def Step (pricer : Pricer) (a : Address × Call) (pricer' : Pricer) : Prop :=
  pricer.exec a.1 a.2 = .ok pricer'

/-- One step as a function: nothing if the call is rejected. -/
def next (pricer : Pricer) (a : Address × Call) : Option Pricer := (pricer.exec a.1 a.2).toOption

lemma step_of_next {a : Address × Call} (h : pricer.next a = some pricer') :
    pricer.Step a pricer' := toOption_eq_some.mp h

/-! ## The invariant -/

/-- The timestamp under an id. -/
def timestampOf (pricer : Pricer) (id : Uint256) : ℕ := (pricer.prices id).timestamp.toNat

structure Recorded (pricer : Pricer) : Prop where
  numbered : pricer.priceIds.map BitVec.toNat = List.range' 1 pricer.currentPriceId.toNat
  indexed : pricer.Indexed
  /-- Nothing is stored under the pointer a new pricer starts with. -/
  empty : pricer.timestampOf 0 = 0
  latest : pricer.latestPriceId ∈ (0 :: pricer.priceIds).argmax pricer.timestampOf

lemma deploy_recorded : (deploy deployer admin updater).Recorded where
  numbered := rfl
  indexed := deploy_indexed deployer admin updater
  empty := rfl
  latest := rfl

lemma Recorded.mem_priceIds (h : pricer.Recorded) :
    id ∈ pricer.priceIds ↔ id ≠ 0 ∧ id.toNat ≤ pricer.currentPriceId.toNat := by
  have hmem : id ∈ pricer.priceIds ↔ id.toNat ∈ pricer.priceIds.map BitVec.toNat := by
    rw [List.mem_map_of_injective fun _ _ => BitVec.eq_of_toNat_eq]
  rw [hmem, h.numbered, List.mem_range'_1]
  bv_omega

/-- The next id is fresh. -/
lemma Recorded.fresh (h : pricer.Recorded)
    (hnext : priceId.toNat = pricer.currentPriceId.toNat + 1) (hid : id ∈ 0 :: pricer.priceIds) :
    id ≠ priceId := by
  rcases List.mem_cons.mp hid with rfl | hmem
  · bv_omega
  · have hle := (h.mem_priceIds.mp hmem).2
    bv_omega

/-- A new entry, and the pointer moved to it if it is later than the latest one. -/
lemma Recorded.addPrice (h : pricer.Recorded)
    (hstep : pricer.addPrice sender price timestamp = .ok pricer') : pricer'.Recorded := by
  have hexec : pricer.exec sender (.addPrice price timestamp) = .ok pricer' := hstep
  obtain ⟨hindexed, -⟩ := exec_indexed hexec h.indexed
  simp only [Pricer.addPrice, bind_eq_ok, revertIf_eq_ok, pure_eq_ok, exists_const,
    checkedAdd_eq_ok, store_eq_ok] at hstep
  obtain ⟨_, -, hprice, priceId, hnext, _, ⟨-, rfl⟩, rfl⟩ := hstep
  have hsucc : priceId.toNat = pricer.currentPriceId.toNat + 1 := hnext
  have hold : ∀ id ∈ 0 :: pricer.priceIds,
      (pricer.stored priceId price timestamp).timestampOf id = pricer.timestampOf id := by
    intro id hid
    simp only [timestampOf, stored, Function.update_of_ne (h.fresh hsucc hid)]
  have hnew : (pricer.stored priceId price timestamp).timestampOf priceId = timestamp.toNat := by
    simp only [timestampOf, stored, Function.update_self]
  have hlatest := List.argmax_mem h.latest
  refine ⟨?_, hindexed, (hold 0 List.mem_cons_self).trans h.empty, ?_⟩
  · show (pricer.priceIds ++ [priceId]).map BitVec.toNat = List.range' 1 priceId.toNat
    rw [List.map_append, h.numbered, hsucc, List.range'_1_concat]
    simp [hsucc, Nat.add_comm]
  · show _ ∈ (0 :: (pricer.priceIds ++ [priceId])).argmax
      (pricer.stored priceId price timestamp).timestampOf
    rw [← List.cons_append, List.argmax_concat, argmax_congr hold, Option.mem_def.mp h.latest]
    simp only [hold _ hlatest, hnew]
    have hpointer : ((pricer.stored priceId price timestamp).prices
        (pricer.stored priceId price timestamp).latestPriceId).timestamp < timestamp ↔
          pricer.timestampOf pricer.latestPriceId < timestamp.toNat := by
      rw [← hold _ hlatest]
      exact BitVec.lt_def
    by_cases hlater : pricer.timestampOf pricer.latestPriceId < timestamp.toNat
    · rw [if_pos hlater, if_pos (hpointer.mpr hlater)]
      rfl
    · rw [if_neg hlater, if_neg fun h => hlater (hpointer.mp h)]
      rfl

/-- A new price under an old timestamp. -/
lemma Recorded.updatePrice (h : pricer.Recorded)
    (hstep : pricer.updatePrice sender priceId price = .ok pricer') : pricer'.Recorded := by
  have hexec : pricer.exec sender (.updatePrice priceId price) = .ok pricer' := hstep
  obtain ⟨hindexed, -⟩ := exec_indexed hexec h.indexed
  simp only [Pricer.updatePrice, bind_eq_ok, revertIf_eq_ok, pure_eq_ok, exists_const] at hstep
  obtain ⟨_, -, -, -, rfl⟩ := hstep
  have hsame : timestampOf { pricer with
      prices := Function.update pricer.prices priceId ⟨price, (pricer.prices priceId).timestamp⟩
      log := pricer.log ++ [.priceUpdated priceId (pricer.prices priceId).price price] } =
        pricer.timestampOf := by
    funext id
    by_cases hid : id = priceId
    · simp [timestampOf, hid]
    · simp [timestampOf, Function.update_of_ne hid]
  refine ⟨h.numbered, hindexed, ?_, ?_⟩
  · rw [hsame]
    exact h.empty
  · rw [hsame]
    exact h.latest

lemma Recorded.step (h : pricer.Recorded) {a : Address × Call} (hstep : pricer.Step a pricer') :
    pricer'.Recorded := by
  obtain ⟨sender, call⟩ := a
  cases call with
  | addPrice price timestamp => exact h.addPrice hstep
  | updatePrice priceId price => exact h.updatePrice hstep
  | access call =>
      simp only [Step, exec, bind_eq_ok, pure_eq_ok] at hstep
      obtain ⟨access, -, rfl⟩ := hstep
      exact ⟨h.numbered, h.indexed, h.empty, h.latest⟩

/-! ## What the pointer points at -/

/-- The smallest id on record with the latest timestamp. -/
def FirstLatest (pricer : Pricer) (id : Uint256) : Prop :=
  id ∈ pricer.priceIds ∧ ∀ other ∈ pricer.priceIds,
    (pricer.prices other).timestamp ≤ (pricer.prices id).timestamp ∧
      ((pricer.prices other).timestamp = (pricer.prices id).timestamp → id ≤ other)

/-- The ids on record are in order, and the empty one comes first. -/
lemma Recorded.idxOf_eq (h : pricer.Recorded) (hid : id ∈ 0 :: pricer.priceIds) :
    (0 :: pricer.priceIds).idxOf id = id.toNat := by
  have hlt := List.idxOf_lt_length_of_mem hid
  have hids : (0 :: pricer.priceIds).map BitVec.toNat =
      List.range' 0 (pricer.currentPriceId.toNat + 1) := by
    rw [List.map_cons, h.numbered, List.range'_succ]
    rfl
  have hget : ((0 :: pricer.priceIds).map BitVec.toNat)[(0 :: pricer.priceIds).idxOf id]? =
      some id.toNat := by
    rw [List.getElem?_map, List.getElem?_eq_getElem hlt, List.getElem_idxOf]
    rfl
  have hlength := congrArg List.length hids
  rw [List.length_map, List.length_range'] at hlength
  rw [hids, List.getElem?_range' (hlength ▸ hlt)] at hget
  have hvalue := Option.some.inj hget
  omega

/-- **The pointer points at the first of the latest prices**, unless all timestamps are zero. -/
lemma Recorded.firstLatest (h : pricer.Recorded)
    (hpos : ∃ id ∈ pricer.priceIds, (pricer.prices id).timestamp ≠ 0) :
    pricer.FirstLatest pricer.latestPriceId := by
  obtain ⟨hmem, hmax, hfirst⟩ := List.mem_argmax_iff.mp h.latest
  obtain ⟨later, hlater, hne⟩ := hpos
  have hlatest : pricer.latestPriceId ∈ pricer.priceIds := by
    refine (List.mem_cons.mp hmem).resolve_left fun hzero => hne ?_
    have hle := hmax later (List.mem_cons_of_mem _ hlater)
    rw [hzero, h.empty] at hle
    exact BitVec.eq_of_toNat_eq (Nat.le_zero.mp hle)
  refine ⟨hlatest, fun other hother => ?_⟩
  have hother' := List.mem_cons_of_mem (0 : Uint256) hother
  refine ⟨hmax other hother', fun hsame => ?_⟩
  have hle := hfirst other hother' (by rw [timestampOf, timestampOf, hsame])
  rwa [h.idxOf_eq hmem, h.idxOf_eq hother'] at hle

lemma Recorded.latest_eq_zero (h : pricer.Recorded)
    (hzero : ∀ id ∈ pricer.priceIds, (pricer.prices id).timestamp = 0) :
    pricer.latestPriceId = 0 := by
  obtain ⟨hmem, -, hfirst⟩ := List.mem_argmax_iff.mp h.latest
  have hsame : pricer.timestampOf pricer.latestPriceId ≤ pricer.timestampOf 0 := by
    rcases List.mem_cons.mp hmem with hlatest | hlatest
    · rw [hlatest]
    · rw [timestampOf, hzero _ hlatest]
      exact Nat.zero_le _
  have hle := hfirst 0 List.mem_cons_self hsame
  rw [h.idxOf_eq hmem, h.idxOf_eq List.mem_cons_self] at hle
  exact BitVec.eq_of_toNat_eq (Nat.le_zero.mp hle)

/-! ## Runs -/

section

variable {tr : List (Transition Pricer (Address × Call))}

/-- An id keeps its price, up to updates, and its timestamp. -/
def Extends (pricer pricer' : Pricer) : Prop :=
  ∀ id, pricer.getPrice id ≠ 0 →
    pricer'.getPrice id ≠ 0 ∧ (pricer'.prices id).timestamp = (pricer.prices id).timestamp

lemma Recorded.extends_step (h : pricer.Recorded) {a : Address × Call}
    (hstep : pricer.Step a pricer') : Extends pricer pricer' := by
  intro id hid
  have hkept : pricer'.getPrice id ≠ 0 := by
    obtain ⟨hindexed, hcount⟩ := exec_indexed hstep h.indexed
    obtain ⟨hne, hle⟩ := (h.indexed id).mp hid
    exact (hindexed id).mpr ⟨hne, hle.trans hcount⟩
  refine ⟨hkept, ?_⟩
  obtain ⟨sender, call⟩ := a
  cases call with
  | addPrice price timestamp =>
      simp only [Step, exec, Pricer.addPrice, bind_eq_ok, revertIf_eq_ok, pure_eq_ok, exists_const,
        checkedAdd_eq_ok, store_eq_ok] at hstep
      obtain ⟨_, -, -, priceId, hnext, _, ⟨-, rfl⟩, rfl⟩ := hstep
      have hmem := List.mem_cons_of_mem 0 (h.mem_priceIds.mpr ((h.indexed id).mp hid))
      simp only [stored, Function.update_of_ne (h.fresh hnext hmem)]
  | updatePrice priceId price =>
      simp only [Step, exec, Pricer.updatePrice, bind_eq_ok, revertIf_eq_ok, pure_eq_ok,
        exists_const] at hstep
      obtain ⟨_, -, -, -, rfl⟩ := hstep
      by_cases hsame : id = priceId
      · simp [hsame]
      · simp only [Function.update_of_ne hsame]
  | access call =>
      simp only [Step, exec, bind_eq_ok, pure_eq_ok] at hstep
      obtain ⟨access, -, rfl⟩ := hstep
      rfl

lemma recorded (hrun : Run Step (deploy deployer admin updater) tr s) :
    s.Recorded ∧ ∀ t ∈ tr, t.pre.Recorded := by
  obtain ⟨hs, hall⟩ := hrun.invariant (P := Recorded) deploy_recorded
    fun t _ hpre hstep => hpre.step hstep
  exact ⟨hs, fun t ht => (hall t ht).1⟩

/-- What the storage of a pricer represents at the end `s` of a run. -/
structure PriceRecord (tr : List (Transition Pricer (Address × Call))) (s : Pricer) : Prop where
  priceIds : s.priceIds.map BitVec.toNat = List.range' 1 s.currentPriceId.toNat
  prices : ∀ id, s.getPrice id ≠ 0 ↔ 1 ≤ id.toNat ∧ id.toNat ≤ s.currentPriceId.toNat
  timestamps : ∀ x, Run.Visits tr s x → Extends x s
  latest : (∃ id ∈ s.priceIds, (s.prices id).timestamp ≠ 0) → s.FirstLatest s.latestPriceId
  latest_zero : (∀ id ∈ s.priceIds, (s.prices id).timestamp = 0) → s.latestPriceId = 0
  /-- The next id holds what the call says. -/
  added : ∀ t ∈ tr, ∀ sender price timestamp, t.label = (sender, .addPrice price timestamp) →
    price ≠ 0 ∧ t.post.currentPriceId.toNat = t.pre.currentPriceId.toNat + 1 ∧
      t.post.priceIds = t.pre.priceIds ++ [t.post.currentPriceId] ∧
      t.post.prices = Function.update t.pre.prices t.post.currentPriceId ⟨price, timestamp⟩
  /-- An update replaces the price of an id on record. -/
  updated : ∀ t ∈ tr, ∀ sender priceId price, t.label = (sender, .updatePrice priceId price) →
    t.pre.getPrice priceId ≠ 0 ∧ t.post = { t.pre with
      prices :=
        Function.update t.pre.prices priceId ⟨price, (t.pre.prices priceId).timestamp⟩
      log := t.pre.log ++ [.priceUpdated priceId (t.pre.getPrice priceId) price] }
  rejected : ∀ a r, s.exec a.1 a.2 = .error r → play next s [a] = s

/-- **The storage of the pricer represents the history of prices**, at the end of every run of a
new pricer. -/
theorem priceRecord (hrun : Run Step (deploy deployer admin updater) tr s) :
    PriceRecord tr s := by
  obtain ⟨hs, hpre⟩ := recorded hrun
  refine ⟨hs.numbered, fun id => ?_, fun x hx => ?_, hs.firstLatest, hs.latest_eq_zero, ?_, ?_,
    fun a r herror => play_of_none (toOption_of_error herror)⟩
  · rw [hs.indexed id]
    bv_omega
  · refine hrun.rel_of_visits (R := Extends) (fun _ id hid => ⟨hid, rfl⟩) ?_ ?_ hx
    · intro x y z hxy hyz id hid
      obtain ⟨hid', hsame⟩ := hxy id hid
      obtain ⟨hid'', hsame'⟩ := hyz id hid'
      exact ⟨hid'', hsame'.trans hsame⟩
    · intro t ht
      have hstep := hrun.step_of_mem ht
      exact (hpre t ht).extends_step hstep
  · intro t ht sender price timestamp hlabel
    have hstep := hrun.step_of_mem ht
    rw [hlabel] at hstep
    simp only [Step, exec, Pricer.addPrice, bind_eq_ok, revertIf_eq_ok, pure_eq_ok, exists_const,
      checkedAdd_eq_ok, store_eq_ok] at hstep
    obtain ⟨_, -, hprice, next, hnext, _, ⟨-, rfl⟩, hpost⟩ := hstep
    rw [← hpost]
    exact ⟨hprice, hnext, rfl, rfl⟩
  · intro t ht sender priceId price hlabel
    have hstep := hrun.step_of_mem ht
    rw [hlabel] at hstep
    simp only [Step, exec, updatePrice, bind_eq_ok, revertIf_eq_ok, pure_eq_ok,
      exists_const] at hstep
    obtain ⟨_, -, -, hdefined, hpost⟩ := hstep
    exact ⟨hdefined, hpost.symm⟩

/-- Prices out of order, two of them under the latest timestamp, and one update. -/
def samplePrices : List (Address × Call) := [
  (0x0A, .addPrice 5 0),
  (0x0A, .addPrice 6 100),
  (0x0A, .addPrice 7 50),
  (0x0A, .addPrice 8 100),
  (0x0A, .addPrice 0 200),
  (0x0A, .updatePrice 4 9)]

theorem priceRecord_sample :
    (play next (deploy 0x0A 0x0A 0x0A) samplePrices).currentPriceId = 4 ∧
      (play next (deploy 0x0A 0x0A 0x0A) samplePrices).latestPriceId = 2 ∧
      PriceRecord (playTrace next (deploy 0x0A 0x0A 0x0A) samplePrices)
        (play next (deploy 0x0A 0x0A 0x0A) samplePrices) :=
  ⟨by decide +kernel, by decide +kernel,
    priceRecord (run_play (fun _ _ _ => step_of_next) _ _)⟩

end

end Pricer

end BrivoUsbs
