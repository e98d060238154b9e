import BrivoUsbs.Contracts.RWAOracleRateCheck
import BrivoUsbs.Framework.Path
import BrivoUsbs.Properties.PriceBook

/-!
# The latest price

Two laws tie the pricer's latest price to its oracle.

`ordered_iff` is the one `addLatestOraclePrice` relies on when it moves the pointer unchecked: no
price is later than the latest one, and that is no later than the oracle's.  The timestamp of a
price is the caller's choice, the oracle's is the block time, so the law holds along a run exactly
if no price is ever added under a timestamp from the future.

`synced_iff` compares the prices themselves.  They agree along a run without direct updates of the
oracle exactly if no `updatePrice` replaces the latest price by another one, and as long as they
agree `addPrice` is never rejected with `LatestPriceMismatch`.
-/

namespace BrivoUsbs

namespace PriceBook

variable {φ : Type} {b b' : PriceBook} {a : PricerAction φ} {priceId price timestamp id : Uint256}

/-! ## Ids -/

/-- The ids on record are counted, and the latest one is among them. -/
structure Numbered (b : PriceBook) : Prop where
  counted : b.priceIds.length = b.currentPriceId.toNat
  latest_mem : b.latestPriceId ∈ b.priceIds
  le_current : ∀ id ∈ b.priceIds, id.toNat ≤ b.currentPriceId.toNat

lemma Numbered.fresh (h : b.Numbered) (hnext : priceId.toNat = b.currentPriceId.toNat + 1)
    (hid : id ∈ b.priceIds) : id ≠ priceId := by
  rintro rfl
  have hle := h.le_current id hid
  omega

/-- A new entry leaves the ones on record alone. -/
lemma Numbered.store_prices (h : b.Numbered)
    (hnext : priceId.toNat = b.currentPriceId.toNat + 1) (hid : id ∈ b.priceIds) :
    (b.store priceId price timestamp).prices id = b.prices id :=
  Function.update_of_ne (h.fresh hnext hid) _ _

lemma Numbered.store_latest (h : b.Numbered)
    (hnext : priceId.toNat = b.currentPriceId.toNat + 1) :
    (b.store priceId price timestamp).latest = b.latest :=
  h.store_prices hnext h.latest_mem

lemma Numbered.store (h : b.Numbered) (price timestamp : Uint256)
    (hnext : priceId.toNat = b.currentPriceId.toNat + 1) :
    (b.store priceId price timestamp).Numbered := by
  have hcurrent : (b.store priceId price timestamp).currentPriceId = priceId := rfl
  refine ⟨?_, List.mem_append_left _ h.latest_mem, fun id hid => ?_⟩
  · rw [hcurrent, hnext, ← h.counted]
    exact List.length_append
  rcases List.mem_append.mp hid with hmem | hmem
  · have hle := h.le_current id hmem
    rw [hcurrent]
    omega
  · obtain rfl := List.mem_singleton.mp hmem
    exact le_refl _

lemma Numbered.step (h : b.Numbered) (hstep : Step b a b') : b'.Numbered := by
  cases hstep with
  | append hnext hold => exact h.store _ _ hnext
  | @advance sender price timestamp priceId hnext hnew hmatch =>
      exact ⟨(h.store price timestamp hnext).counted,
        List.mem_append_right _ List.mem_cons_self, (h.store price timestamp hnext).le_current⟩
  | catchUp hnext =>
      exact ⟨(h.store b.oraclePrice b.oracleTimestamp hnext).counted,
        List.mem_append_right _ List.mem_cons_self,
        (h.store b.oraclePrice b.oracleTimestamp hnext).le_current⟩
  | _ => exact ⟨h.counted, h.latest_mem, h.le_current⟩

/-! ## Order in time -/

/-- The latest price is the latest one on record, and no later than the oracle's. -/
structure Ordered (b : PriceBook) : Prop where
  latest_le : b.latest.timestamp ≤ b.oracleTimestamp
  latest_max : ∀ id ∈ b.priceIds, (b.prices id).timestamp ≤ b.latest.timestamp

/-- The oracle was not updated in the future. -/
def Past (b : PriceBook) : Prop := b.oracleTimestamp ≤ b.clock

lemma Past.step (h : b.Past) (hstep : Step b a b') : b'.Past := by
  cases hstep with
  | advance | quote => exact BitVec.le_refl _
  | wait hlater => exact BitVec.le_trans h hlater
  | _ => exact h

/-- A bound on the latest price and on a new one bounds all prices on record. -/
lemma Ordered.store_le (h : b.Ordered) (hnumbered : b.Numbered) (price : Uint256)
    (hnext : priceId.toNat = b.currentPriceId.toNat + 1) {bound : Uint256}
    (hlatest : b.latest.timestamp ≤ bound) (hnew : timestamp ≤ bound) :
    ∀ id ∈ (b.store priceId price timestamp).priceIds,
      ((b.store priceId price timestamp).prices id).timestamp ≤ bound := by
  intro id hid
  rcases List.mem_append.mp hid with hmem | hmem
  · rw [hnumbered.store_prices hnext hmem]
    exact BitVec.le_trans (h.latest_max id hmem) hlatest
  · obtain rfl := List.mem_singleton.mp hmem
    rw [store_prices_self]
    exact hnew

/-- **A price from the past keeps the order.**  And the pointer does not go back in time. -/
lemma Ordered.step (h : b.Ordered) (hnumbered : b.Numbered) (hpast : b.Past)
    (hstep : Step b a b') (hadded : ∀ timestamp ∈ a.addedTimestamp, timestamp ≤ b.clock) :
    b'.Ordered ∧ b.latest.timestamp ≤ b'.latest.timestamp := by
  cases hstep with
  | @append sender price timestamp priceId hnext hold =>
      -- The pointer stays, and the new price is no later than the latest one.
      have hlatest : (b.store priceId price timestamp).latest = b.latest :=
        hnumbered.store_latest hnext
      rw [hlatest] at hold
      have hmax := h.store_le hnumbered price hnext (BitVec.le_refl _) hold
      refine ⟨⟨?_, ?_⟩, ?_⟩
      · rw [hlatest]
        exact h.latest_le
      · rw [hlatest]
        exact hmax
      · rw [hlatest]
        exact BitVec.le_refl _
  | @advance sender price timestamp priceId hnext hnew hmatch =>
      -- The pointer moves to the new price, which was not added before its time.
      rw [hnumbered.store_latest hnext] at hnew
      have hlater : b.latest.timestamp ≤ timestamp := BitVec.le_of_lt hnew
      have hnow : timestamp ≤ b.clock := hadded timestamp rfl
      have hentry : ((b.store priceId price timestamp).prices priceId).timestamp = timestamp := by
        rw [store_prices_self]
      have hmax := h.store_le hnumbered price hnext hlater (BitVec.le_refl _)
      refine ⟨⟨?_, ?_⟩, ?_⟩
      · show ((b.store priceId price timestamp).prices priceId).timestamp ≤ b.clock
        rw [hentry]
        exact hnow
      · intro id hid
        show _ ≤ ((b.store priceId price timestamp).prices priceId).timestamp
        rw [hentry]
        exact hmax id hid
      · show _ ≤ ((b.store priceId price timestamp).prices priceId).timestamp
        rw [hentry]
        exact hlater
  | @catchUp sender priceId hnext =>
      -- The pointer moves to the oracle's price, which is no earlier than the latest one.
      have hentry : ((b.store priceId b.oraclePrice b.oracleTimestamp).prices priceId).timestamp =
          b.oracleTimestamp := by
        rw [store_prices_self]
      have hmax := h.store_le hnumbered b.oraclePrice hnext h.latest_le (BitVec.le_refl _)
      refine ⟨⟨?_, ?_⟩, ?_⟩
      · show ((b.store priceId b.oraclePrice b.oracleTimestamp).prices priceId).timestamp ≤ _
        rw [hentry]
        exact BitVec.le_refl _
      · intro id hid
        show _ ≤ ((b.store priceId b.oraclePrice b.oracleTimestamp).prices priceId).timestamp
        rw [hentry]
        exact hmax id hid
      · show _ ≤ ((b.store priceId b.oraclePrice b.oracleTimestamp).prices priceId).timestamp
        rw [hentry]
        exact h.latest_le
  | @revise sender priceId price hprice hdefined =>
      -- The timestamps stay.
      have hsame : ∀ id, (Function.update b.prices priceId
          ⟨price, (b.prices priceId).timestamp⟩ id).timestamp = (b.prices id).timestamp := by
        intro id
        by_cases hid : id = priceId
        · rw [hid, Function.update_self]
        · rw [Function.update_of_ne hid]
      refine ⟨⟨?_, ?_⟩, ?_⟩
      · rw [PriceBook.latest, hsame]
        exact h.latest_le
      · intro id hid
        rw [PriceBook.latest, hsame, hsame]
        exact h.latest_max id hid
      · rw [PriceBook.latest, PriceBook.latest, hsame]
        exact BitVec.le_refl _
  | quote =>
      have hnow : b.latest.timestamp ≤ b.clock := BitVec.le_trans h.latest_le hpast
      exact ⟨⟨hnow, h.latest_max⟩, BitVec.le_refl _⟩
  | wait hlater => exact ⟨⟨h.latest_le, h.latest_max⟩, BitVec.le_refl _⟩
  | idle => exact ⟨h, BitVec.le_refl _⟩

/-- Conversely, a price that keeps the order was not from the future. -/
lemma addedTimestamp_le (h : b'.Ordered) (hpast : b.Past) (hstep : Step b a b') :
    ∀ timestamp ∈ a.addedTimestamp, timestamp ≤ b.clock := by
  intro timestamp hadded
  cases hstep with
  | append hnext hold =>
      obtain rfl := Option.some.inj hadded
      exact BitVec.le_trans hold (BitVec.le_trans h.latest_le hpast)
  | @advance sender price timestamp' priceId hnext hnew hmatch =>
      obtain rfl := Option.some.inj hadded
      simpa [PriceBook.latest, PriceBook.store] using h.latest_le
  | idle hadds =>
      rw [hadds] at hadded
      cases hadded
  | _ => cases hadded

/-! ## Agreement with the oracle -/

/-- The latest price is the oracle's. -/
def Synced (b : PriceBook) : Prop := b.latest.price = b.oraclePrice

/-- Without direct updates of the oracle, the agreement is lost only by replacing the latest
price. -/
lemma Synced.step (h : b.Synced) (hnumbered : b.Numbered) (hstep : Step b a b')
    (hdirect : a.isDirectSetPrice = false)
    (hupdate : ∀ update ∈ a.updatedPrice, update.1 = b.latestPriceId → update.2 = b.oraclePrice) :
    b'.Synced := by
  cases hstep with
  | @append sender price timestamp priceId hnext hold =>
      have hlatest : (b.store priceId price timestamp).latest = b.latest :=
        hnumbered.store_latest hnext
      exact (congrArg PriceInfo.price hlatest).trans h
  | advance => simp [Synced, PriceBook.latest, PriceBook.store]
  | catchUp => simp [Synced, PriceBook.latest, PriceBook.store]
  | @revise sender priceId price hprice hdefined =>
      have hvalue := hupdate (priceId, price) rfl
      by_cases hlatest : priceId = b.latestPriceId
      · subst hlatest
        have heq := hvalue rfl
        simpa [Synced, PriceBook.latest] using heq
      · have hsame : Function.update b.prices priceId ⟨price, (b.prices priceId).timestamp⟩
            b.latestPriceId = b.latest :=
          Function.update_of_ne (fun heq => hlatest heq.symm) _ _
        exact (congrArg PriceInfo.price hsame).trans h
  | quote => cases hdirect
  | wait | idle => exact h

/-- Conversely, an update that keeps the agreement writes the oracle's price, if it is one of the
latest price. -/
lemma updatedPrice_eq (h : b'.Synced) (hstep : Step b a b') :
    ∀ update ∈ a.updatedPrice, update.1 = b.latestPriceId → update.2 = b.oraclePrice := by
  intro update hupdate hlatest
  cases hstep with
  | @revise sender priceId price hprice hdefined =>
      obtain rfl := Option.some.inj hupdate
      obtain rfl : priceId = b.latestPriceId := hlatest
      simpa [Synced, PriceBook.latest] using h
  | idle hadds hupdates =>
      rw [hupdates] at hupdate
      cases hupdate
  | _ => cases hupdate

end PriceBook

/-! ## Runs -/

namespace PricerWorld

variable {ω φ : Type} [IRWAOracleSetter ω φ] {w₀ w s : PricerWorld ω φ}
  {tr : List (Transition (PricerWorld ω φ) (PricerAction φ))}

/-- No price is added under a timestamp from the future. -/
def AddsFromPast (t : Transition (PricerWorld ω φ) (PricerAction φ)) : Prop :=
  ∀ timestamp ∈ t.label.addedTimestamp, timestamp ≤ t.pre.timestamp

instance (t : Transition (PricerWorld ω φ) (PricerAction φ)) : Decidable (AddsFromPast t) :=
  Option.decidableForallMem _

/-- An update of the latest price writes the oracle's price. -/
def UpdatesInSync (t : Transition (PricerWorld ω φ) (PricerAction φ)) : Prop :=
  ∀ update ∈ t.label.updatedPrice, update.1 = t.pre.pricer.latestPriceId →
    update.2 = t.pre.getPriceData.1

instance (t : Transition (PricerWorld ω φ) (PricerAction φ)) : Decidable (UpdatesInSync t) :=
  Option.decidableForallMem _

lemma Deployed.numbered (h : w.Deployed) : w.book.Numbered := by
  obtain ⟨hids, hcurrent, hlatest, -⟩ := h.book
  refine ⟨?_, ?_, fun id hid => ?_⟩
  · rw [hids, hcurrent]
    rfl
  · rw [hids, hlatest]
    exact List.mem_singleton_self 1
  · rw [hids] at hid
    rw [List.mem_singleton.mp hid, hcurrent]

lemma Deployed.latest (h : w.Deployed) :
    w.book.latest = ⟨w.book.oraclePrice, w.book.oracleTimestamp⟩ := by
  obtain ⟨-, -, hlatest, hentry, -⟩ := h.book
  rw [PriceBook.latest, hlatest, hentry]

lemma Deployed.ordered (h : w.Deployed) : w.book.Ordered := by
  obtain ⟨hids, -, hlatest, -⟩ := h.book
  refine ⟨?_, fun id hid => ?_⟩
  · rw [h.latest]
    exact BitVec.le_refl _
  · rw [hids] at hid
    rw [PriceBook.latest, hlatest, List.mem_singleton.mp hid]
    exact BitVec.le_refl _

/-- In every state of a run the ids are in order and the oracle was last updated in the past. -/
lemma numbered_past (hdeployed : w₀.Deployed) (hrun : Run Step w₀ tr w)
    (hs : Run.Visits tr w s) : s.book.Numbered ∧ s.book.Past := by
  obtain ⟨-, -, -, -, hpast⟩ := hdeployed.book
  refine hrun.invariant_visits (P := fun s => s.book.Numbered ∧ s.book.Past)
    ⟨hdeployed.numbered, hpast⟩ (fun t _ hpre hstep => ?_) hs
  exact ⟨hpre.1.step hstep.book, hpre.2.step hstep.book⟩

/-- **The pointer never goes back in time.**  In all states of a run the latest price is the
latest one on record and no later than the oracle's, and no step moves the pointer back, exactly
if no price was added under a timestamp from the future. -/
theorem ordered_iff (hdeployed : w₀.Deployed) (hrun : Run Step w₀ tr w) :
    ((∀ s, Run.Visits tr w s → s.book.Ordered) ∧
        ∀ t ∈ tr, t.pre.book.latest.timestamp ≤ t.post.book.latest.timestamp) ↔
      ∀ t ∈ tr, AddsFromPast t := by
  constructor
  · rintro ⟨hordered, -⟩ t ht
    have hstep := hrun.step_of_mem ht
    obtain ⟨-, hpast⟩ := numbered_past hdeployed hrun (Run.visits_pre ht)
    exact PriceBook.addedTimestamp_le (hordered t.post (Run.visits_post ht)) hpast hstep.book
  · intro hadded
    have hstep_ordered : ∀ t ∈ tr, t.pre.book.Ordered → t.pre.Step t.label t.post →
        t.post.book.Ordered ∧
          t.pre.book.latest.timestamp ≤ t.post.book.latest.timestamp := by
      intro t ht hpre hstep
      obtain ⟨hnumbered, hpast⟩ := numbered_past hdeployed hrun (Run.visits_pre ht)
      exact hpre.step hnumbered hpast hstep.book (hadded t ht)
    have hordered : ∀ s, Run.Visits tr w s → s.book.Ordered := fun s hs =>
      hrun.invariant_visits (P := fun s => s.book.Ordered) hdeployed.ordered
        (fun t ht hpre hstep => (hstep_ordered t ht hpre hstep).1) hs
    refine ⟨hordered, fun t ht => ?_⟩
    have hstep := hrun.step_of_mem ht
    exact (hstep_ordered t ht (hordered t.pre (Run.visits_pre ht)) hstep).2

/-- While the prices agree, `addPrice` passes the pricer's comparison with the oracle. -/
lemma addPrice_ne_latestPriceMismatch (hnumbered : w.book.Numbered) (hsynced : w.book.Synced)
    (sender : Address) (price timestamp : Uint256) :
    PricerWithOracle.addPrice w.pricer w.oracle w.feed w.self w.timestamp sender price timestamp ≠
      .error (.custom .latestPriceMismatch) := by
  intro h
  simp only [PricerWithOracle.addPrice, AccessControl.checkRole, bind_eq_error, revertIf_eq_error,
    Revert.custom.injEq, reduceCtorEq, and_false, false_or] at h
  obtain ⟨_, -, _, -, hcount | ⟨priceId, hnext, hstore | ⟨_, hstore, hadd⟩⟩⟩ := h
  · cases toUint256_eq_error hcount
  · cases Pricer.store_eq_error hstore
  · rw [checkedAdd_eq_ok] at hnext
    obtain ⟨-, rfl⟩ := Pricer.store_eq_ok.mp hstore
    have hlatest : (w.book.store priceId price timestamp).latest.price = w.book.oraclePrice := by
      rw [hnumbered.store_latest hnext]
      exact hsynced
    split at hadd
    · simp only [bind_eq_error, PricerWithOracle.updateOraclePrice, revertIf_eq_error,
        pure_ne_error, and_false, exists_false, or_false] at hadd
      rcases hadd with ⟨hmismatch, -⟩ | ⟨_, -, hset⟩
      · exact hmismatch hlatest
      · exact IRWAOracleSetter.setPrice_ne_latestPriceMismatch _ _ _ _ _ hset
    · exact pure_ne_error hadd

/-- **Pricer and oracle in sync.**  While only the pricer sets the oracle's price, the latest price
is the oracle's and no `addPrice` fails with a mismatch in all states of a run, exactly if no
`updatePrice` replaces the latest price by another one. -/
theorem synced_iff (hdeployed : w₀.Deployed) (hrun : Run Step w₀ tr w)
    (hdirect : ∀ t ∈ tr, t.label.isDirectSetPrice = false) :
    (∀ s, Run.Visits tr w s → s.pricer.getLatestPrice = s.getPriceData.1 ∧
        ∀ sender price timestamp, PricerWithOracle.addPrice s.pricer s.oracle s.feed s.self
          s.timestamp sender price timestamp ≠ .error (.custom .latestPriceMismatch)) ↔
      ∀ t ∈ tr, UpdatesInSync t := by
  constructor
  · intro hsynced t ht
    have hstep := hrun.step_of_mem ht
    have hpost : t.post.book.Synced := (hsynced t.post (Run.visits_post ht)).1
    exact PriceBook.updatedPrice_eq hpost hstep.book
  · intro hupdate s hs
    have hsynced : s.book.Synced :=
      hrun.invariant_visits (P := fun s => s.book.Synced)
        (congrArg PriceInfo.price hdeployed.latest) (fun t ht hpre hstep => by
          obtain ⟨hnumbered, -⟩ := numbered_past hdeployed hrun (Run.visits_pre ht)
          exact hpre.step hnumbered hstep.book (hdirect t ht) (hupdate t ht)) hs
    obtain ⟨hnumbered, -⟩ := numbered_past hdeployed hrun hs
    exact ⟨hsynced, addPrice_ne_latestPriceMismatch hnumbered hsynced⟩

end PricerWorld

/-! ## A pricer over the rate-check oracle -/

namespace PricerSample

/-- The account that holds every role. -/
def operator : Address := 0x0A

def pricerAddress : Address := 0x60

def oracle : RWAOracleRateCheck :=
  (RWAOracleRateCheck.deploy operator 1000000 operator operator
    1000000000000000000).toOption.get (by decide)

def pricer : Pricer :=
  (PricerWithOracle.deploy operator operator operator oracle).toOption.get (by decide)

def world : PricerWorld RWAOracleRateCheck Unit where
  oracle := oracle
  feed := ()
  timestamp := 1000000
  self := pricerAddress
  pricer := pricer

lemma world_deployed : world.Deployed := ⟨by decide, operator, operator, operator, rfl⟩

/-- The pricer becomes a setter of the oracle.  A day later it adds a new price and an old one,
and corrects the first one. -/
def dailyPrice : List (PricerAction Unit) := [
  .oracle (.access operator (.grantRole .setterRole pricerAddress)),
  .oracle (.wait 1086400),
  .pricer operator (.addPrice 1010000000000000000 1086400),
  .pricer operator (.addPrice 990000000000000000 900000),
  .pricer operator (.updatePrice 1 1000000000000000001)]

/-- On the day after, the oracle is updated directly and the pricer catches up. -/
def directUpdate : List (PricerAction Unit) := dailyPrice ++ [
  .oracle (.wait 1172800),
  .oracle (.setPrice operator 1020000000000000000),
  .pricer operator .addLatestOraclePrice]

/-- A price is added under a timestamp from the future, and the pricer catches up with the
oracle. -/
def futurePrice : List (PricerAction Unit) := [
  .oracle (.access operator (.grantRole .setterRole pricerAddress)),
  .oracle (.wait 1086400),
  .pricer operator (.addPrice 1010000000000000000 2000000),
  .pricer operator .addLatestOraclePrice]

/-- The latest price is corrected. -/
def correctedPrice : List (PricerAction Unit) := [
  .oracle (.access operator (.grantRole .setterRole pricerAddress)),
  .pricer operator (.updatePrice 1 1005000000000000000),
  .oracle (.wait 1086400)]

end PricerSample

namespace PricerWorld

open PricerSample in
theorem ordered_sample :
    (∀ s, Run.Visits (playTrace next world directUpdate) (play next world directUpdate) s →
        s.book.Ordered) ∧
      ∀ t ∈ playTrace next world directUpdate,
        t.pre.book.latest.timestamp ≤ t.post.book.latest.timestamp :=
  (ordered_iff world_deployed (run_play (fun _ _ _ => step_of_next) _ _)).mpr (by decide +kernel)

open PricerSample in
/-- The price from the future is later than the oracle's, and catching up with the oracle moves the
pointer back to an earlier price. -/
theorem futurePrice_moves_back :
    world.Deployed ∧
      Run Step world (playTrace next world futurePrice) (play next world futurePrice) ∧
      (¬ ∀ t ∈ playTrace next world futurePrice,
        t.post.book.latest.timestamp ≤ t.post.book.oracleTimestamp) ∧
      (∃ id ∈ (play next world futurePrice).book.priceIds,
        (play next world futurePrice).book.latest.timestamp <
          ((play next world futurePrice).book.prices id).timestamp) ∧
      ¬ ∀ t ∈ playTrace next world futurePrice,
        t.pre.book.latest.timestamp ≤ t.post.book.latest.timestamp := by
  refine ⟨world_deployed, run_play (fun _ _ _ => step_of_next) _ _, by decide +kernel,
    ⟨2, by decide +kernel, by decide +kernel⟩, by decide +kernel⟩

open PricerSample in
theorem synced_sample :
    (play next world dailyPrice).pricer.getLatestPrice = 1010000000000000000 ∧
      ∀ s, Run.Visits (playTrace next world dailyPrice) (play next world dailyPrice) s →
        s.pricer.getLatestPrice = s.getPriceData.1 ∧
          ∀ sender price timestamp, PricerWithOracle.addPrice s.pricer s.oracle s.feed s.self
            s.timestamp sender price timestamp ≠ .error (.custom .latestPriceMismatch) :=
  ⟨by decide +kernel, (synced_iff world_deployed (run_play (fun _ _ _ => step_of_next) _ _)
    (by decide +kernel)).mpr (by decide +kernel)⟩

open PricerSample in
/-- The corrected price is no longer the oracle's, and the price of the next day is rejected. -/
theorem correctedPrice_mismatch :
    world.Deployed ∧
      Run Step world (playTrace next world correctedPrice) (play next world correctedPrice) ∧
      (∀ t ∈ playTrace next world correctedPrice, t.label.isDirectSetPrice = false) ∧
      (play next world correctedPrice).pricer.getLatestPrice ≠
        (play next world correctedPrice).getPriceData.1 ∧
      ((play next world correctedPrice).exec
        (.pricer operator (.addPrice 1010000000000000000 1086400))).map (fun _ => ()) =
          .error (.custom .latestPriceMismatch) := by
  refine ⟨world_deployed, run_play (fun _ _ _ => step_of_next) _ _, by decide +kernel,
    by decide +kernel, by decide +kernel⟩

end PricerWorld

end BrivoUsbs
