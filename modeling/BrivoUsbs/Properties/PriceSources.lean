import BrivoUsbs.Contracts.OracleSystem
import BrivoUsbs.Properties.LatestPrice
import BrivoUsbs.Properties.Outsiders
import BrivoUsbs.Properties.RateCheckOracle

/-!
# Where the prices of settlements come from

The manager settles at whatever its pricer answers for an id.  Over a `PricerWithOracle` that
answer has a source: the oracle had this price when it was put on record, or a holder of
`PRICE_UPDATE_ROLE` went past the oracle, who may date a price back or replace one on record
(`Handed`).

The limits of the oracle thus bound the settlements as well, but for the prices that were handed in.
`settled_within_rate` says how far they can be from the price the oracle was constructed with.
-/

namespace BrivoUsbs

/-! ## Entries of the price book -/

namespace PriceBook

variable {φ : Type} {b b' : PriceBook} {a : PricerAction φ}

/-- What an action does to the entry under an id. -/
inductive Enters (b b' : PriceBook) (priceId : Uint256) : PricerAction φ → Prop
  | kept {a : PricerAction φ} (hkept : b'.prices priceId = b.prices priceId)
      (hids : priceId ∈ b'.priceIds → priceId ∈ b.priceIds) : Enters b b' priceId a
  /-- It becomes the price the oracle has now. -/
  | quoted {a : PricerAction φ} (hquoted : (b'.prices priceId).price = b'.oraclePrice) :
      Enters b b' priceId a
  | older {sender : Address} {price timestamp : Uint256}
      (hnext : priceId.toNat = b.currentPriceId.toNat + 1)
      (holder : timestamp ≤ b.latest.timestamp)
      (hentry : (b'.prices priceId).price = price) :
      Enters b b' priceId (.pricer sender (.addPrice price timestamp))
  | revised {sender : Address} {price : Uint256}
      (hentry : (b'.prices priceId).price = price) :
      Enters b b' priceId (.pricer sender (.updatePrice priceId price))

/-- A new entry leaves those under other ids alone. -/
lemma store_of_ne {priceId next : Uint256} (b : PriceBook) (price timestamp : Uint256)
    (hne : priceId ≠ next) :
    (b.store next price timestamp).prices priceId = b.prices priceId ∧
      (priceId ∈ (b.store next price timestamp).priceIds → priceId ∈ b.priceIds) := by
  refine ⟨Function.update_of_ne hne _ _, fun hmem => ?_⟩
  rcases List.mem_append.mp hmem with hmem | hmem
  · exact hmem
  · exact absurd (List.mem_singleton.mp hmem) hne

lemma Step.enters (h : Step b a b') (hnumbered : b.Numbered) (priceId : Uint256) :
    Enters b b' priceId a := by
  cases h with
  | @append sender price timestamp next hnext hold =>
      by_cases hsame : priceId = next
      · subst hsame
        rw [hnumbered.store_latest hnext] at hold
        exact .older hnext hold (congrArg PriceInfo.price (b.store_prices_self ..))
      · obtain ⟨hkept, hids⟩ := b.store_of_ne price timestamp hsame
        exact .kept hkept hids
  | @advance sender price timestamp next =>
      by_cases hsame : priceId = next
      · subst hsame
        exact .quoted (congrArg PriceInfo.price (b.store_prices_self ..))
      · obtain ⟨hkept, hids⟩ := b.store_of_ne price timestamp hsame
        exact .kept hkept hids
  | @catchUp sender next =>
      by_cases hsame : priceId = next
      · subst hsame
        exact .quoted (congrArg PriceInfo.price (b.store_prices_self ..))
      · obtain ⟨hkept, hids⟩ := b.store_of_ne b.oraclePrice b.oracleTimestamp hsame
        exact .kept hkept hids
  | @revise sender updated price =>
      by_cases hsame : priceId = updated
      · subst hsame
        refine .revised ?_
        dsimp only
        rw [Function.update_self]
      · exact .kept (Function.update_of_ne hsame ..) id
  | quote => exact .kept rfl id
  | wait => exact .kept rfl id
  | idle => exact .kept rfl id

end PriceBook

namespace PricerWorld

variable {ω φ : Type} [IRWAOracleSetter ω φ] {w w' : PricerWorld ω φ} {a : PricerAction φ}
  {sender : Address} {price timestamp priceId : Uint256}

lemma execPricer_addPrice_role (h : w.execPricer sender (.addPrice price timestamp) = .ok w') :
    w.pricer.access.hasRole .priceUpdateRole sender = true := by
  simp only [execPricer, PricerWithOracle.addPrice, bind_eq_ok, AccessControl.checkRole_eq_ok,
    exists_const] at h
  obtain ⟨_, ⟨hrole, -⟩, -⟩ := h
  exact hrole

lemma execPricer_updatePrice_role (h : w.execPricer sender (.updatePrice priceId price) = .ok w') :
    w.pricer.access.hasRole .priceUpdateRole sender = true := by
  simp only [execPricer, Pricer.updatePrice, bind_eq_ok, AccessControl.checkRole_eq_ok,
    exists_const] at h
  obtain ⟨_, ⟨hrole, -⟩, -⟩ := h
  exact hrole

/-- A new pricer has no other price than its first. -/
lemma Deployed.prices_eq_zero (h : w.Deployed) (hne : priceId ≠ 1) :
    (w.pricer.prices priceId).price = 0 := by
  obtain ⟨-, deployer, admin, pricer, hdeploy⟩ := h
  simp only [PricerWithOracle.deploy, bind_eq_ok, checkedAdd_eq_ok, Pricer.store_eq_ok,
    pure_eq_ok] at hdeploy
  obtain ⟨first, hfirst, _, ⟨-, rfl⟩, hstored⟩ := hdeploy
  obtain rfl : first = 1 := BitVec.eq_of_toNat_eq (by rw [hfirst]; rfl)
  rw [← hstored]
  simp only [Pricer.stored, Pricer.deploy]
  rw [Function.update_of_ne hne]

end PricerWorld

/-! ## Settlements -/

/-- The price at which an event settles a deposit or a redemption. -/
def HubEvent.settledPrice : HubEvent → Option Uint256
  | .mintCompleted _ _ _ _ price _ => some price
  | .redemptionCompleted _ _ _ _ price => some price
  | _ => none

/-- The price id of the entry that an event settles. -/
def HubEvent.settledPriceId (b : Books) : HubEvent → Uint256
  | .mintCompleted _ id _ _ _ _ => (b.deposits id).priceId
  | .redemptionCompleted _ id _ _ _ => (b.redemptions id).priceId
  | _ => 0

/-- A redemption is settled at zero. -/
def HubEvent.worthless : HubEvent → Prop
  | .redemptionCompleted _ _ _ _ price => price = 0
  | _ => False

namespace World

variable {κ : Type} [IERC20 κ] {w w' : World κ} {a : Action κ} {e : HubEvent}
  {es : List HubEvent} {price : Uint256}

omit [IERC20 κ] in
/-- A transaction that settles does nothing that would take a role. -/
lemma isOpen_of_settledPrice (h : Attributed a e) (hprice : price ∈ e.settledPrice)
    {e' : HubEvent} (h' : Attributed a e') : e'.isOpen = true := by
  cases h with
  | claimMint =>
      cases h'
      rfl
  | claimRedemption =>
      cases h'
      rfl
  | _ => cases hprice

omit [IERC20 κ] in
/-- There is no mint at zero, for it would divide by the price. -/
lemma worthless_of_zero {b b' : Books} (h : Books.Step w.prices b e b')
    (hprice : price ∈ e.settledPrice) (hzero : price = 0) : e.worthless := by
  cases h with
  | mintCompleted hset huser hanswer hdefined =>
      obtain rfl := Option.some.inj hprice
      exact absurd hzero hdefined
  | redemptionCompleted hset hanswer =>
      obtain rfl := Option.some.inj hprice
      exact hzero
  | _ => cases hprice

/-- The manager settles at the prices its pricer answers for the price ids the entries had before
the transaction, and it does not mint at zero. -/
lemma Step.settledPrice (h : w.Step a w') (hlog : w'.log = w.log ++ es) :
    ∀ e ∈ es, ∀ price ∈ e.settledPrice,
      (price = 0 → e.worthless) ∧ w.prices (e.settledPriceId w.books) = .ok price := by
  intro e he price hprice
  obtain ⟨es', hlog', hpath⟩ := h.emits
  obtain rfl : es = es' := List.append_cancel_left (hlog.symm.trans hlog')
  have hattributed : ∀ e ∈ es, Attributed a e := hpath.labels fun b e b' hstep => hstep.2
  have hstart : ReleasedBooks w [] w.books := ⟨.refl, .refl, by simp⟩
  have hreleased : ReleasedBooks w es w'.books := by
    refine hpath.accumulate hstart fun es b e' b' he' hbefore hstep => ?_
    exact hbefore.step hstep.1
      (isOpen_of_settledPrice (hattributed e he) hprice (hattributed e' he'))
  have hdefined : ∀ e ∈ es, ∀ price ∈ e.settledPrice, price = 0 → e.worthless :=
    hpath.labels fun b e b' hstep price hprice => worthless_of_zero hstep.1 hprice
  refine ⟨hdefined e he price hprice, ?_⟩
  have hentry := hreleased.released e he
  cases e with
  | mintCompleted user id out amount price' priceId =>
      obtain rfl := Option.some.inj hprice
      obtain ⟨hentry, -, hanswer⟩ := hentry
      rw [HubEvent.settledPriceId, hentry]
      exact hanswer
  | redemptionCompleted user id amount net price' =>
      obtain rfl := Option.some.inj hprice
      obtain ⟨priceId, hentry, -, hanswer⟩ := hentry
      rw [HubEvent.settledPriceId, hentry]
      exact hanswer
  | _ => cases hprice

end World

namespace OracleSystem

variable {κ ω φ : Type} {s₀ s s' : OracleSystem κ ω φ}
  {tr before : List (Transition (OracleSystem κ ω φ) (Action κ φ))} {a : Action κ φ}
  {priceId price : Uint256}

/-- A holder of `PRICE_UPDATE_ROLE` puts a price on record past the oracle. -/
inductive Handed (priceId price : Uint256) :
    Transition (OracleSystem κ ω φ) (Action κ φ) → Prop
  /-- A new one that is dated no later than the latest. -/
  | older {s s' : OracleSystem κ ω φ} {sender : Address} {timestamp : Uint256}
      (hrole : s.pricer.pricer.access.hasRole .priceUpdateRole sender = true)
      (hnext : priceId.toNat = s.pricer.pricer.currentPriceId.toNat + 1)
      (holder : timestamp ≤ (s.pricer.pricer.prices s.pricer.pricer.latestPriceId).timestamp) :
      Handed priceId price ⟨s, .pricer (.pricer sender (.addPrice price timestamp)), s'⟩
  | revised {s s' : OracleSystem κ ω φ} {sender : Address}
      (hrole : s.pricer.pricer.access.hasRole .priceUpdateRole sender = true) :
      Handed priceId price ⟨s, .pricer (.pricer sender (.updatePrice priceId price)), s'⟩

variable [IRWAOracleSetter ω φ]

/-- Where a price under an id comes from, after the transitions `before` that lead to `s`. -/
inductive Sourced (before : List (Transition (OracleSystem κ ω φ) (Action κ φ)))
    (s : OracleSystem κ ω φ) (priceId price : Uint256) : Prop
  /-- The manager finds a zero under an id the pricer has not issued. -/
  | unissued (hid : priceId ∉ s.pricer.pricer.priceIds) (hzero : price = 0)
  | quoted {x : OracleSystem κ ω φ} (hvisits : Run.Visits before s x)
      (hquoted : x.pricer.getPriceData.1 = price)
  | handed {t : Transition (OracleSystem κ ω φ) (Action κ φ)} (ht : t ∈ before)
      (hhanded : Handed priceId price t)

/-- Every entry on record has a source. -/
def RecordSourced (before : List (Transition (OracleSystem κ ω φ) (Action κ φ)))
    (s : OracleSystem κ ω φ) : Prop :=
  ∀ priceId, Sourced before s priceId (s.pricer.pricer.getPrice priceId)

lemma Sourced.later (h : Sourced before s priceId price)
    (hids : priceId ∈ s'.pricer.pricer.priceIds → priceId ∈ s.pricer.pricer.priceIds) :
    Sourced (before ++ [⟨s, a, s'⟩]) s' priceId price := by
  cases h with
  | unissued hid hzero => exact .unissued (fun hmem => hid (hids hmem)) hzero
  | quoted hvisits hquoted => exact .quoted (Run.visits_later hvisits) hquoted
  | handed ht hhanded => exact .handed (List.mem_append_left _ ht) hhanded

lemma recordSourced_start (hdeployed : s₀.pricer.Deployed) : RecordSourced [] s₀ := by
  intro priceId
  obtain ⟨hids, -, -, hentry, -⟩ := hdeployed.book
  by_cases hfirst : priceId = 1
  · subst hfirst
    exact .quoted (.inl rfl) (congrArg PriceInfo.price hentry).symm
  · refine .unissued (fun hmem => hfirst ?_) (hdeployed.prices_eq_zero hfirst)
    change priceId ∈ s₀.pricer.book.priceIds at hmem
    rw [hids] at hmem
    exact List.mem_singleton.mp hmem

variable [IERC20 κ]

/-- One more step: an entry is as it was, or the step is its source. -/
lemma RecordSourced.step (h : RecordSourced before s) (hnumbered : s.pricer.book.Numbered)
    (hstep : s.Step a s') : RecordSourced (before ++ [⟨s, a, s'⟩]) s' := by
  intro priceId
  rcases hstep.pricer with hsame | ⟨action, rfl, hpricer⟩
  · rw [hsame]
    exact (h priceId).later fun hmem => hsame ▸ hmem
  · have hexec := hpricer.2
    cases hpricer.book.enters hnumbered priceId with
    | kept hkept hids =>
        have hprice : s'.pricer.pricer.getPrice priceId = s.pricer.pricer.getPrice priceId :=
          congrArg PriceInfo.price hkept
        rw [hprice]
        exact (h priceId).later hids
    | quoted hquoted => exact .quoted (.inl rfl) hquoted.symm
    | @older sender price timestamp hnext holder hentry =>
        have hprice : s'.pricer.pricer.getPrice priceId = price := hentry
        rw [hprice]
        have hrole := PricerWorld.execPricer_addPrice_role hexec
        exact .handed List.mem_concat_self (.older hrole hnext holder)
    | @revised sender price hentry =>
        have hprice : s'.pricer.pricer.getPrice priceId = price := hentry
        rw [hprice]
        have hrole := PricerWorld.execPricer_updatePrice_role hexec
        exact .handed List.mem_concat_self (.revised hrole)

lemma recordSourced (hdeployed : s₀.pricer.Deployed) (hrun : Run Step s₀ tr s) :
    RecordSourced tr s := by
  have hboth : s.pricer.book.Numbered ∧ RecordSourced tr s := by
    induction hrun using Run.induction with
    | nil => exact ⟨hdeployed.numbered, recordSourced_start hdeployed⟩
    | snoc tr s a s' _ hstep ih =>
        obtain ⟨hnumbered, hsourced⟩ := ih
        refine ⟨?_, hsourced.step hnumbered hstep⟩
        rcases hstep.pricer with hsame | ⟨action, -, hpricer⟩
        · rwa [hsame]
        · exact hnumbered.step hpricer.book
  exact hboth.2

/-- The manager, asking this pricer, settles at its prices. -/
lemma Step.settledPrice (h : s.Step a s') (hasked : s.world.hub.params.pricer = s.pricer.self)
    {es : List HubEvent} (hlog : s'.world.log = s.world.log ++ es) :
    ∀ e ∈ es, ∀ price ∈ e.settledPrice,
      (price = 0 → e.worthless) ∧
        s.pricer.pricer.getPrice (e.settledPriceId s.world.books) = price := by
  obtain ⟨hcaller, -, hexec⟩ := h
  cases a with
  | world action =>
      simp only [exec, bind_eq_ok, pure_eq_ok] at hexec
      obtain ⟨world', hworld, rfl⟩ := hexec
      have hstep : s.world.Step action world' :=
        ⟨fun caller hmem => ⟨(hcaller caller hmem).1, (hcaller caller hmem).2.1⟩, hworld⟩
      intro e he price hprice
      obtain ⟨hzero, hanswer⟩ := hstep.settledPrice hlog e he price hprice
      refine ⟨hzero, ?_⟩
      rw [World.prices, RWAHub.prices, askPrice, hasked, s.listed] at hanswer
      exact Except.ok.inj hanswer
  | pricer action =>
      simp only [exec, bind_eq_ok, pure_eq_ok] at hexec
      obtain ⟨_, -, rfl⟩ := hexec
      obtain rfl : es = [] := List.append_right_eq_self.mp hlog.symm
      simp

/-- What is so of every settlement the manager makes while it asks this pricer: of the transitions
before it, the state they lead to, the event, and the price id and the price. -/
def Settles (tr : List (Transition (OracleSystem κ ω φ) (Action κ φ)))
    (P : List (Transition (OracleSystem κ ω φ) (Action κ φ)) → OracleSystem κ ω φ → HubEvent →
      (priceId price : Uint256) → Prop) : Prop :=
  ∀ before t after, tr = before ++ t :: after →
    t.pre.world.hub.params.pricer = t.pre.pricer.self →
    ∀ es, t.post.world.log = t.pre.world.log ++ es → ∀ e ∈ es, ∀ price ∈ e.settledPrice,
      P before t.pre e (e.settledPriceId t.pre.world.books) price

/-- **Every settlement price has a source**, over any oracle. -/
lemma settles_sourced (hdeployed : s₀.pricer.Deployed) (hrun : Run Step s₀ tr s) :
    Settles tr fun before s e priceId price =>
      (price = 0 → e.worthless) ∧ Sourced before s priceId price := by
  intro before t after htr hasked es hlog e he price hprice
  obtain ⟨hbefore, hstep⟩ := hrun.split htr
  obtain ⟨hzero, rfl⟩ := hstep.settledPrice hasked hlog e he price hprice
  exact ⟨hzero, recordSourced hdeployed hbefore _⟩

/-! ## The limits of the rate-check oracle -/

/-- The clock only moves forward. -/
lemma Step.timestamp_le (h : s.Step a s') :
    s.pricer.timestamp.toNat ≤ s'.pricer.timestamp.toNat := by
  rcases h.pricer with hsame | ⟨action, -, hpricer⟩
  · rw [hsame]
  · rcases hpricer.oracle with hsame | ⟨oracleAction, horacle⟩
    · rw [hsame]
    · exact (OracleWorld.Step.getPriceData horacle).1

end OracleSystem

namespace RateCheckWorld

open OracleWorld (Step)

variable {w₀ w w' : RateCheckWorld} {a : OracleAction Unit} {n : ℕ}

/-- A price that is at most as many changes of 1% away from another one as there were windows. -/
structure WithinRate (initialprice : Int256) (windows : ℕ) (price : Uint256) : Prop where
  lower : initialprice.toInt * 99 ^ windows ≤ price.toNat * 100 ^ windows
  upper : price.toNat * 100 ^ windows ≤ initialprice.toInt * 101 ^ windows

lemma Drift.step (h : Drift w₀ n w) (hstep : w.Step a w') : ∃ n', Drift w₀ n' w' := by
  cases hset : a.isSetPrice with
  | false => exact ⟨n, h.frame hstep hset⟩
  | true =>
      cases a with
      | setPrice sender price => exact ⟨n + 1, h.setPrice hstep⟩
      | _ => cases hset

/-- Each update took a window, so the time that has passed bounds their number. -/
lemma Drift.le_windows (h : Drift w₀ n w) {now : ℕ} (hnow : w.timestamp.toNat ≤ now) :
    n ≤ (now - w₀.timestamp.toNat) / (23 * 3600) := by
  rw [Nat.le_div_iff_mul_le (by decide)]
  have helapsed := h.elapsed
  have hpast := h.past
  omega

lemma Drift.withinRate {windows : ℕ} (h : Drift w₀ n w) (hle : n ≤ windows) :
    WithinRate w₀.oracle.rwaPrice windows w.getPriceData.1 := by
  have hpositive := h.positive
  have hupper := h.upper
  have hprice : (w.getPriceData.1.toNat : ℤ) = w.oracle.rwaPrice.toInt :=
    toNat_of_toInt_nonneg hpositive.le
  constructor
  · rw [hprice]
    exact Rounding.geometric_le (by decide) (by decide) h.lower (by linarith) hle
  · rw [hprice]
    have hnegated : -w₀.oracle.rwaPrice.toInt * 101 ^ n ≤ -w.oracle.rwaPrice.toInt * 100 ^ n := by
      linarith
    have hwindows := Rounding.geometric_le (by decide) (by decide) hnegated (by linarith) hle
    linarith

end RateCheckWorld

namespace OracleSystem

open RateCheckWorld (WithinRate Drift)

variable {κ : Type} [IERC20 κ] {s₀ s x : OracleSystem κ RWAOracleRateCheck Unit}
  {tr : List (Transition (OracleSystem κ RWAOracleRateCheck Unit) (Action κ Unit))}
  {initialprice : Int256}

/-- The windows between two updates that fit between two states. -/
def windows (s₀ s : OracleSystem κ RWAOracleRateCheck Unit) : ℕ :=
  (s.world.timestamp.toNat - s₀.world.timestamp.toNat) / (23 * 3600)

lemma drift_visits (horacle : RateCheckWorld.Deployed s₀.pricer.toOracleWorld initialprice)
    (hrun : Run Step s₀ tr s) (hvisits : Run.Visits tr s x) :
    ∃ n, Drift s₀.pricer.toOracleWorld n x.pricer.toOracleWorld := by
  refine hrun.invariant_visits
    (P := fun x => ∃ n, Drift s₀.pricer.toOracleWorld n x.pricer.toOracleWorld)
    ⟨0, RateCheckWorld.Deployed.drift horacle⟩ (fun t _ hpre hstep => ?_) hvisits
  rcases hstep.pricer with hsame | ⟨action, -, hpricer⟩
  · rwa [hsame]
  · rcases hpricer.oracle with hsame | ⟨oracleAction, hmoved⟩
    · rwa [hsame]
    · obtain ⟨n, hdrift⟩ := hpre
      exact hdrift.step hmoved

/-- **Settlement prices move at the rate of the oracle.**  In every run from the construction of the
rate-check oracle and of the pricer over it, the manager settles at prices that are at most 1% for
every 23 hours away from the initial one, except at what a holder of `PRICE_UPDATE_ROLE` has put
past the oracle under that very id, and except for redemptions at the zero of an id that was not
issued. -/
theorem settled_within_rate (hdeployed : s₀.pricer.Deployed)
    (horacle : RateCheckWorld.Deployed s₀.pricer.toOracleWorld initialprice)
    (hrun : Run Step s₀ tr s) :
    Settles tr fun before s e priceId price =>
      (e.worthless ∧ priceId ∉ s.pricer.pricer.priceIds) ∨
        (∃ t ∈ before, Handed priceId price t) ∨
        WithinRate initialprice (windows s₀ s) price := by
  intro before t after htr hasked es hlog e he price hprice
  obtain ⟨hzero, hsourced⟩ :=
    settles_sourced hdeployed hrun before t after htr hasked es hlog e he price hprice
  cases hsourced with
  | unissued hid hprice => exact .inl ⟨hzero hprice, hid⟩
  | handed ht' hhanded => exact .inr (.inl ⟨_, ht', hhanded⟩)
  | @quoted x hvisits hquoted =>
      obtain ⟨hbefore, -⟩ := hrun.split htr
      obtain ⟨n, hdrift⟩ := drift_visits horacle hbefore hvisits
      have hclock : x.pricer.timestamp.toNat ≤ t.pre.pricer.timestamp.toNat :=
        hbefore.rel_of_visits (R := fun x y => x.pricer.timestamp.toNat ≤ y.pricer.timestamp.toNat)
          (fun _ => le_rfl) le_trans (fun t ht => (hbefore.step_of_mem ht).timestamp_le) hvisits
      have hinitial : s₀.pricer.oracle.rwaPrice = initialprice := by
        obtain ⟨deployer, admin, setter, hdeploy⟩ := horacle
        simp only [RWAOracleRateCheck.deploy, bind_eq_ok, pure_eq_ok] at hdeploy
        obtain ⟨_, -, hstored⟩ := hdeploy
        rw [← hstored]
      rw [windows, t.pre.clock, s₀.clock, ← hquoted, ← hinitial]
      exact .inr (.inr (hdrift.withinRate (hdrift.le_windows hclock)))

end OracleSystem

namespace Sample

/-- The manager's pricer is one over the rate-check oracle. -/
def rateSystem : OracleSystem ERC20 RWAOracleRateCheck Unit :=
  .connect world { PricerSample.world with self := pricerAddress }

/-- A mint at the initial price and, a day later, redemptions at the new price and at one dated
back. -/
def settleDaily : List (OracleSystem.Action ERC20 Unit) := setup.map .world ++ [
  .world (.manager customer (.requestSubscription 100000000)),
  .world (.manager operator (.setPriceIdForDeposits [1] [1])),
  .world (.manager operator (.setClaimableTimestamp 1000000 [1])),
  .world (.manager customer (.claimMint [1])),
  .world (.usbs customer (.holder (.approve managerAddress 1000000000000000000000))),
  .world (.manager customer (.requestRedemption 20000000000000000000)),
  .world (.manager customer (.requestRedemption 20000000000000000000)),
  .pricer (.oracle (.access operator (.grantRole .setterRole pricerAddress))),
  .pricer (.oracle (.wait 1086400)),
  .pricer (.pricer operator (.addPrice 1010000000000000000 1086400)),
  .pricer (.pricer operator (.addPrice 2000000000000000000 900000)),
  .world (.manager operator (.setPriceIdForRedemptions [1, 2] [2, 3])),
  .world (.manager customer (.claimRedemption [1, 2]))]

end Sample

open Sample in
theorem OracleSystem.settled_within_rate_sample :
    (play next rateSystem settleDaily).world.log.filterMap HubEvent.settledPrice =
        [1000000000000000000, 1010000000000000000, 2000000000000000000] ∧
      windows rateSystem (play next rateSystem settleDaily) = 1 ∧
      Settles (playTrace next rateSystem settleDaily) fun before s e priceId price =>
        (e.worthless ∧ priceId ∉ s.pricer.pricer.priceIds) ∨
          (∃ t ∈ before, Handed priceId price t) ∨
          RateCheckWorld.WithinRate 1000000000000000000 (windows rateSystem s) price :=
  ⟨by decide +kernel, by decide +kernel,
    settled_within_rate ⟨by decide, Sample.operator, Sample.operator, Sample.operator, rfl⟩
      ⟨Sample.operator, Sample.operator, Sample.operator, rfl⟩
      (run_play (fun _ _ _ => step_of_next) _ _)⟩

end BrivoUsbs
