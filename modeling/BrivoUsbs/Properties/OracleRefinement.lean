import BrivoUsbs.Contracts.OracleSystem
import BrivoUsbs.Properties.OracleRecovery

/-!
# A pricer with an oracle is a pricer

The results on the world are about plain pricers.  They hold over a `PricerWithOracle` as well,
because the manager cannot tell the two apart: it asks for prices by their ids, and never for the
latest one.  `world_refined` says so of whole runs.  The plain pricer that stands in is called by
the same accounts in the same order, but a call of `addLatestOraclePrice` becomes one of `addPrice`
with what the oracle says.  The two differ in the pointer to the latest price only.

The oracle has to have a price to start with: the oracle's own checks keep it positive from then on,
while the constructor of the pricer takes any.
-/

namespace BrivoUsbs

/-! ## Pricers -/

namespace Pricer

variable {pricer pricer' : Pricer} {sender : Address} {id price timestamp priceId : Uint256}

/-- The pricer with another latest price. -/
def withPointer (pricer : Pricer) (latestPriceId : Uint256) : Pricer :=
  { pricer with latestPriceId := latestPriceId }

/-- The pricer with a new entry. -/
def entered (pricer : Pricer) (next price timestamp : Uint256) : Pricer :=
  { pricer.stored next price timestamp with
    log := pricer.log ++ [.priceAdded next price timestamp] }

/-- A plain pricer takes any price that is not zero, and moves its own pointer. -/
lemma addPrice_withPointer {next : Uint256} (id timestamp : Uint256)
    (hrole : pricer.access.hasRole .priceUpdateRole sender = true) (hprice : price ≠ 0)
    (hnext : next.toNat = pricer.currentPriceId.toNat + 1)
    (hroom : pricer.priceIds.length < 2 ^ 64) :
    ∃ id', (pricer.withPointer id).addPrice sender price timestamp =
      .ok ((pricer.entered next price timestamp).withPointer id') := by
  have hnext' : (checkedAdd (pricer.withPointer id).currentPriceId 1 : Tx Error Uint256) =
      .ok next := checkedAdd_eq_ok.mpr hnext
  have hrole' : (pricer.withPointer id).access.checkRole .priceUpdateRole sender = .ok () :=
    AccessControl.checkRole_eq_ok.mpr hrole
  have hstored : (pricer.withPointer id).store next price timestamp =
      .ok ((pricer.withPointer id).stored next price timestamp) := store_eq_ok.mpr ⟨hroom, rfl⟩
  rw [addPrice, hrole', ok_bind, (revertIf_eq_ok (u := ())).mpr hprice, ok_bind, hnext', ok_bind,
    hstored, ok_bind]
  exact ⟨_, rfl⟩

lemma updatePrice_withPointer (id : Uint256)
    (h : pricer.updatePrice sender priceId price = .ok pricer') :
    (pricer.withPointer id).updatePrice sender priceId price = .ok (pricer'.withPointer id) := by
  simp only [updatePrice, bind_eq_ok, AccessControl.checkRole_eq_ok, revertIf_eq_ok,
    pure_eq_ok, exists_const] at h
  obtain ⟨hrole, hprice, hdefined, rfl⟩ := h
  have hrole' : (pricer.withPointer id).access.checkRole .priceUpdateRole sender = .ok () :=
    AccessControl.checkRole_eq_ok.mpr hrole
  have hdefined' : ¬ ((pricer.withPointer id).prices priceId).price = 0 := hdefined
  rw [updatePrice, hrole', ok_bind, (revertIf_eq_ok (u := ())).mpr hprice, ok_bind,
    (revertIf_eq_ok (u := ())).mpr hdefined', ok_bind]
  rfl

end Pricer

namespace PricerWithOracle

open IRWAOracleSetter (getPriceData)

variable {ω φ : Type} [IRWAOracleSetter ω φ] {pricer pricer' : Pricer} {oracle oracle' : ω}
  {feed : φ} {self sender : Address} {blockTimestamp price timestamp id : Uint256}

lemma addPrice_plain (id : Uint256)
    (h : addPrice pricer oracle feed self blockTimestamp sender price timestamp =
      .ok (pricer', oracle')) :
    ∃ id', (pricer.withPointer id).addPrice sender price timestamp =
      .ok (pricer'.withPointer id') := by
  simp only [addPrice, bind_eq_ok, AccessControl.checkRole_eq_ok, revertIf_eq_ok, exists_const,
    checkedAdd_eq_ok, Pricer.store_eq_ok] at h
  obtain ⟨hrole, hprice, next, hnext, _, ⟨hroom, rfl⟩, h⟩ := h
  obtain ⟨id', hplain⟩ := Pricer.addPrice_withPointer id timestamp hrole hprice hnext hroom
  refine ⟨id', hplain.trans ?_⟩
  split at h
  · simp only [bind_eq_ok, pure_eq_ok, Prod.mk.injEq] at h
    obtain ⟨_, -, rfl, -⟩ := h
    rfl
  · simp only [pure_eq_ok, Prod.mk.injEq] at h
    obtain ⟨rfl, -⟩ := h
    rfl

lemma addLatestOraclePrice_plain (id : Uint256)
    (h : addLatestOraclePrice pricer oracle sender = .ok pricer')
    (hpriced : (getPriceData oracle).1 ≠ 0) :
    ∃ id', (pricer.withPointer id).addPrice sender (getPriceData oracle).1
      (getPriceData oracle).2 = .ok (pricer'.withPointer id') := by
  simp only [addLatestOraclePrice, bind_eq_ok, AccessControl.checkRole_eq_ok, revertIf_eq_ok,
    exists_const, checkedAdd_eq_ok, Pricer.store_eq_ok, pure_eq_ok] at h
  obtain ⟨hrole, -, next, hnext, _, ⟨hroom, rfl⟩, rfl⟩ := h
  exact Pricer.addPrice_withPointer id _ hrole hpriced hnext hroom

end PricerWithOracle

/-! ## Prices of the oracle -/

namespace PricerWorld

open IRWAOracleSetter (setPrice)

variable {ω φ : Type} [IRWAOracleSetter ω φ] [PositivePrices ω] {w w' : PricerWorld ω φ}
  {oracle oracle' : ω} {feed : φ} {blockTimestamp : Uint256} {sender : Address} {price : Int256}
  {a : PricerAction φ}

lemma priced_of_setPrice (h : setPrice oracle feed blockTimestamp sender price = .ok oracle') :
    (IRWAOracleSetter.getPriceData oracle').1 ≠ 0 := by
  have hpos := PositivePrices.pos_of_setPrice h
  rw [IRWAOracleSetter.getPriceData_of_setPrice h]
  rintro rfl
  exact absurd hpos (by decide)

/-- The oracle keeps having a price. -/
lemma Step.priced (h : w.Step a w') (hpriced : w.getPriceData.1 ≠ 0) :
    w'.getPriceData.1 ≠ 0 := by
  rcases h.oracle with hsame | ⟨action, horacle⟩
  · rwa [hsame]
  · rcases (OracleWorld.Step.getPriceData horacle).2 with hsame | ⟨sender, price, rfl, -, -⟩
    · rwa [hsame]
    · simp only [OracleWorld.Step, OracleWorld.exec, bind_eq_ok, pure_eq_ok] at horacle
      obtain ⟨oracle, hset, hworld⟩ := horacle
      rw [← hworld]
      exact priced_of_setPrice hset

end PricerWorld

/-! ## The manager does not look at pointers -/

section

variable {κ : Type} [IERC20 κ] {pricers pricers' : Address → Option Pricer}

lemma USBSManager.claimMint_congr (h : askPrice pricers = askPrice pricers')
    (manager : USBSManager) (rwa : USBS) (lists : Lists) (self : Address) (timestamp : Uint256)
    (ids : List Bytes32) : manager.claimMint rwa lists pricers self timestamp ids =
      manager.claimMint rwa lists pricers' self timestamp ids := by
  simp only [claimMint, internalClaimMint, RWAHub.internalClaimMint, h]

lemma RWAHub.claimRedemption_congr (h : askPrice pricers = askPrice pricers') (hub : RWAHub)
    (token : κ) (self : Address) (checkRestrictions : Address → Tx Error Unit)
    (ids : List Bytes32) : hub.claimRedemption token pricers self checkRestrictions ids =
      hub.claimRedemption token pricers' self checkRestrictions ids := by
  have hentry : claimRedemptionEntry (κ := κ) pricers self checkRestrictions =
      claimRedemptionEntry pricers' self checkRestrictions := by
    funext batch redemptionId
    simp only [claimRedemptionEntry, h]
  rw [claimRedemption, claimRedemption, hentry]

end

namespace World

variable {κ : Type} [IERC20 κ] {w w' : World κ} {a : Action κ} {sender self : Address}
  {pricers : Address → Option Pricer} {pricer pricer' : Pricer}

/-- The world with other pricers. -/
def withPricers (w : World κ) (pricers : Address → Option Pricer) : World κ :=
  { w with pricers := pricers }

/-- **The manager knows a pricer by the prices it answers.** -/
lemma execManager_withPricers {call : USBSManager.Call}
    (hask : askPrice w.pricers = askPrice pricers) (h : w.execManager sender call = .ok w') :
    (w.withPricers pricers).execManager sender call = .ok (w'.withPricers pricers) ∧
      w'.pricers = w.pricers ∧ w'.timestamp = w.timestamp := by
  cases call with
  | claimMint depositIds =>
      simp only [execManager, bind_eq_ok, pure_eq_ok] at h ⊢
      obtain ⟨result, hclaim, rfl⟩ := h
      rw [USBSManager.claimMint_congr hask] at hclaim
      exact ⟨⟨result, hclaim, rfl⟩, rfl, rfl⟩
  | claimRedemption redemptionIds =>
      simp only [execManager, bind_eq_ok, pure_eq_ok] at h ⊢
      obtain ⟨result, hclaim, rfl⟩ := h
      rw [RWAHub.claimRedemption_congr hask] at hclaim
      exact ⟨⟨result, hclaim, rfl⟩, rfl, rfl⟩
  | _ =>
      simp only [execManager, bind_eq_ok, pure_eq_ok] at h ⊢
      obtain ⟨result, hcall, rfl⟩ := h
      exact ⟨⟨result, hcall, rfl⟩, rfl, rfl⟩

/-- The pricer at an address is another one. -/
def withPricer (w : World κ) (address : Address) (pricer : Pricer) : World κ :=
  w.withPricers (Function.update w.pricers address (some pricer))

omit [IERC20 κ] in
lemma askPrice_withPricer (hlisted : w.pricers self = some pricer)
    (hprices : pricer'.prices = pricer.prices) :
    askPrice w.pricers = askPrice (w.withPricer self pricer').pricers := by
  funext address priceId
  rw [withPricer, withPricers]
  by_cases hself : address = self
  · subst hself
    simp only [askPrice, Function.update_self, hlisted, Pricer.getPrice, hprices]
  · simp only [askPrice, Function.update_of_ne hself]

/-- **Nobody else looks at the pricer.** -/
lemma exec_withPricer (pricer' : Pricer) (hlisted : w.pricers self = some pricer)
    (hprices : pricer'.prices = pricer.prices) (hcall : ∀ s c, a ≠ .pricer self s c)
    (hwait : ∀ timestamp, a ≠ .wait timestamp) (h : w.exec a = .ok w') :
    (w.withPricer self pricer').exec a = .ok (w'.withPricer self pricer') ∧
      w'.timestamp = w.timestamp := by
  cases a with
  | manager sender call =>
      have hask := askPrice_withPricer hlisted hprices
      obtain ⟨hexec, hsame, htimestamp⟩ := execManager_withPricers hask h
      rw [withPricer, withPricer, hsame]
      exact ⟨hexec, htimestamp⟩
  | usbs sender call =>
      simp only [exec, bind_eq_ok, pure_eq_ok] at h ⊢
      obtain ⟨usbs, husbs, rfl⟩ := h
      exact ⟨⟨usbs, husbs, rfl⟩, rfl⟩
  | pricer address sender call =>
      have hne : address ≠ self := fun heq => hcall sender call (heq ▸ rfl)
      have hother : (w.withPricer self pricer').pricers address = w.pricers address :=
        Function.update_of_ne hne ..
      simp only [exec, execPricer, hother] at h ⊢
      split at h
      · cases h
      · simp only [bind_eq_ok, pure_eq_ok] at h ⊢
        obtain ⟨contract', hexec, rfl⟩ := h
        refine ⟨⟨contract', hexec, ?_⟩, rfl⟩
        simp only [withPricer, withPricers, Function.update_comm hne]
  | deployPricer address sender admin updater =>
      simp only [exec] at h ⊢
      split at h
      · next hnone =>
          cases h
          have hne : address ≠ self := by
            rintro rfl
            rw [hnone] at hlisted
            cases hlisted
          have hother : (w.withPricer self pricer').pricers address = none :=
            (Function.update_of_ne hne ..).trans hnone
          rw [if_pos hother]
          refine ⟨?_, rfl⟩
          simp only [withPricer, withPricers, Function.update_comm hne]
      · cases h
  | collateral token | lists lists =>
      cases h
      exact ⟨rfl, rfl⟩
  | wait timestamp => exact absurd rfl (hwait timestamp)

end World

/-! ## The system -/

namespace OracleSystem

variable {κ ω φ : Type} [IERC20 κ] [IRWAOracleSetter ω φ] {s₀ s s' : OracleSystem κ ω φ}
  {tr : List (Transition (OracleSystem κ ω φ) (Action κ φ))} {a : Action κ φ} {w : World κ}

/-- What a step is to a world with a plain pricer. -/
def calls (t : Transition (OracleSystem κ ω φ) (Action κ φ)) : List (BrivoUsbs.Action κ) :=
  let self := t.pre.pricer.self
  match t.label with
  | .world action => [action]
  | .pricer (.pricer sender (.addPrice price timestamp)) =>
      [.pricer self sender (.addPrice price timestamp)]
  | .pricer (.pricer sender .addLatestOraclePrice) =>
      let (price, timestamp) := t.pre.pricer.getPriceData
      [.pricer self sender (.addPrice price timestamp)]
  | .pricer (.pricer sender (.updatePrice priceId price)) =>
      [.pricer self sender (.updatePrice priceId price)]
  | .pricer (.pricer sender (.access call)) => [.pricer self sender (.access call)]
  | .pricer (.oracle (.wait timestamp)) => [.wait timestamp]
  | .pricer (.oracle _) => []

/-- The world is this one, but with a plain pricer that has the same prices. -/
def StandsIn (s : OracleSystem κ ω φ) (w : World κ) : Prop :=
  ∃ latestPriceId,
    w = s.world.withPricer s.pricer.self (s.pricer.pricer.withPointer latestPriceId)

omit [IERC20 κ] [IRWAOracleSetter ω φ] in
lemma standsIn_self (s : OracleSystem κ ω φ) : s.StandsIn s.world := by
  refine ⟨s.pricer.pricer.latestPriceId, ?_⟩
  have hsame : s.pricer.pricer.withPointer s.pricer.pricer.latestPriceId = s.pricer.pricer := rfl
  rw [hsame, World.withPricer, ← s.listed, Function.update_eq_self]
  rfl

/-- A transaction in the world. -/
lemma Step.standsIn_world {action : BrivoUsbs.Action κ} (h : s.Step (.world action) s')
    (hstands : s.StandsIn w) : ∃ w', w.Step action w' ∧ s'.StandsIn w' := by
  obtain ⟨hcaller, hreplaced, hexec⟩ := h
  obtain ⟨id, rfl⟩ := hstands
  simp only [exec, bind_eq_ok, pure_eq_ok] at hexec
  obtain ⟨world', hworld, rfl⟩ := hexec
  have hcall : ∀ sender call, action ≠ .pricer s.pricer.self sender call := by
    rintro sender call rfl
    simp [Action.isReplaced] at hreplaced
  have hwait : ∀ timestamp, action ≠ .wait timestamp := by
    rintro timestamp rfl
    simp [Action.isReplaced] at hreplaced
  obtain ⟨hplain, htimestamp⟩ := World.exec_withPricer (s.pricer.pricer.withPointer id) s.listed
    rfl hcall hwait hworld
  refine ⟨_, ⟨fun caller hmem => ⟨(hcaller caller hmem).1, (hcaller caller hmem).2.1⟩, hplain⟩,
    id, ?_⟩
  rw [s.clock] at htimestamp
  simp only [World.withPricer, World.withPricers, connect, Function.update_idem, htimestamp]

omit [IRWAOracleSetter ω φ] in
/-- A call of the pricer that a plain one answers alike. -/
lemma standsIn_call {sender : Address} {call : Pricer.Call} {pricer' : PricerWorld ω φ}
    {id id' : Uint256}
    (hcaller : sender ≠ 0 ∧ sender ≠ s.world.self)
    (hplain : (s.pricer.pricer.withPointer id).exec sender call =
      .ok (pricer'.pricer.withPointer id'))
    (hself : pricer'.self = s.pricer.self) (hclock : pricer'.timestamp = s.pricer.timestamp) :
    ∃ w', (s.world.withPricer s.pricer.self (s.pricer.pricer.withPointer id)).Step
        (.pricer s.pricer.self sender call) w' ∧ (connect s.world pricer').StandsIn w' := by
  refine ⟨s.world.withPricer s.pricer.self (pricer'.pricer.withPointer id'), ⟨?_, ?_⟩, id', ?_⟩
  · intro caller hmem
    obtain rfl := Option.some.inj hmem
    exact hcaller
  · have hlisted : (s.world.withPricer s.pricer.self (s.pricer.pricer.withPointer id)).pricers
        s.pricer.self = some (s.pricer.pricer.withPointer id) := Function.update_self ..
    rw [World.exec, World.execPricer, hlisted]
    simp only [hplain, ok_bind, World.withPricer, World.withPricers, Function.update_idem]
    rfl
  · simp only [World.withPricer, World.withPricers, connect, hself, hclock, Function.update_idem,
      ← s.clock]

omit [IERC20 κ] [IRWAOracleSetter ω φ] in
/-- The oracle moves, at the same time. -/
lemma standsIn_connect {pricer' : PricerWorld ω φ} {id : Uint256}
    (hself : pricer'.self = s.pricer.self) (hpricer : pricer'.pricer = s.pricer.pricer)
    (hclock : pricer'.timestamp = s.pricer.timestamp) :
    (connect s.world pricer').StandsIn
      (s.world.withPricer s.pricer.self (s.pricer.pricer.withPointer id)) := by
  refine ⟨id, ?_⟩
  simp only [World.withPricer, World.withPricers, connect, hself, hpricer, hclock,
    Function.update_idem, ← s.clock]

/-- A transaction with the oracle, which the world only notices by the clock. -/
lemma standsIn_oracle {action : OracleAction φ} {oracleWorld : OracleWorld ω φ} {id : Uint256}
    (h : s.pricer.toOracleWorld.exec action = .ok oracleWorld) :
    ∃ w', Path World.Step (s.world.withPricer s.pricer.self (s.pricer.pricer.withPointer id))
        (calls ⟨s, .pricer (.oracle action), s'⟩) w' ∧
      (connect s.world { s.pricer with toOracleWorld := oracleWorld }).StandsIn w' := by
  cases action with
  | wait timestamp =>
      simp only [OracleWorld.exec] at h
      split at h
      · next hle =>
          cases h
          have hle' : s.world.timestamp ≤ timestamp := s.clock.symm ▸ hle
          refine ⟨{ s.world.withPricer s.pricer.self (s.pricer.pricer.withPointer id) with
            timestamp := timestamp }, .single ⟨fun caller hmem => ?_, if_pos hle'⟩, id, ?_⟩
          · cases hmem
          · simp only [World.withPricer, World.withPricers, connect, Function.update_idem]
      · cases h
  | setPrice sender price =>
      simp only [OracleWorld.exec, bind_eq_ok, pure_eq_ok] at h
      obtain ⟨_, -, rfl⟩ := h
      exact ⟨_, .nil, standsIn_connect rfl rfl rfl⟩
  | access sender call =>
      simp only [OracleWorld.exec, bind_eq_ok, pure_eq_ok] at h
      obtain ⟨_, -, rfl⟩ := h
      exact ⟨_, .nil, standsIn_connect rfl rfl rfl⟩
  | feed feed =>
      cases h
      exact ⟨_, .nil, standsIn_connect rfl rfl rfl⟩

/-- A transaction with the pricer or its oracle. -/
lemma Step.standsIn_pricer {action : PricerAction φ} (h : s.Step (.pricer action) s')
    (hpriced : s.pricer.getPriceData.1 ≠ 0) (hstands : s.StandsIn w) :
    ∃ w', Path World.Step w (calls ⟨s, .pricer action, s'⟩) w' ∧ s'.StandsIn w' := by
  obtain ⟨hcaller, -, hexec⟩ := h
  obtain ⟨id, rfl⟩ := hstands
  simp only [exec, bind_eq_ok, pure_eq_ok] at hexec
  obtain ⟨pricer', hpricer, rfl⟩ := hexec
  have hmatched : ∀ {sender : Address} {call : Pricer.Call} {id' : Uint256},
      sender ∈ action.caller →
      (s.pricer.pricer.withPointer id).exec sender call = .ok (pricer'.pricer.withPointer id') →
      pricer'.self = s.pricer.self → pricer'.timestamp = s.pricer.timestamp →
      ∃ w', Path World.Step (s.world.withPricer s.pricer.self (s.pricer.pricer.withPointer id))
        [.pricer s.pricer.self sender call] w' ∧ (connect s.world pricer').StandsIn w' := by
    intro sender call id' hmem hplain hself hclock
    have hallowed := hcaller sender hmem
    obtain ⟨w', hstep, hstands⟩ :=
      standsIn_call ⟨hallowed.1, hallowed.2.1⟩ hplain hself hclock
    exact ⟨w', .single hstep, hstands⟩
  cases action with
  | pricer sender call =>
      cases call with
      | addPrice price timestamp =>
          simp only [PricerWorld.exec, PricerWorld.execPricer, bind_eq_ok, pure_eq_ok] at hpricer
          obtain ⟨⟨pricer, oracle⟩, hadd, rfl⟩ := hpricer
          obtain ⟨id', hplain⟩ := PricerWithOracle.addPrice_plain id hadd
          exact hmatched rfl hplain rfl rfl
      | addLatestOraclePrice =>
          simp only [PricerWorld.exec, PricerWorld.execPricer, bind_eq_ok, pure_eq_ok] at hpricer
          obtain ⟨pricer, hadd, rfl⟩ := hpricer
          obtain ⟨id', hplain⟩ := PricerWithOracle.addLatestOraclePrice_plain id hadd hpriced
          exact hmatched rfl hplain rfl rfl
      | updatePrice priceId price =>
          simp only [PricerWorld.exec, PricerWorld.execPricer, bind_eq_ok, pure_eq_ok] at hpricer
          obtain ⟨pricer, hupdate, rfl⟩ := hpricer
          exact hmatched rfl (Pricer.updatePrice_withPointer id hupdate) rfl rfl
      | access call =>
          simp only [PricerWorld.exec, PricerWorld.execPricer, bind_eq_ok, pure_eq_ok] at hpricer
          obtain ⟨access, haccess, rfl⟩ := hpricer
          have hplain : (s.pricer.pricer.withPointer id).exec sender (.access call) =
              .ok ({ s.pricer.pricer with access := access }.withPointer id) := by
            simp only [Pricer.exec, bind_eq_ok, pure_eq_ok]
            exact ⟨access, haccess, rfl⟩
          exact hmatched rfl hplain rfl rfl
  | oracle action =>
      simp only [PricerWorld.exec, bind_eq_ok, pure_eq_ok] at hpricer
      obtain ⟨oracleWorld, horacle, rfl⟩ := hpricer
      exact standsIn_oracle horacle

lemma Step.priced [PositivePrices ω] (h : s.Step a s') (hpriced : s.pricer.getPriceData.1 ≠ 0) :
    s'.pricer.getPriceData.1 ≠ 0 := by
  rcases h.pricer with hsame | ⟨action, -, hpricer⟩
  · rwa [hsame]
  · exact hpricer.priced hpriced

/-- **The manager over a pricer with an oracle is the manager over a plain pricer.**  Every run of
this system is one of a world, in which a plain pricer takes the calls of the one with the oracle,
and ends in the same world but for that pricer's pointer. -/
theorem world_refined [PositivePrices ω] (hpriced : s₀.pricer.getPriceData.1 ≠ 0)
    (hrun : Run Step s₀ tr s) :
    ∃ wtr w, Run World.Step s₀.world wtr w ∧ wtr.map Transition.label = tr.flatMap calls ∧
      s.StandsIn w := by
  have hstep : ∀ (t : Transition (OracleSystem κ ω φ) (Action κ φ)) (w : World κ),
      t.pre.Step t.label t.post →
      t.pre.StandsIn w ∧ t.pre.pricer.getPriceData.1 ≠ 0 →
      ∃ w', Path World.Step w (calls t) w' ∧
        t.post.StandsIn w' ∧ t.post.pricer.getPriceData.1 ≠ 0 := by
    rintro ⟨s, a, s'⟩ w h ⟨hstands, hpriced⟩
    have hpriced' := Step.priced h hpriced
    cases a with
    | world action =>
        obtain ⟨w', hworld, hstands'⟩ := Step.standsIn_world h hstands
        exact ⟨w', .single hworld, hstands', hpriced'⟩
    | pricer action =>
        obtain ⟨w', hpath, hstands'⟩ := Step.standsIn_pricer h hpriced hstands
        exact ⟨w', hpath, hstands', hpriced'⟩
  obtain ⟨w, hpath, hstands, -⟩ :=
    hrun.simulation (R := fun s w => s.StandsIn w ∧ s.pricer.getPriceData.1 ≠ 0)
      ⟨standsIn_self s₀, hpriced⟩ hstep
  obtain ⟨wtr, hworld, hlabels⟩ := Run.of_path hpath
  exact ⟨wtr, w, hworld, hlabels, hstands⟩

end OracleSystem

namespace Sample

/-- The manager's pricer is one over the comparison oracle. -/
def oracleSystem :
    OracleSystem ERC20 RWAOracleExternalComparisonCheck AggregatorV3Interface :=
  .connect world { PricerWorld.RecoverySample.comparisonWorld with self := pricerAddress }

/-- The customer deposits and redeems at the price of the oracle, and the price moves: through the
pricer, and a day later past it, so that the pricer catches up. -/
def mintAtOraclePrice : List (OracleSystem.Action ERC20 AggregatorV3Interface) :=
  mintAndRedeem.map .world ++
    [.pricer (.oracle (.access operator (.grantRole .setterRole pricerAddress))),
      .pricer (.oracle (.wait 1086400)),
      .pricer (.oracle (.feed (ComparisonWorld.FeedSample.feedAt 2 10100000000 1086400))),
      .pricer (.pricer operator (.addPrice 1010000000000000000 1086400)),
      .world (.manager customer (.requestSubscription 100000000)),
      .pricer (.oracle (.wait 1172800)),
      .pricer (.oracle (.feed (ComparisonWorld.FeedSample.feedAt 3 10200000000 1172800))),
      .pricer (.oracle (.setPrice operator 1020000000000000000)),
      .pricer (.pricer operator .addLatestOraclePrice)]

end Sample

open Sample in
theorem OracleSystem.world_refined_sample :
    (play next oracleSystem mintAtOraclePrice).pricer.pricer.getLatestPrice =
        1020000000000000000 ∧
      (play next oracleSystem mintAtOraclePrice).pricer.pricer.currentPriceId = 3 ∧
      ∃ wtr w, Run World.Step oracleSystem.world wtr w ∧
        wtr.map Transition.label =
          (playTrace next oracleSystem mintAtOraclePrice).flatMap calls ∧
        (play next oracleSystem mintAtOraclePrice).StandsIn w :=
  ⟨by decide +kernel, by decide +kernel,
    world_refined (by decide) (run_play (fun _ _ _ => step_of_next) _ _)⟩

end BrivoUsbs
