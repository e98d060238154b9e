import BrivoUsbs.Contracts.System
import BrivoUsbs.Framework.Component
import BrivoUsbs.Properties.Allowlist
import BrivoUsbs.Properties.Blocklist
import BrivoUsbs.Properties.FrozenAccounts
import BrivoUsbs.Properties.TokenCalls

/-!
# Compliance end to end

The token and the manager screen accounts against whatever their list contracts answer, and the list
contracts answer from what they have been told.  `Step.world` takes a step of the whole system for
one of the world, and `Run.component` a run of it for one of each list, so the two sides meet:

* once an account is on the blocklist that token and manager ask, nothing of it moves until the
  owner of the list removes it or one of the two is pointed at another list, by those who may do so:
  `blocked_until_released`;
* whoever's balance changes has agreed to terms that are valid at that moment, and was not the last
  one to be put on the blocklist: `movement_vetted`.
-/

namespace BrivoUsbs

/-! ## What the calls do to the list pointers -/

namespace USBS

variable {token token' : USBS} {lists : Lists} {sender account : Address}

/-- The lists the token asks. -/
def pointers (token : USBS) : Address × Address × Address :=
  (token.blocklist, token.allowlist, token.sanctionsList)

/-- A call that configures the lists of the token. -/
def Call.isListSetter : Call → Bool
  | .setBlocklist _ | .setAllowlist _ | .setSanctionsList _ => true
  | _ => false

lemma exec_pointers {call : Call} (h : token.exec lists sender call = .ok token')
    (hcall : call.isListSetter = false) : token'.pointers = token.pointers := by
  cases call with
  | holder call =>
      obtain ⟨erc20, rfl, -⟩ := execHolder_operates h
      rfl
  | mint dest amount =>
      simp only [exec, mint, bind_eq_ok, pure_eq_ok] at h
      obtain ⟨_, -, minted, -, rfl⟩ := h
      rfl
  | access call =>
      simp only [exec, bind_eq_ok, pure_eq_ok] at h
      obtain ⟨access, -, rfl⟩ := h
      rfl
  | pause | unpause =>
      simp only [exec, pause, unpause, bind_eq_ok, pure_eq_ok] at h
      obtain ⟨_, -, _, -, rfl⟩ := h
      rfl
  | _ => cases hcall

/-- The lists are configured by those who have the role for it. -/
lemma exec_hasRole_of_isListSetter {call : Call} (h : token.exec lists sender call = .ok token')
    (hcall : call.isListSetter = true) :
    token.access.hasRole .listConfigurerRole sender = true := by
  cases call with
  | setBlocklist blocklist | setAllowlist allowlist | setSanctionsList sanctionsList =>
      simp only [exec, setBlocklist, setAllowlist, setSanctionsList, bind_eq_ok,
        AccessControl.checkRole_eq_ok, exists_const] at h
      exact h.1
  | _ => cases hcall

/-- Tokens with the same pointers screen alike. -/
lemma Screened.of_pointers (h : token'.Screened lists account)
    (hpointers : token'.pointers = token.pointers) : token.Screened lists account := by
  obtain ⟨hblocklist, hallowlist, hsanctionsList⟩ :
      token'.blocklist = token.blocklist ∧ token'.allowlist = token.allowlist ∧
        token'.sanctionsList = token.sanctionsList := by
    simpa [pointers] using hpointers
  obtain ⟨hblocked, hsanctioned, hallowed⟩ := h
  rw [isBlocked, hblocklist] at hblocked
  rw [isSanctioned, hsanctionsList] at hsanctioned
  rw [isAllowed, hallowlist] at hallowed
  exact ⟨hblocked, hsanctioned, hallowed⟩

/-- Whoever's balance a call changes is screened. -/
lemma exec_screened {call : Call} (h : token.exec lists sender call = .ok token')
    (hne : token'.erc20.balances account ≠ token.erc20.balances account) :
    token.Screened lists account := by
  have heffect := exec_effect h
  generalize call.parties sender = parties at heffect
  cases heffect with
  | idle hsame => exact absurd (congrFun hsame account) hne
  | @moves source dest hmoves =>
      by_contra hnot
      refine hne (hmoves.frame account (fun hsource heq => hnot ?_) (fun hdest heq => hnot ?_))
      · exact heq ▸ hmoves.passes.source hsource
      · exact heq ▸ hmoves.passes.dest hdest

end USBS

/-- A call that configures the lists of the token. -/
def Action.isTokenListSetter {κ : Type} : Action κ → Bool
  | .usbs _ call => call.isListSetter
  | _ => false

namespace World

variable {κ : Type} {w w' : World κ} {a : Action κ} {sender account : Address}

lemma Sends.lists {m : USBS.Message} (h : w.Sends a m) : m.lists = w.lists := by
  cases h <;> rfl

lemma Sends.isListSetter {m : USBS.Message} (h : w.Sends a m) (ha : a.isTokenListSetter = false) :
    m.call.isListSetter = false := by
  cases h with
  | direct => exact ha
  | _ => rfl

variable [IERC20 κ]

lemma Step.token_pointers (h : w.Step a w') (ha : a.isTokenListSetter = false) :
    w'.usbs.pointers = w.usbs.pointers := by
  obtain ⟨ms, hpath, hsends⟩ := h.token_calls
  refine hpath.invariant (P := fun token => token.pointers = w.usbs.pointers) rfl ?_
  intro token m token' hm hpre hcall
  exact (USBS.exec_pointers hcall ((hsends m hm).isListSetter ha)).trans hpre

/-- The blocklist the token asks is the same after a step, or somebody who may has set another. -/
lemma Step.token_blocklist (h : w.Step a w') :
    w'.usbs.blocklist = w.usbs.blocklist ∨
      ∃ sender blocklist, a = .usbs sender (.setBlocklist blocklist) ∧
        w.usbs.access.hasRole .listConfigurerRole sender = true := by
  cases ha : a.isTokenListSetter with
  | false => exact .inl (congrArg Prod.fst (h.token_pointers ha))
  | true =>
      cases a with
      | usbs sender call =>
          obtain ⟨-, hexec⟩ := h
          simp only [exec, bind_eq_ok, pure_eq_ok] at hexec
          obtain ⟨usbs, hcall, rfl⟩ := hexec
          have hrole := USBS.exec_hasRole_of_isListSetter hcall ha
          cases call with
          | setBlocklist blocklist => exact .inr ⟨sender, blocklist, rfl, hrole⟩
          | setAllowlist list | setSanctionsList list =>
              simp only [USBS.exec, USBS.setAllowlist, USBS.setSanctionsList, bind_eq_ok,
                pure_eq_ok] at hcall
              obtain ⟨_, -, _, -, rfl⟩ := hcall
              exact .inl rfl
          | _ => cases ha
      | _ => cases ha

/-- **Whoever's USBS balance changes in a step passes the lists** the token asks at that moment. -/
lemma Step.screened (h : w.Step a w')
    (hne : w'.usbs.erc20.balances account ≠ w.usbs.erc20.balances account) :
    w.usbs.Screened w.lists account := by
  cases ha : a.isTokenListSetter with
  | true =>
      cases a with
      | usbs sender call =>
          obtain ⟨-, hexec⟩ := h
          simp only [exec, bind_eq_ok, pure_eq_ok] at hexec
          obtain ⟨usbs, hcall, rfl⟩ := hexec
          exact USBS.exec_screened hcall hne
      | _ => cases ha
  | false =>
      obtain ⟨ms, hpath, hsends⟩ := h.token_calls
      by_contra hnot
      -- The lists stay the same over the calls of the step, so none of them changes the balance.
      have hkept : w'.usbs.pointers = w.usbs.pointers ∧
          w'.usbs.erc20.balances account = w.usbs.erc20.balances account := by
        refine hpath.invariant (P := fun token => token.pointers = w.usbs.pointers ∧
          token.erc20.balances account = w.usbs.erc20.balances account) ⟨rfl, rfl⟩ ?_
        rintro token m token' hm ⟨hpointers, hbalance⟩ hcall
        refine ⟨(USBS.exec_pointers hcall ((hsends m hm).isListSetter ha)).trans hpointers, ?_⟩
        by_contra hchanged
        rw [← hbalance] at hchanged
        have hscreened := USBS.exec_screened hcall hchanged
        rw [(hsends m hm).lists] at hscreened
        exact hnot (hscreened.of_pointers hpointers)
      exact hne hkept.2

/-- The blocklist the manager asks is the same after a step, or an admin of the manager has set
another one. -/
lemma Step.manager_blocklist (h : w.Step a w') :
    w'.manager.managerParams.blocklist = w.manager.managerParams.blocklist ∨
      ∃ sender blocklist, a = .manager sender (.manager (.setBlocklist blocklist)) ∧
        w.hub.access.hasRole .managerAdmin sender = true := by
  obtain ⟨-, hexec⟩ := h
  by_cases ha : ∃ sender call, a = .manager sender call
  · obtain ⟨sender, call, rfl⟩ := ha
    rcases execManager_managerParams hexec with hsame | ⟨setter, rfl, hset⟩
    · exact .inl (congrArg ManagerParameters.blocklist hsame)
    · cases setter with
      | setBlocklist blocklist =>
          right
          simp only [USBSManager.execManagerSet, USBSManager.setBlocklist, USBSManager.managerSet,
            bind_eq_ok, AccessControl.checkRole_eq_ok, exists_const] at hset
          exact ⟨sender, blocklist, rfl, hset.1⟩
      | _ =>
          left
          simp only [USBSManager.execManagerSet, USBSManager.pauseOffChainRedemption,
            USBSManager.unpauseOffChainRedemption, USBSManager.setOffChainRedemptionMinimum,
            USBSManager.setSanctionsList, USBSManager.managerSet, bind_eq_ok, pure_eq_ok] at hset
          obtain ⟨_, -, _, -, hset⟩ := hset
          rw [← hset]
  · left
    rw [(exec_manager_eq (fun sender call heq => ha ⟨sender, call, heq⟩) hexec).1]

end World

/-! ## The system and its parts -/

namespace System

variable {κ : Type} [IERC20 κ] {crypto : Cryptography} {s₀ s s' : System κ} {a : Action κ}
  {tr : List (Transition (System κ) (Action κ))} {t : Transition (System κ) (Action κ)}
  {address account : Address}

/-- What a transition of the system is to the world. -/
def worldTransition (t : Transition (System κ) (Action κ)) :
    Transition (World κ) (BrivoUsbs.Action κ) where
  pre := t.pre.world
  label := match t.label with
    | .world action => action
    | .contracts _ => .lists t.post.contracts.lists
  post := t.post.world

/-- The world does not change its lists by itself. -/
lemma exec_lists {w w' : World κ} {action : BrivoUsbs.Action κ} (h : w.exec action = .ok w')
    (haction : (Action.world action).isLists = false) : w'.lists = w.lists := by
  cases action with
  | manager sender call => exact (World.execManager_frame h).2.2
  | usbs sender call =>
      simp only [World.exec, bind_eq_ok, pure_eq_ok] at h
      obtain ⟨usbs, -, rfl⟩ := h
      rfl
  | pricer address sender call =>
      simp only [World.exec, World.execPricer] at h
      split at h
      · cases h
      · simp only [bind_eq_ok, pure_eq_ok] at h
        obtain ⟨pricer, -, rfl⟩ := h
        rfl
  | lists lists => cases haction
  | collateral token =>
      cases h
      rfl
  | deployPricer address sender admin pricer | wait timestamp =>
      simp only [World.exec] at h
      split at h
      · cases h
        rfl
      · cases h

/-- **A step of the system is one of the world.** -/
lemma Step.world (h : t.pre.Step crypto t.label t.post) :
    World.Step (worldTransition t).pre (worldTransition t).label (worldTransition t).post := by
  obtain ⟨pre, label, post⟩ := t
  obtain ⟨hcaller, hlists, hexec⟩ := h
  cases label with
  | world action =>
      simp only [exec, bind_eq_ok, pure_eq_ok] at hexec
      obtain ⟨world, haction, rfl⟩ := hexec
      have hsame : (connect world pre.contracts).world = world := by
        show { world with lists := pre.contracts.lists } = world
        rw [← pre.answers, ← exec_lists haction hlists]
      exact ⟨hcaller, haction.trans (congrArg Except.ok hsame.symm)⟩
  | contracts action =>
      simp only [exec, bind_eq_ok, pure_eq_ok] at hexec
      obtain ⟨contracts, -, rfl⟩ := hexec
      refine ⟨fun caller hmem => ?_, rfl⟩
      simp [worldTransition, BrivoUsbs.Action.caller] at hmem

/-- A run of the system is one of the world. -/
lemma run_world (hrun : Run (Step crypto) s₀ tr s) :
    Run World.Step s₀.world (tr.map worldTransition) s.world :=
  Run.map (f := System.world) (g := fun t => (worldTransition t).label) hrun fun _ => Step.world

/-! ### The list contracts -/

/-- The call an action makes of the blocklist at an address. -/
def blocklistCall (address : Address) : Action κ → Option (Address × Blocklist.Call)
  | .contracts (.blocklist address' msgSender call) =>
      if address' = address then some (msgSender, call) else none
  | _ => none

/-- The call an action makes of the allowlist at an address. -/
def allowlistCall (address : Address) :
    Action κ → Option (Address × AllowlistUpgradeable.Call)
  | .contracts (.allowlist address' msgSender call) =>
      if address' = address then some (msgSender, call) else none
  | _ => none

def blocklistAt (address : Address) (s : System κ) : Option Blocklist :=
  s.contracts.blocklists address

def allowlistAt (address : Address) (s : System κ) : Option AllowlistUpgradeable :=
  s.contracts.allowlists address

abbrev blocklistHistory (address : Address) (tr : List (Transition (System κ) (Action κ))) :
    List (Transition Blocklist (Address × Blocklist.Call)) :=
  componentHistory (blocklistAt address) (blocklistCall address) tr

abbrev allowlistHistory (address : Address) (tr : List (Transition (System κ) (Action κ))) :
    List (Transition AllowlistUpgradeable (Address × AllowlistUpgradeable.Call)) :=
  componentHistory (allowlistAt address) (allowlistCall address) tr

omit [IERC20 κ] in
/-- What a transaction against the list contracts does to the two tables of them. -/
lemma exec_tables {contracts contracts' : ListContracts} {action : ListContracts.Action}
    (hcaller : ∀ caller ∈ action.caller, caller ≠ 0)
    (h : contracts.exec crypto action = .ok contracts') :
    TableStep (fun b => ∃ deployer, b = Blocklist.deploy deployer) Blocklist.Step
        contracts.blocklists (fun address => blocklistCall (κ := κ) address (.contracts action))
        contracts'.blocklists ∧
      TableStep AllowlistUpgradeable.Deployed (AllowlistUpgradeable.Step crypto)
        contracts.allowlists (fun address => allowlistCall (κ := κ) address (.contracts action))
        contracts'.allowlists := by
  cases action with
  | blocklist address sender call =>
      simp only [ListContracts.exec] at h
      split at h
      · cases h
      next b hb =>
        simp only [bind_eq_ok, pure_eq_ok] at h
        obtain ⟨b', hcall, rfl⟩ := h
        exact ⟨.call hb ⟨hcaller sender rfl, hcall⟩, .idle⟩
  | allowlist address sender call =>
      simp only [ListContracts.exec] at h
      split at h
      · cases h
      next allowlist hallowlist =>
        simp only [bind_eq_ok, pure_eq_ok] at h
        obtain ⟨allowlist', hcall, rfl⟩ := h
        exact ⟨.idle, .call hallowlist hcall⟩
  | deployBlocklist address sender =>
      simp only [ListContracts.exec] at h
      split at h
      · next hfree =>
          cases h
          exact ⟨.deploy hfree ⟨sender, rfl⟩, .idle⟩
      · cases h
  | deployAllowlist address sender admin setter =>
      simp only [ListContracts.exec] at h
      split at h
      · next hfree =>
          simp only [bind_eq_ok, pure_eq_ok] at h
          obtain ⟨allowlist, hinit, rfl⟩ := h
          exact ⟨.idle, .deploy hfree ⟨true, sender, admin, setter, hinit⟩⟩
      · cases h
  | sanctionsLists sanctionsLists | code isContract =>
      cases h
      exact ⟨.idle, .idle⟩

/-- **A step of the system is one of each list**, or leaves the list alone. -/
lemma Step.tables (h : s.Step crypto a s') :
    TableStep (fun b => ∃ deployer, b = Blocklist.deploy deployer) Blocklist.Step
        (fun address => blocklistAt address s) (fun address => blocklistCall address a)
        (fun address => blocklistAt address s') ∧
      TableStep AllowlistUpgradeable.Deployed (AllowlistUpgradeable.Step crypto)
        (fun address => allowlistAt address s) (fun address => allowlistCall address a)
        (fun address => allowlistAt address s') := by
  obtain ⟨hcaller, -, hexec⟩ := h
  cases a with
  | world action =>
      simp only [exec, bind_eq_ok, pure_eq_ok] at hexec
      obtain ⟨world, -, rfl⟩ := hexec
      exact ⟨.idle, .idle⟩
  | contracts action =>
      simp only [exec, bind_eq_ok, pure_eq_ok] at hexec
      obtain ⟨contracts, hcontracts, rfl⟩ := hexec
      exact exec_tables (fun caller hmem => (hcaller caller hmem).1) hcontracts

lemma Step.blocklist (h : s.Step crypto a s') :
    ComponentStep (fun b => ∃ deployer, b = Blocklist.deploy deployer) Blocklist.Step
      (blocklistAt address s) (blocklistCall address a) (blocklistAt address s') :=
  h.tables.1.component address

lemma Step.allowlist (h : s.Step crypto a s') :
    ComponentStep AllowlistUpgradeable.Deployed (AllowlistUpgradeable.Step crypto)
      (allowlistAt address s) (allowlistCall address a) (allowlistAt address s') :=
  h.tables.2.component address

/-! ### From the blocklist to the balances -/

/-- The blocklist that the token and the manager ask has the account on it. -/
structure Blocks (s : System κ) (address account : Address) : Prop where
  blocked : ∃ b, blocklistAt address s = some b ∧ b.isBlocked account = true
  token : s.world.usbs.blocklist = address
  manager : s.world.manager.managerParams.blocklist = address

/-- The transition takes the account off the blocklist, or points the token or the manager to
another one; and its sender may do so. -/
inductive Releases (address account : Address) (t : Transition (System κ) (Action κ)) : Prop
  | removed {sender : Address} {accounts : List Address} {b : Blocklist}
      (hlabel : t.label =
        .contracts (.blocklist address sender (.removeFromBlocklist accounts)))
      (hmem : account ∈ accounts) (hb : blocklistAt address t.pre = some b)
      (howner : sender = b.ownable.owner)
  | token {sender blocklist : Address}
      (hlabel : t.label = .world (.usbs sender (.setBlocklist blocklist)))
      (hrole : t.pre.world.usbs.access.hasRole .listConfigurerRole sender = true)
  | manager {sender blocklist : Address}
      (hlabel : t.label = .world (.manager sender (.manager (.setBlocklist blocklist))))
      (hrole : t.pre.world.hub.access.hasRole .managerAdmin sender = true)

omit [IERC20 κ] in
lemma Blocks.frozen (h : s.Blocks address account) : s.world.Frozen account := by
  obtain ⟨⟨b, hb, hblocked⟩, htoken, hmanager⟩ := h
  have hasked : askList s.world.lists.blocklists address account = .ok true := by
    rw [s.answers, askList, ListContracts.lists]
    dsimp only
    rw [show s.contracts.blocklists address = some b from hb]
    exact congrArg Except.ok hblocked
  constructor
  · left
    rw [USBS.isBlocked, htoken]
    exact hasked
  · left
    rw [hmanager]
    exact hasked

omit [IERC20 κ] in
/-- What the world sees of a sent transaction is the transaction. -/
lemma label_eq_world {action : BrivoUsbs.Action κ} {sender : Address}
    (h : (worldTransition t).label = action) (hcaller : action.caller = some sender) :
    t.label = .world action := by
  obtain ⟨pre, label, post⟩ := t
  cases label with
  | world action' => exact congrArg Action.world h
  | contracts action' =>
      subst h
      cases hcaller

omit [IERC20 κ] in
lemma blocklistCall_eq_some {sender : Address} {call : Blocklist.Call}
    (h : blocklistCall address a = some (sender, call)) :
    a = .contracts (.blocklist address sender call) := by
  unfold blocklistCall at h
  split at h
  · obtain ⟨rfl, hcall⟩ := Option.ite_none_right_eq_some.mp h
    obtain ⟨rfl, rfl⟩ := Prod.mk.inj (Option.some.inj hcall)
    rfl
  · cases h

/-- **An account stays blocked until it is released.** -/
lemma Blocks.step (h : t.pre.Blocks address account)
    (hstep : t.pre.Step crypto t.label t.post) :
    t.post.Blocks address account ∨ Releases address account t := by
  by_contra hneither
  obtain ⟨hnot, hkept⟩ := not_or.mp hneither
  obtain ⟨⟨b, hb, hblocked⟩, htoken, hmanager⟩ := h
  refine hnot ⟨?_, ?_, ?_⟩
  · have hlist : ComponentStep (fun b => ∃ deployer, b = Blocklist.deploy deployer) Blocklist.Step
        (blocklistAt address t.pre) (blocklistCall address t.label) (blocklistAt address t.post) :=
      hstep.blocklist
    generalize hpre : blocklistAt address t.pre = before at hlist
    generalize hlabel : blocklistCall address t.label = label at hlist
    generalize hpost : blocklistAt address t.post = after at hlist
    cases hlist with
    | deploy hdeployed => rw [hb] at hpre; cases hpre
    | idle => exact ⟨b, hpre.symm.trans hb, hblocked⟩
    | @call c c' label hcall =>
        obtain rfl : b = c := Option.some.inj (hb.symm.trans hpre)
        refine ⟨c', rfl, ?_⟩
        obtain ⟨sender, call⟩ := label
        have hstatus := hcall.effect.status account
        cases call with
        | removeFromBlocklist accounts =>
            by_cases hmem : account ∈ accounts
            · exact absurd (.removed (blocklistCall_eq_some hlabel) hmem hb hcall.effect.sender)
                hkept
            · simpa [Blocklist.writtenStatus, hmem, hblocked] using hstatus
        | addToBlocklist accounts =>
            by_cases hmem : account ∈ accounts
            · simpa [Blocklist.writtenStatus, hmem] using hstatus
            · simpa [Blocklist.writtenStatus, hmem, hblocked] using hstatus
        | ownable call => exact hstatus.trans hblocked
  · rcases hstep.world.token_blocklist with hsame | ⟨sender, blocklist, hlabel, hrole⟩
    · exact hsame.trans htoken
    · exact absurd (.token (label_eq_world hlabel rfl) hrole) hkept
  · rcases hstep.world.manager_blocklist with hsame | ⟨sender, blocklist, hlabel, hrole⟩
    · exact hsame.trans hmanager
    · exact absurd (.manager (label_eq_world hlabel rfl) hrole) hkept

/-! ### From the lists to whoever moves USBS -/

/-- No list contracts are deployed yet. -/
structure Fresh (s : System κ) : Prop where
  blocklists : ∀ address, blocklistAt address s = none
  allowlists : ∀ address, allowlistAt address s = none

/-- What the histories `tr` of the lists that the token asks say about an account. -/
structure Vetted (crypto : Cryptography) (tr : List (Transition (System κ) (Action κ)))
    (s : System κ) (account : Address) : Prop where
  /-- An account without code has agreed to terms that are valid now, and nothing was changed
  since. -/
  agreed : s.contracts.isContract account = false →
    ∃ allowlist, allowlistAt s.world.usbs.allowlist s = some allowlist ∧
      ∃ termIndex ∈ allowlist.validIndexes,
        ∃ t, AllowlistUpgradeable.LastChange (allowlistHistory s.world.usbs.allowlist tr) account
            termIndex t ∧
          AllowlistUpgradeable.Grants crypto allowlist.terms account termIndex t
  /-- The last batch that named the account took it off. -/
  not_blocked : ∀ t accounts,
    Blocklist.LastListed (blocklistHistory s.world.usbs.blocklist tr) account t →
      account ∈ accounts → t.label.2 ≠ .addToBlocklist accounts
  not_sanctioned : ∃ answers, s.contracts.sanctionsLists s.world.usbs.sanctionsList = some answers ∧
    answers account = false

lemma askList_eq_ok {lists : Address → Option (Address → Bool)} {list account : Address}
    {answer : Bool} :
    askList lists list account = .ok answer ↔
      ∃ answers, lists list = some answers ∧ answers account = answer := by
  unfold askList
  cases lists list <;> simp

/-- Who passes the lists in a reached state is vetted. -/
lemma vetted_of_screened (hfresh : s₀.Fresh) (hrun : Run (Step crypto) s₀ tr s)
    (h : s.world.usbs.Screened s.world.lists account) : Vetted crypto tr s account := by
  obtain ⟨hblocked, hsanctioned, hallowed⟩ := h
  rw [USBS.isBlocked, s.answers, askList_eq_ok] at hblocked
  rw [USBS.isSanctioned, s.answers, askList_eq_ok] at hsanctioned
  rw [USBS.isAllowed, s.answers, askList_eq_ok] at hallowed
  refine ⟨fun hcode => ?_, ?_, hsanctioned⟩
  · obtain ⟨answers, hlist, hanswer⟩ := hallowed
    obtain ⟨allowlist, hallowlist, rfl⟩ := Option.map_eq_some_iff.mp hlist
    have hhistory := hrun.component (.of_none (hfresh.allowlists s.world.usbs.allowlist))
      fun _ _ _ hstep => hstep.allowlist
    rw [show allowlistAt s.world.usbs.allowlist s = some allowlist from hallowlist] at hhistory
    cases hhistory with
    | deployed hdeployed hallowlistRun =>
        rw [AllowlistUpgradeable.isAllowed, hcode, if_neg Bool.false_ne_true,
          List.any_eq_true] at hanswer
        obtain ⟨termIndex, hvalid, hverified⟩ := hanswer
        exact ⟨allowlist, hallowlist, termIndex, hvalid,
          (AllowlistUpgradeable.verifications_iff hdeployed hallowlistRun).mp hverified⟩
  · obtain ⟨answers, hlist, hanswer⟩ := hblocked
    obtain ⟨b, hb, rfl⟩ := Option.map_eq_some_iff.mp hlist
    have hhistory := hrun.component (.of_none (hfresh.blocklists s.world.usbs.blocklist))
      fun _ _ _ hstep => hstep.blocklist
    rw [show blocklistAt s.world.usbs.blocklist s = some b from hb] at hhistory
    cases hhistory with
    | deployed hdeployed hblocklistRun =>
        obtain ⟨deployer, rfl⟩ := hdeployed
        intro t accounts hlast hmem hcall
        have hlisted := Blocklist.isBlocked_of_lastListed hblocklistRun hlast hmem hcall
        rw [hlisted] at hanswer
        cases hanswer

/-- **Whoever's USBS balance changes is vetted**: it has agreed to terms that are valid then, by a
call, a signature or a setter, it was not the last time put on the blocklist, and it is not
sanctioned. -/
theorem movement_vetted (hfresh : s₀.Fresh) (hrun : Run (Step crypto) s₀ tr s)
    {before after : List (Transition (System κ) (Action κ))} (htr : tr = before ++ t :: after)
    (hne : t.post.world.usbs.erc20.balances account ≠ t.pre.world.usbs.erc20.balances account) :
    Vetted crypto before t.pre account := by
  obtain ⟨hbefore, hstep⟩ := hrun.split htr
  exact vetted_of_screened hfresh hbefore (hstep.world.screened hne)

end System

namespace ComplianceSample

open Sample
open AllowlistUpgradeable.AllowlistSample (chain term)

/-- No lists are deployed, and only the manager has code. -/
def contracts : ListContracts where
  blocklists _ := none
  allowlists _ := none
  sanctionsLists := lists.sanctionsLists
  isContract account := account = managerAddress

def start : System ERC20 := .connect freezing contracts

lemma start_fresh : start.Fresh := ⟨fun _ => rfl, fun _ => rfl⟩

/-- The lists are deployed, the customer agrees to the terms, and the suspect is blocked. -/
def deployLists : List (System.Action ERC20) := [
  .contracts (.deployBlocklist 0x56 operator),
  .contracts (.deployAllowlist 0x58 0x59 operator operator),
  .contracts (.allowlist 0x58 operator (.addTerm term)),
  .contracts (.allowlist 0x58 operator (.setValidTermIndexes [0])),
  .contracts (.allowlist 0x58 customer (.addSelfToAllowlist 0)),
  .contracts (.blocklist 0x56 operator (.addToBlocklist [suspect]))]

/-- A deposit of the customer is made ready to be claimed. -/
def request : List (Action ERC20) := setup ++ [
  .pricer pricerAddress operator (.addPrice 1000000000000000000 999999),
  .manager customer (.requestSubscription 100000000),
  .manager operator (.setPriceIdForDeposits [1] [1]),
  .manager operator (.setClaimableTimestamp 1000000 [1])]

def deposit : List (System.Action ERC20) := deployLists ++ request.map .world

def claim : System.Action ERC20 := .world (.manager operator (.claimMint [1]))

def beforeClaim : System ERC20 := play (System.next chain) start deposit

def afterClaim : System ERC20 := (beforeClaim.next chain claim).get (by decide +kernel)

end ComplianceSample

open ComplianceSample in
open AllowlistUpgradeable.AllowlistSample (chain) in
theorem System.movement_vetted_sample :
    Vetted chain (playTrace (next chain) start deposit) beforeClaim Sample.customer := by
  have hclaim : beforeClaim.Step chain claim afterClaim :=
    step_of_next (Option.some_get _).symm
  have hrun : Run (Step chain) start
      (playTrace (next chain) start deposit ++ [⟨beforeClaim, claim, afterClaim⟩]) afterClaim :=
    (run_play (fun _ _ _ => step_of_next) start deposit).snoc hclaim
  exact movement_vetted start_fresh hrun rfl (by decide +kernel)

/-! ### Blocked accounts -/

namespace System

variable {crypto : Cryptography} {s₀ s : System ERC20}
  {tr : List (Transition (System ERC20) (Action ERC20))} {address account : Address}

/-- The account is still blocked, and nothing of it has moved since `s₀`. -/
structure Held (s₀ : System ERC20) (address account : Address)
    (tr : List (Transition (System ERC20) (Action ERC20))) (s : System ERC20) : Prop where
  blocks : s.Blocks address account
  balance : s.world.usbs.erc20.balances account = s₀.world.usbs.erc20.balances account
  spares : ∀ t ∈ tr, World.Spares account (worldTransition t)

/-- **A blocked account is frozen until it is released**: as long as the owner of the blocklist
does not remove it and nobody entitled to points the token or the manager to another list, its
balance stays as it is and every transaction of the system spares it. -/
theorem blocked_until_released (hblocks : s₀.Blocks address account)
    (hrun : Run (Step crypto) s₀ tr s) :
    Held s₀ address account tr s ∨
      ∃ before t after, tr = before ++ t :: after ∧ Held s₀ address account before t.pre ∧
        Releases address account t := by
  refine hrun.until_ended (P := Held s₀ address account) ⟨hblocks, rfl, by simp⟩ ?_
  intro tr t _ hheld hstep
  have hworld := Step.world hstep
  have hspares : World.Spares account (worldTransition t) := hheld.blocks.frozen.spares hworld
  refine (hheld.blocks.step hstep).imp_left fun hblocks' => ?_
  refine ⟨hblocks', hspares.balance.trans hheld.balance, fun t' ht' => ?_⟩
  rcases List.mem_append.mp ht' with hmem | hmem
  · exact hheld.spares t' hmem
  · obtain rfl := List.mem_singleton.mp hmem
    exact hspares

end System

namespace ComplianceSample

open Sample
open AllowlistUpgradeable.AllowlistSample (chain)

def blocked : System ERC20 := play (System.next chain) start deployLists

lemma blocked_blocks : blocked.Blocks 0x56 suspect := by
  have hlisted : (System.blocklistAt 0x56 blocked).any (·.isBlocked suspect) = true := by
    decide +kernel
  exact ⟨(Option.any_eq_true _ _).mp hlisted, by decide +kernel, by decide +kernel⟩

/-- The suspect tries to get rid of its USBS, and is removed from the list. -/
def release : List (System.Action ERC20) := attempts.map .world ++ [
  .contracts (.blocklist 0x56 operator (.removeFromBlocklist [suspect]))]

end ComplianceSample

open ComplianceSample Sample in
open AllowlistUpgradeable.AllowlistSample (chain) in
theorem System.blocked_until_released_sample :
    Held blocked 0x56 suspect (playTrace (next chain) blocked release)
        (play (next chain) blocked release) ∨
      ∃ before t after, playTrace (next chain) blocked release = before ++ t :: after ∧
        Held blocked 0x56 suspect before t.pre ∧ Releases 0x56 suspect t :=
  blocked_until_released blocked_blocks (run_play (fun _ _ _ => step_of_next) blocked release)

end BrivoUsbs
