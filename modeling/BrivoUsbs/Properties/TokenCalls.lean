import BrivoUsbs.Properties.EventLog

/-!
# The calls of the token

Whatever is done to the system, the USBS token sees a sequence of calls: those that others make,
and those of the manager, which mints for the claims it settles and burns for the requests it
takes.  `Step.token_calls` says so, and what every call of the token keeps, every run of the system
keeps.
-/

namespace BrivoUsbs

namespace USBS

/-- A message to the token, and what the list contracts answer when it arrives. -/
structure Message where
  lists : Lists
  sender : Address
  call : Call

def CallStep (token : USBS) (m : Message) (token' : USBS) : Prop :=
  token.exec m.lists m.sender m.call = .ok token'

end USBS

namespace World

variable {κ : Type} {w₀ w w' : World κ} {tr : List (Transition (World κ) (Action κ))}
  {a : Action κ} {sender : Address}

/-- The messages to the token an action in the world `w` can make. -/
inductive Sends (w : World κ) : Action κ → USBS.Message → Prop
  | direct {sender : Address} {call : USBS.Call} :
      Sends w (.usbs sender call) ⟨w.lists, sender, call⟩
  | claimMint {sender user : Address} {ids : List Bytes32} {out : Uint256} :
      Sends w (.manager sender (.claimMint ids)) ⟨w.lists, w.self, .mint user out⟩
  | requestRedemption {sender : Address} {amount : Uint256} :
      Sends w (.manager sender (.requestRedemption amount))
        ⟨w.lists, w.self, .holder (.burnFrom sender amount)⟩
  | requestRedemptionServicedOffchain {sender : Address} {amount : Uint256}
      {destination : Bytes32} :
      Sends w (.manager sender (.requestRedemptionServicedOffchain amount destination))
        ⟨w.lists, w.self, .holder (.burnFrom sender amount)⟩

/-- A batch of claims mints once for each of them. -/
lemma claimMint_calls {ids ids' : List Bytes32} {manager manager' : USBSManager}
    {usbs usbs' : USBS}
    (h : ids.foldlM (fun state id =>
      state.1.internalClaimMint state.2 w.lists w.pricers w.self w.timestamp id)
        (manager, usbs) = .ok (manager', usbs')) :
    ∃ ms, Path USBS.CallStep usbs ms usbs' ∧
      ∀ m ∈ ms, w.Sends (.manager sender (.claimMint ids')) m := by
  induction ids generalizing manager usbs with
  | nil =>
      simp only [List.foldlM_nil, pure_eq_ok, Prod.mk.injEq] at h
      obtain ⟨-, rfl⟩ := h
      exact ⟨[], .nil, by simp⟩
  | cons id ids ih =>
      simp only [List.foldlM_cons, bind_eq_ok, Prod.exists] at h
      obtain ⟨mid, usbsMid, hfirst, hrest⟩ := h
      obtain ⟨out, price, -, -, -, -, -, hmint⟩ :=
        RWAHub.internalClaimMint_spec (USBSManager.internalClaimMint_hub hfirst)
      obtain ⟨ms, hpath, hsends⟩ := ih hrest
      have hcall : USBS.CallStep usbs ⟨w.lists, w.self, .mint _ out⟩ usbsMid := hmint
      refine ⟨_ :: ms, (Path.single hcall).append hpath, fun m hm => ?_⟩
      rcases List.mem_cons.mp hm with rfl | hmem
      · exact .claimMint
      · exact hsends m hmem

variable [IERC20 κ]

/-- **To the token a step of the system is a sequence of calls.** -/
lemma Step.token_calls (h : w.Step a w') :
    ∃ ms, Path USBS.CallStep w.usbs ms w'.usbs ∧ ∀ m ∈ ms, w.Sends a m := by
  obtain ⟨-, hexec⟩ := h
  have hone : ∀ {m : USBS.Message}, w.Sends a m → USBS.CallStep w.usbs m w'.usbs →
      ∃ ms, Path USBS.CallStep w.usbs ms w'.usbs ∧ ∀ m ∈ ms, w.Sends a m := by
    intro m hsends hcall
    refine ⟨[m], .single hcall, fun m' hm' => ?_⟩
    obtain rfl := List.mem_singleton.mp hm'
    exact hsends
  have hnone : w'.usbs = w.usbs →
      ∃ ms, Path USBS.CallStep w.usbs ms w'.usbs ∧ ∀ m ∈ ms, w.Sends a m := by
    intro hsame
    exact ⟨[], hsame ▸ .nil, by simp⟩
  cases a with
  | usbs sender call =>
      simp only [exec, bind_eq_ok, pure_eq_ok] at hexec
      obtain ⟨usbs', hcall, rfl⟩ := hexec
      exact hone .direct hcall
  | manager sender call =>
      cases call with
      | claimMint ids =>
          simp only [exec, execManager, USBSManager.claimMint, bind_eq_ok, pure_eq_ok,
            revertIf_eq_ok, exists_const, Prod.exists] at hexec
          obtain ⟨manager', usbs', ⟨-, hloop⟩, rfl⟩ := hexec
          exact claimMint_calls hloop
      | requestRedemption amount =>
          simp only [exec, execManager, bind_eq_ok, pure_eq_ok, Prod.exists] at hexec
          obtain ⟨hub', usbs', hcall, rfl⟩ := hexec
          obtain ⟨-, -, -, -, hburn⟩ := RWAHub.requestRedemption_spec w.prices hcall
          exact hone .requestRedemption hburn
      | requestRedemptionServicedOffchain amount destination =>
          simp only [exec, execManager, bind_eq_ok, pure_eq_ok, Prod.exists] at hexec
          obtain ⟨manager', usbs', hcall, rfl⟩ := hexec
          obtain ⟨-, -, -, -, -, -, hburn⟩ :=
            USBSManager.requestRedemptionServicedOffchain_spec w.prices hcall
          exact hone .requestRedemptionServicedOffchain hburn
      | _ =>
          simp only [exec, execManager, bind_eq_ok, pure_eq_ok] at hexec
          obtain ⟨_, -, rfl⟩ := hexec
          exact hnone rfl
  | _ => exact hnone ((exec_manager_eq (by simp) hexec).2.2 (by simp))

end World

end BrivoUsbs
