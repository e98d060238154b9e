import BrivoUsbs.Contracts.Blocklist
import BrivoUsbs.Framework.History

/-!
# The history of a blocklist

Who is on a blocklist, and who owns it, is a property of the calls it has accepted.  An account is
blocked if the last batch that named it was added, by the owner of that time.  The owner is whoever
last accepted the ownership, and was then the nominee of the owner before, or the deployer; and
nothing comes after a renounced ownership, so that the list then stays as it is.
-/

namespace BrivoUsbs

namespace Blocklist

variable {b b' w : Blocklist} {a : Address × Call} {account deployer : Address}
  {tr before after : List (Transition Blocklist (Address × Call))}
  {t : Transition Blocklist (Address × Call)}

/-! ## What a call writes -/

/-- The status a call gives an account, if any. -/
def writtenStatus (account : Address) (a : Address × Call) : Option Bool :=
  match a.2 with
  | .addToBlocklist accounts => if account ∈ accounts then some true else none
  | .removeFromBlocklist accounts => if account ∈ accounts then some false else none
  | .ownable _ => none

/-- The owner a call installs, if any. -/
def writtenOwner (a : Address × Call) : Option Address :=
  match a.2 with
  | .ownable .acceptOwnership => some a.1
  | .ownable .renounceOwnership => some 0
  | _ => none

/-- The nominee a call leaves, if it is about the ownership. -/
def writtenPendingOwner (a : Address × Call) : Option Address :=
  match a.2 with
  | .ownable (.transferOwnership newOwner) => some newOwner
  | .ownable _ => some 0
  | _ => none

/-- A batch gives the accounts it names one status. -/
lemma setBlocked_apply (blocked : Address → Bool) (status : Bool) (accounts : List Address) :
    setBlocked blocked status accounts account =
      if account ∈ accounts then status else blocked account := by
  induction accounts generalizing blocked with
  | nil => rfl
  | cons first accounts ih =>
      show setBlocked (Function.update blocked first status) status accounts account = _
      rw [ih]
      by_cases hfirst : account = first
      · simp [hfirst]
      · simp [hfirst]

lemma setBlocked_getD (blocked : Address → Bool) (status : Bool) (accounts : List Address) :
    setBlocked blocked status accounts account =
      (if account ∈ accounts then some status else none).getD (blocked account) := by
  rw [setBlocked_apply]
  split <;> rfl

/-- **What a call does**: who may make it, and what it writes. -/
structure Effect (b : Blocklist) (a : Address × Call) (b' : Blocklist) : Prop where
  sender : a.1 = if a.2 = .ownable .acceptOwnership then b.ownable.pendingOwner
    else b.ownable.owner
  status : ∀ account, b'.isBlocked account = (writtenStatus account a).getD (b.isBlocked account)
  owner : b'.ownable.owner = (writtenOwner a).getD b.ownable.owner
  pendingOwner : b'.ownable.pendingOwner = (writtenPendingOwner a).getD b.ownable.pendingOwner

lemma Step.effect (h : b.Step a b') : b.Effect a b' := by
  obtain ⟨sender, call⟩ := a
  obtain ⟨-, h⟩ := h
  cases call with
  | addToBlocklist accounts =>
      simp only [exec, addToBlocklist, Ownable2Step.onlyOwner, bind_eq_ok, require_eq_ok,
        exists_const, pure_eq_ok] at h
      obtain ⟨howner, rfl⟩ := h
      exact ⟨howner.symm, fun account => setBlocked_getD _ _ _, rfl, rfl⟩
  | removeFromBlocklist accounts =>
      simp only [exec, removeFromBlocklist, Ownable2Step.onlyOwner, bind_eq_ok, require_eq_ok,
        exists_const, pure_eq_ok] at h
      obtain ⟨howner, rfl⟩ := h
      exact ⟨howner.symm, fun account => setBlocked_getD _ _ _, rfl, rfl⟩
  | ownable call =>
      simp only [exec, bind_eq_ok, pure_eq_ok] at h
      obtain ⟨ownable, hcall, rfl⟩ := h
      cases call with
      | transferOwnership newOwner =>
          simp only [Ownable2Step.exec, Ownable2Step.transferOwnership, Ownable2Step.onlyOwner,
            bind_eq_ok, require_eq_ok, exists_const, pure_eq_ok] at hcall
          obtain ⟨howner, rfl⟩ := hcall
          exact ⟨howner.symm, fun account => rfl, rfl, rfl⟩
      | acceptOwnership =>
          simp only [Ownable2Step.exec, Ownable2Step.acceptOwnership, bind_eq_ok, require_eq_ok,
            exists_const, pure_eq_ok] at hcall
          obtain ⟨hpending, rfl⟩ := hcall
          exact ⟨hpending.symm, fun account => rfl, rfl, rfl⟩
      | renounceOwnership =>
          simp only [Ownable2Step.exec, Ownable2Step.renounceOwnership, Ownable2Step.onlyOwner,
            bind_eq_ok, require_eq_ok, exists_const, pure_eq_ok] at hcall
          obtain ⟨howner, rfl⟩ := hcall
          exact ⟨howner.symm, fun account => rfl, rfl, rfl⟩

/-! ## Runs -/

lemma isBlocked_eq (hrun : Run Step (deploy deployer) tr w) (account : Address) :
    w.isBlocked account =
      (lastWrite (fun t => writtenStatus account t.label) tr).getD false :=
  hrun.cell_eq_lastWrite (fun b => b.isBlocked account) fun _ _ hstep => hstep.effect.status account

lemma owner_eq (hrun : Run Step (deploy deployer) tr w) :
    w.ownable.owner = (lastWrite (fun t => writtenOwner t.label) tr).getD deployer :=
  hrun.cell_eq_lastWrite (fun b => b.ownable.owner) fun _ _ hstep => hstep.effect.owner

lemma pendingOwner_eq (hrun : Run Step (deploy deployer) tr w) :
    w.ownable.pendingOwner = (lastWrite (fun t => writtenPendingOwner t.label) tr).getD 0 :=
  hrun.cell_eq_lastWrite (fun b => b.ownable.pendingOwner) fun _ _ hstep =>
    hstep.effect.pendingOwner

/-- The last batch of a run that names the account. -/
def LastListed (tr : List (Transition Blocklist (Address × Call))) (account : Address)
    (t : Transition Blocklist (Address × Call)) : Prop :=
  ∃ before after, tr = before ++ t :: after ∧
    ∀ x ∈ after, writtenStatus account x.label = none

/-- The ownership is on offer to the account: the owner named it last. -/
def Nominated (tr : List (Transition Blocklist (Address × Call))) (account : Address) : Prop :=
  ∃ before n after, tr = before ++ n :: after ∧
    n.label = (n.pre.ownable.owner, .ownable (.transferOwnership account)) ∧
    ∀ x ∈ after, ∀ call, x.label.2 ≠ .ownable call

lemma isBlocked_of_lastListed (hrun : Run Step (deploy deployer) tr w) {accounts : List Address}
    (hlast : LastListed tr account t) (hmem : account ∈ accounts)
    (hcall : t.label.2 = .addToBlocklist accounts) : w.isBlocked account = true := by
  obtain ⟨before, after, rfl, hafter⟩ := hlast
  have hstatus : writtenStatus account t.label = some true := by
    rw [writtenStatus, hcall]
    exact if_pos hmem
  rw [isBlocked_eq hrun, lastWrite_eq_some_iff.mpr ⟨before, t, after, rfl, hstatus, hafter⟩]
  rfl

/-- **An account is blocked exactly if the last batch that named it was added**, and the owner of
that time added it. -/
theorem isBlocked_iff (hrun : Run Step (deploy deployer) tr w) :
    w.isBlocked account = true ↔
      ∃ t accounts, LastListed tr account t ∧ account ∈ accounts ∧
        t.label = (t.pre.ownable.owner, .addToBlocklist accounts) := by
  constructor
  · intro hblocked
    rw [isBlocked_eq hrun] at hblocked
    have hwritten : lastWrite (fun t => writtenStatus account t.label) tr = some true := by
      cases hlast : lastWrite (fun t => writtenStatus account t.label) tr with
      | none => rw [hlast] at hblocked; cases hblocked
      | some status => rw [hlast] at hblocked; exact congrArg some hblocked
    obtain ⟨before, t, after, rfl, hstatus, hafter⟩ := lastWrite_eq_some_iff.mp hwritten
    have heffect : Effect t.pre t.label t.post := (hrun.step_of_mem (by simp)).effect
    obtain ⟨pre, ⟨sender, call⟩, post⟩ := t
    cases call with
    | addToBlocklist accounts =>
        have hmem : account ∈ accounts := by
          by_contra hnot
          simp [writtenStatus, hnot] at hstatus
        obtain rfl : sender = pre.ownable.owner := heffect.sender
        exact ⟨_, accounts, ⟨before, after, rfl, hafter⟩, hmem, rfl⟩
    | removeFromBlocklist accounts => simp [writtenStatus] at hstatus
    | ownable call => cases hstatus
  · rintro ⟨t, accounts, hlast, hmem, hlabel⟩
    exact isBlocked_of_lastListed hrun hlast hmem (congrArg Prod.snd hlabel)

end Blocklist

namespace Sample

/-- An owner blocks two accounts, hands the list over, and lets one of them go before that. -/
def listing : List (Address × Blocklist.Call) := [
  (0x0A, .addToBlocklist [0x0B, 0x0C]),
  (0x0A, .ownable (.transferOwnership 0x0D)),
  (0x0A, .removeFromBlocklist [0x0C]),
  (0x0D, .ownable .acceptOwnership),
  (0x0A, .removeFromBlocklist [0x0B])]

end Sample

namespace Blocklist

variable {b b' w : Blocklist} {a : Address × Call} {deployer : Address}
  {tr before after : List (Transition Blocklist (Address × Call))}
  {t : Transition Blocklist (Address × Call)}

open Sample in
theorem isBlocked_iff_sample :
    ∃ t accounts, LastListed (playTrace next (deploy 0x0A) listing) 0x0B t ∧ 0x0B ∈ accounts ∧
      t.label = (t.pre.ownable.owner, .addToBlocklist accounts) :=
  (isBlocked_iff (run_play (fun _ _ _ => step_of_next) (deploy 0x0A) listing)).mp
    (by decide +kernel)

/-- How the ownership of a blocklist moved over a run from its deployment. -/
structure Handover (deployer : Address) (tr : List (Transition Blocklist (Address × Call)))
    (w : Blocklist) : Prop where
  owner : w.ownable.owner = (lastWrite (fun t => writtenOwner t.label) tr).getD deployer
  /-- Only the owner calls, but for the nominee who accepts. -/
  called : ∀ t ∈ tr, t.label.2 ≠ .ownable .acceptOwnership → t.label.1 = t.pre.ownable.owner
  accepted : ∀ before t after, tr = before ++ t :: after →
    t.label.2 = .ownable .acceptOwnership → Nominated before t.label.1
  renounced : ∀ before t after, tr = before ++ t :: after →
    t.label.2 = .ownable .renounceOwnership → after = []

/-- Who accepts the ownership has been offered it by the last call about the ownership. -/
lemma Step.nominated (hrun : Run Step (deploy deployer) before t.pre)
    (h : t.pre.Step t.label t.post) (hlabel : t.label.2 = .ownable .acceptOwnership) :
    Nominated before t.label.1 := by
  have hsender : t.label.1 = t.pre.ownable.pendingOwner := by
    have heffect := h.effect.sender
    rwa [if_pos hlabel] at heffect
  have hwritten : lastWrite (fun t => writtenPendingOwner t.label) before = some t.label.1 := by
    rw [pendingOwner_eq hrun] at hsender
    cases hlast : lastWrite (fun t => writtenPendingOwner t.label) before with
    | none =>
        rw [hlast] at hsender
        exact absurd hsender h.1
    | some nominee =>
        rw [hlast] at hsender
        exact congrArg some hsender.symm
  obtain ⟨earlier, n, later, rfl, hnominee, hlater⟩ := lastWrite_eq_some_iff.mp hwritten
  refine ⟨earlier, n, later, rfl, ?_, fun x hx call hcall => ?_⟩
  · have heffect : Effect n.pre n.label n.post := (hrun.step_of_mem (by simp)).effect
    obtain ⟨pre, ⟨sender, call⟩, post⟩ := n
    -- Everything else would have left the offer to nobody.
    cases call with
    | ownable call =>
        cases call with
        | transferOwnership newOwner =>
            obtain rfl : newOwner = t.label.1 := Option.some.inj hnominee
            obtain rfl : sender = pre.ownable.owner := heffect.sender
            rfl
        | _ => exact absurd (Option.some.inj hnominee).symm h.1
    | _ => cases hnominee
  · have hnone := hlater x hx
    rw [writtenPendingOwner, hcall] at hnone
    cases call <;> cases hnone

/-- Nobody owns a blocklist with a renounced ownership, and nobody can call it. -/
lemma not_step_of_renounced (hrun : Run Step (deploy deployer) (before ++ [t]) w)
    (hlabel : t.label.2 = .ownable .renounceOwnership) : ¬ w.Step a b' := by
  intro hstep
  obtain ⟨pre, ⟨sender, call⟩, post⟩ := t
  obtain rfl : call = .ownable .renounceOwnership := hlabel
  have howner : w.ownable.owner = 0 := by
    rw [owner_eq hrun, lastWrite_snoc]
    rfl
  have hpending : w.ownable.pendingOwner = 0 := by
    rw [pendingOwner_eq hrun, lastWrite_snoc]
    rfl
  have hsender := hstep.effect.sender
  rw [howner, hpending, ite_self] at hsender
  exact hstep.1 hsender

/-- **The ownership of a blocklist moves from hand to hand**: to a nominee of the owner, who
accepts it, and to nobody ever again once it is renounced. -/
theorem handover (hrun : Run Step (deploy deployer) tr w) : Handover deployer tr w := by
  refine ⟨owner_eq hrun, fun t ht hlabel => ?_, ?_, ?_⟩
  · have hsender := (hrun.step_of_mem ht).effect.sender
    rwa [if_neg hlabel] at hsender
  · rintro before t after htr hlabel
    obtain ⟨hbefore, hstep⟩ := hrun.split htr
    exact hstep.nominated hbefore hlabel
  · rintro before t after rfl hlabel
    cases after with
    | nil => rfl
    | cons next after =>
        have hsplit : before ++ t :: next :: after = (before ++ [t]) ++ next :: after := by simp
        obtain ⟨hbefore, hnext⟩ := hrun.split hsplit
        exact absurd hnext (not_step_of_renounced hbefore hlabel)

open Sample in
theorem handover_sample :
    Handover 0x0A (playTrace next (deploy 0x0A) listing) (play next (deploy 0x0A) listing) :=
  handover (run_play (fun _ _ _ => step_of_next) (deploy 0x0A) listing)

end Blocklist

end BrivoUsbs
