import BrivoUsbs.Properties.Allowlist
import BrivoUsbs.Properties.TokenJournal

/-!
# The journal of the allowlist

The events of an allowlist are a complete and truthful record of it: replaying them gives every
verification, the hashes of the terms in their order, the current index and the valid ones, and each
event says what was so when it was emitted.  A call that changes the status of an account emits two
events, of which the second one says why.  If it names a signature, then whoever has the text of the
term can verify it at any later time, because terms never change (`Recorded.signed`).

The texts themselves are not in the events, but their hashes are.
-/

namespace BrivoUsbs

/-- What the events of an allowlist tell about it. -/
structure Register where
  verifications : Address → Uint256 → Bool
  termHashes : List Bytes32
  currentTermIndex : Uint256
  validIndexes : List Uint256

namespace Register

/-- The register of an allowlist nobody has used yet. -/
def empty : Register := ⟨fun _ _ => false, [], 0, []⟩

def setStatus (register : Register) (account : Address) (termIndex : Uint256) (status : Bool) :
    Register :=
  { register with
    verifications := Function.update register.verifications account
      (Function.update (register.verifications account) termIndex status) }

/-- What an event records.  The status of an account is in the event that says so alone. -/
def apply (register : Register) : AllowlistEvent → Register
  | .termAdded hashedMessage _ =>
      { register with termHashes := register.termHashes ++ [hashedMessage] }
  | .currentTermIndexSet _ newIndex => { register with currentTermIndex := newIndex }
  | .validTermIndexesSet _ newIndexes => { register with validIndexes := newIndexes }
  | .accountStatusSet account termIndex status => register.setStatus account termIndex status
  | .accountStatusSetByAdmin .. | .accountAddedSelf .. | .accountAddedFromSignature .. => register

/-- What is so when an event is emitted. -/
def Admits (register : Register) : AllowlistEvent → Prop
  | .termAdded _ termIndex =>
      termIndex.toNat = register.termHashes.length ∧ register.currentTermIndex = termIndex
  | .currentTermIndexSet oldIndex newIndex =>
      oldIndex = register.currentTermIndex ∧ newIndex.toNat ≤ register.termHashes.length
  | .validTermIndexesSet oldIndexes newIndexes =>
      oldIndexes = register.validIndexes ∧
        ∀ termIndex ∈ newIndexes, termIndex.toNat < register.termHashes.length
  | .accountStatusSet _ termIndex _ => termIndex.toNat < register.termHashes.length
  | .accountStatusSetByAdmin account termIndex status =>
      register.verifications account termIndex = status
  | .accountAddedSelf account termIndex | .accountAddedFromSignature account termIndex _ _ _ =>
      register.verifications account termIndex = true

/-- One event. -/
def Records (register : Register) (e : AllowlistEvent) (register' : Register) : Prop :=
  register.Admits e ∧ register' = register.apply e

lemma setStatus_verifications (register : Register) (account : Address) (termIndex : Uint256)
    (status : Bool) :
    (register.setStatus account termIndex status).verifications account termIndex = status := by
  simp [setStatus]

end Register

namespace AllowlistUpgradeable

open Register (Records)

variable {crypto : Cryptography} {allowlist allowlist' w₀ w : AllowlistUpgradeable}
  {sender account : Address} {termIndex : Uint256} {status : Bool} {v : BitVec 8} {r s : Bytes32}
  {tr : List (Transition AllowlistUpgradeable (Address × Call))}

def register (crypto : Cryptography) (allowlist : AllowlistUpgradeable) : Register where
  verifications := allowlist.verifications
  termHashes := allowlist.terms.map crypto.keccak256
  currentTermIndex := allowlist.currentTermIndex
  validIndexes := allowlist.validIndexes

/-- If the event names a signature, it is one of the account, of the text of the term. -/
def SignedBy (crypto : Cryptography) (terms : List Bytes) : AllowlistEvent → Prop
  | .accountAddedFromSignature account termIndex v r s =>
      ∃ term, terms[termIndex.toNat]? = some term ∧
        ECDSA.recover crypto (ECDSA.toEthSignedMessageHash crypto term) v r s = .ok account
  | _ => True

lemma SignedBy.mono {terms terms' : List Bytes} {e : AllowlistEvent}
    (h : SignedBy crypto terms e) (hextended : terms <+: terms') : SignedBy crypto terms' e := by
  cases e with
  | accountAddedFromSignature account termIndex v r s =>
      obtain ⟨term, hterm, hsigner⟩ := h
      exact ⟨term, term_kept hextended hterm, hsigner⟩
  | _ => trivial

/-- `allowlist'` is `allowlist` after events that record what happened to it. -/
structure Journaled (crypto : Cryptography) (allowlist allowlist' : AllowlistUpgradeable) :
    Prop where
  register : Emits Records (register crypto) AllowlistUpgradeable.log allowlist allowlist'
  signed : ∀ e ∈ allowlist'.log, e ∈ allowlist.log ∨ SignedBy crypto allowlist'.terms e
  access : AccessControl.Journaled allowlist.access allowlist'.access

/-! ## One call -/

lemma Journaled.of_events {es : List AllowlistEvent}
    (hlog : allowlist'.log = allowlist.log ++ es)
    (hpath : Path Records (allowlist.register crypto) es (allowlist'.register crypto))
    (hsigned : ∀ e ∈ es, SignedBy crypto allowlist'.terms e)
    (haccess : allowlist'.access = allowlist.access) : Journaled crypto allowlist allowlist' where
  register := ⟨es, hlog, hpath⟩
  signed e he := by
    rw [hlog] at he
    exact (List.mem_append.mp he).imp id (hsigned e)
  access := haccess ▸ .refl _

lemma setCurrentTermIndex_journaled
    (h : allowlist.setCurrentTermIndex sender termIndex = .ok allowlist') :
    Journaled crypto allowlist allowlist' := by
  simp only [setCurrentTermIndex, bind_eq_ok, AccessControl.checkRole_eq_ok, revertIf_eq_ok,
    pure_eq_ok, exists_const, not_le] at h
  obtain ⟨-, hlt, rfl⟩ := h
  have hle : termIndex.toNat ≤ (allowlist.terms.map crypto.keccak256).length := by
    rw [List.length_map]
    exact hlt.le
  exact .of_events rfl (.single ⟨⟨rfl, hle⟩, rfl⟩) (by simp [SignedBy]) rfl

lemma addTerm_journaled {term : Bytes} (h : allowlist.addTerm crypto sender term = .ok allowlist') :
    Journaled crypto allowlist allowlist' := by
  obtain ⟨index, -, hlength, hmembership, -⟩ := addTerm_spec h
  simp only [addTerm, setCurrentTermIndex, bind_eq_ok, arrayPush_eq_ok,
    pure_eq_ok] at h
  obtain ⟨_, -, _, ⟨-, rfl⟩, termIndex, -, _, ⟨_, -, _, -, rfl⟩, rfl⟩ := h
  obtain rfl : termIndex = index := congrArg Membership.currentTermIndex hmembership
  have hindex : termIndex.toNat = (allowlist.terms.map crypto.keccak256).length := by
    rw [List.length_map, hlength]
  -- The term becomes the current one before the event says that it was added.
  have hpath : Path Records (allowlist.register crypto)
      ([.currentTermIndexSet allowlist.currentTermIndex termIndex] ++
        [.termAdded (crypto.keccak256 term) termIndex])
      { allowlist.register crypto with
        currentTermIndex := termIndex
        termHashes := allowlist.terms.map crypto.keccak256 ++ [crypto.keccak256 term] } :=
    (Path.single ⟨⟨rfl, hindex.le⟩, rfl⟩).append (.single ⟨⟨hindex, rfl⟩, rfl⟩)
  refine .of_events (List.append_assoc ..) ?_ (by simp [SignedBy]) rfl
  simpa [register] using hpath

lemma setValidTermIndexes_journaled {validIndexes : List Uint256}
    (h : allowlist.setValidTermIndexes sender validIndexes = .ok allowlist') :
    Journaled crypto allowlist allowlist' := by
  simp only [setValidTermIndexes, bind_eq_ok, AccessControl.checkRole_eq_ok, exists_const,
    pure_eq_ok] at h
  obtain ⟨-, _, hloop, rfl⟩ := h
  have hlt : ∀ i ∈ validIndexes, i.toNat < (allowlist.terms.map crypto.keccak256).length := by
    intro i hi
    have hcheck := forM_eq_ok.mp hloop i hi
    rw [revertIf_eq_ok, not_le] at hcheck
    rwa [List.length_map]
  exact .of_events rfl (.single ⟨⟨rfl, hlt⟩, rfl⟩) (by simp [SignedBy]) rfl

/-- A status is set, and the event `reason` says why. -/
lemma setStatus_journaled {reason : AllowlistEvent}
    (h : allowlist.internalSetAccountStatus account termIndex status = .ok allowlist')
    (hadmits : ∀ register : Register, register.verifications account termIndex = status →
      register.Admits reason)
    (happly : ∀ register : Register, register.apply reason = register)
    (hsigned : SignedBy crypto allowlist.terms reason) :
    Journaled crypto allowlist { allowlist' with log := allowlist'.log ++ [reason] } := by
  simp only [internalSetAccountStatus, bind_eq_ok, revertIf_eq_ok, pure_eq_ok, exists_const,
    not_le] at h
  obtain ⟨hlt, rfl⟩ := h
  have hlt' : termIndex.toNat < (allowlist.terms.map crypto.keccak256).length := by
    rwa [List.length_map]
  let set := (allowlist.register crypto).setStatus account termIndex status
  have hset : set.verifications account termIndex = status :=
    Register.setStatus_verifications _ _ _ _
  have hpath : Path Records (allowlist.register crypto)
      ([.accountStatusSet account termIndex status] ++ [reason]) set :=
    (Path.single ⟨hlt', rfl⟩).append (.single ⟨hadmits set hset, (happly set).symm⟩)
  refine .of_events (List.append_assoc ..) hpath ?_ rfl
  simpa [SignedBy] using hsigned

lemma Step.journaled {a : Address × Call} (h : allowlist.Step crypto a allowlist')
    (hdone : allowlist.initializable.Done) : Journaled crypto allowlist allowlist' := by
  obtain ⟨sender, call⟩ := a
  cases call with
  | initializeAllowlist admin setter =>
      simp only [Step, exec, initializeAllowlist, bind_eq_ok] at h
      obtain ⟨result, hbegin, -⟩ := h
      exact absurd hbegin hdone.beginInitializer_ne_ok
  | addTerm term => exact addTerm_journaled h
  | setCurrentTermIndex termIndex => exact setCurrentTermIndex_journaled h
  | setValidTermIndexes validIndexes => exact setValidTermIndexes_journaled h
  | addSelfToAllowlist termIndex =>
      simp only [Step, exec, addSelfToAllowlist, bind_eq_ok, pure_eq_ok] at h
      obtain ⟨_, -, set, hset, rfl⟩ := h
      exact setStatus_journaled hset (fun _ hstatus => hstatus) (fun _ => rfl) trivial
  | setAccountStatus account termIndex status =>
      simp only [Step, exec, setAccountStatus, bind_eq_ok, pure_eq_ok] at h
      obtain ⟨_, -, set, hset, rfl⟩ := h
      exact setStatus_journaled hset (fun _ hstatus => hstatus) (fun _ => rfl) trivial
  | addAccountToAllowlist termIndex account v r s =>
      obtain ⟨-, -, term, hterm, hsigner⟩ := addAccountToAllowlist_isOk_iff.mp ⟨_, h⟩
      simp only [Step, exec, addAccountToAllowlist, bind_eq_ok, pure_eq_ok] at h
      obtain ⟨_, -, _, -, _, -, _, -, _, -, set, hset, rfl⟩ := h
      exact setStatus_journaled hset (fun _ hstatus => hstatus) (fun _ => rfl)
        ⟨term, hterm, hsigner⟩
  | access call =>
      simp only [Step, exec, bind_eq_ok, pure_eq_ok] at h
      obtain ⟨access, haccess, rfl⟩ := h
      exact ⟨⟨[], (List.append_nil _).symm, .nil⟩, fun _ he => .inl he,
        AccessControl.exec_journaled haccess⟩

/-! ## Runs -/

/-- The log of an allowlist tells what it is, and what was so at each event. -/
structure Recorded (crypto : Cryptography) (w : AllowlistUpgradeable) : Prop where
  register : w.register crypto = w.log.foldl Register.apply .empty
  admitted : ∀ before e after, w.log = before ++ e :: after →
    (before.foldl Register.apply .empty).Admits e
  /-- Every signature on record can be verified with the terms as they are. -/
  signed : ∀ e ∈ w.log, SignedBy crypto w.terms e
  access : w.access.storage = w.access.log.foldl AccessControl.apply .empty

/-- What holds in every state of a run. -/
structure Recording (crypto : Cryptography) (w : AllowlistUpgradeable) : Prop where
  done : w.initializable.Done
  path : Path Records .empty w.log (w.register crypto)
  signed : ∀ e ∈ w.log, SignedBy crypto w.terms e
  access : AccessControl.Journaled .empty w.access

lemma Deployed.recording (h : w₀.Deployed) : Recording crypto w₀ := by
  obtain ⟨isContract, msgSender, admin, setter, hinit⟩ := h
  have hbegin : empty.initializable.beginInitializer isContract = .ok (⟨1, true, []⟩, true) :=
    Initializable.beginInitializer_empty isContract
  simp only [initializeAllowlist, bind_eq_ok, hbegin, Except.ok.injEq, exists_eq_left',
    pure_eq_ok] at hinit
  subst hinit
  refine ⟨Initializable.once_done, .nil, by simp [empty], ?_⟩
  exact Journals.trans (Journals.trans AccessControl.internalGrantRole_journaled
    AccessControl.internalGrantRole_journaled) AccessControl.internalGrantRole_journaled

lemma Recording.step {a : Address × Call} (h : Recording crypto w₀) (hstep : w₀.Step crypto a w) :
    Recording crypto w := by
  obtain ⟨hmembership, hdone⟩ := hstep.membership h.done
  have hjournaled := hstep.journaled h.done
  have hextended : w₀.terms <+: w.terms := hmembership.terms_extended
  refine ⟨hdone, hjournaled.register.replay h.path, fun e he => ?_,
    h.access.trans hjournaled.access⟩
  exact (hjournaled.signed e he).elim (fun hold => (h.signed e hold).mono hextended) id

/-- **The allowlist's events are a complete and truthful record of it**, from its initialization on,
whoever calls it, and every signature in them proves what it says. -/
theorem allowlist_recorded (hdeployed : w₀.Deployed) (hrun : Run (Step crypto) w₀ tr w) :
    Recorded crypto w := by
  have hrecording : Recording crypto w :=
    (hrun.invariant (P := Recording crypto) hdeployed.recording fun _ _ hpre hstep =>
      hpre.step hstep).1
  obtain ⟨hregister, hadmitted⟩ := hrecording.path.replayed fun _ _ _ hrecords => hrecords
  exact ⟨hregister, hadmitted, hrecording.signed, hrecording.access.replay rfl⟩

open AllowlistSample in
theorem allowlist_recorded_sample : Recorded chain (play (next chain) world replayed) :=
  allowlist_recorded world_deployed (run_play (fun _ _ _ => step_of_next) _ _)

end AllowlistUpgradeable

end BrivoUsbs
