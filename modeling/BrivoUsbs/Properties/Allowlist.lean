import BrivoUsbs.Contracts.AllowlistUpgradeable
import BrivoUsbs.Framework.History

/-!
# Membership of the allowlist

Where a membership comes from, and how often a signature can be used.

`Membership` is what the allowlist has on record without events, and `Membership.Step` what a call
may do to it.  The verification of an account for a term is the last status the history of the
calls gave it, so membership is a property of that history: see `provenance`.

Nothing but this flag stops a signature from being handed in again, and a setter can clear it.
`signature_reusable_iff` is the exact law.
-/

namespace BrivoUsbs

open AllowlistUpgradeable (Call)

namespace AllowlistUpgradeable.Call

/-- The account and the term of which a call changes the status, with the new status. -/
def changedStatus (msgSender : Address) : Call → Option (Address × Uint256 × Bool)
  | .addSelfToAllowlist termIndex => some (msgSender, termIndex, true)
  | .addAccountToAllowlist termIndex account _ _ _ => some (account, termIndex, true)
  | .setAccountStatus account termIndex status => some (account, termIndex, status)
  | _ => none

end AllowlistUpgradeable.Call

/-- What an allowlist has on record. -/
structure Membership where
  verifications : Address → Uint256 → Bool
  terms : List Bytes
  currentTermIndex : Uint256
  validIndexes : List Uint256

namespace Membership

variable {crypto : Cryptography} {access : AccessControl} {m m' : Membership}
  {sender account : Address} {termIndex : Uint256} {status : Bool} {call : Call}

def setStatus (m : Membership) (account : Address) (termIndex : Uint256) (status : Bool) :
    Membership :=
  { m with
    verifications := Function.update m.verifications account
      (Function.update (m.verifications account) termIndex status) }

/-- What a call may do to the record of an allowlist with the roles `access`. -/
inductive Step (crypto : Cryptography) (access : AccessControl) (m : Membership)
    (sender : Address) : Call → Membership → Prop
  | addTerm {term : Bytes} {termIndex : Uint256}
      (hadmin : access.hasRole .allowlistAdmin sender = true)
      (hindex : termIndex.toNat = m.terms.length) :
      Step crypto access m sender (.addTerm term)
        { m with terms := m.terms ++ [term], currentTermIndex := termIndex }
  | setCurrentTermIndex {termIndex : Uint256}
      (hadmin : access.hasRole .allowlistAdmin sender = true)
      (hlt : termIndex.toNat < m.terms.length) :
      Step crypto access m sender (.setCurrentTermIndex termIndex)
        { m with currentTermIndex := termIndex }
  | setValidTermIndexes {validIndexes : List Uint256}
      (hadmin : access.hasRole .allowlistAdmin sender = true)
      (hlt : ∀ termIndex ∈ validIndexes, termIndex.toNat < m.terms.length) :
      Step crypto access m sender (.setValidTermIndexes validIndexes)
        { m with validIndexes := validIndexes }
  | addSelf {termIndex : Uint256} (hnew : m.verifications sender termIndex = false)
      (hlt : termIndex.toNat < m.terms.length) :
      Step crypto access m sender (.addSelfToAllowlist termIndex)
        (m.setStatus sender termIndex true)
  | addAccount {termIndex : Uint256} {account : Address} {v : BitVec 8} {r s : Bytes32}
      {term : Bytes} (hnew : m.verifications account termIndex = false) (hv : v = 27 ∨ v = 28)
      (hterm : m.terms[termIndex.toNat]? = some term)
      (hsigner : ECDSA.recover crypto (ECDSA.toEthSignedMessageHash crypto term) v r s =
        .ok account) :
      Step crypto access m sender (.addAccountToAllowlist termIndex account v r s)
        (m.setStatus account termIndex true)
  | setStatus {account : Address} {termIndex : Uint256} {status : Bool}
      (hsetter : access.hasRole .allowlistSetter sender = true)
      (hlt : termIndex.toNat < m.terms.length) :
      Step crypto access m sender (.setAccountStatus account termIndex status)
        (m.setStatus account termIndex status)
  /-- Roles change. -/
  | idle {call : AccessControl.Call} : Step crypto access m sender (.access call) m

/-! ## The indexes on record -/

/-- Every index on record is one of a term. -/
structure Indexed (m : Membership) : Prop where
  validIndexes : ∀ termIndex ∈ m.validIndexes, termIndex.toNat < m.terms.length
  verifications : ∀ account termIndex, m.verifications account termIndex = true →
    termIndex.toNat < m.terms.length
  currentTermIndex : m.terms ≠ [] → m.currentTermIndex.toNat < m.terms.length

lemma setStatus_verifications (m : Membership) (account : Address) (termIndex : Uint256)
    (status : Bool) (account' : Address) (termIndex' : Uint256) :
    (m.setStatus account termIndex status).verifications account' termIndex' =
      if account' = account ∧ termIndex' = termIndex then status
      else m.verifications account' termIndex' := by
  unfold setStatus
  by_cases haccount : account' = account
  · subst haccount
    by_cases hterm : termIndex' = termIndex
    · simp [hterm]
    · simp [hterm]
  · simp [haccount]

lemma Indexed.setStatus (h : m.Indexed) (hlt : termIndex.toNat < m.terms.length) :
    (m.setStatus account termIndex status).Indexed := by
  refine ⟨h.validIndexes, fun account' termIndex' hverified => ?_, h.currentTermIndex⟩
  rw [setStatus_verifications] at hverified
  split at hverified
  · next hsame =>
      rw [hsame.2]
      exact hlt
  · exact h.verifications account' termIndex' hverified

lemma Indexed.step (h : m.Indexed) (hstep : Step crypto access m sender call m') :
    m'.Indexed := by
  cases hstep with
  | @addTerm term termIndex hadmin hindex =>
      have hgrown : ∀ {n : ℕ}, n < m.terms.length → n < (m.terms ++ [term]).length := by
        intro n hn
        rw [List.length_append]
        exact Nat.lt_add_right _ hn
      refine ⟨fun i hi => hgrown (h.validIndexes i hi),
        fun account i hi => hgrown (h.verifications account i hi), fun _ => ?_⟩
      show termIndex.toNat < (m.terms ++ [term]).length
      rw [hindex, List.length_append, List.length_singleton]
      exact Nat.lt_succ_self _
  | setCurrentTermIndex hadmin hlt => exact ⟨h.validIndexes, h.verifications, fun _ => hlt⟩
  | setValidTermIndexes hadmin hlt => exact ⟨hlt, h.verifications, h.currentTermIndex⟩
  | addSelf hnew hlt => exact h.setStatus hlt
  | addAccount hnew hv hterm hsigner => exact h.setStatus (List.getElem?_eq_some_iff.mp hterm).1
  | setStatus hsetter hlt => exact h.setStatus hlt
  | idle => exact h

/-- Terms are only appended. -/
lemma Step.terms (h : Step crypto access m sender call m') :
    m'.terms = m.terms ∨ ∃ term, call = .addTerm term ∧ m'.terms = m.terms ++ [term] := by
  cases h with
  | @addTerm term => exact .inr ⟨term, rfl, rfl⟩
  | _ => exact .inl rfl

lemma Step.terms_extended (h : Step crypto access m sender call m') : m.terms <+: m'.terms := by
  rcases h.terms with hsame | ⟨term, -, hgrown⟩
  · rw [hsame]
  · rw [hgrown]
    exact List.prefix_append _ _

/-- The verification of an account changes with its status only. -/
lemma Step.verifications (h : Step crypto access m sender call m') (account : Address)
    (termIndex : Uint256) :
    m'.verifications account termIndex =
      match call.changedStatus sender with
      | some (account', termIndex', status) =>
          if account = account' ∧ termIndex = termIndex' then status
          else m.verifications account termIndex
      | none => m.verifications account termIndex := by
  cases h with
  | addSelf | addAccount | setStatus => exact setStatus_verifications _ _ _ _ _ _
  | _ => rfl

end Membership

/-! ## The contract keeps to its record -/

namespace AllowlistUpgradeable

variable {crypto : Cryptography} {allowlist allowlist' w₀ w : AllowlistUpgradeable}
  {sender account : Address} {termIndex : Uint256} {status : Bool} {v : BitVec 8} {r s : Bytes32}

def membership (allowlist : AllowlistUpgradeable) : Membership where
  verifications := allowlist.verifications
  terms := allowlist.terms
  currentTermIndex := allowlist.currentTermIndex
  validIndexes := allowlist.validIndexes

lemma setCurrentTermIndex_spec
    (h : allowlist.setCurrentTermIndex sender termIndex = .ok allowlist') :
    allowlist.access.hasRole .allowlistAdmin sender = true ∧
      termIndex.toNat < allowlist.terms.length ∧
      allowlist'.membership = { allowlist.membership with currentTermIndex := termIndex } ∧
      allowlist'.initializable = allowlist.initializable := by
  simp only [setCurrentTermIndex, bind_eq_ok, AccessControl.checkRole_eq_ok, revertIf_eq_ok,
    pure_eq_ok, exists_const, not_le] at h
  obtain ⟨hadmin, hlt, rfl⟩ := h
  exact ⟨hadmin, hlt, rfl, rfl⟩

lemma addTerm_spec {term : Bytes} (h : allowlist.addTerm crypto sender term = .ok allowlist') :
    ∃ termIndex : Uint256, allowlist.access.hasRole .allowlistAdmin sender = true ∧
      termIndex.toNat = allowlist.terms.length ∧
      allowlist'.membership = { allowlist.membership with
        terms := allowlist.terms ++ [term], currentTermIndex := termIndex } ∧
      allowlist'.initializable = allowlist.initializable := by
  simp only [addTerm, bind_eq_ok, AccessControl.checkRole_eq_ok, exists_const, arrayPush_eq_ok,
    checkedSub_eq_ok, pure_eq_ok] at h
  obtain ⟨-, terms, ⟨hlength, rfl⟩, termIndex, hindex, current, hcurrent, rfl⟩ := h
  obtain ⟨hadmin, -, hmembership, hinitializable⟩ := setCurrentTermIndex_spec hcurrent
  refine ⟨termIndex, hadmin, ?_, hmembership, hinitializable⟩
  have hone : (1 : Uint256).toNat = 1 := rfl
  rw [arrayLength, BitVec.toNat_ofNat, List.length_append, List.length_singleton,
    Nat.mod_eq_of_lt (by omega), hone] at hindex
  exact Nat.succ.inj hindex

lemma internalSetAccountStatus_spec
    (h : allowlist.internalSetAccountStatus account termIndex status = .ok allowlist') :
    termIndex.toNat < allowlist.terms.length ∧
      allowlist'.membership = allowlist.membership.setStatus account termIndex status ∧
      allowlist'.initializable = allowlist.initializable := by
  simp only [internalSetAccountStatus, bind_eq_ok, revertIf_eq_ok, pure_eq_ok, exists_const,
    not_le] at h
  obtain ⟨hlt, rfl⟩ := h
  exact ⟨hlt, rfl, rfl⟩

/-- **When a signature is accepted, exactly.** -/
lemma addAccountToAllowlist_isOk_iff :
    (∃ allowlist', allowlist.addAccountToAllowlist crypto termIndex account v r s =
        .ok allowlist') ↔
      allowlist.verifications account termIndex = false ∧ (v = 27 ∨ v = 28) ∧
        ∃ term, allowlist.terms[termIndex.toNat]? = some term ∧
          ECDSA.recover crypto (ECDSA.toEthSignedMessageHash crypto term) v r s =
            .ok account := by
  simp only [addAccountToAllowlist, internalSetAccountStatus, bind_eq_ok, revertIf_eq_ok,
    arrayGet_eq_ok, pure_eq_ok, exists_const, not_and_or, not_not, Bool.not_eq_true]
  constructor
  · rintro ⟨allowlist', hnew, hv, term, hterm, signer, hsigner, rfl, -⟩
    exact ⟨hnew, hv, term, hterm, hsigner⟩
  · rintro ⟨hnew, hv, term, hterm, hsigner⟩
    have hlt := (List.getElem?_eq_some_iff.mp hterm).1
    exact ⟨_, hnew, hv, term, hterm, account, hsigner, rfl, _, ⟨not_le.mpr hlt, rfl⟩, rfl⟩

lemma addAccountToAllowlist_spec
    (h : allowlist.addAccountToAllowlist crypto termIndex account v r s = .ok allowlist') :
    allowlist'.membership = allowlist.membership.setStatus account termIndex true ∧
      allowlist'.initializable = allowlist.initializable := by
  simp only [addAccountToAllowlist, bind_eq_ok, pure_eq_ok] at h
  obtain ⟨_, -, _, -, _, -, _, -, _, -, set, hset, rfl⟩ := h
  obtain ⟨-, hmembership, hinitializable⟩ := internalSetAccountStatus_spec hset
  exact ⟨hmembership, hinitializable⟩

/-- **The contract keeps to its record**, once it is initialized, and stays initialized. -/
theorem Step.membership {a : Address × Call} (h : allowlist.Step crypto a allowlist')
    (hdone : allowlist.initializable.Done) :
    Membership.Step crypto allowlist.access allowlist.membership a.1 a.2 allowlist'.membership ∧
      allowlist'.initializable.Done := by
  obtain ⟨sender, call⟩ := a
  cases call with
  | initializeAllowlist admin setter =>
      simp only [Step, exec, initializeAllowlist, bind_eq_ok] at h
      obtain ⟨result, hbegin, -⟩ := h
      exact absurd hbegin hdone.beginInitializer_ne_ok
  | addTerm term =>
      obtain ⟨termIndex, hadmin, hindex, hmembership, hinitializable⟩ := addTerm_spec h
      rw [hmembership, hinitializable]
      exact ⟨.addTerm hadmin hindex, hdone⟩
  | setCurrentTermIndex termIndex =>
      obtain ⟨hadmin, hlt, hmembership, hinitializable⟩ := setCurrentTermIndex_spec h
      rw [hmembership, hinitializable]
      exact ⟨.setCurrentTermIndex hadmin hlt, hdone⟩
  | setValidTermIndexes validIndexes =>
      simp only [Step, exec, setValidTermIndexes, bind_eq_ok, AccessControl.checkRole_eq_ok,
        exists_const, pure_eq_ok] at h
      obtain ⟨hadmin, _, hloop, rfl⟩ := h
      refine ⟨.setValidTermIndexes hadmin fun i hi => ?_, hdone⟩
      have hcheck := forM_eq_ok.mp hloop i hi
      rw [revertIf_eq_ok, not_le] at hcheck
      exact hcheck
  | addSelfToAllowlist termIndex =>
      simp only [Step, exec, addSelfToAllowlist, bind_eq_ok, revertIf_eq_ok, exists_const,
        pure_eq_ok, Bool.not_eq_true] at h
      obtain ⟨hnew, set, hset, rfl⟩ := h
      obtain ⟨hlt, hmembership, hinitializable⟩ := internalSetAccountStatus_spec hset
      show Membership.Step _ _ _ _ _ set.membership ∧ set.initializable.Done
      rw [hmembership, hinitializable]
      exact ⟨.addSelf hnew hlt, hdone⟩
  | setAccountStatus account termIndex status =>
      simp only [Step, exec, setAccountStatus, bind_eq_ok, AccessControl.checkRole_eq_ok,
        exists_const, pure_eq_ok] at h
      obtain ⟨hsetter, set, hset, rfl⟩ := h
      obtain ⟨hlt, hmembership, hinitializable⟩ := internalSetAccountStatus_spec hset
      show Membership.Step _ _ _ _ _ set.membership ∧ set.initializable.Done
      rw [hmembership, hinitializable]
      exact ⟨.setStatus hsetter hlt, hdone⟩
  | addAccountToAllowlist termIndex account v r s =>
      obtain ⟨hnew, hv, term, hterm, hsigner⟩ := addAccountToAllowlist_isOk_iff.mp ⟨_, h⟩
      obtain ⟨hmembership, hinitializable⟩ := addAccountToAllowlist_spec h
      rw [hmembership, hinitializable]
      exact ⟨.addAccount hnew hv hterm hsigner, hdone⟩
  | access call =>
      simp only [Step, exec, bind_eq_ok, pure_eq_ok] at h
      obtain ⟨access, -, rfl⟩ := h
      exact ⟨.idle, hdone⟩

/-! ## The history of a membership -/

variable {tr tr₁ tr₂ : List (Transition AllowlistUpgradeable (Address × Call))}
  {t : Transition AllowlistUpgradeable (Address × Call)}

/-- The status a call gives an account for a term, if any. -/
def writtenStatus (account : Address) (termIndex : Uint256)
    (t : Transition AllowlistUpgradeable (Address × Call)) : Option Bool :=
  match t.label.2.changedStatus t.label.1 with
  | some (account', termIndex', status) =>
      if account = account' ∧ termIndex = termIndex' then some status else none
  | none => none

/-- The last change of the status of an account for a term. -/
def LastChange (tr : List (Transition AllowlistUpgradeable (Address × Call)))
    (account : Address) (termIndex : Uint256)
    (t : Transition AllowlistUpgradeable (Address × Call)) : Prop :=
  ∃ before after, tr = before ++ t :: after ∧ writtenStatus account termIndex t ≠ none ∧
    ∀ x ∈ after, writtenStatus account termIndex x = none

/-- The calls that make an account agree to a term: its own, with its signature of the text, or a
setter's. -/
inductive Grants (crypto : Cryptography) (terms : List Bytes) (account : Address)
    (termIndex : Uint256) (t : Transition AllowlistUpgradeable (Address × Call)) : Prop
  | self (hlabel : t.label = (account, .addSelfToAllowlist termIndex))
  | signature {msgSender : Address} {v : BitVec 8} {r s : Bytes32} {term : Bytes}
      (hlabel : t.label = (msgSender, .addAccountToAllowlist termIndex account v r s))
      (hterm : terms[termIndex.toNat]? = some term)
      (hsigner : ECDSA.recover crypto (ECDSA.toEthSignedMessageHash crypto term) v r s =
        .ok account)
  | setter {msgSender : Address}
      (hlabel : t.label = (msgSender, .setAccountStatus account termIndex true))
      (hsetter : t.pre.access.hasRole .allowlistSetter msgSender = true)

/-- A setter takes the status away. -/
def Clears (account : Address) (termIndex : Uint256)
    (t : Transition AllowlistUpgradeable (Address × Call)) : Prop :=
  ∃ msgSender, t.label = (msgSender, .setAccountStatus account termIndex false) ∧
    t.pre.access.hasRole .allowlistSetter msgSender = true

lemma Grants.writtenStatus {terms : List Bytes} (h : Grants crypto terms account termIndex t) :
    writtenStatus account termIndex t = some true := by
  cases h with
  | self hlabel | signature hlabel | setter hlabel =>
      rw [AllowlistUpgradeable.writtenStatus, hlabel]
      exact if_pos ⟨rfl, rfl⟩

lemma Clears.writtenStatus (h : Clears account termIndex t) :
    writtenStatus account termIndex t = some false := by
  obtain ⟨msgSender, hlabel, -⟩ := h
  rw [AllowlistUpgradeable.writtenStatus, hlabel]
  exact if_pos ⟨rfl, rfl⟩

lemma term_kept {terms terms' : List Bytes} {n : ℕ} {term : Bytes}
    (h : terms <+: terms') (hterm : terms[n]? = some term) : terms'[n]? = some term := by
  obtain ⟨rest, rfl⟩ := h
  rw [List.getElem?_append_left (List.getElem?_eq_some_iff.mp hterm).1, hterm]

/-- The text of a term does not change. -/
lemma Grants.mono {terms terms' : List Bytes} (h : Grants crypto terms account termIndex t)
    (hextended : terms <+: terms') : Grants crypto terms' account termIndex t := by
  cases h with
  | self hlabel => exact .self hlabel
  | signature hlabel hterm hsigner =>
      exact .signature hlabel (term_kept hextended hterm) hsigner
  | setter hlabel hsetter => exact .setter hlabel hsetter

/-- What a change of status means. -/
lemma grants_or_clears
    (hstep : Membership.Step crypto t.pre.access t.pre.membership t.label.1 t.label.2
      t.post.membership)
    (hwritten : writtenStatus account termIndex t = some status) :
    status = true ∧ Grants crypto t.pre.terms account termIndex t ∨
      status = false ∧ Clears account termIndex t := by
  obtain ⟨pre, ⟨sender, call⟩, post⟩ := t
  unfold writtenStatus at hwritten
  generalize hpost : membership post = m' at hstep
  cases hstep with
  | addSelf hnew hlt =>
      obtain ⟨⟨rfl, rfl⟩, hstatus⟩ := Option.ite_none_right_eq_some.mp hwritten
      exact .inl ⟨(Option.some.inj hstatus).symm, .self rfl⟩
  | addAccount hnew hv hterm hsigner =>
      obtain ⟨⟨rfl, rfl⟩, hstatus⟩ := Option.ite_none_right_eq_some.mp hwritten
      exact .inl ⟨(Option.some.inj hstatus).symm, .signature rfl hterm hsigner⟩
  | @setStatus account' index status' hsetter hlt =>
      obtain ⟨⟨rfl, rfl⟩, hstatus⟩ := Option.ite_none_right_eq_some.mp hwritten
      obtain rfl := Option.some.inj hstatus
      cases status' with
      | true => exact .inl ⟨rfl, .setter rfl hsetter⟩
      | false => exact .inr ⟨rfl, sender, rfl, hsetter⟩
  | _ => cases hwritten

lemma lastWrite_writtenStatus_iff :
    lastWrite (writtenStatus account termIndex) tr = some status ↔
      ∃ t, LastChange tr account termIndex t ∧ writtenStatus account termIndex t = some status := by
  rw [lastWrite_eq_some_iff]
  constructor
  · rintro ⟨before, t, after, htr, hwritten, hafter⟩
    exact ⟨t, ⟨before, after, htr, by simp [hwritten], hafter⟩, hwritten⟩
  · rintro ⟨t, ⟨before, after, htr, -, hafter⟩, hwritten⟩
    exact ⟨before, t, after, htr, hwritten, hafter⟩

lemma LastChange.mem (h : LastChange tr account termIndex t) : t ∈ tr := by
  obtain ⟨before, after, rfl, -⟩ := h
  exact List.mem_append_right _ List.mem_cons_self

/-! ## Runs -/

lemma Deployed.spec (h : w₀.Deployed) :
    w₀.initializable.Done ∧ w₀.membership = ⟨fun _ _ => false, [], 0, []⟩ := by
  obtain ⟨isContract, msgSender, admin, setter, hinit⟩ := h
  have hbegin : empty.initializable.beginInitializer isContract = .ok (⟨1, true, []⟩, true) :=
    Initializable.beginInitializer_empty isContract
  simp only [initializeAllowlist, bind_eq_ok, hbegin, Except.ok.injEq, exists_eq_left',
    pure_eq_ok] at hinit
  subst hinit
  exact ⟨Initializable.once_done, rfl⟩

/-- Every step of a run is one of the record. -/
lemma membership_steps (hdeployed : w₀.Deployed) (hrun : Run (Step crypto) w₀ tr w) :
    ∀ t ∈ tr, Membership.Step crypto t.pre.access t.pre.membership t.label.1 t.label.2
      t.post.membership := by
  intro t ht
  obtain ⟨-, hdone⟩ := hrun.invariant (P := fun w => w.initializable.Done) hdeployed.spec.1
    fun t _ hpre hstep => (hstep.membership hpre).2
  have hstep := hrun.step_of_mem ht
  exact (hstep.membership (hdone t ht).1).1

lemma indexed (hdeployed : w₀.Deployed) (hrun : Run (Step crypto) w₀ tr w) :
    w.membership.Indexed := by
  have hsteps := membership_steps hdeployed hrun
  refine (hrun.invariant (P := fun w => w.membership.Indexed) ?_
    fun t ht hpre _ => hpre.step (hsteps t ht)).1
  rw [hdeployed.spec.2]
  exact ⟨fun i hi => absurd hi List.not_mem_nil, fun account i hi => absurd hi Bool.false_ne_true,
    fun hne => absurd rfl hne⟩

lemma terms_extended (hdeployed : w₀.Deployed) (hrun : Run (Step crypto) w₀ tr w)
    {s : AllowlistUpgradeable} (hs : Run.Visits tr w s) : s.terms <+: w.terms := by
  refine hrun.rel_of_visits (R := fun s s' => s.terms <+: s'.terms) (fun s => List.prefix_rfl) ?_
    (fun t ht => (membership_steps hdeployed hrun t ht).terms_extended) hs
  intro s s' s'' h h'
  exact h.trans h'

/-- The verification of an account is the last status it was given. -/
lemma verifications_eq (hdeployed : w₀.Deployed) (hrun : Run (Step crypto) w₀ tr w)
    (account : Address) (termIndex : Uint256) :
    w.verifications account termIndex =
      (lastWrite (writtenStatus account termIndex) tr).getD false := by
  have hinitial : w₀.verifications account termIndex = false :=
    congrArg (fun m : Membership => m.verifications account termIndex) hdeployed.spec.2
  rw [← hinitial]
  refine hrun.cell_eq_lastWrite (fun w => w.verifications account termIndex) fun t ht _ => ?_
  have hstep := (membership_steps hdeployed hrun t ht).verifications account termIndex
  refine hstep.trans ?_
  unfold writtenStatus
  split
  · split <;> rfl
  · rfl

/-- An account is verified for a term exactly if the last change of its status was a grant. -/
lemma verifications_iff (hdeployed : w₀.Deployed) (hrun : Run (Step crypto) w₀ tr w) :
    w.verifications account termIndex = true ↔
      ∃ t, LastChange tr account termIndex t ∧ Grants crypto w.terms account termIndex t := by
  have hlast : w.verifications account termIndex = true ↔
      lastWrite (writtenStatus account termIndex) tr = some true := by
    rw [verifications_eq hdeployed hrun]
    cases lastWrite (writtenStatus account termIndex) tr <;> simp
  rw [hlast, lastWrite_writtenStatus_iff]
  refine exists_congr fun t => and_congr_right fun hchange => ?_
  constructor
  · intro hwritten
    rcases grants_or_clears (membership_steps hdeployed hrun t hchange.mem) hwritten with
      ⟨-, hgrants⟩ | ⟨hfalse, -⟩
    · exact hgrants.mono (terms_extended hdeployed hrun (Run.visits_pre hchange.mem))
    · cases hfalse
  · exact fun hgrants => hgrants.writtenStatus

/-- Where the membership of the allowlist `w` comes from, at the end of the run `tr`. -/
structure Provenance (crypto : Cryptography)
    (tr : List (Transition AllowlistUpgradeable (Address × Call)))
    (w : AllowlistUpgradeable) : Prop where
  appended : ∀ t ∈ tr, t.post.terms = t.pre.terms ∨
    ∃ term, t.label.2 = .addTerm term ∧ t.post.terms = t.pre.terms ++ [term]
  terms : ∀ s, Run.Visits tr w s → s.terms <+: w.terms
  validIndexes : ∀ termIndex ∈ w.validIndexes, termIndex.toNat < w.terms.length
  verifications : ∀ account termIndex, w.verifications account termIndex = true →
    termIndex.toNat < w.terms.length
  currentTermIndex : w.terms ≠ [] → w.currentTermIndex.toNat < w.terms.length
  isAllowed : ∀ isContract account, isContract account = false →
    (w.isAllowed isContract account = true ↔ ∃ termIndex ∈ w.validIndexes,
      ∃ t, LastChange tr account termIndex t ∧ Grants crypto w.terms account termIndex t)

/-- **Provenance of membership**, at the end of every run of an initialized allowlist. -/
theorem provenance (hdeployed : w₀.Deployed) (hrun : Run (Step crypto) w₀ tr w) :
    Provenance crypto tr w := by
  have hindexed := indexed hdeployed hrun
  refine ⟨fun t ht => (membership_steps hdeployed hrun t ht).terms,
    fun s hs => terms_extended hdeployed hrun hs, hindexed.validIndexes, hindexed.verifications,
    hindexed.currentTermIndex, fun isContract account hcode => ?_⟩
  rw [AllowlistUpgradeable.isAllowed, hcode, if_neg Bool.false_ne_true, List.any_eq_true]
  refine exists_congr fun termIndex => and_congr_right fun _ => ?_
  exact verifications_iff hdeployed hrun

/-! ## How often a signature works -/

/-- The last change of the status of an account for a term was a setter's, who took it away. -/
def Cleared (tr : List (Transition AllowlistUpgradeable (Address × Call)))
    (account : Address) (termIndex : Uint256) : Prop :=
  ∃ t, LastChange tr account termIndex t ∧ Clears account termIndex t

/-- **A signature works again exactly if the status was taken away.**  After a step `t` of a run
accepted a signature, any caller can hand it in again if and only if the last change of the status
since then was a setter's, who took it away. -/
lemma addAccountToAllowlist_again_iff (hdeployed : w₀.Deployed)
    (hrun : Run (Step crypto) w₀ tr w) (htr : tr = tr₁ ++ t :: tr₂)
    (hlabel : t.label.2 = .addAccountToAllowlist termIndex account v r s) :
    (∃ w', w.addAccountToAllowlist crypto termIndex account v r s = .ok w') ↔
      Cleared tr₂ account termIndex := by
  have ht : t ∈ tr := htr ▸ List.mem_append_right _ List.mem_cons_self
  have hstep := (hrun.split htr).2
  rw [Step, hlabel] at hstep
  -- The checks of the signature come out as they did before.
  obtain ⟨-, hv, term, hterm, hsigner⟩ := addAccountToAllowlist_isOk_iff.mp ⟨_, hstep⟩
  have hterm' : w.terms[termIndex.toNat]? = some term :=
    term_kept (terms_extended hdeployed hrun (Run.visits_pre ht)) hterm
  have haccepted : (∃ w', w.addAccountToAllowlist crypto termIndex account v r s = .ok w') ↔
      w.verifications account termIndex = false := by
    rw [addAccountToAllowlist_isOk_iff]
    exact ⟨fun h => h.1, fun h => ⟨h, hv, term, hterm', hsigner⟩⟩
  -- What is left is the flag, which the step `t` has set.
  have hset : writtenStatus account termIndex t = some true := by
    rw [writtenStatus, hlabel]
    exact if_pos ⟨rfl, rfl⟩
  have hflag : w.verifications account termIndex =
      (lastWrite (writtenStatus account termIndex) tr₂).getD true := by
    rw [verifications_eq hdeployed hrun, htr, List.append_cons, lastWrite_append, lastWrite_snoc,
      hset]
    cases lastWrite (writtenStatus account termIndex) tr₂ <;> rfl
  have hlast : w.verifications account termIndex = false ↔
      lastWrite (writtenStatus account termIndex) tr₂ = some false := by
    rw [hflag]
    cases lastWrite (writtenStatus account termIndex) tr₂ <;> simp
  rw [haccepted, hlast, lastWrite_writtenStatus_iff]
  refine exists_congr fun u => and_congr_right fun hchange => ?_
  constructor
  · intro hwritten
    have hu : u ∈ tr := htr ▸ List.mem_append_right _ (List.mem_cons_of_mem _ hchange.mem)
    rcases grants_or_clears (membership_steps hdeployed hrun u hu) hwritten with
      ⟨htrue, -⟩ | ⟨-, hclears⟩
    · cases htrue
    · exact hclears
  · exact fun hclears => hclears.writtenStatus

/-- **A signature works once until the status is taken away.**  And then it works again, for any
caller, as long as nobody has changed the status since. -/
theorem signature_reuse (hdeployed : w₀.Deployed) (hrun : Run (Step crypto) w₀ tr w)
    (htr : tr = tr₁ ++ t :: tr₂)
    (hlabel : t.label.2 = .addAccountToAllowlist termIndex account v r s) :
    (∀ caller, (∃ w', w.exec crypto caller (.addAccountToAllowlist termIndex account v r s) =
        .ok w') ↔ Cleared tr₂ account termIndex) ∧
      ∀ before u after, tr₂ = before ++ u :: after →
        u.label.2 = .addAccountToAllowlist termIndex account v r s →
          Cleared before account termIndex := by
  refine ⟨fun caller => addAccountToAllowlist_again_iff hdeployed hrun htr hlabel, ?_⟩
  rintro before u after rfl hagain
  have hsplit : tr = (tr₁ ++ t :: before) ++ u :: after := by simp [htr]
  obtain ⟨hpre, hstep⟩ := hrun.split hsplit
  rw [Step, hagain] at hstep
  exact (addAccountToAllowlist_again_iff hdeployed hpre rfl hlabel).mp ⟨_, hstep⟩

/-! ## Samples -/

namespace AllowlistSample

def admin : Address := 0x0A

def setter : Address := 0x0B

def stranger : Address := 0x77

/-- The account of the private key `0xB0B`. -/
def signer : Address := 0x0376aac07ad725e01357b1725b5cec61ae10473c

def term : Bytes := ascii "tester abc".toList

def message : Bytes := ascii "\x19Ethereum Signed Message:\n10tester abc".toList

def messageHash : Bytes32 := 0xb65bb73465b6175896055300ed5a52036238f87c9cfc29072d93448ad2e1dff9

def sigR : Bytes32 := 0x188aa46573524e02f250c7ff76422edffc7e0a384b96c39ea2e384432e49d55a

def sigS : Bytes32 := 0x0012beff1033f42db5a9cd6c4888923ba3a6ae96a2de3c2c62e1349bf554f8707a

/-- The values of the chain at the inputs of the samples. -/
def chain : Cryptography where
  keccak256 bytes :=
    if bytes = message then messageHash
    else if bytes = term then 0x63e67a9dd7c2ab1161aafe3f94bdcc2a3c30e6a4e65d7cf53b9ba8b85dc1bbbc
    else 0
  ecrecover hash v r s :=
    if hash = messageHash ∧ v = 28 ∧ r = sigR ∧ s = sigS then signer else 0

def world : AllowlistUpgradeable :=
  (empty.initializeAllowlist true admin admin setter).toOption.get (by decide)

lemma world_deployed : world.Deployed := ⟨true, admin, admin, setter, rfl⟩

/-- The terms are published, and a stranger hands in the signature of an account. -/
def signed : List (Address × Call) := [
  (admin, .addTerm term),
  (admin, .setValidTermIndexes [0]),
  (stranger, .addAccountToAllowlist 0 signer 28 sigR sigS)]

/-- The setter takes the membership away, and the stranger hands in the old signature. -/
def replayed : List (Address × Call) := signed ++ [
  (setter, .setAccountStatus signer 0 false),
  (stranger, .addAccountToAllowlist 0 signer 28 sigR sigS)]

end AllowlistSample

open AllowlistSample in
theorem provenance_sample :
    (play (next chain) world signed).isAllowed (fun _ => false) signer = true ∧
      (play (next chain) world signed).isAllowed (fun _ => false) stranger = false ∧
      Provenance chain (playTrace (next chain) world signed)
        (play (next chain) world signed) :=
  ⟨by decide +kernel, by decide +kernel,
    provenance world_deployed (run_play (fun _ _ _ => step_of_next) _ _)⟩

open AllowlistSample in
/-- One signature is accepted twice, with no call of the account or the setter in between but the
one that took the membership away. -/
theorem signature_replayed :
    world.Deployed ∧
      Run (Step chain) world (playTrace (next chain) world replayed)
        (play (next chain) world replayed) ∧
      (playTrace (next chain) world replayed).map (fun t => t.label) = replayed ∧
      (play (next chain) world replayed.dropLast).isAllowed (fun _ => false) signer = false ∧
      (play (next chain) world replayed).isAllowed (fun _ => false) signer = true := by
  refine ⟨world_deployed, run_play (fun _ _ _ => step_of_next) _ _, by decide +kernel,
    by decide +kernel, by decide +kernel⟩

open AllowlistSample in
theorem signature_reuse_sample :
    (∃ w', (play (next chain) world replayed.dropLast).exec chain stranger
        (.addAccountToAllowlist 0 signer 28 sigR sigS) = .ok w') ∧
      Cleared ((playTrace (next chain) world replayed.dropLast).drop 3) signer 0 := by
  have haccepted : ((play (next chain) world replayed.dropLast).exec chain stranger
      (.addAccountToAllowlist 0 signer 28 sigR sigS)).toOption.isSome = true := by
    decide +kernel
  obtain ⟨w', hw'⟩ := Option.isSome_iff_exists.mp haccepted
  have haccepted' := toOption_eq_some.mp hw'
  have hthird : (playTrace (next chain) world replayed.dropLast)[2]?.map (fun t => t.label.2) =
      some (.addAccountToAllowlist 0 signer 28 sigR sigS) := by
    decide +kernel
  obtain ⟨t, ht, hlabel⟩ := Option.map_eq_some_iff.mp hthird
  obtain ⟨hlength, rfl⟩ := List.getElem?_eq_some_iff.mp ht
  have hsplit := List.take_append_drop 2 (playTrace (next chain) world replayed.dropLast)
  rw [List.drop_eq_getElem_cons hlength] at hsplit
  exact ⟨⟨w', haccepted'⟩, ((signature_reuse world_deployed
    (run_play (fun _ _ _ => step_of_next) _ _) hsplit.symm hlabel).1 stranger).mp
      ⟨w', haccepted'⟩⟩

end AllowlistUpgradeable

end BrivoUsbs
