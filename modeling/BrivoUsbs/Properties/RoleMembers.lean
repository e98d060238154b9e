import BrivoUsbs.Contracts.AccessControlEnumerable
import BrivoUsbs.Framework.Path
import Mathlib.Data.List.Perm.Subperm

/-!
# The members of a role

`AccessControlEnumerable` keeps what its base contract keeps, and an array of the members of each
role beside it.  `Enumerates` says that the arrays list the members; it holds after any operations
by anybody, so the getters enumerate each role without repetition.

The other way round, keeping the arrays never gets in the way: `lockstep` runs the contract beside
its base contract, on which the rest of the development is built, and finds the same roles, the
same log and the same reverts.
-/

namespace BrivoUsbs

namespace AccessControlEnumerable

open AccessControl (Operation Call)

variable {s s' : AccessControlEnumerable} {op : Operation} {ops : List Operation} {role : Role}
  {sender account : Address}

/-- The array of each role lists its members. -/
structure Enumerates (s : AccessControlEnumerable) : Prop where
  wellFormed : ∀ role, (s.roleMembers role).WellFormed
  mem_iff : ∀ role account,
    account ∈ (s.roleMembers role).values ↔ s.access.hasRole role account = true

namespace Enumerates

lemma of_empty : Enumerates empty where
  wellFormed _ := .of_empty
  mem_iff role account := by simp [empty, EnumerableSet.empty, AccessControl.empty,
    AccessControl.hasRole]

/-- Writing the set of one role. -/
lemma update {access : AccessControl} {set : EnumerableSet Address} (h : Enumerates s)
    (hset : set.WellFormed)
    (hmem : ∀ account, account ∈ set.values ↔ access.hasRole role account = true)
    (hother : ∀ other account, other ≠ role →
      (access.hasRole other account = true ↔ s.access.hasRole other account = true)) :
    Enumerates ⟨access, Function.update s.roleMembers role set⟩ := by
  constructor
  · intro other
    by_cases hsame : other = role
    · subst hsame
      simpa using hset
    · simpa [hsame] using h.wellFormed other
  · intro other account
    by_cases hsame : other = role
    · subst hsame
      simpa using hmem account
    · rw [hother other account hsame]
      simpa [hsame] using h.mem_iff other account

end Enumerates

/-! ## One operation -/

/-- What an operation on the base contract, and on the array of a role, makes of the contract. -/
structure Refines (s : AccessControlEnumerable) (access : AccessControl)
    (s' : AccessControlEnumerable) : Prop where
  access : s'.access = access
  enumerates : Enumerates s'
  length_le : ∀ role, (s'.roleMembers role).values.length ≤ (s.roleMembers role).values.length + 1

lemma internalGrantRole_refines (h : Enumerates s)
    (hgrant : s.internalGrantRole sender role account = .ok s') :
    Refines s (s.access.internalGrantRole sender role account) s' := by
  simp only [internalGrantRole, bind_eq_ok, pure_eq_ok, Prod.exists] at hgrant
  obtain ⟨set, flag, hadd, rfl⟩ := hgrant
  obtain ⟨hset, hmem, -⟩ := EnumerableSet.add_spec (h.wellFormed role) hadd
  refine ⟨rfl, h.update hset (fun other => ?_) (fun other account hne => ?_), fun other => ?_⟩
  · rw [hmem, h.mem_iff, AccessControl.hasRole_internalGrantRole]
    simp
  · simp [AccessControl.hasRole_internalGrantRole, hne]
  · by_cases hsame : other = role
    · subst hsame
      have hsub : set.values ⊆ account :: (s.roleMembers other).values := fun a ha =>
        List.mem_cons.mpr ((hmem a).mp ha).symm
      simpa using (List.subperm_of_subset hset.nodup hsub).length_le
    · simp [hsame]

lemma internalRevokeRole_refines (h : Enumerates s) :
    ∃ s', s.internalRevokeRole sender role account = .ok s' ∧
      Refines s (s.access.internalRevokeRole sender role account) s' := by
  obtain ⟨set, flag, hremove, hset, hmem, -⟩ :=
    EnumerableSet.remove_spec (ε := Error) (h.wellFormed role) account
  refine ⟨⟨s.access.internalRevokeRole sender role account,
    Function.update s.roleMembers role set⟩, ?_, rfl,
    h.update hset (fun other => ?_) (fun other account hne => ?_), fun other => ?_⟩
  · simp only [internalRevokeRole, hremove]
    rfl
  · rw [hmem, h.mem_iff, AccessControl.hasRole_internalRevokeRole]
    simp
  · simp [AccessControl.hasRole_internalRevokeRole, hne]
  · by_cases hsame : other = role
    · subst hsame
      have hsub : set.values ⊆ (s.roleMembers other).values := fun a ha => ((hmem a).mp ha).1
      have hle := (List.subperm_of_subset hset.nodup hsub).length_le
      simp only [Function.update_self]
      omega
    · simp [hsame]

/-- **Forward simulation.**  An operation of the contract is one of its base contract. -/
lemma operate_refines (h : Enumerates s) (hop : s.operate op = .ok s') :
    ∃ access, s.access.operate op = .ok access ∧ Refines s access s' := by
  have hrevoke : ∀ {sender role account}, s.internalRevokeRole sender role account = .ok s' →
      Refines s (s.access.internalRevokeRole sender role account) s' := by
    intro sender role account hop
    obtain ⟨revoked, hrevoked, hrefines⟩ := internalRevokeRole_refines h
    obtain rfl := Except.ok.inj (hrevoked.symm.trans hop)
    exact hrefines
  cases op with
  | setup sender role account => exact ⟨_, rfl, internalGrantRole_refines h hop⟩
  | setAdmin role adminRole =>
      simp only [operate, Except.ok.injEq] at hop
      subst hop
      exact ⟨_, rfl, rfl, ⟨h.wellFormed, h.mem_iff⟩, fun _ => Nat.le_succ _⟩
  | call sender call =>
      cases call with
      | grantRole role account =>
          simp only [operate, exec, grantRole, bind_eq_ok, AccessControl.checkRole_eq_ok,
            exists_const] at hop
          obtain ⟨hadmin, hgrant⟩ := hop
          exact ⟨_, AccessControl.grantRole_eq_ok.mpr ⟨hadmin, rfl⟩,
            internalGrantRole_refines h hgrant⟩
      | revokeRole role account =>
          simp only [operate, exec, revokeRole, bind_eq_ok, AccessControl.checkRole_eq_ok,
            exists_const] at hop
          obtain ⟨hadmin, hop⟩ := hop
          exact ⟨_, AccessControl.revokeRole_eq_ok.mpr ⟨hadmin, rfl⟩, hrevoke hop⟩
      | renounceRole role account =>
          simp only [operate, exec, renounceRole, bind_eq_ok, require_eq_ok, exists_const] at hop
          obtain ⟨rfl, hop⟩ := hop
          refine ⟨_, ?_, hrevoke hop⟩
          simp only [AccessControl.operate, AccessControl.exec, AccessControl.renounceRole, require,
            if_true]
          rfl

/-- A call passes the same check on both sides. -/
lemma map_access_bind {α : Type} {check : Tx Error α} {body : α → Tx Error AccessControlEnumerable}
    {base : α → Tx Error AccessControl}
    (hbody : ∀ a, (body a).map AccessControlEnumerable.access = base a) :
    (check >>= body).map AccessControlEnumerable.access = check >>= base := by
  cases check with
  | error r => rfl
  | ok a => exact hbody a

/-- **Lockstep.**  While no array is full, an operation succeeds, or reverts for the same reason,
on the contract and on its base contract. -/
lemma operate_lockstep (h : Enumerates s)
    (hroom : ∀ role, (s.roleMembers role).values.length < 2 ^ 64) :
    (s.operate op).map AccessControlEnumerable.access = s.access.operate op := by
  have hgrant : ∀ sender role account,
      (s.internalGrantRole sender role account).map AccessControlEnumerable.access =
        .ok (s.access.internalGrantRole sender role account) := by
    intro sender role account
    have hadds : ∃ set flag, (s.roleMembers role).add account = (.ok (set, flag) : Tx Error _) :=
      EnumerableSet.exists_add (h.wellFormed role) (.inr (hroom role))
    obtain ⟨set, flag, hadd⟩ := hadds
    simp only [internalGrantRole, hadd]
    rfl
  have hrevoke : ∀ sender role account,
      (s.internalRevokeRole sender role account).map AccessControlEnumerable.access =
        .ok (s.access.internalRevokeRole sender role account) := by
    intro sender role account
    obtain ⟨revoked, hrevoked, hrefines⟩ := internalRevokeRole_refines h
    rw [hrevoked, Except.map, hrefines.access]
  cases op with
  | setup sender role account => exact hgrant sender role account
  | setAdmin role adminRole => rfl
  | call sender call =>
      cases call with
      | grantRole role account => exact map_access_bind fun _ => hgrant sender role account
      | revokeRole role account => exact map_access_bind fun _ => hrevoke sender role account
      | renounceRole role account => exact map_access_bind fun _ => hrevoke sender role account

/-! ## Runs -/

def Step (s : AccessControlEnumerable) (op : Operation) (s' : AccessControlEnumerable) : Prop :=
  s.operate op = .ok s'

/-- One operation as a function: nothing if it reverts. -/
def next (s : AccessControlEnumerable) (op : Operation) : Option AccessControlEnumerable :=
  (s.operate op).toOption

variable {tr : List (Transition AccessControlEnumerable Operation)}

/-- After any operations the arrays list the members. -/
lemma run_enumerates (hrun : Run Step empty tr s) : Enumerates s := by
  refine (hrun.invariant (P := Enumerates) .of_empty fun t _ hpre hstep => ?_).1
  obtain ⟨access, -, hrefines⟩ := operate_refines hpre hstep
  exact hrefines.enumerates

/-- The getters of a role enumerate its members. -/
structure Listed (s : AccessControlEnumerable) (role : Role) : Prop where
  /-- Every index below the count is that of a member, and no other index is one. -/
  lt_count_iff : ∀ index, index < s.getRoleMemberCount role ↔
    ∃ account, s.getRoleMember role index = .ok account ∧
      s.access.hasRole role account = true
  /-- Every member is found, under one index. -/
  unique : ∀ account, s.access.hasRole role account = true →
    ∃! index, s.getRoleMember role index = .ok account
  /-- Past the count the getter panics. -/
  past_count : ∀ index, s.getRoleMemberCount role ≤ index →
    s.getRoleMember role index = .error (.panic .indexOutOfBounds)

/-- **The members of a role are enumerated**, without repetition or omission, whatever roles were
set up, granted, revoked and renounced before, and by whom. -/
theorem listed (hrun : Run Step empty tr s) (role : Role) : Listed s role := by
  have henumerates := run_enumerates hrun
  have hwell := henumerates.wellFormed role
  have hcount := hwell.toNat_length
  have hlt : ∀ index : Uint256, index < s.getRoleMemberCount role ↔
      index.toNat < (s.roleMembers role).values.length := by
    intro index
    rw [BitVec.lt_def, getRoleMemberCount, hcount]
  constructor
  · intro index
    rw [hlt]
    constructor
    · intro hindex
      have hget := List.getElem?_eq_getElem hindex
      exact ⟨_, arrayGet_eq_ok.mpr hget,
        (henumerates.mem_iff role _).mp (List.mem_of_getElem? hget)⟩
    · rintro ⟨account, hget, -⟩
      exact (List.getElem?_eq_some_iff.mp (arrayGet_eq_ok.mp hget)).1
  · intro account hrole
    obtain ⟨i, hi⟩ := List.mem_iff_getElem?.mp ((henumerates.mem_iff role account).mpr hrole)
    have hbound : i < 2 ^ 256 := by
      have hlength := (List.getElem?_eq_some_iff.mp hi).1
      have hsmall := hwell.small
      omega
    have hindex : (BitVec.ofNat 256 i).toNat = i := by
      rw [BitVec.toNat_ofNat, Nat.mod_eq_of_lt hbound]
    refine ⟨BitVec.ofNat 256 i, arrayGet_eq_ok.mpr (by rw [hindex]; exact hi), fun index hget => ?_⟩
    apply BitVec.eq_of_toNat_eq
    rw [hindex]
    exact hwell.eq_of_getElem? (arrayGet_eq_ok.mp hget) hi
  · intro index hindex
    have hge : (s.roleMembers role).values.length ≤ index.toNat := by
      rw [← hcount]
      exact hindex
    simp only [getRoleMember, EnumerableSet.valueAt, arrayGet, List.getElem?_eq_none hge]

/-- A contract whose constructor makes `operator` the admin of the minters, and whose only minters
are, after some changes, the accounts 3 and 1. -/
def sampleOperations : List Operation := [
  .setup 9 .defaultAdminRole 9,
  .setAdmin .minterRole .managerAdmin,
  .call 9 (.grantRole .managerAdmin 9),
  .call 9 (.grantRole .minterRole 1),
  .call 9 (.grantRole .minterRole 2),
  .call 9 (.grantRole .minterRole 3),
  .call 2 (.grantRole .minterRole 2),
  .call 2 (.renounceRole .minterRole 2)]

theorem listed_sample : Listed (play next empty sampleOperations) .minterRole :=
  listed (run_play (fun _ _ _ => toOption_eq_some.mp) _ _) _

/-- **Lockstep along runs.**  After operations that cannot have filled an array, the contract has
the roles and the log its base contract has after the same operations, and the next operation
fares the same on both. -/
theorem lockstep (ops : List Operation) (hops : ops.length < 2 ^ 64) :
    (play next empty ops).access =
        play (fun access op => (access.operate op).toOption) AccessControl.empty ops ∧
      ∀ op, ((play next empty ops).operate op).map AccessControlEnumerable.access =
        (play next empty ops).access.operate op := by
  have hplay : ∀ (ops : List Operation) (s : AccessControlEnumerable), Enumerates s →
      (∀ role, (s.roleMembers role).values.length + ops.length < 2 ^ 64) →
      (play next s ops).access =
          play (fun access op => (access.operate op).toOption) s.access ops ∧
        ∀ op, ((play next s ops).operate op).map AccessControlEnumerable.access =
          (play next s ops).access.operate op := by
    intro ops
    induction ops with
    | nil =>
        intro s henumerates hroom
        exact ⟨rfl, fun op => operate_lockstep henumerates hroom⟩
    | cons op ops ih =>
        intro s henumerates hroom
        have hroom' : ∀ role, (s.roleMembers role).values.length + ops.length + 1 < 2 ^ 64 :=
          fun role => by simpa [Nat.add_assoc] using hroom role
        have hstep := @operate_lockstep s op henumerates fun role => by
          have := hroom' role
          omega
        cases hop : s.operate op with
        | error r =>
            rw [hop] at hstep
            simp only [play, next, hop, ← hstep]
            exact ih s henumerates fun role => by
              have := hroom' role
              omega
        | ok s' =>
            obtain ⟨access, -, hrefines⟩ := operate_refines henumerates hop
            rw [hop] at hstep
            simp only [play, next, hop, ← hstep]
            exact ih s' hrefines.enumerates fun role => by
              have := hroom' role
              have := hrefines.length_le role
              omega
  exact hplay ops empty .of_empty fun role => by simpa [empty, EnumerableSet.empty] using hops

theorem lockstep_sample :
    (play next empty sampleOperations).access =
        play (fun access op => (access.operate op).toOption) AccessControl.empty
          sampleOperations ∧
      ∀ op, ((play next empty sampleOperations).operate op).map AccessControlEnumerable.access =
        (play next empty sampleOperations).access.operate op :=
  lockstep sampleOperations (by decide)

end AccessControlEnumerable

end BrivoUsbs
