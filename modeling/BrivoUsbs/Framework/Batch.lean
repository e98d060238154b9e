import BrivoUsbs.Framework.Revert
import Mathlib.Data.List.Basic
import Mathlib.Logic.Function.Basic

/-!
# Batches of guarded writes

A batch `l` of pairs of a key and a value is written into a table one by one, each write guarded
by a check of the entry it finds, so an earlier write decides whether a later one under the same
key passes.  If a write overwrites the one before it, the outcome can be told from the table before
the batch: `foldlM_assign_eq_ok` says when the batch succeeds, and `assigned_last` and
`assigned_unlisted` what it leaves.

`cleared` is the table after a batch that deletes the entries it lists.
-/

namespace BrivoUsbs.Batch

variable {ε ι ρ ν σ τ α β : Type}

/-- A loop over a part `τ` of a state that logs an event for each round, as a loop over that part
alone. -/
lemma foldlM_store {f : σ → α → Tx ε σ} {g : τ → α → Tx ε τ} {store : τ → List β → σ}
    {event : α → β}
    (hf : ∀ t log a, f (store t log) a = g t a >>= fun t' => pure (store t' (log ++ [event a])))
    (l : List α) (t : τ) (log : List β) :
    l.foldlM f (store t log) =
      l.foldlM g t >>= fun t' => pure (store t' (log ++ l.map event)) := by
  induction l generalizing t log with
  | nil => simp
  | cons a l ih => simp only [List.foldlM_cons, hf, bind_assoc, pure_bind, ih, List.map_cons,
      List.append_assoc, List.singleton_append]

section

variable [DecidableEq ι] {check : ρ → Tx ε Unit} {write : ν → ρ → ρ} {table table' : ι → ρ}
  {l before after : List (ι × ν)} {i : ι} {v : ν}

/-- Check the entry under a key, and write to it. -/
def assign (check : ρ → Tx ε Unit) (write : ν → ρ → ρ) (table : ι → ρ) (a : ι × ν) :
    Tx ε (ι → ρ) := do
  check (table a.1)
  return Function.update table a.1 (write a.2 (table a.1))

/-- The table after a batch of writes. -/
def assigned (write : ν → ρ → ρ) (table : ι → ρ) (l : List (ι × ν)) : ι → ρ :=
  l.foldl (fun table a => Function.update table a.1 (write a.2 (table a.1))) table

lemma assigned_cons {a : ι × ν} :
    assigned write table (a :: l) =
      assigned write (Function.update table a.1 (write a.2 (table a.1))) l := rfl

/-- An entry that is not listed stays as it is. -/
lemma assigned_unlisted (hi : i ∉ l.map Prod.fst) : assigned write table l i = table i := by
  induction l generalizing table with
  | nil => rfl
  | cons a l ih =>
      rw [List.map_cons, List.mem_cons, not_or] at hi
      rw [assigned_cons, ih hi.2, Function.update_of_ne hi.1]

/-- A later write finds an entry as it was, or as an earlier one left it. -/
lemma assigned_eq_or (hwrite : ∀ v v' r, write v' (write v r) = write v' r) :
    assigned write table l i = table i ∨ ∃ v, assigned write table l i = write v (table i) := by
  induction l generalizing table with
  | nil => exact .inl rfl
  | cons a l ih =>
      rw [assigned_cons]
      by_cases hsame : i = a.1
      · subst hsame
        have hrest := @ih (Function.update table a.1 (write a.2 (table a.1)))
        rw [Function.update_self] at hrest
        right
        rcases hrest with hkept | ⟨v, hv⟩
        · exact ⟨a.2, hkept⟩
        · exact ⟨v, by rw [hv, hwrite]⟩
      · have hrest := @ih (Function.update table a.1 (write a.2 (table a.1)))
        rwa [Function.update_of_ne hsame] at hrest

/-- **The last write stands.** -/
lemma assigned_last (hwrite : ∀ v v' r, write v' (write v r) = write v' r)
    (hi : i ∉ after.map Prod.fst) :
    assigned write table (before ++ (i, v) :: after) i = write v (table i) := by
  have hsplit : assigned write table (before ++ (i, v) :: after) =
      assigned write (Function.update (assigned write table before) i
        (write v (assigned write table before i))) after := by
    rw [assigned, List.foldl_append]
    rfl
  rw [hsplit, assigned_unlisted hi, Function.update_self]
  have hbefore : assigned write table before i = table i ∨
      ∃ v, assigned write table before i = write v (table i) := assigned_eq_or hwrite
  rcases hbefore with hkept | ⟨v', hv'⟩
  · rw [hkept]
  · rw [hv', hwrite]

/-- **When a batch succeeds**, told from the table before it: every listed entry passes, and passes
again after each earlier write under its key. -/
lemma foldlM_assign_eq_ok (hwrite : ∀ v v' r, write v' (write v r) = write v' r) :
    l.foldlM (assign check write) table = .ok table' ↔
      (∀ a ∈ l, check (table a.1) = .ok ()) ∧
        l.Pairwise (fun a b => a.1 = b.1 → check (write a.2 (table a.1)) = .ok ()) ∧
        table' = assigned write table l := by
  induction l generalizing table with
  | nil =>
      rw [List.foldlM_nil, pure_eq_ok]
      exact ⟨fun h => ⟨by simp, .nil, h.symm⟩, fun h => h.2.2.symm⟩
  | cons a l ih =>
      have hfirst : ∀ b : ι × ν,
          check (Function.update table a.1 (write a.2 (table a.1)) b.1) = .ok () ↔
            if b.1 = a.1 then check (write a.2 (table a.1)) = .ok ()
            else check (table b.1) = .ok () := by
        intro b
        by_cases hsame : b.1 = a.1
        · rw [hsame, Function.update_self, if_pos rfl]
        · rw [Function.update_of_ne hsame, if_neg hsame]
      have hoverwritten : ∀ (i : ι) (v : ν),
          write v (Function.update table a.1 (write a.2 (table a.1)) i) = write v (table i) := by
        intro i v
        by_cases hsame : i = a.1
        · rw [hsame, Function.update_self, hwrite]
        · rw [Function.update_of_ne hsame]
      simp only [List.foldlM_cons, assign, bind_eq_ok, pure_eq_ok, List.forall_mem_cons,
        List.pairwise_cons, assigned_cons]
      constructor
      · rintro ⟨_, ⟨_, hcheck, rfl⟩, hrest⟩
        obtain ⟨hpass, hagain, htable⟩ := ih.mp hrest
        simp only [hfirst, hoverwritten] at hpass hagain
        refine ⟨⟨hcheck, fun b hb => ?_⟩, ⟨fun b hb hsame => ?_, hagain⟩, htable⟩
        · have hb' := hpass b hb
          split at hb'
          · next hsame => exact hsame ▸ hcheck
          · exact hb'
        · have hb' := hpass b hb
          rwa [if_pos hsame.symm] at hb'
      · rintro ⟨⟨hcheck, hpass⟩, ⟨hnext, hagain⟩, htable⟩
        refine ⟨_, ⟨(), hcheck, rfl⟩, ih.mpr ⟨fun b hb => ?_, ?_, htable⟩⟩
        · rw [hfirst]
          split
          · next hsame => exact hnext b hb hsame.symm
          · exact hpass b hb
        · simp only [hoverwritten]
          exact hagain

/-- The table after the listed entries are deleted. -/
def cleared (null : ρ) (table : ι → ρ) (keys : List ι) : ι → ρ :=
  keys.foldl (fun table i => Function.update table i null) table

lemma cleared_cons {null : ρ} {keys : List ι} :
    cleared null table (i :: keys) = cleared null (Function.update table i null) keys := rfl

lemma cleared_apply {null : ρ} {keys : List ι} (i : ι) :
    cleared null table keys i = if i ∈ keys then null else table i := by
  induction keys generalizing table with
  | nil => rfl
  | cons first keys ih =>
      rw [cleared_cons, ih]
      by_cases hmem : i ∈ keys
      · simp [hmem]
      · by_cases hsame : i = first
        · simp [hsame]
        · simp [hmem, hsame]

lemma cleared_perm {null : ρ} {keys keys' : List ι} (h : keys.Perm keys') :
    cleared null table keys = cleared null table keys' := by
  funext i
  simp only [cleared_apply, h.mem_iff]

end

end BrivoUsbs.Batch
