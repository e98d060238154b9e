import BrivoUsbs.Framework.Path

/-!
# The last write of a history

`lastWrite write l` is what the last of the events `l` that wrote to a cell wrote there, where
`write` says what an event writes, if anything.  `Run.cell_eq_lastWrite` reads the contents of a
cell off the history of a run: it is enough to know what each step writes.
-/

namespace BrivoUsbs

variable {σ α β : Type}

/-- What the last event that writes writes. -/
def lastWrite (write : α → Option β) (l : List α) : Option β := l.reverse.findSome? write

section

variable {write : α → Option β} {l : List α} {a : α} {b : β}

lemma lastWrite_append {l' : List α} :
    lastWrite write (l ++ l') = (lastWrite write l').or (lastWrite write l) := by
  rw [lastWrite, lastWrite, lastWrite, List.reverse_append, List.findSome?_append]

lemma lastWrite_snoc : lastWrite write (l ++ [a]) = (write a).or (lastWrite write l) := by
  rw [lastWrite_append, lastWrite, List.reverse_singleton, List.findSome?_singleton]

/-- The last write is a write that no event after it overwrites. -/
lemma lastWrite_eq_some_iff :
    lastWrite write l = some b ↔
      ∃ before a after, l = before ++ a :: after ∧ write a = some b ∧
        ∀ x ∈ after, write x = none := by
  rw [lastWrite, List.findSome?_eq_some_iff]
  constructor
  · rintro ⟨after, a, before, hl, ha, hafter⟩
    refine ⟨before.reverse, a, after.reverse, ?_, ha, by simpa using hafter⟩
    rw [← List.reverse_reverse l, hl]
    simp
  · rintro ⟨before, a, after, rfl, ha, hafter⟩
    exact ⟨after.reverse, a, before.reverse, by simp, ha, by simpa using hafter⟩

end

/-- **A cell holds what was last written to it.** -/
lemma Run.cell_eq_lastWrite {step : σ → α → σ → Prop} {s₀ s : σ} {tr : List (Transition σ α)}
    {write : Transition σ α → Option β} (h : Run step s₀ tr s) (cell : σ → β)
    (hstep : ∀ t ∈ tr, step t.pre t.label t.post → cell t.post = (write t).getD (cell t.pre)) :
    cell s = (lastWrite write tr).getD (cell s₀) := by
  induction h using Run.induction with
  | nil => rfl
  | snoc tr s a s' _ hlast ih =>
      have hcell : cell s' = (write ⟨s, a, s'⟩).getD (cell s) :=
        hstep ⟨s, a, s'⟩ (by simp) hlast
      rw [hcell, ih fun t ht => hstep t (List.mem_append_left _ ht), lastWrite_snoc]
      cases write ⟨s, a, s'⟩ <;> rfl

end BrivoUsbs
