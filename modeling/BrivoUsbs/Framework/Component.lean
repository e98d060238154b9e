import BrivoUsbs.Framework.Path

/-!
# The components of a system

A component of a system is a part of its state that is there from some step on, and that changes by
steps of its own only: `comp` finds it in a state, and `call` says which of its steps a step of the
system is, if it is one.  `componentHistory` is what a run of the system is to the component, and by
`Run.component` it is a run of the component from a state it was deployed in.

So what is proved about the runs of a contract alone holds of it inside a system.  Where a system
keeps contracts in a table under their addresses, each of them is a component
(`TableStep.component`).
-/

namespace BrivoUsbs

variable {σ γ α β : Type}

/-- What a step of a system does to a component. -/
inductive ComponentStep (initial : γ → Prop) (step : γ → β → γ → Prop) :
    Option γ → Option β → Option γ → Prop
  | deploy {c : γ} (hinitial : initial c) : ComponentStep initial step none none (some c)
  | call {c c' : γ} {b : β} (hstep : step c b c') :
      ComponentStep initial step (some c) (some b) (some c')
  | idle {c : Option γ} : ComponentStep initial step c none c

/-- What a step of a system does to a table of contracts: one of them takes a step, one is
deployed where there was none, or nothing happens.  `call i` is the step of the contract at `i`. -/
inductive TableStep {ι : Type} [DecidableEq ι] (initial : γ → Prop) (step : γ → β → γ → Prop)
    (table : ι → Option γ) : (ι → Option β) → (ι → Option γ) → Prop
  | call {i : ι} {c c' : γ} {b : β} (hc : table i = some c) (hstep : step c b c') :
      TableStep initial step table (fun j => if i = j then some b else none)
        (Function.update table i (some c'))
  | deploy {i : ι} {c : γ} (hfree : table i = none) (hinitial : initial c) :
      TableStep initial step table (fun _ => none) (Function.update table i (some c))
  | idle : TableStep initial step table (fun _ => none) table

/-- **Each contract of a table is a component.** -/
lemma TableStep.component {ι : Type} [DecidableEq ι] {initial : γ → Prop}
    {step : γ → β → γ → Prop} {table table' : ι → Option γ} {call : ι → Option β}
    (h : TableStep initial step table call table') (i : ι) :
    ComponentStep initial step (table i) (call i) (table' i) := by
  cases h with
  | @call j c c' b hc hstep =>
      rcases eq_or_ne i j with rfl | hne
      · simp only [Function.update_self, if_pos, hc]
        exact .call hstep
      · simp only [Function.update_of_ne hne, if_neg hne.symm]
        exact .idle
  | @deploy j c hfree hinitial =>
      rcases eq_or_ne i j with rfl | hne
      · rw [Function.update_self, hfree]
        exact .deploy hinitial
      · rw [Function.update_of_ne hne]
        exact .idle
  | idle => exact .idle

/-- What a step of the system is to the component. -/
def componentTransition (comp : σ → Option γ) (call : α → Option β) (t : Transition σ α) :
    Option (Transition γ β) := do
  return ⟨← comp t.pre, ← call t.label, ← comp t.post⟩

/-- The steps of the component in a run of the system. -/
def componentHistory (comp : σ → Option γ) (call : α → Option β) (tr : List (Transition σ α)) :
    List (Transition γ β) :=
  tr.filterMap (componentTransition comp call)

section

variable {comp : σ → Option γ} {call : α → Option β} {initial : γ → Prop}
  {cstep : γ → β → γ → Prop} {step : σ → α → σ → Prop} {s₀ s : σ} {tr : List (Transition σ α)}

lemma componentHistory_snoc (t : Transition σ α) :
    componentHistory comp call (tr ++ [t]) =
      componentHistory comp call tr ++ (componentTransition comp call t).toList := by
  rw [componentHistory, List.filterMap_append]
  cases h : componentTransition comp call t <;> simp [componentHistory, h]

/-- The component has been through a run of its own, or is not there yet. -/
inductive ComponentRun (initial : γ → Prop) (cstep : γ → β → γ → Prop)
    (tr : List (Transition γ β)) : Option γ → Prop
  | absent (hnil : tr = []) : ComponentRun initial cstep tr none
  | deployed {c₀ c : γ} (hinitial : initial c₀) (hrun : Run cstep c₀ tr c) :
      ComponentRun initial cstep tr (some c)

lemma ComponentRun.snoc {t : Transition σ α}
    (h : ComponentRun initial cstep (componentHistory comp call tr) (comp t.pre))
    (hstep : ComponentStep initial cstep (comp t.pre) (call t.label) (comp t.post)) :
    ComponentRun initial cstep (componentHistory comp call (tr ++ [t])) (comp t.post) := by
  rw [componentHistory_snoc]
  obtain ⟨pre, label, post⟩ := t
  dsimp only at h hstep ⊢
  generalize hpre : comp pre = before at h hstep
  generalize hlabel : call label = b at hstep
  generalize hpost : comp post = after at hstep ⊢
  cases hstep with
  | deploy hinitial =>
      have hnone : componentTransition comp call ⟨pre, label, post⟩ = none := by
        simp [componentTransition, hpre]
      cases h with
      | absent hnil =>
          rw [hnone, hnil]
          exact .deployed hinitial Run.nil
  | @call c c' b hcall =>
      have hsome : componentTransition comp call ⟨pre, label, post⟩ = some ⟨c, b, c'⟩ := by
        simp [componentTransition, hpre, hlabel, hpost]
      cases h with
      | deployed hinitial hrun =>
          rw [hsome]
          exact .deployed hinitial (hrun.snoc hcall)
  | idle =>
      have hnone : componentTransition comp call ⟨pre, label, post⟩ = none := by
        simp [componentTransition, hlabel]
      rw [hnone]
      simpa using h

/-- **A component goes through runs of its own.** -/
lemma Run.component (h : Run step s₀ tr s) (h₀ : ComponentRun initial cstep [] (comp s₀))
    (hstep : ∀ s a s', step s a s' → ComponentStep initial cstep (comp s) (call a) (comp s')) :
    ComponentRun initial cstep (componentHistory comp call tr) (comp s) := by
  induction h using Run.induction with
  | nil => exact h₀
  | snoc tr s a s' _ hlast ih => exact ih.snoc (t := ⟨s, a, s'⟩) (hstep s a s' hlast)

lemma ComponentRun.of_none {c : Option γ} (h : c = none) : ComponentRun initial cstep [] c :=
  h ▸ .absent rfl

/-- A component that is there from the start. -/
lemma Run.component_of_some {comp : σ → γ} (h : Run step s₀ tr s)
    (hstep : ∀ s a s', step s a s' →
      ComponentStep (· = comp s₀) cstep (some (comp s)) (call a) (some (comp s'))) :
    Run cstep (comp s₀) (componentHistory (fun s => some (comp s)) call tr) (comp s) := by
  have hhistory : ComponentRun (· = comp s₀) cstep
      (componentHistory (fun s => some (comp s)) call tr) (some (comp s)) :=
    h.component (.deployed rfl Run.nil) hstep
  cases hhistory with
  | deployed hinitial hrun =>
      subst hinitial
      exact hrun

end

end BrivoUsbs
