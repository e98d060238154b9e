import Mathlib.Algebra.BigOperators.Group.List.Basic
import Mathlib.Tactic.Common

/-!
# Paths and runs of a labelled transition system

`Path step s₀ as s` is a finite execution from `s₀` to `s` labelled by `as`.  A `Run` is a path
whose labels record the states before and after each step as well, so that a condition on the
steps of a run can speak about the state a step was taken in.

`Emits` relates two states of an event-sourced system: the second one's log extends the first
one's, and the new events are a path between their abstractions.  It is reflexive and
transitive, so it passes through batch loops and along runs.
-/

namespace BrivoUsbs

variable {σ τ α β : Type}

/-- A labelled execution of `step`, extended at its end. -/
inductive Path (step : σ → α → σ → Prop) (s₀ : σ) : List α → σ → Prop
  | nil : Path step s₀ [] s₀
  | snoc {as : List α} {s s' : σ} {a : α} :
      Path step s₀ as s → step s a s' → Path step s₀ (as ++ [a]) s'

namespace Path

variable {step step' : σ → α → σ → Prop} {s₀ s s' : σ} {as bs : List α}

lemma single {a : α} (h : step s₀ a s) : Path step s₀ [a] s := snoc nil h

lemma eq_of_nil (h : Path step s₀ [] s) : s = s₀ := by
  generalize hnil : ([] : List α) = labels at h
  cases h with
  | nil => rfl
  | snoc => simp at hnil

lemma append (h : Path step s₀ as s) (h' : Path step s bs s') :
    Path step s₀ (as ++ bs) s' := by
  induction h' with
  | nil => simpa using h
  | snoc _ hlast ih =>
      rw [← List.append_assoc]
      exact snoc ih hlast

/-- A weaker step relation has the same paths. -/
lemma mono (h : Path step s₀ as s) (hstep : ∀ s a s', step s a s' → step' s a s') :
    Path step' s₀ as s := by
  induction h with
  | nil => exact nil
  | snoc _ hlast ih => exact snoc ih (hstep _ _ _ hlast)

/-- A path some of whose labels stand for labels of another system. -/
lemma filterMap {step' : σ → β → σ → Prop} {g : α → Option β} (h : Path step s₀ as s)
    (hstep : ∀ s a s', step s a s' → Path step' s (g a).toList s') :
    Path step' s₀ (as.filterMap g) s := by
  induction h with
  | nil => exact nil
  | @snoc as s s' a _ hlast ih =>
      have hlabels : (as ++ [a]).filterMap g = as.filterMap g ++ (g a).toList := by
        cases hlabel : g a <;> simp [hlabel]
      rw [hlabels]
      exact ih.append (hstep _ _ _ hlast)

/-- What every step from an invariant has on its label, every label of a path has. -/
lemma labels_of_invariant {P : σ → Prop} {Q : α → Prop} (h : Path step s₀ as s) (h₀ : P s₀)
    (hstep : ∀ s a s', P s → step s a s' → P s' ∧ Q a) : ∀ a ∈ as, Q a := by
  have hpair : P s ∧ ∀ a ∈ as, Q a := by
    induction h with
    | nil => exact ⟨h₀, by simp⟩
    | snoc _ hlast ih =>
        obtain ⟨hs, hall⟩ := ih
        obtain ⟨hs', hlabel⟩ := hstep _ _ _ hs hlast
        refine ⟨hs', fun a ha => ?_⟩
        rcases List.mem_append.mp ha with hmem | hmem
        · exact hall a hmem
        · obtain rfl := List.mem_singleton.mp hmem
          exact hlabel
  exact hpair.2

lemma labels {Q : α → Prop} (h : Path step s₀ as s) (hstep : ∀ s a s', step s a s' → Q a) :
    ∀ a ∈ as, Q a :=
  h.labels_of_invariant (P := fun _ => True) trivial fun s a s' _ hlast =>
    ⟨trivial, hstep s a s' hlast⟩

/-- **Induction along a path.**  A property of the start that every step preserves holds at the
end. -/
lemma invariant {P : σ → Prop} (h : Path step s₀ as s) (h₀ : P s₀)
    (hstep : ∀ s a s', a ∈ as → P s → step s a s' → P s') : P s := by
  induction h with
  | nil => exact h₀
  | snoc _ hlast ih =>
      refine hstep _ _ _ (by simp) (ih fun s a s' ha => hstep s a s' ?_) hlast
      exact List.mem_append_left _ ha

/-- Induction along a path, about the labels so far and the state they lead to. -/
lemma accumulate {P : List α → σ → Prop} (h : Path step s as s') (h₀ : P bs s)
    (hstep : ∀ bs s a s', a ∈ as → P bs s → step s a s' → P (bs ++ [a]) s') : P (bs ++ as) s' := by
  induction h with
  | nil => rwa [List.append_nil]
  | snoc _ hlast ih =>
      rw [← List.append_assoc]
      refine hstep _ _ _ _ (by simp) (ih fun bs s a s' ha => hstep bs s a s' ?_) hlast
      exact List.mem_append_left _ ha

/-- **Conservation.**  If every step adds `gain a` to a quantity and takes `loss a` from it,
then over a path the gains are what is there at the end plus the losses. -/
lemma conserved {M : Type} [AddCommMonoid M] {quantity : σ → M} {gain loss : α → M}
    (h : Path step s₀ as s)
    (hstep : ∀ s a s', step s a s' → quantity s' + loss a = quantity s + gain a) :
    quantity s + (as.map loss).sum = quantity s₀ + (as.map gain).sum := by
  induction h with
  | nil => simp
  | @snoc as s s' a _ hlast ih =>
      simp only [List.map_append, List.map_cons, List.map_nil, List.sum_append, List.sum_cons,
        List.sum_nil, add_zero]
      calc
        quantity s' + ((as.map loss).sum + loss a)
            = (quantity s' + loss a) + (as.map loss).sum := by
              rw [add_comm (as.map loss).sum, add_assoc]
        _ = (quantity s + gain a) + (as.map loss).sum := by rw [hstep _ _ _ hlast]
        _ = (quantity s + (as.map loss).sum) + gain a := add_right_comm _ _ _
        _ = quantity s₀ + ((as.map gain).sum + gain a) := by rw [ih, add_assoc]

end Path

/-! ## Runs -/

/-- One step of a run, with the states around it. -/
structure Transition (σ α : Type) where
  pre : σ
  label : α
  post : σ

/-- `step` with the states around each step recorded in its label. -/
def Recorded (step : σ → α → σ → Prop) (s : σ) (t : Transition σ α) (s' : σ) : Prop :=
  t.pre = s ∧ t.post = s' ∧ step s t.label s'

/-- A run of `step` from `s₀` to `s` through the transitions `tr`. -/
abbrev Run (step : σ → α → σ → Prop) (s₀ : σ) (tr : List (Transition σ α)) (s : σ) : Prop :=
  Path (Recorded step) s₀ tr s

namespace Run

variable {step : σ → α → σ → Prop} {s₀ s s' : σ} {tr : List (Transition σ α)} {a : α}

lemma nil : Run step s₀ [] s₀ := Path.nil

lemma snoc (h : Run step s₀ tr s) (hstep : step s a s') :
    Run step s₀ (tr ++ [⟨s, a, s'⟩]) s' :=
  Path.snoc h ⟨rfl, rfl, hstep⟩

/-- Induction along a run, with the last transition's states filled in. -/
@[elab_as_elim]
theorem induction {motive : ∀ s tr, Run step s₀ tr s → Prop} (nil : motive s₀ [] Run.nil)
    (snoc : ∀ (tr : List (Transition σ α)) (s : σ) (a : α) (s' : σ) (hinit : Run step s₀ tr s)
      (hstep : step s a s'), motive s tr hinit →
        motive s' (tr ++ [⟨s, a, s'⟩]) (Run.snoc hinit hstep))
    (h : Run step s₀ tr s) : motive s tr h := by
  induction h with
  | nil => exact nil
  | @snoc tr s s' t hinit hlast ih =>
      obtain ⟨rfl, rfl, hstep⟩ := hlast
      exact snoc tr t.pre t.label t.post hinit hstep ih

/-- A transition of a run is a step, taken in the state the run reached before it. -/
lemma split (h : Run step s₀ tr s) {tr₁ tr₂ : List (Transition σ α)} {t : Transition σ α}
    (htr : tr = tr₁ ++ t :: tr₂) : Run step s₀ tr₁ t.pre ∧ step t.pre t.label t.post := by
  induction h using Run.induction generalizing tr₂ with
  | nil => simp at htr
  | snoc tr s a s' hinit hstep ih =>
      rcases List.eq_nil_or_concat tr₂ with rfl | ⟨tr₃, last, rfl⟩
      · obtain ⟨rfl, hlast⟩ := List.append_inj' htr rfl
        obtain rfl := (List.cons.inj hlast).1
        exact ⟨hinit, hstep⟩
      · rw [List.concat_eq_append, ← List.cons_append, ← List.append_assoc] at htr
        exact ih (List.append_inj_left' htr rfl)

/-- Every transition of a run is a step taken in a state the run reached before it. -/
lemma exists_prefix (h : Run step s₀ tr s) {t : Transition σ α} (ht : t ∈ tr) :
    ∃ tr' tr'', tr = tr' ++ t :: tr'' ∧ Run step s₀ tr' t.pre ∧ step t.pre t.label t.post := by
  obtain ⟨tr', tr'', htr⟩ := List.append_of_mem ht
  exact ⟨tr', tr'', htr, h.split htr⟩

lemma step_of_mem (h : Run step s₀ tr s) {t : Transition σ α} (ht : t ∈ tr) :
    step t.pre t.label t.post := by
  obtain ⟨-, -, -, -, hstep⟩ := h.exists_prefix ht
  exact hstep

/-- **Induction along a run.**  A property of the start that every transition of the run
preserves holds at its end and around each of its transitions. -/
theorem invariant {P : σ → Prop} (h : Run step s₀ tr s) (h₀ : P s₀)
    (hstep : ∀ t ∈ tr, P t.pre → step t.pre t.label t.post → P t.post) :
    P s ∧ ∀ t ∈ tr, P t.pre ∧ P t.post := by
  induction h using Run.induction with
  | nil => exact ⟨h₀, by simp⟩
  | snoc tr s a s' _ hlast ih =>
      obtain ⟨hs, hall⟩ := ih fun t ht => hstep t (List.mem_append_left _ ht)
      have hs' : P s' := hstep ⟨s, a, s'⟩ (by simp) hs hlast
      refine ⟨hs', fun t ht => ?_⟩
      rcases List.mem_append.mp ht with hmem | hmem
      · exact hall t hmem
      · obtain rfl := List.mem_singleton.mp hmem
        exact ⟨hs, hs'⟩

/-- **Until.**  What every transition either keeps or ends holds over a whole run, or until a first
transition that ends it. -/
lemma until_ended {P : List (Transition σ α) → σ → Prop} {Ends : Transition σ α → Prop}
    (h : Run step s₀ tr s) (h₀ : P [] s₀)
    (hstep : ∀ before, ∀ t ∈ tr, P before t.pre → step t.pre t.label t.post →
      P (before ++ [t]) t.post ∨ Ends t) :
    P tr s ∨ ∃ before t after, tr = before ++ t :: after ∧ P before t.pre ∧ Ends t := by
  induction h using Run.induction with
  | nil => exact .inl h₀
  | snoc tr s a s' _ hlast ih =>
      rcases ih fun before t ht => hstep before t (List.mem_append_left _ ht) with
        hkept | ⟨before, t, after, rfl, hkept, hends⟩
      · rcases hstep tr ⟨s, a, s'⟩ (by simp) hkept hlast with hnext | hends
        · exact .inl hnext
        · exact .inr ⟨tr, ⟨s, a, s'⟩, [], rfl, hkept, hends⟩
      · exact .inr ⟨before, t, after ++ [⟨s, a, s'⟩], by simp, hkept, hends⟩

/-- A run without its states. -/
lemma path (h : Run step s₀ tr s) : Path step s₀ (tr.map Transition.label) s := by
  induction h using Run.induction with
  | nil => exact Path.nil
  | snoc tr s a s' _ hstep ih =>
      rw [List.map_append]
      exact Path.snoc ih hstep

/-- A run of one system as a run of another, which has its own names for the steps. -/
lemma map {ρ : Type} {step' : ρ → β → ρ → Prop} {f : σ → ρ} {g : Transition σ α → β}
    (h : Run step s₀ tr s)
    (hstep : ∀ t, step t.pre t.label t.post → step' (f t.pre) (g t) (f t.post)) :
    Run step' (f s₀) (tr.map fun t => ⟨f t.pre, g t, f t.post⟩) (f s) := by
  induction h using Run.induction with
  | nil => exact Run.nil
  | snoc tr s a s' _ hlast ih =>
      rw [List.map_append]
      exact ih.snoc (hstep ⟨s, a, s'⟩ hlast)

/-- What each step of a run is a path to, the run is a path to. -/
lemma flatten {ρ : Type} {step' : ρ → β → ρ → Prop} {f : σ → ρ} {g : Transition σ α → List β}
    (h : Run step s₀ tr s)
    (hstep : ∀ t, step t.pre t.label t.post → Path step' (f t.pre) (g t) (f t.post)) :
    Path step' (f s₀) (tr.flatMap g) (f s) := by
  induction h using Run.induction with
  | nil => exact Path.nil
  | snoc tr s a s' _ hlast ih =>
      rw [List.flatMap_append, List.flatMap_singleton]
      exact ih.append (hstep ⟨s, a, s'⟩ hlast)

/-- **Forward simulation.**  If each step between related states is matched by a path to states that
are related again, then so is a run. -/
lemma simulation {ρ : Type} {step' : ρ → β → ρ → Prop} {R : σ → ρ → Prop} {r₀ : ρ}
    {g : Transition σ α → List β} (h : Run step s₀ tr s) (h₀ : R s₀ r₀)
    (hstep : ∀ t r, step t.pre t.label t.post → R t.pre r →
      ∃ r', Path step' r (g t) r' ∧ R t.post r') :
    ∃ r, Path step' r₀ (tr.flatMap g) r ∧ R s r := by
  induction h using Run.induction with
  | nil => exact ⟨r₀, Path.nil, h₀⟩
  | snoc tr s a s' _ hlast ih =>
      obtain ⟨r, hpath, hrel⟩ := ih
      obtain ⟨r', hpath', hrel'⟩ := hstep ⟨s, a, s'⟩ r hlast hrel
      refine ⟨r', ?_, hrel'⟩
      rw [List.flatMap_append, List.flatMap_singleton]
      exact hpath.append hpath'

/-- A path is a run, if its states are kept. -/
lemma of_path {as : List α} (h : Path step s₀ as s) :
    ∃ tr, Run step s₀ tr s ∧ tr.map Transition.label = as := by
  induction h with
  | nil => exact ⟨[], Run.nil, rfl⟩
  | @snoc as s a s' _ hlast ih =>
      obtain ⟨tr, hrun, hlabels⟩ := ih
      exact ⟨_, hrun.snoc hlast, by rw [List.map_append, hlabels]; rfl⟩

/-- The states of a run. -/
def Visits (tr : List (Transition σ α)) (s x : σ) : Prop :=
  x = s ∨ ∃ t ∈ tr, x = t.pre ∨ x = t.post

lemma visits_pre {t : Transition σ α} (ht : t ∈ tr) : Visits tr s t.pre := .inr ⟨t, ht, .inl rfl⟩

lemma visits_post {t : Transition σ α} (ht : t ∈ tr) : Visits tr s t.post := .inr ⟨t, ht, .inr rfl⟩

lemma visits_start (h : Run step s₀ tr s) : Visits tr s s₀ := by
  induction h using Run.induction with
  | nil => exact .inl rfl
  | snoc tr s a s' _ _ ih =>
      right
      rcases ih with rfl | ⟨t, ht, hstart⟩
      · exact ⟨⟨s₀, a, s'⟩, by simp, .inl rfl⟩
      · exact ⟨t, List.mem_append_left _ ht, hstart⟩

/-- A state of a run is one of the run after another step. -/
lemma visits_later {x : σ} (h : Visits tr s x) : Visits (tr ++ [⟨s, a, s'⟩]) s' x := by
  rcases h with rfl | ⟨t, ht, hx⟩
  · exact .inr ⟨⟨x, a, s'⟩, List.mem_concat_self, .inl rfl⟩
  · exact .inr ⟨t, List.mem_append_left _ ht, hx⟩

lemma visits_snoc {x : σ} (h : Visits (tr ++ [⟨s, a, s'⟩]) s' x) : x = s' ∨ Visits tr s x := by
  rcases h with rfl | ⟨t, ht, hx⟩
  · exact .inl rfl
  · rcases List.mem_append.mp ht with hmem | hmem
    · exact .inr (.inr ⟨t, hmem, hx⟩)
    · obtain rfl := List.mem_singleton.mp hmem
      exact hx.elim (fun hpre => .inr (.inl hpre)) .inl

/-- A reflexive and transitive relation between the two states of each transition relates every
state of a run to its end. -/
lemma rel_of_visits {R : σ → σ → Prop} (h : Run step s₀ tr s) (hrefl : ∀ s, R s s)
    (htrans : ∀ {s t u}, R s t → R t u → R s u) (hstep : ∀ t ∈ tr, R t.pre t.post) {x : σ}
    (hx : Visits tr s x) : R x s := by
  induction h using Run.induction with
  | nil =>
      rcases hx with rfl | ⟨t, ht, -⟩
      · exact hrefl x
      · cases ht
  | snoc tr s a s' _ _ ih =>
      rcases visits_snoc hx with rfl | hbefore
      · exact hrefl x
      · exact htrans (ih (fun t ht => hstep t (List.mem_append_left _ ht)) hbefore)
          (hstep ⟨s, a, s'⟩ (by simp))

/-- An invariant holds in every state of a run. -/
lemma invariant_visits {P : σ → Prop} (h : Run step s₀ tr s) (h₀ : P s₀)
    (hstep : ∀ t ∈ tr, P t.pre → step t.pre t.label t.post → P t.post) {x : σ}
    (hx : Visits tr s x) : P x := by
  obtain ⟨hs, hall⟩ := h.invariant h₀ hstep
  rcases hx with rfl | ⟨t, ht, rfl | rfl⟩
  · exact hs
  · exact (hall t ht).1
  · exact (hall t ht).2

/-- Every state of a run is the end of a run through some of its transitions. -/
lemma of_visits (h : Run step s₀ tr s) {x : σ} (hx : Visits tr s x) :
    ∃ tr', tr' <+: tr ∧ Run step s₀ tr' x := by
  rcases hx with rfl | ⟨t, ht, hx⟩
  · exact ⟨tr, List.prefix_rfl, h⟩
  · obtain ⟨tr', tr'', rfl, hpre, hstep⟩ := h.exists_prefix ht
    rcases hx with rfl | rfl
    · exact ⟨tr', List.prefix_append _ _, hpre⟩
    · exact ⟨tr' ++ [t], ⟨tr'', by simp⟩, hpre.snoc hstep⟩

end Run

/-! ## Playing a list of actions -/

/-- The state after the enabled ones of a list of actions; the others change nothing. -/
def play (next : σ → α → Option σ) (s : σ) : List α → σ
  | [] => s
  | a :: as =>
      match next s a with
      | none => play next s as
      | some s' => play next s' as

/-- The transitions `play` takes. -/
def playTrace (next : σ → α → Option σ) (s : σ) : List α → List (Transition σ α)
  | [] => []
  | a :: as =>
      match next s a with
      | none => playTrace next s as
      | some s' => ⟨s, a, s'⟩ :: playTrace next s' as

/-- A rejected action changes nothing. -/
lemma play_of_none {next : σ → α → Option σ} {s : σ} {a : α} (h : next s a = none) :
    play next s [a] = s := by
  simp [play, h]

/-- Playing a list of actions is a run. -/
theorem run_play {step : σ → α → σ → Prop} {next : σ → α → Option σ}
    (hnext : ∀ s a s', next s a = some s' → step s a s') (s : σ) (as : List α) :
    Run step s (playTrace next s as) (play next s as) := by
  induction as generalizing s with
  | nil => exact Run.nil
  | cons a as ih =>
      unfold play playTrace
      split
      · exact ih s
      · next s' heq =>
          exact (Path.single ⟨rfl, rfl, hnext s a s' heq⟩).append (ih s')

/-! ## Event-sourced systems -/

/-- `s'` extends `s` by events that are a path between their abstractions. -/
def Emits (step : τ → β → τ → Prop) (abs : σ → τ) (log : σ → List β) (s s' : σ) : Prop :=
  ∃ es, log s' = log s ++ es ∧ Path step (abs s) es (abs s')

namespace Emits

variable {step : τ → β → τ → Prop} {abs : σ → τ} {log : σ → List β} {s t u : σ}

lemma refl (s : σ) : Emits step abs log s s := ⟨[], by simp, Path.nil⟩

lemma trans (h : Emits step abs log s t) (h' : Emits step abs log t u) :
    Emits step abs log s u := by
  obtain ⟨es, hlog, hpath⟩ := h
  obtain ⟨es', hlog', hpath'⟩ := h'
  exact ⟨es ++ es', by rw [hlog', hlog, List.append_assoc], hpath.append hpath'⟩

lemma mono {step' : τ → β → τ → Prop} (h : Emits step abs log s t)
    (hstep : ∀ x e y, step x e y → step' x e y) : Emits step' abs log s t := by
  obtain ⟨es, hlog, hpath⟩ := h
  exact ⟨es, hlog, hpath.mono hstep⟩

lemma single {e : β} (hlog : log t = log s ++ [e]) (hstep : step (abs s) e (abs t)) :
    Emits step abs log s t :=
  ⟨[e], hlog, Path.single hstep⟩

/-- A property of the abstraction that every event preserves is preserved. -/
lemma invariant {P : τ → Prop} (h : Emits step abs log s t) (hs : P (abs s))
    (hstep : ∀ x e y, P x → step x e y → P y) : P (abs t) := by
  obtain ⟨es, -, hpath⟩ := h
  exact hpath.invariant hs fun x e y _ => hstep x e y

/-- If the events of the log of `s` lead from `x` to its abstraction, so do those of `t`. -/
lemma replay {x : τ} (h : Emits step abs log s t) (hs : Path step x (log s) (abs s)) :
    Path step x (log t) (abs t) := by
  obtain ⟨es, hlog, hpath⟩ := h
  rw [hlog]
  exact hs.append hpath

end Emits

/-- A run emits the events of its transitions, each during one of them. -/
lemma Run.emits {step : σ → α → σ → Prop} {emit : σ → α → τ → β → τ → Prop} {abs : σ → τ}
    {log : σ → List β} {s₀ s : σ} {tr : List (Transition σ α)} (h : Run step s₀ tr s)
    (hstep : ∀ s a s', step s a s' → Emits (emit s a) abs log s s') :
    Emits (fun x e y => ∃ t ∈ tr, emit t.pre t.label x e y) abs log s₀ s := by
  induction h using Run.induction with
  | nil => exact .refl _
  | snoc tr s a s' _ hlast ih =>
      refine Emits.trans (ih.mono ?_) ((hstep s a s' hlast).mono ?_)
      · rintro x e y ⟨t, ht, hemit⟩
        exact ⟨t, List.mem_append_left _ ht, hemit⟩
      · intro x e y hemit
        exact ⟨⟨s, a, s'⟩, by simp, hemit⟩

end BrivoUsbs
