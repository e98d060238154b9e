import BrivoUsbs.Framework.Path

/-!
# Journals

A log is a journal of a state if replaying it gives the state: `apply` says what one event does to
the part `abs` of the state.  `Journals` relates two states of which the second one logs further
events that take the first one's part to its own.  It is reflexive and transitive, so it passes
through batch loops and along runs, and `Journals.replay` carries a replay along.
-/

namespace BrivoUsbs

variable {σ τ β : Type}

/-- `t` is `s` after further events, which `apply` replays. -/
def Journals (apply : τ → β → τ) (abs : σ → τ) (log : σ → List β) (s t : σ) : Prop :=
  ∃ es, log t = log s ++ es ∧ abs t = es.foldl apply (abs s)

namespace Journals

variable {apply : τ → β → τ} {abs : σ → τ} {log : σ → List β} {s t u : σ}

lemma refl (s : σ) : Journals apply abs log s s := ⟨[], by simp, rfl⟩

lemma trans (h : Journals apply abs log s t) (h' : Journals apply abs log t u) :
    Journals apply abs log s u := by
  obtain ⟨es, hlog, habs⟩ := h
  obtain ⟨es', hlog', habs'⟩ := h'
  exact ⟨es ++ es', by rw [hlog', hlog, List.append_assoc],
    by rw [habs', habs, List.foldl_append]⟩

lemma of_eq (hlog : log t = log s) (habs : abs t = abs s) : Journals apply abs log s t :=
  ⟨[], by simp [hlog], habs⟩

lemma single {e : β} (hlog : log t = log s ++ [e]) (habs : abs t = apply (abs s) e) :
    Journals apply abs log s t :=
  ⟨[e], hlog, habs⟩

/-- If replaying the log of `s` gives its state, so does replaying that of `t`. -/
lemma replay {x : τ} (h : Journals apply abs log s t) (hs : abs s = (log s).foldl apply x) :
    abs t = (log t).foldl apply x := by
  obtain ⟨es, hlog, habs⟩ := h
  rw [habs, hlog, List.foldl_append, ← hs]

end Journals

/-- **A path of determined steps is replayed by its labels**, each of which is admitted by what the
labels before it replay to. -/
theorem Path.replayed {step : τ → β → τ → Prop} {apply : τ → β → τ} {admits : τ → β → Prop}
    {x y : τ} {es : List β} (h : Path step x es y)
    (hstep : ∀ x e y, step x e y → admits x e ∧ y = apply x e) :
    y = es.foldl apply x ∧
      ∀ before e after, es = before ++ e :: after → admits (before.foldl apply x) e := by
  induction h with
  | nil =>
      refine ⟨rfl, fun before e after hsplit => ?_⟩
      simp at hsplit
  | @snoc es y z e _ hlast ih =>
      obtain ⟨rfl, hbefore⟩ := ih
      obtain ⟨hadmits, rfl⟩ := hstep _ _ _ hlast
      refine ⟨by rw [List.foldl_append]; rfl, fun before e' after hsplit => ?_⟩
      rcases List.eq_nil_or_concat after with rfl | ⟨after, last, rfl⟩
      · obtain ⟨rfl, hlabel⟩ := List.append_inj' hsplit rfl
        obtain rfl := (List.cons.inj hlabel).1
        exact hadmits
      · rw [List.concat_eq_append, ← List.cons_append, ← List.append_assoc] at hsplit
        exact hbefore before e' after (List.append_inj_left' hsplit rfl)

end BrivoUsbs
