import Mathlib.Tactic.Common

/-!
# Reverting calls

A call to a contract either reverts, and then leaves the storage as it was, or succeeds with a
new storage.  `Tx ε` is that shape over a type `ε` of custom errors, and this file collects the
inversion lemmas that take a successful call apart: `bind_eq_ok` splits a sequence of statements,
`revertIf_eq_ok` and `require_eq_ok` read a guard back, and the two `foldlM` rules carry a
property through a batch loop.

Nothing here depends on a particular contract.
-/

namespace BrivoUsbs

/-- The failures a compiler inserts by itself, named after their `Panic(uint256)` codes. -/
inductive Panic
  /-- `0x01`: an assertion failed. -/
  | assertion
  /-- `0x11`: checked arithmetic left the range of its type. -/
  | arithmetic
  /-- `0x12`: division by zero. -/
  | divisionByZero
  /-- `0x32`: an array was accessed past its end. -/
  | indexOutOfBounds
  /-- `0x41`: an array grew too large. -/
  | arrayTooLarge
  deriving DecidableEq, Repr

/-- Why a call reverts, over the custom errors `ε` of the contracts. -/
inductive Revert (ε : Type)
  /-- Revert without data: `revert(0, 0)`, or a call to an address without code. -/
  | empty
  | panic (code : Panic)
  /-- `Error(string)`, as raised by `require`. -/
  | message (reason : String)
  | custom (error : ε)
  deriving DecidableEq, Repr

/-- The outcome of a call: a revert reason, or a result. -/
abbrev Tx (ε : Type) := Except (Revert ε)

variable {ε α β σ : Type}

/-- `if (condition) revert error();` -/
def revertIf (condition : Prop) [Decidable condition] (error : ε) : Tx ε Unit :=
  if condition then .error (.custom error) else .ok ()

/-- `require(condition, reason);` -/
def require (condition : Prop) [Decidable condition] (reason : String) : Tx ε Unit :=
  if condition then .ok () else .error (.message reason)

/-- `assert(condition);` -/
def assert (condition : Prop) [Decidable condition] : Tx ε Unit :=
  if condition then .ok () else .error (.panic .assertion)

/-- `if (condition) { check }` -/
def onlyWhen (condition : Prop) [Decidable condition] (check : Tx ε Unit) : Tx ε Unit :=
  if condition then check else .ok ()

/-! ## Inversion of successful calls -/

@[simp] lemma onlyWhen_eq_ok {c : Prop} [Decidable c] {check : Tx ε Unit} {u : Unit} :
    onlyWhen c check = .ok u ↔ (c → check = .ok ()) := by
  unfold onlyWhen
  split <;> simp_all

@[simp] lemma revertIf_eq_ok {c : Prop} [Decidable c] {e : ε} {u : Unit} :
    revertIf c e = .ok u ↔ ¬ c := by
  unfold revertIf
  split <;> simp_all

@[simp] lemma require_eq_ok {c : Prop} [Decidable c] {reason : String} {u : Unit} :
    (require c reason : Tx ε Unit) = .ok u ↔ c := by
  unfold require
  split <;> simp_all

@[simp] lemma assert_eq_ok {c : Prop} [Decidable c] {u : Unit} :
    (assert c : Tx ε Unit) = .ok u ↔ c := by
  unfold assert
  split <;> simp_all

/-- A sequence of two statements succeeds exactly when both do. -/
lemma bind_eq_ok {x : Tx ε α} {f : α → Tx ε β} {b : β} :
    (x >>= f) = .ok b ↔ ∃ a, x = .ok a ∧ f a = .ok b := by
  cases x with
  | error e => simp [bind, Except.bind]
  | ok a => simp [bind, Except.bind]

/-- What follows a successful statement. -/
lemma ok_bind {a : α} {f : α → Tx ε β} : ((.ok a : Tx ε α) >>= f) = f a := rfl

@[simp] lemma pure_eq_ok {a b : α} : (pure a : Tx ε α) = .ok b ↔ a = b := by
  simp [pure, Except.pure]

/-! ## Inversion of failed calls -/

@[simp] lemma revertIf_eq_error {c : Prop} [Decidable c] {e : ε} {r : Revert ε} :
    revertIf c e = .error r ↔ c ∧ r = .custom e := by
  unfold revertIf
  split <;> simp_all [eq_comm]

/-- A sequence of two statements fails in the first or, after it, in the second. -/
lemma bind_eq_error {x : Tx ε α} {f : α → Tx ε β} {r : Revert ε} :
    (x >>= f) = .error r ↔ x = .error r ∨ ∃ a, x = .ok a ∧ f a = .error r := by
  cases x with
  | error e => simp [bind, Except.bind]
  | ok a => simp [bind, Except.bind]

@[simp] lemma pure_ne_error {a : α} {r : Revert ε} : (pure a : Tx ε α) ≠ .error r := by
  simp [pure, Except.pure]

/-! ## Calls as partial functions -/

lemma toOption_eq_some {x : Tx ε α} {a : α} : x.toOption = some a ↔ x = .ok a := by
  cases x <;> simp [Except.toOption]

lemma eq_ok_get {x : Tx ε α} (h : x.toOption.isSome = true) : x = .ok (x.toOption.get h) := by
  rw [← toOption_eq_some, Option.some_get]

lemma toOption_of_error {x : Tx ε α} {r : Revert ε} (h : x = .error r) : x.toOption = none := by
  rw [h]
  rfl

/-- Two partial results agree in what `value` reads of them if either has one when the other does,
and then the same. -/
lemma map_eq_map {x y : Option α} {value : α → β}
    (h : ∀ a, x = some a → ∃ b, y = some b ∧ value b = value a)
    (hrev : ∀ b, y = some b → x.isSome = true) : x.map value = y.map value := by
  cases x with
  | some a =>
      obtain ⟨b, rfl, hsame⟩ := h a rfl
      rw [Option.map_some, Option.map_some, hsame]
  | none =>
      cases y with
      | none => rfl
      | some b => exact absurd (hrev b rfl) (by simp)

/-! ## Batch loops -/

/-- A loop of checks succeeds exactly when every check does. -/
lemma forM_eq_ok {f : α → Tx ε Unit} {l : List α} :
    forM l f = .ok () ↔ ∀ a ∈ l, f a = .ok () := by
  induction l with
  | nil => simp
  | cons a l ih =>
      rw [List.forM_cons, bind_eq_ok, List.forall_mem_cons, ← ih]
      exact ⟨fun ⟨_, ha, hl⟩ => ⟨ha, hl⟩, fun ⟨ha, hl⟩ => ⟨(), ha, hl⟩⟩

/-- A batch of independent calls succeeds if each of them does, with their results. -/
lemma exists_mapM_ok {γ : Type} {f : α → Tx ε β} {value : β → γ} {g : α → γ} {l : List α}
    (h : ∀ a ∈ l, ∃ b, f a = .ok b ∧ value b = g a) :
    ∃ bs, l.mapM f = .ok bs ∧ bs.map value = l.map g := by
  induction l with
  | nil => exact ⟨[], rfl, rfl⟩
  | cons a l ih =>
      obtain ⟨b, hb, hvalue⟩ := h a List.mem_cons_self
      obtain ⟨bs, hbs, hvalues⟩ := ih fun a ha => h a (List.mem_cons_of_mem _ ha)
      refine ⟨b :: bs, ?_, by rw [List.map_cons, List.map_cons, hvalue, hvalues]⟩
      rw [List.mapM_cons, hb, hbs]
      rfl

/-- A property every iteration preserves holds after the loop. -/
lemma foldlM_invariant {P : σ → Prop} {f : σ → α → Tx ε σ} {l : List α} {s s' : σ}
    (hstep : ∀ a ∈ l, ∀ s s', P s → f s a = .ok s' → P s') (hs : P s)
    (h : l.foldlM f s = .ok s') : P s' := by
  induction l generalizing s with
  | nil =>
      simp only [List.foldlM_nil, pure_eq_ok] at h
      exact h ▸ hs
  | cons a l ih =>
      simp only [List.foldlM_cons, bind_eq_ok] at h
      obtain ⟨t, ht, hrest⟩ := h
      exact ih (fun b hb => hstep b (List.mem_cons_of_mem _ hb))
        (hstep a List.mem_cons_self s t hs ht) hrest

/-- A reflexive and transitive relation every iteration satisfies relates the two ends of the
loop. -/
lemma foldlM_rel {R : σ → σ → Prop} {f : σ → α → Tx ε σ} {l : List α} {s s' : σ}
    (hrefl : ∀ s, R s s) (htrans : ∀ {s t u}, R s t → R t u → R s u)
    (hstep : ∀ a ∈ l, ∀ s s', f s a = .ok s' → R s s')
    (h : l.foldlM f s = .ok s') : R s s' :=
  foldlM_invariant (P := R s) (fun a ha t t' ht hf => htrans ht (hstep a ha t t' hf))
    (hrefl s) h

end BrivoUsbs
