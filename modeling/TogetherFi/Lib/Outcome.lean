/-
  Calls that either return a value or are rolled back.

  A call fails with an error of its own contract (`Fault.error`) or because the
  host stops it (`Fault.host`).  The lemmas of this file take a successful
  `do` block apart: `bind_eq_ok` peels one step, and each primitive step
  (`rejectIf`, `okOr`, `trapOr`, ...) says when it succeeds.
-/
import Mathlib.Tactic.Basic
import Mathlib.Data.Option.Basic

/-- Why a call is rolled back: the contract's own error, or a trap of the host. -/
inductive Fault (ε τ : Type*) where
  | error (e : ε)
  | host (t : τ)
  deriving DecidableEq, Repr

/-- The result of a call. -/
abbrev Outcome (ε τ α : Type*) := Except (Fault ε τ) α

namespace Outcome

universe u

variable {ε τ : Type*} {α β : Type u}

/-- `if p { return Err(e) }` -/
def rejectIf (p : Prop) [Decidable p] (e : ε) : Outcome ε τ Unit :=
  if p then .error (.error e) else .ok ()

/-- `o.ok_or(e)?` -/
def okOr (o : Option α) (e : ε) : Outcome ε τ α :=
  match o with
  | some a => .ok a
  | none => .error (.error e)

/-- A value the host traps without: `o.unwrap()`. -/
def trapOr (o : Option α) (t : τ) : Outcome ε τ α :=
  match o with
  | some a => .ok a
  | none => .error (.host t)

/-- A condition the host traps without. -/
def trapUnless (p : Prop) [Decidable p] (t : τ) : Outcome ε τ Unit :=
  if p then .ok () else .error (.host t)

theorem bind_eq_ok {γ : Type*} {x : Except γ α} {f : α → Except γ β} {b : β} :
    (x >>= f) = .ok b ↔ ∃ a, x = .ok a ∧ f a = .ok b := by
  cases x <;> simp [bind, Except.bind]

theorem error_bind {γ : Type*} {x : Except γ α} {e : γ} (h : x = .error e) (f : α → Except γ β) :
    (x >>= f) = .error e := by
  rw [h]; rfl

/-- A call that begins as another one fails with it. -/
theorem error_of_bind {γ : Type*} {δ : Type u} {x : Except γ α} {f : α → Except γ β}
    {g : α → Except γ δ} {e : γ} (h : (x >>= f) = .error e)
    (hfg : ∀ a, f a = .error e → g a = .error e) : (x >>= g) = .error e := by
  cases x with
  | ok a => exact hfg a h
  | error e' => exact error_bind (congrArg Except.error (Except.error.inj h)) g

@[simp] theorem ok_bind {γ : Type*} (a : α) (f : α → Except γ β) :
    ((Except.ok a : Except γ α) >>= f) = f a := rfl

@[simp] theorem pure_eq {γ : Type*} (a : α) : (pure a : Except γ α) = .ok a := rfl

theorem pair_eq_ok {γ : Type*} {x : Except γ α} {a : α} {b b' : β} :
    (do return (← x, b)) = Except.ok (a, b') ↔ x = .ok a ∧ b' = b := by
  cases x <;> simp [bind, Except.bind, pure, Except.pure, eq_comm]

theorem snd_pair_eq_ok {γ : Type*} {δ : Type u} {x : Except γ (δ × α)} {a : α} {b b' : β} :
    (do return ((← x).2, b)) = Except.ok (a, b') ↔ (∃ d, x = .ok (d, a)) ∧ b' = b := by
  cases x <;> simp [bind, Except.bind, pure, Except.pure, Prod.ext_iff, eq_comm]

@[simp] theorem mapError_eq_ok {γ δ : Type*} {α : Type*} {f : γ → δ} {x : Except γ α} {a : α} :
    x.mapError f = .ok a ↔ x = .ok a := by
  cases x <;> simp [Except.mapError]

@[simp] theorem rejectIf_eq_ok {p : Prop} [Decidable p] {e : ε} {u : Unit} :
    (rejectIf p e : Outcome ε τ Unit) = .ok u ↔ ¬ p := by
  unfold rejectIf; split <;> simp_all

@[simp] theorem okOr_eq_ok {o : Option α} {e : ε} {a : α} :
    (okOr o e : Outcome ε τ α) = .ok a ↔ o = some a := by
  cases o <;> simp [okOr]

@[simp] theorem trapOr_eq_ok {o : Option α} {t : τ} {a : α} :
    (trapOr o t : Outcome ε τ α) = .ok a ↔ o = some a := by
  cases o <;> simp [trapOr]

@[simp] theorem trapUnless_eq_ok {p : Prop} [Decidable p] {t : τ} {u : Unit} :
    (trapUnless p t : Outcome ε τ Unit) = .ok u ↔ p := by
  unfold trapUnless; split <;> simp_all

end Outcome
