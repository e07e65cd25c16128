/-
  A conserving ledger: balances that are never negative and whose sum over any
  group of holders stays below a cap.

  `transfer` moves an amount the source holds and nothing else; because of the
  cap it cannot overflow the destination, so it succeeds exactly when the
  amount is nonnegative and held.
-/
import Mathlib.Algebra.BigOperators.Group.Finset.Basic
import Mathlib.Algebra.BigOperators.Group.Finset.Piecewise
import Mathlib.Algebra.Order.BigOperators.Group.Finset

/-- Balances of holders `α`: nobody owes, and no group of holders has more
    than `cap`. -/
@[ext] structure Ledger (α : Type*) (cap : ℤ) where
  balance : α → ℤ
  nonneg : ∀ a, 0 ≤ balance a
  capped : ∀ s : Finset α, ∑ a ∈ s, balance a ≤ cap

namespace Ledger

variable {α : Type*} {cap : ℤ}

theorem balance_le (l : Ledger α cap) (a : α) : l.balance a ≤ cap := by
  simpa using l.capped {a}

variable [DecidableEq α]

/-- The ledger on which `a` holds everything. -/
def single (a : α) {n : ℤ} (h : 0 ≤ n) (h' : n ≤ cap) : Ledger α cap where
  balance := fun b => if b = a then n else 0
  nonneg := fun b => by split <;> omega
  capped := fun s => by rw [Finset.sum_ite_eq']; split <;> omega

/-- The balances after `n` moves from `src` to `dst`. -/
def move (f : α → ℤ) (src dst : α) (n : ℤ) (a : α) : ℤ :=
  f a - (if a = src then n else 0) + (if a = dst then n else 0)

theorem move_nonneg {f : α → ℤ} {src dst : α} {n : ℤ} (hf : ∀ a, 0 ≤ f a) (hn : 0 ≤ n)
    (hs : n ≤ f src) (a : α) : 0 ≤ move f src dst n a := by
  have := hf a
  unfold move
  split_ifs with h₁ h₂ h₂
  · omega
  · subst h₁; omega
  · omega
  · omega

theorem sum_move (f : α → ℤ) (src dst : α) (n : ℤ) (s : Finset α) :
    ∑ a ∈ s, move f src dst n a =
      ∑ a ∈ s, f a - (if src ∈ s then n else 0) + (if dst ∈ s then n else 0) := by
  simp only [move, Finset.sum_add_distrib, Finset.sum_sub_distrib, Finset.sum_ite_eq']

theorem sum_move_le {f : α → ℤ} {src dst : α} {n : ℤ} (hf : ∀ s : Finset α, ∑ a ∈ s, f a ≤ cap)
    (hn : 0 ≤ n) (hs : n ≤ f src) (s : Finset α) : ∑ a ∈ s, move f src dst n a ≤ cap := by
  rw [sum_move]
  by_cases hsrc : src ∈ s
  · have := hf s
    rw [if_pos hsrc]; split_ifs <;> omega
  · -- what `dst` gains comes out of the balance of `src`, which is outside `s`
    have h := hf (insert src s)
    rw [Finset.sum_insert hsrc] at h
    rw [if_neg hsrc]; split_ifs <;> omega

/-- Move `n` from `src` to `dst`, if `src` holds it. -/
def transfer (l : Ledger α cap) (src dst : α) (n : ℤ) : Option (Ledger α cap) :=
  if h : 0 ≤ n ∧ n ≤ l.balance src then
    some ⟨move l.balance src dst n, move_nonneg l.nonneg h.1 h.2, sum_move_le l.capped h.1 h.2⟩
  else none

theorem transfer_eq_some {l l' : Ledger α cap} {src dst : α} {n : ℤ} :
    l.transfer src dst n = some l' ↔
      0 ≤ n ∧ n ≤ l.balance src ∧ l'.balance = move l.balance src dst n := by
  unfold transfer
  constructor
  · intro h
    split_ifs at h with hn
    rw [← Option.some.inj h]; exact ⟨hn.1, hn.2, rfl⟩
  · rintro ⟨h₀, h₁, hb⟩
    rw [dif_pos ⟨h₀, h₁⟩, Option.some.injEq]
    exact Ledger.ext hb.symm

/-- **A held amount can always be moved.** -/
theorem transfer_succeeds {l : Ledger α cap} {src : α} {n : ℤ} (hn : 0 ≤ n)
    (hs : n ≤ l.balance src) (dst : α) : ∃ l', l.transfer src dst n = some l' := by
  unfold transfer; rw [dif_pos ⟨hn, hs⟩]; exact ⟨_, rfl⟩

end Ledger
