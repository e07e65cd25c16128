/-
  Lives counted in ledgers against deadlines told by a clock.

  An entry lives up to a ledger number, a deadline is a time.  When every ledger
  takes at least `k` seconds, an entry that `Outlasts` a deadline is alive in all
  ledgers before it, the last of which can be `lastBefore` (`paced_lastBefore`).
-/
import Mathlib.Tactic.Linarith

/-- A ledger number and its time in seconds. -/
structure Clock where
  time : ℕ
  ledger : ℕ

namespace Clock

variable {k : ℕ} {c c₁ c₂ c₃ : Clock} {live live' d n : ℕ}

/-- From `c₁` to `c₂` every ledger took at least `k` seconds. -/
structure Paced (k : ℕ) (c₁ c₂ : Clock) : Prop where
  ledger_le : c₁.ledger ≤ c₂.ledger
  pace : c₁.time + k * c₂.ledger ≤ c₂.time + k * c₁.ledger

instance (k : ℕ) (c₁ c₂ : Clock) : Decidable (Paced k c₁ c₂) :=
  decidable_of_iff (c₁.ledger ≤ c₂.ledger ∧ c₁.time + k * c₂.ledger ≤ c₂.time + k * c₁.ledger)
    ⟨fun h => ⟨h.1, h.2⟩, fun h => ⟨h.1, h.2⟩⟩

theorem Paced.refl (k : ℕ) (c : Clock) : Paced k c c := ⟨le_rfl, le_rfl⟩

theorem Paced.trans (h₁ : Paced k c₁ c₂) (h₂ : Paced k c₂ c₃) : Paced k c₁ c₃ := by
  constructor
  · exact h₁.ledger_le.trans h₂.ledger_le
  · have h₁ := h₁.pace
    have h₂ := h₂.pace
    omega

theorem Paced.time_le (h : Paced k c₁ c₂) : c₁.time ≤ c₂.time := by
  have hk := Nat.mul_le_mul_left k h.ledger_le
  have hp := h.pace
  omega

/-- An entry that lives up to the ledger `live` is alive, at any pace of at least
    `k` seconds, in all ledgers before the time `d`. -/
def Outlasts (k : ℕ) (c : Clock) (live d : ℕ) : Prop :=
  c.time < d → c.ledger + (d - 1 - c.time) / k ≤ live

namespace Outlasts

theorem alive (h : Outlasts k c live d) (hd : c.time < d) : c.ledger ≤ live :=
  (Nat.le_add_right _ _).trans (h hd)

theorem mono (h : Outlasts k c live d) (hle : live ≤ live') : Outlasts k c live' d :=
  fun hd => (h hd).trans hle

/-- **What outlasts a deadline goes on doing so.** -/
theorem later (hk : 0 < k) (h : Outlasts k c₁ live d) (hp : Paced k c₁ c₂) :
    Outlasts k c₂ live d := by
  intro hd
  have hpace := hp.pace
  have hle := hp.ledger_le
  have htime := hp.time_le
  refine le_trans ?_ (h (by omega))
  -- the ledgers gone and those still to come fit in the time there was at `c₁`
  have hgone : k * (c₂.ledger - c₁.ledger) ≤ c₂.time - c₁.time := by
    rw [Nat.mul_sub]
    omega
  have hcome : k * ((d - 1 - c₂.time) / k) ≤ d - 1 - c₂.time := Nat.mul_div_le _ _
  have hfit : c₂.ledger - c₁.ledger + (d - 1 - c₂.time) / k ≤ (d - 1 - c₁.time) / k := by
    rw [Nat.le_div_iff_mul_le hk, mul_comm, Nat.mul_add]
    omega
  omega

/-- An extension by `n` ledgers outlasts the deadlines up to `k * (n + 1)` seconds away. -/
theorem renewed (h : d ≤ c.time + k * (n + 1)) : Outlasts k c (c.ledger + n) d := by
  intro hd
  have hlt : d - 1 - c.time < k * (n + 1) := by omega
  have hdiv : (d - 1 - c.time) / k < n + 1 := Nat.div_lt_of_lt_mul hlt
  omega

end Outlasts

/-- The last ledger before the deadline, when every ledger takes exactly `k` seconds. -/
def lastBefore (k : ℕ) (c : Clock) (d : ℕ) : Clock := ⟨d - 1, c.ledger + (d - 1 - c.time) / k⟩

theorem paced_lastBefore (hd : c.time < d) : Paced k c (lastBefore k c d) := by
  constructor
  · exact Nat.le_add_right _ _
  · have hdiv : k * ((d - 1 - c.time) / k) ≤ d - 1 - c.time := Nat.mul_div_le _ _
    simp only [lastBefore, Nat.mul_add]
    omega

theorem outlasts_iff : Outlasts k c live d ↔ (c.time < d → (lastBefore k c d).ledger ≤ live) :=
  Iff.rfl

end Clock
