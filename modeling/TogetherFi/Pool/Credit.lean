/-
  What a credit makes of the storage of a pool.

  As for the claims, `PoolStorage.creditedAt` is a total function that a
  successful `record_credit` computes, and two of them commute.
-/
import TogetherFi.Pool.Effect

namespace TogetherFi

open Outcome

namespace Pool

namespace PoolStorage

/-- The storage after a credit of `amount` for the campaign at the ledger `sequence`. -/
def creditedAt (sequence : ℕ) (campaignId : UInt64) (amount : ℤ) (s : PoolStorage) : PoolStorage :=
  { s with
    creditedCampaign := fun id => if id = campaignId then some true else s.creditedCampaign id
    totalCredited := some (s.credited + amount)
    live := extendAll sequence [.instance_, .creditedCampaign campaignId] s.live }

theorem creditedAt_comm (sequence : ℕ) (id id' : UInt64) (a a' : ℤ) (s : PoolStorage) :
    (s.creditedAt sequence id a).creditedAt sequence id' a' =
      (s.creditedAt sequence id' a').creditedAt sequence id a := by
  simp only [creditedAt, credited, Option.getD_some, PoolStorage.mk.injEq, true_and,
    Option.some.injEq]
  refine ⟨by omega, ?_, extendAll_comm ..⟩
  funext i
  split_ifs <;> rfl

end PoolStorage

variable {env : Env} {s s' : PoolStorage} {t : Tokens} {id : UInt64} {amount : ℤ}

theorem recordCredit_live (h : recordCredit env id amount s t = .ok s') :
    s'.live = extendTtl env (extendTtl env s.live .instance_) (.creditedCampaign id) := by
  simp only [recordCredit, escrow, bind_eq_ok, init_eq_ok, rejectIf_eq_ok, requireAuth_eq_ok,
    okOr_eq_ok, totalCredited_eq_ok, totalPaid_eq_ok, balance_eq_ok, checkedI128_eq_some,
    exists_const, pure_eq, Except.ok.injEq] at h
  obtain ⟨_, ⟨-, rfl⟩, -, _, -, -, -, _, ⟨-, rfl⟩, _, ⟨-, rfl⟩, _, ⟨-, rfl⟩, _, ⟨-, rfl⟩, _, ⟨_, -, rfl⟩,
    -, rfl⟩ := h
  rfl

/-- **What a successful credit leaves.** -/
theorem recordCredit_post (h : recordCredit env id amount s t = .ok s') :
    s' = s.creditedAt env.sequence id amount := by
  have hlive := recordCredit_live h
  obtain ⟨live, rfl⟩ := (recordCredit_ok h).post
  simp only at hlive
  simp only [PoolStorage.creditedAt, hlive, PoolStorage.mk.injEq, true_and]
  refine ⟨?_, foldl_extendTtl env [_, _] s.live⟩
  funext i
  by_cases hi : i = id <;> simp [hi]

end Pool

end TogetherFi
