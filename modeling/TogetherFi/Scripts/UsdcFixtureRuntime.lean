/-
  The split the acceptance scripts expect (`scripts/usdc-fixture-runtime.mjs`),
  against the one the escrow pays.

  The scripts compute on `BigInt`: unbounded integers whose `/` rounds towards
  zero.
-/
import TogetherFi.Escrow.Split

namespace TogetherFi

open Escrow

namespace Scripts

/-- The parts returned by `expectedUsdcSplit`. -/
structure UsdcSplit where
  service : ℤ
  nftPool : ℤ
  revenuePool : ℤ
  referrer : ℤ
  creator : ℤ
  deriving DecidableEq

/-- `expectedUsdcSplit(total)` of a `bigint`. -/
def expectedUsdcSplit (total : ℤ) : Except String UsdcSplit :=
  if total ≤ 0 then .error "Positive base-unit amount required"
  else
    let service := (total * 1000).tdiv 10000
    let nftPool := (total * 500).tdiv 10000
    let revenuePool := (total * 200).tdiv 10000
    let referrer := (total * 100).tdiv 10000
    .ok
      { service
        nftPool
        revenuePool
        referrer
        creator := total - [service, nftPool, revenuePool, referrer].foldl (· + ·) 0 }

theorem expectedUsdcSplit_eq {total : ℤ} (h : 0 < total) : expectedUsdcSplit total =
    .ok ⟨(split total).service, (split total).nft, (split total).revenue, (split total).referrer,
      (split total).creator⟩ := by
  have hpos : ¬ total ≤ 0 := by omega
  rw [expectedUsdcSplit, if_neg hpos]
  simp only [split, share, service, Escrow.nftPool, revenue, referrer, denom, List.foldl_cons,
    List.foldl_nil, Except.ok.injEq, UsdcSplit.mk.injEq, true_and]
  omega

example : expectedUsdcSplit 101 = .ok ⟨10, 5, 2, 1, 83⟩ := by decide

end Scripts

/-- **Split arithmetic.**  No multiplication or subtraction of `complete`
    overflows on an amount `fund` admits, the five legs are positive and add up
    to it, four are the floors of their shares, and the scripts expect the same
    legs. -/
theorem split_arithmetic (total : ℤ) (hmin : 100 ≤ total) (hmax : total ≤ i128Max / 10000) :
    let x := split total
    (leg total service = .ok x.service ∧ leg total nftPool = .ok x.nft ∧
      leg total revenue = .ok x.revenue ∧ leg total referrer = .ok x.referrer) ∧
    remainder total x.service x.nft x.revenue x.referrer = .ok x.creator ∧
    x.Exact total ∧
    Scripts.expectedUsdcSplit total = .ok ⟨x.service, x.nft, x.revenue, x.referrer, x.creator⟩ := by
  intro x
  have h : Fundable total := ⟨hmin, hmax⟩
  refine ⟨⟨?_, ?_, ?_, ?_⟩, h.remainder_ok, h.exact, Scripts.expectedUsdcSplit_eq (by omega)⟩
  · exact h.leg_ok (by decide) (by decide)
  · exact h.leg_ok (by decide) (by decide)
  · exact h.leg_ok (by decide) (by decide)
  · exact h.leg_ok (by decide) (by decide)

theorem split_arithmetic_minimum :
    Scripts.expectedUsdcSplit 100 = .ok ⟨10, 5, 2, 1, 82⟩ ∧ (split 100).Exact 100 := by
  have h := split_arithmetic 100 le_rfl (by decide)
  exact ⟨h.2.2.2, h.2.2.1⟩

end TogetherFi
