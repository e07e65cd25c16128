/-
  The arithmetic of the split.

  Four legs are the floors of their shares and the creator receives what is
  left.  The minimum of 100 base units makes every leg positive, and the
  maximum keeps every product within an `i128`.
-/
import TogetherFi.Escrow.Completion

namespace TogetherFi

namespace Escrow

variable {total : ℤ}

/-- A leg is the floor of its share. -/
theorem share_floor {rate : ℤ} (ht : 0 ≤ total) (hr : 0 ≤ rate) :
    share total rate = ⌊(total : ℚ) * (rate / 10000)⌋ := by
  have h := Rat.floor_intCast_div_natCast (total * rate) 10000
  push_cast at h
  rw [share_eq_ediv ht hr, ← mul_div_assoc, h]
  rfl

/-- The legs of `total` against their exact shares: each of the four is the floor
    of its share, and the creator's leg is short of none and ahead by less than
    four base units. -/
structure Split.Exact (x : Split) (total : ℤ) : Prop where
  sum : x.creator + x.service + x.nft + x.revenue + x.referrer = total
  positive : 1 ≤ x.creator ∧ 1 ≤ x.service ∧ 1 ≤ x.nft ∧ 1 ≤ x.revenue ∧ 1 ≤ x.referrer
  service : x.service = ⌊(total : ℚ) * (10 / 100)⌋
  nft : x.nft = ⌊(total : ℚ) * (5 / 100)⌋
  revenue : x.revenue = ⌊(total : ℚ) * (2 / 100)⌋
  referrer : x.referrer = ⌊(total : ℚ) * (1 / 100)⌋
  creator_ge : 82 * total ≤ 100 * x.creator
  creator_lt : 100 * x.creator < 82 * total + 400

/-- **The legs of a fundable amount.** -/
theorem Fundable.exact (h : Fundable total) : (split total).Exact total := by
  have h₀ := h.nonneg
  have hmin : 100 ≤ total := h.minimum
  have hsum := h.valid.sum
  have hs := share_eq_ediv h₀ (show 0 ≤ service by decide)
  have hn := share_eq_ediv h₀ (show 0 ≤ nftPool by decide)
  have hr := share_eq_ediv h₀ (show 0 ≤ revenue by decide)
  have hf := share_eq_ediv h₀ (show 0 ≤ referrer by decide)
  simp only [service, nftPool, revenue, referrer, denom] at hs hn hr hf
  simp only [split, service, nftPool, revenue, referrer] at hsum
  refine ⟨hsum, ?_, ?_, ?_, ?_, ?_, ?_, ?_⟩
  · simp only [split, service, nftPool, revenue, referrer]; omega
  · exact (share_floor h₀ (by decide)).trans (by norm_num [Escrow.service])
  · exact (share_floor h₀ (by decide)).trans (by norm_num [Escrow.nftPool])
  · exact (share_floor h₀ (by decide)).trans (by norm_num [Escrow.revenue])
  · exact (share_floor h₀ (by decide)).trans (by norm_num [Escrow.referrer])
  · simp only [split, service, nftPool, revenue, referrer]; omega
  · simp only [split, service, nftPool, revenue, referrer]; omega

end Escrow

end TogetherFi
