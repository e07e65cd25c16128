/-
  When `complete` succeeds.

  `complete` makes five transfers and two nested credits, each with failure
  branches of its own.  `complete_succeeds` shows that none of them fires for
  an escrow that holds its liability and pools that can take the credit
  (`Creditable`).
-/
import TogetherFi.Escrow.Effect

namespace TogetherFi

open Outcome Function

namespace Escrow

variable {env : Env} {s : EscrowStorage} {pools : Pools} {t t' : Tokens}

/-! ## The split -/

/-- The amounts `fund` accepts. -/
structure Fundable (total : ℤ) : Prop where
  minimum : minimumCampaignAmount ≤ total
  maximum : total ≤ i128Max / denom

/-- The legs of a fundable amount: both credits are positive, and no leg is negative. -/
structure Split.Valid (x : Split) (total : ℤ) : Prop where
  sum : x.creator + x.service + x.nft + x.revenue + x.referrer = total
  creator : 0 ≤ x.creator
  service : 0 ≤ x.service
  nft : 0 < x.nft
  revenue : 0 < x.revenue
  referrer : 0 ≤ x.referrer

theorem Fundable.nonneg {total : ℤ} (h : Fundable total) : 0 ≤ total :=
  le_trans (by decide) h.minimum

theorem Fundable.valid {total : ℤ} (h : Fundable total) : (split total).Valid total := by
  have h₀ := h.nonneg
  have hmin : 100 ≤ total := h.minimum
  have hs := share_eq_ediv h₀ (show 0 ≤ service by decide)
  have hn := share_eq_ediv h₀ (show 0 ≤ nftPool by decide)
  have hr := share_eq_ediv h₀ (show 0 ≤ revenue by decide)
  have hf := share_eq_ediv h₀ (show 0 ≤ referrer by decide)
  simp only [service, nftPool, revenue, referrer, denom] at hs hn hr hf
  constructor <;> simp only [split, service, nftPool, revenue, referrer, hs, hn, hr, hf] <;> omega

theorem Fundable.leg_ok {total rate : ℤ} (h : Fundable total) (h₀ : 0 ≤ rate) (h₁ : rate ≤ denom) :
    leg total rate = .ok (share total rate) := by
  have hmul : total * rate ≤ total * denom := Int.mul_le_mul_of_nonneg_left h₁ h.nonneg
  have hmax : total * denom ≤ i128Max := by
    have := h.maximum
    simp only [i128Max, denom] at this ⊢
    omega
  exact leg_eq_ok.2 ⟨inI128_of_nonneg (Int.mul_nonneg h.nonneg h₀) (hmul.trans hmax), rfl⟩

theorem Fundable.remainder_ok {total : ℤ} (h : Fundable total) :
    remainder total (split total).service (split total).nft (split total).revenue
      (split total).referrer = .ok (split total).creator := by
  obtain ⟨hsum, h₁, h₂, h₃, h₄, h₅⟩ := h.valid
  have hmax : total ≤ i128Max := h.maximum.trans (by decide)
  simp only [remainder, bind_eq_ok, plainI128_eq_ok]
  exact ⟨_, ⟨inI128_of_nonneg (by omega) (by omega), rfl⟩, _,
    ⟨inI128_of_nonneg (by omega) (by omega), rfl⟩, _,
    ⟨inI128_of_nonneg (by omega) (by omega), rfl⟩, inI128_of_nonneg (by omega) (by omega), rfl⟩

/-! ## The credits -/

/-- The pool can take a credit of `amount` for campaign `id`, once the amount
    has reached it. -/
structure Creditable (token escrow : Address) (id : UInt64) (amount : ℤ) (t : Tokens)
    (pool : Address) (s : Pool.PoolStorage) : Prop where
  initialized : s.governance.isSome
  paysIn : s.token = some token
  serves : s.escrow = some escrow
  fresh : s.creditedCampaign id = none
  nonneg : 0 ≤ s.credited
  paid : 0 ≤ s.paid
  paid_le : s.paid ≤ s.credited
  room : s.credited + amount ≤ i128Max
  covered : s.credited - s.paid ≤ t.balance token pool

theorem clientRecordCredit_succeeds {pool token : Address} {id : UInt64} {amount : ℤ}
    (hp : env.isPool pool = true) (h : Creditable token env.self id amount t pool (pools pool))
    (hpos : 0 < amount) (ht : t.balance token pool + amount ≤ t'.balance token pool) :
    ∃ s, clientRecordCredit env pool id amount pools t' = .ok (update pools pool s) := by
  obtain ⟨hg, htok, hesc, hfresh, hc₀, hp₀, hle, hroom, hcov⟩ := h
  have hauth : (poolEnv env pool).authorized env.self = true := by simp [poolEnv]
  have ht : (pools pool).credited + amount - (pools pool).paid ≤
      t'.balance token (poolEnv env pool).self := by
    change _ ≤ t'.balance token pool
    omega
  obtain ⟨s, hs⟩ := Pool.recordCredit_succeeds hg hpos hesc hauth hfresh
    (inI128_of_nonneg (by omega) hroom)
    (inI128_of_nonneg (by omega) (by omega)) htok ht
  exact ⟨s, by rw [clientRecordCredit, if_pos hp, hs]; rfl⟩

/-! ## The payouts -/

theorem transfer_self (env : Env) (t : Tokens) (token dst : Address) {amount : ℤ} (h₀ : 0 ≤ amount)
    (h : amount ≤ t.balance token env.self) :
    ∃ t', (t.transfer env token env.self dst amount : Result Tokens) = .ok t' ∧
      t.After [⟨token, env.self, dst, amount⟩] t' :=
  Tokens.transfer_succeeds env t token env.self dst (.inl rfl) h₀ h

/-- **The payouts of a covered campaign succeed.** -/
theorem payOut_succeeds {id : UInt64} {token creator treasury nft rev referrer : Address} {total : ℤ}
    {x : Split} (hx : x.Valid total) (htreasury : s.serviceTreasury = some treasury)
    (hnft : s.nftPool = some nft) (hrev : s.revenuePool = some rev) (hne : nft ≠ rev)
    (hpn : env.isPool nft = true) (hpr : env.isPool rev = true) (hn : nft ≠ env.self)
    (hr : rev ≠ env.self) (hcn : Creditable token env.self id x.nft t nft (pools nft))
    (hcr : Creditable token env.self id x.revenue t rev (pools rev))
    (hbal : total ≤ t.balance token env.self) :
    ∃ pools' t', payOut env id token creator referrer x s pools t = .ok (pools', t') := by
  obtain ⟨hsum, h₁, h₂, h₃, h₄, h₅⟩ := hx
  -- each transfer leaves the escrow enough for the next ones
  obtain ⟨t₁, ht₁, ha₁⟩ := transfer_self env t token creator h₁ (by omega)
  have hb₁ := ha₁.balance_ge (by simpa using h₁) token env.self
  simp at hb₁
  obtain ⟨t₂, ht₂, ha₂⟩ := transfer_self env t₁ token treasury h₂
    (show x.service ≤ t₁.balance token env.self by omega)
  have hb₂ := ha₂.balance_ge (by simpa using h₂) token env.self
  simp at hb₂
  obtain ⟨t₃, ht₃, ha₃⟩ := transfer_self env t₂ token nft h₃.le
    (show x.nft ≤ t₂.balance token env.self by omega)
  have hb₃ := ha₃.balance_ge (by simpa using h₃.le) token env.self
  simp at hb₃
  obtain ⟨t₄, ht₄, ha₄⟩ := transfer_self env t₃ token rev h₄.le
    (show x.revenue ≤ t₃.balance token env.self by omega)
  have hb₄ := ha₄.balance_ge (by simpa using h₄.le) token env.self
  simp at hb₄
  obtain ⟨t₅, ht₅, -⟩ := transfer_self env t₄ token referrer h₅
    (show x.referrer ≤ t₄.balance token env.self by omega)
  -- the pools do not lose on the way, and gain their legs
  have hgain : ∀ {u u' : Tokens} {dst : Address} {n : ℤ},
      u.After [⟨token, env.self, dst, n⟩] u' → ∀ q, q ≠ env.self →
      u.balance token q + (if dst = q then n else 0) = u'.balance token q := by
    intro u u' dst n hu q hq
    have := hu.balance token q
    simp [Ne.symm hq] at this
    omega
  have hn₁ := hgain ha₁ nft hn
  have hn₂ := hgain ha₂ nft hn
  have hn₃ := hgain ha₃ nft hn
  have hr₁ := hgain ha₁ rev hr
  have hr₂ := hgain ha₂ rev hr
  have hr₃ := hgain ha₃ rev hr
  have hr₄ := hgain ha₄ rev hr
  rw [if_pos rfl] at hn₃ hr₄
  rw [if_neg hne] at hr₃
  have hgn : t.balance token nft + x.nft ≤ t₃.balance token nft := by split_ifs at * <;> omega
  have hgr : t.balance token rev + x.revenue ≤ t₄.balance token rev := by split_ifs at * <;> omega
  obtain ⟨s₁, hs₁⟩ := clientRecordCredit_succeeds hpn hcn h₃ hgn
  have hcr : Creditable token env.self id x.revenue t rev (update pools nft s₁ rev) := by
    rw [update_of_ne hne.symm]; exact hcr
  obtain ⟨s₂, hs₂⟩ := clientRecordCredit_succeeds hpr hcr h₄ hgr
  refine ⟨update (update pools nft s₁) rev s₂, t₅, ?_⟩
  simp only [payOut, htreasury, hnft, hrev, trapOr, ht₁, ht₂, ht₃, hs₁, ht₄, hs₂, ht₅, ok_bind]
  rfl

/-- **When `complete` succeeds.** -/
theorem complete_succeeds {id : UInt64} {c : Campaign} {settlement token treasury nft rev : Address}
    (hg : s.governance.isSome) (hrun : s.paused.getD false = false)
    (hsettle : s.settlement = some settlement) (hauth : env.authorized settlement = true)
    (hc : s.campaign id = some c) (hst : c.status = .active) (htime : env.timestamp < c.expiresAt)
    (hcons : s.consumedOperation id c.operationVersion = none) (htoken : s.token = some token)
    (htreasury : s.serviceTreasury = some treasury) (hnft : s.nftPool = some nft)
    (hrev : s.revenuePool = some rev) (href : c.referrer.isSome) (hamount : Fundable c.amount)
    (hl : c.amount ≤ s.liability) (hcov : s.liability ≤ t.balance token env.self) (hne : nft ≠ rev)
    (hpn : env.isPool nft = true) (hpr : env.isPool rev = true) (hn : nft ≠ env.self)
    (hr : rev ≠ env.self)
    (hcn : Creditable token env.self id (split c.amount).nft t nft (pools nft))
    (hcr : Creditable token env.self id (split c.amount).revenue t rev (pools rev)) :
    ∃ r, complete env id c.operationVersion s pools t = .ok r := by
  obtain ⟨ref, href⟩ := Option.isSome_iff_exists.1 href
  have h₀ := hamount.nonneg
  have hnext : InI128 (s.liability - c.amount) :=
    inI128_of_nonneg (by omega) (by have := t.balance_le token env.self; omega)
  have hdef : ¬ (s.liability < c.amount ∨ t.balance token env.self < s.liability) := by omega
  obtain ⟨pools', t', hpay⟩ : ∃ pools' t',
      payOut env id token c.creator ref (split c.amount) s pools t = .ok (pools', t') :=
    payOut_succeeds hamount.valid htreasury hnft hrev hne hpn hpr hn hr hcn hcr (hl.trans hcov)
  simp only [complete, Escrow.campaign, bind_eq_ok, init_eq_ok, rejectIf_eq_ok, requireAuth_eq_ok,
    trapOr_eq_ok, okOr_eq_ok, plainI128_eq_ok, exists_const, pure_eq, Except.ok.injEq, Prod.exists]
  refine ⟨_, pools', t', _, ⟨hg, rfl⟩, by simpa [paused] using hrun, settlement, hsettle, hauth, c, hc,
    by simpa using hst, by simp, by simpa using htime, by simpa using hcons, token, htoken, hdef, _,
    ⟨hnext, rfl⟩, _, hamount.leg_ok (by decide) (by decide), _, hamount.leg_ok (by decide) (by decide), _,
    hamount.leg_ok (by decide) (by decide), _, hamount.leg_ok (by decide) (by decide), ref, href, _,
    hamount.remainder_ok, pools', t', ?_, rfl⟩
  exact hpay

end Escrow

end TogetherFi
