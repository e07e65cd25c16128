/-
  What a successful escrow call checked and what it changed.

  As for the pools, each entry point that touches the books has one record of
  the facts a successful call establishes (`Fund`, `Activate`, `Complete`,
  `Refund`, ...), and `EscrowCall.effect` sorts every successful call into
  these and the calls that leave the books alone.
-/
import TogetherFi.Escrow.Contract
import TogetherFi.Pool.Effect

namespace TogetherFi

open Outcome Function

namespace Escrow

/-- `TotalLiability`, or 0 where it is not stored. -/
def EscrowStorage.liability (s : EscrowStorage) : ℤ := s.totalLiability.getD 0

variable {env : Env} {s s' : EscrowStorage} {pools pools' : Pools} {t t' : Tokens}

/-! ## The internal functions -/

theorem init_eq_ok : init env s = .ok s' ↔ s.governance.isSome ∧ s' = s.extend env .instance_ := by
  unfold init
  split
  · rename_i h
    rw [Except.ok.injEq, eq_comm]
    exact ⟨fun hs => ⟨h, hs⟩, fun hs => hs.2⟩
  · rename_i h
    exact ⟨fun hs => (by cases hs), fun hs => absurd hs.1 h⟩

theorem leg_eq_ok {total rate x : ℤ} :
    leg total rate = .ok x ↔ InI128 (total * rate) ∧ x = (total * rate).tdiv denom := by
  simp only [leg, bind_eq_ok, okOr_eq_ok, checkedI128_eq_some, pure_eq, Except.ok.injEq]
  constructor
  · rintro ⟨product, ⟨h, rfl⟩, rfl⟩
    exact ⟨h, rfl⟩
  · rintro ⟨h, rfl⟩
    exact ⟨_, ⟨h, rfl⟩, rfl⟩

@[simp] theorem ofPool_eq_ok {α : Type} {r : Pool.Result α} {a : α} : ofPool r = .ok a ↔ r = .ok a := by
  rcases r with (e | e) | b <;> simp [ofPool]

@[simp] theorem extend_liability (e : EscrowEntry) : (s.extend env e).liability = s.liability := rfl

/-! ## Calls to the pools -/

theorem clientEscrowContract_pool {pool a : Address} (hp : env.isPool pool = true)
    (h : clientEscrowContract env pools pool = .ok a) : (pools pool).escrow = some a := by
  rw [clientEscrowContract, if_pos hp, ofPool_eq_ok] at h
  exact okOr_eq_ok.1 h

theorem clientTokenContract_pool {pool a : Address} (hp : env.isPool pool = true)
    (h : clientTokenContract env pools pool = .ok a) : (pools pool).token = some a := by
  rw [clientTokenContract, if_pos hp, ofPool_eq_ok] at h
  exact okOr_eq_ok.1 h

theorem clientRecordCredit_pool {pool : Address} {id : UInt64} {amount : ℤ}
    (hp : env.isPool pool = true) (h : clientRecordCredit env pool id amount pools t = .ok pools') :
    ∃ s, Pool.RecordCredit (poolEnv env pool) id amount (pools pool) t s ∧
      pools' = update pools pool s := by
  rw [clientRecordCredit, if_pos hp] at h
  simp only [bind_eq_ok, ofPool_eq_ok, pure_eq, Except.ok.injEq] at h
  obtain ⟨s, h, rfl⟩ := h
  exact ⟨s, Pool.recordCredit_ok h, rfl⟩

theorem clientRecordCredit_foreign {pool : Address} {id : UInt64} {amount : ℤ}
    (hp : env.isPool pool = false) (h : clientRecordCredit env pool id amount pools t = .ok pools') :
    pools' = pools := by
  rw [clientRecordCredit, if_neg (by simp [hp])] at h
  simp only [bind_eq_ok, pure_eq, Except.ok.injEq] at h
  obtain ⟨_, -, rfl⟩ := h
  rfl

theorem clientRecordCredit_preserves {I : Pool.PoolStorage → Prop} {pool q : Address} {id : UInt64}
    {amount : ℤ}
    (hcall : ∀ {s s'}, Pool.RecordCredit (poolEnv env q) id amount s t s' → I s → I s')
    (h : clientRecordCredit env pool id amount pools t = .ok pools') (hI : I (pools q)) :
    I (pools' q) := by
  cases hp : env.isPool pool with
  | false => rw [clientRecordCredit_foreign hp h]; exact hI
  | true =>
    obtain ⟨s, hc, rfl⟩ := clientRecordCredit_pool hp h
    by_cases hq : q = pool
    · subst hq; rw [update_self]; exact hcall hc hI
    · rw [update_of_ne hq]; exact hI

/-! ## The split -/

/-- The share of `total` at `rate` of 10,000, rounded down. -/
def share (total rate : ℤ) : ℤ := (total * rate).tdiv denom

theorem share_eq_ediv {total rate : ℤ} (ht : 0 ≤ total) (hr : 0 ≤ rate) :
    share total rate = total * rate / denom :=
  Int.tdiv_eq_ediv_of_nonneg (Int.mul_nonneg ht hr)

/-- The fixed split of `total`: the creator receives the remainder. -/
def split (total : ℤ) : Split where
  creator := total - share total service - share total nftPool - share total revenue -
    share total referrer
  service := share total service
  nft := share total nftPool
  revenue := share total revenue
  referrer := share total referrer

/-- The destinations of the five legs. -/
structure Payees where
  creator : Address
  treasury : Address
  nftPool : Address
  revenuePool : Address
  referrer : Address
  deriving DecidableEq

/-- The transfers of a completed campaign of `total`, in order. -/
def payouts (token escrow : Address) (p : Payees) (total : ℤ) : List Transfer :=
  [⟨token, escrow, p.creator, (split total).creator⟩,
   ⟨token, escrow, p.treasury, (split total).service⟩,
   ⟨token, escrow, p.nftPool, (split total).nft⟩,
   ⟨token, escrow, p.revenuePool, (split total).revenue⟩,
   ⟨token, escrow, p.referrer, (split total).referrer⟩]

theorem sent_payouts (token escrow : Address) (p : Payees) (total : ℤ) :
    sent (payouts token escrow p total) token escrow = total := by
  simp only [payouts, split, sent_cons, sent_nil, and_self, if_true]
  omega

theorem sent_payouts_of_ne {escrow q : Address} (h : q ≠ escrow) (token token' : Address) (p : Payees)
    (total : ℤ) : sent (payouts token escrow p total) token' q = 0 := by
  simp [payouts, h.symm]

/-! ## Entry points -/

/-- A successful `initialize`. -/
structure Initialize (env : Env)
    (governance settlement token serviceTreasury nftPool revenuePool deployer : Address)
    (salt : BytesN32) (s : EscrowStorage) (pools : Pools) (s' : EscrowStorage) : Prop where
  fresh : s.governance = none
  deployment : env.deployedAddress deployer salt = env.self
  deployerAuth : env.authorized deployer = true
  governanceAuth : env.authorized governance = true
  distinct : nftPool ≠ revenuePool
  nftEscrow : clientEscrowContract env pools nftPool = .ok env.self
  revenueEscrow : clientEscrowContract env pools revenuePool = .ok env.self
  nftToken : clientTokenContract env pools nftPool = .ok token
  revenueToken : clientTokenContract env pools revenuePool = .ok token
  post : ∃ live, s' = { s with
    governance := some governance
    settlement := some settlement
    token := some token
    serviceTreasury := some serviceTreasury
    nftPool := some nftPool
    revenuePool := some revenuePool
    configVersion := some 1
    paused := some false
    totalLiability := some 0
    live := live }

theorem initializeEscrow_ok {g se tok tr nft rev d : Address} {salt : BytesN32}
    (h : initializeEscrow env g se tok tr nft rev d salt s pools = .ok s') :
    Initialize env g se tok tr nft rev d salt s pools s' := by
  simp only [initializeEscrow, bind_eq_ok, rejectIf_eq_ok, requireAuth_eq_ok, requireAuthIf_eq_ok,
    exists_const, pure_eq, Except.ok.injEq, ne_eq, not_not] at h
  obtain ⟨hfresh, hdep, hd, hdist, _, hne, rfl, _, hre, rfl, _, hnt, rfl, _, hrt, rfl, hg, rfl⟩ := h
  refine ⟨by simpa using hfresh, hdep, hd, ?_, hdist, hne, hre, hnt, hrt, _, rfl⟩
  by_cases hgd : g = d
  · rw [hgd]; exact hd
  · exact hg hgd

/-- The campaign `fund` stores: the creator is a placeholder, and referrer and
    terms are missing, until the sponsor activates it. -/
def newCampaign (env : Env) (sponsor : Address) (amount : ℤ) : Campaign where
  sponsor := sponsor
  amount := amount
  creator := env.self
  referrer := none
  termsHash := []
  fundedAt := env.timestamp
  expiresAt := env.timestamp + expiry
  operationVersion := 0
  status := .funded

/-- A successful `fund`. -/
structure Fund (env : Env) (campaignId : UInt64) (sponsor : Address) (amount : ℤ) (token : Address)
    (s : EscrowStorage) (t : Tokens) (s' : EscrowStorage) (t' : Tokens) : Prop where
  initialized : s.governance.isSome
  minimum : minimumCampaignAmount ≤ amount
  maximum : amount ≤ i128Max / denom
  running : s.paused.getD false = false
  newId : s.campaign campaignId = none
  sponsorAuth : env.authorized sponsor = true
  paysIn : s.token = some token
  transfer : t.After [⟨token, sponsor, env.self, amount⟩] t'
  inRange : InI128 (s.liability + amount)
  noOverflow : env.timestamp.toNat + expiry.toNat < 2 ^ 64
  post : ∃ live, s' = { s with
    totalLiability := some (s.liability + amount)
    campaign := update s.campaign campaignId (some (newCampaign env sponsor amount))
    live := live }

theorem fund_ok {id : UInt64} {sponsor : Address} {amount : ℤ}
    (h : fund env id sponsor amount s t = .ok (s', t')) :
    ∃ token, Fund env id sponsor amount token s t s' t' := by
  simp only [fund, bind_eq_ok, init_eq_ok, rejectIf_eq_ok, requireAuth_eq_ok, trapOr_eq_ok,
    plainI128_eq_ok, plainAddU64_eq_ok, exists_const, pure_eq, Except.ok.injEq, Prod.mk.injEq] at h
  obtain ⟨_, ⟨hg, rfl⟩, hamt, hrun, hnew, hauth, token, htoken, t₁, htr, _, ⟨hr, rfl⟩, _, ⟨hu, rfl⟩,
    rfl, rfl⟩ := h
  obtain ⟨-, -, -, hafter⟩ := Tokens.transfer_eq_ok.1 htr
  exact ⟨token, hg, by omega, by omega, by simpa [paused] using hrun, by simpa using hnew, hauth, htoken,
    hafter, hr, hu, _, rfl⟩

/-- **When `fund` succeeds.** -/
theorem fund_succeeds {id : UInt64} {sponsor token : Address} {amount : ℤ} (hg : s.governance.isSome)
    (hmin : minimumCampaignAmount ≤ amount) (hmax : amount ≤ i128Max / denom)
    (hrun : s.paused.getD false = false) (hnew : s.campaign id = none)
    (hauth : env.authorized sponsor = true) (htoken : s.token = some token)
    (hheld : amount ≤ t.balance token sponsor) (hr : InI128 (s.liability + amount))
    (hu : env.timestamp.toNat + expiry.toNat < 2 ^ 64) :
    ∃ s' t', fund env id sponsor amount s t = .ok (s', t') := by
  have h₀ : 0 ≤ amount := le_trans (by decide) hmin
  obtain ⟨t', htr, -⟩ := Tokens.transfer_succeeds (ε := EscrowError) env t token sponsor env.self
    (.inr hauth) h₀ hheld
  simp only [fund, bind_eq_ok, init_eq_ok, rejectIf_eq_ok, requireAuth_eq_ok, trapOr_eq_ok,
    plainI128_eq_ok, plainAddU64_eq_ok, exists_const, pure_eq, Except.ok.injEq, Prod.mk.injEq]
  exact ⟨_, t', _, ⟨hg, rfl⟩, by omega, by simpa [paused] using hrun, by simpa using hnew, hauth, token,
    htoken, t', htr, _, ⟨hr, rfl⟩, _, ⟨hu, rfl⟩, rfl, rfl⟩

/-- The campaign after its activation. -/
def Campaign.activated (c : Campaign) (creator : Address) (referrer : Option Address)
    (termsHash : List UInt8) : Campaign :=
  { c with
    creator := creator
    referrer := referrer
    termsHash := termsHash
    status := .active
    operationVersion := 1 }

/-- A successful `activate` of campaign `c`. -/
structure Activate (env : Env) (campaignId : UInt64) (creator : Address) (referrer : Option Address)
    (termsHash : List UInt8) (c : Campaign) (s s' : EscrowStorage) : Prop where
  initialized : s.governance.isSome
  running : s.paused.getD false = false
  terms : termsHash ≠ []
  present : referrer.isSome
  campaign : s.campaign campaignId = some c
  funded : c.status = .funded
  sponsorAuth : env.authorized c.sponsor = true
  post : ∃ live, s' = { s with
    campaign := update s.campaign campaignId (some (c.activated creator referrer termsHash))
    live := live }

theorem activate_ok {id : UInt64} {creator : Address} {referrer : Option Address}
    {terms : List UInt8} (h : activate env id creator referrer terms s = .ok s') :
    ∃ c, Activate env id creator referrer terms c s s' := by
  simp only [activate, Escrow.campaign, bind_eq_ok, init_eq_ok, rejectIf_eq_ok, requireAuth_eq_ok,
    okOr_eq_ok, exists_const, pure_eq, Except.ok.injEq] at h
  obtain ⟨_, ⟨hg, rfl⟩, hrun, hterms, href, c, hc, hst, hauth, rfl⟩ := h
  exact ⟨c, hg, by simpa [paused] using hrun, by simpa using hterms,
    by simpa [Option.isSome_iff_ne_none] using href, hc, by simpa using hst, hauth, _, rfl⟩

/-- **When `activate` succeeds.** -/
theorem activate_succeeds {id : UInt64} {creator : Address} {referrer : Option Address}
    {terms : List UInt8} {c : Campaign} (hg : s.governance.isSome)
    (hrun : s.paused.getD false = false) (hterms : terms ≠ []) (href : referrer.isSome)
    (hc : s.campaign id = some c) (hst : c.status = .funded)
    (hauth : env.authorized c.sponsor = true) :
    ∃ s', activate env id creator referrer terms s = .ok s' := by
  simp only [activate, Escrow.campaign, bind_eq_ok, init_eq_ok, rejectIf_eq_ok, requireAuth_eq_ok,
    okOr_eq_ok, exists_const, pure_eq, Except.ok.injEq]
  exact ⟨_, _, ⟨hg, rfl⟩, by simpa [paused] using hrun, by simpa using hterms,
    by simpa [Option.isSome_iff_ne_none] using href, c, hc, by simpa using hst, hauth, rfl⟩

theorem remainder_ok {total a b c d x : ℤ} (h : remainder total a b c d = .ok x) :
    x = total - a - b - c - d := by
  simp only [remainder, bind_eq_ok, plainI128_eq_ok] at h
  obtain ⟨_, ⟨-, rfl⟩, _, ⟨-, rfl⟩, _, ⟨-, rfl⟩, -, rfl⟩ := h
  rfl

/-- A successful `payOut` to the payees `p`.  The pools are credited after the
    third and the fourth transfer, with the tokens as they are then. -/
structure PayOut (env : Env) (campaignId : UInt64) (token : Address) (p : Payees) (total : ℤ)
    (s : EscrowStorage) (pools : Pools) (t : Tokens) (pools' : Pools) (t' : Tokens) : Prop where
  treasury : s.serviceTreasury = some p.treasury
  nftPool : s.nftPool = some p.nftPool
  revenuePool : s.revenuePool = some p.revenuePool
  nonneg : ∀ e ∈ payouts token env.self p total, 0 ≤ e.amount
  transfers : t.After (payouts token env.self p total) t'
  credits : ∃ t₃ t₄ pools₁,
    t.After ((payouts token env.self p total).take 3) t₃ ∧
    t₃.After ((payouts token env.self p total).drop 3) t' ∧
    clientRecordCredit env p.nftPool campaignId (split total).nft pools t₃ = .ok pools₁ ∧
    t.After ((payouts token env.self p total).take 4) t₄ ∧
    t₄.After ((payouts token env.self p total).drop 4) t' ∧
    clientRecordCredit env p.revenuePool campaignId (split total).revenue pools₁ t₄ = .ok pools'

theorem payOut_ok {id : UInt64} {token creator referrer : Address} {total : ℤ}
    (h : payOut env id token creator referrer (split total) s pools t = .ok (pools', t')) :
    ∃ p : Payees, p.creator = creator ∧ p.referrer = referrer ∧
      PayOut env id token p total s pools t pools' t' := by
  simp only [payOut, bind_eq_ok, trapOr_eq_ok, pure_eq, Except.ok.injEq, Prod.mk.injEq] at h
  obtain ⟨t₁, h₁, tr, htr, t₂, h₂, nft, hnft, t₃, h₃, pools₁, hcr₁, rev, hrev, t₄, h₄, pools₂, hcr₂, t₅,
    h₅, rfl, rfl⟩ := h
  obtain ⟨-, n₁, -, a₁⟩ := Tokens.transfer_eq_ok.1 h₁
  obtain ⟨-, n₂, -, a₂⟩ := Tokens.transfer_eq_ok.1 h₂
  obtain ⟨-, n₃, -, a₃⟩ := Tokens.transfer_eq_ok.1 h₃
  obtain ⟨-, n₄, -, a₄⟩ := Tokens.transfer_eq_ok.1 h₄
  obtain ⟨-, n₅, -, a₅⟩ := Tokens.transfer_eq_ok.1 h₅
  have b₃ := (a₁.trans a₂).trans a₃
  have b₄ := b₃.trans a₄
  refine ⟨⟨creator, tr, nft, rev, referrer⟩, rfl, rfl, htr, hnft, hrev, ?_, b₄.trans a₅,
    t₃, t₄, pools₁, b₃, a₄.trans a₅, hcr₁, b₄, a₅, hcr₂⟩
  simp only [payouts, List.mem_cons, List.not_mem_nil, or_false, forall_eq_or_imp, forall_eq]
  exact ⟨n₁, n₂, n₃, n₄, n₅⟩

/-- **The pools after a `payOut`.**  Each of the two pools that is an instance
    is credited its leg, after that leg has reached it and before the remaining
    ones; the others are left. -/
theorem PayOut.credited {env : Env} {id : UInt64} {token : Address} {p : Payees} {total : ℤ}
    (h : PayOut env id token p total s pools t pools' t') (hne : p.nftPool ≠ p.revenuePool) :
    (env.isPool p.nftPool = true → ∃ t₃, t.After ((payouts token env.self p total).take 3) t₃ ∧
      t₃.After ((payouts token env.self p total).drop 3) t' ∧
      Pool.RecordCredit (poolEnv env p.nftPool) id (split total).nft (pools p.nftPool) t₃
        (pools' p.nftPool)) ∧
    (env.isPool p.revenuePool = true → ∃ t₄, t.After ((payouts token env.self p total).take 4) t₄ ∧
      t₄.After ((payouts token env.self p total).drop 4) t' ∧
      Pool.RecordCredit (poolEnv env p.revenuePool) id (split total).revenue (pools p.revenuePool) t₄
        (pools' p.revenuePool)) ∧
    ∀ q, q ≠ p.nftPool → q ≠ p.revenuePool → pools' q = pools q := by
  obtain ⟨t₃, t₄, pools₁, ht₃, ht₃', h₁, ht₄, ht₄', h₂⟩ := h.credits
  -- a credit to one address leaves the others alone
  have hother : ∀ {pool q : Address} {amount : ℤ} {pools pools' : Pools} {t : Tokens}, q ≠ pool →
      clientRecordCredit env pool id amount pools t = .ok pools' → pools' q = pools q := by
    intro pool q amount pools pools' t hq hc
    cases hp : env.isPool pool with
    | false => rw [clientRecordCredit_foreign hp hc]
    | true =>
      obtain ⟨s, -, rfl⟩ := clientRecordCredit_pool hp hc
      exact update_of_ne hq ..
  refine ⟨fun hp => ⟨t₃, ht₃, ht₃', ?_⟩, fun hp => ⟨t₄, ht₄, ht₄', ?_⟩, fun q h₁' h₂' => ?_⟩
  · obtain ⟨s, hc, rfl⟩ := clientRecordCredit_pool hp h₁
    rw [hother hne h₂, update_self]; exact hc
  · obtain ⟨s, hc, rfl⟩ := clientRecordCredit_pool hp h₂
    rw [hother hne.symm h₁] at hc
    rw [update_self]; exact hc
  · rw [hother h₂' h₂, hother h₁' h₁]

/-- A successful `complete` of campaign `c`. -/
structure Complete (env : Env) (campaignId : UInt64) (operationVersion : ℕ) (c : Campaign)
    (token : Address) (p : Payees) (s : EscrowStorage) (pools : Pools) (t : Tokens)
    (s' : EscrowStorage) (pools' : Pools) (t' : Tokens) : Prop where
  initialized : s.governance.isSome
  running : s.paused.getD false = false
  settlement : ∃ a, s.settlement = some a ∧ env.authorized a = true
  campaign : s.campaign campaignId = some c
  active : c.status = .active
  version : operationVersion = c.operationVersion
  inTime : env.timestamp < c.expiresAt
  unconsumed : s.consumedOperation campaignId operationVersion = none
  paysIn : s.token = some token
  liability : c.amount ≤ s.liability
  covered : s.liability ≤ t.balance token env.self
  creator : p.creator = c.creator
  referrer : c.referrer = some p.referrer
  payOut : PayOut env campaignId token p c.amount s pools t pools' t'
  post : ∃ live, s' = { s with
    campaign := update s.campaign campaignId (some { c with status := .completed })
    consumedOperation := update s.consumedOperation campaignId
      (update (s.consumedOperation campaignId) operationVersion (some true))
    totalLiability := some (s.liability - c.amount)
    live := live }

theorem complete_ok {id : UInt64} {version : ℕ}
    (h : complete env id version s pools t = .ok (s', pools', t')) :
    ∃ c token p, Complete env id version c token p s pools t s' pools' t' := by
  simp only [complete, Escrow.campaign, bind_eq_ok, init_eq_ok, rejectIf_eq_ok, requireAuth_eq_ok,
    trapOr_eq_ok, okOr_eq_ok, leg_eq_ok, plainI128_eq_ok, exists_const, pure_eq, Except.ok.injEq,
    Prod.mk.injEq, Prod.exists] at h
  obtain ⟨_, ⟨hg, rfl⟩, hrun, se, hse, hauth, c, hc, hst, hver, htime, hcons, token, htoken, hdef, _,
    ⟨-, rfl⟩, _, ⟨-, rfl⟩, _, ⟨-, rfl⟩, _, ⟨-, rfl⟩, _, ⟨-, rfl⟩, ref, href, x, hx, pools₁, t₁, hpay,
    rfl, rfl, rfl⟩ := h
  obtain rfl := remainder_ok hx
  obtain ⟨p, hpc, rfl, hp⟩ := payOut_ok (show payOut _ _ _ _ _ (split c.amount) _ _ _ = _ from hpay)
  have hdef' : ¬ (s.liability < c.amount ∨ t.balance token env.self < s.liability) := hdef
  exact ⟨c, token, p, hg, by simpa [paused] using hrun, ⟨se, hse, hauth⟩, hc, by simpa using hst,
    by simpa using hver, by simpa using htime, by simpa using hcons, htoken, by omega, by omega, hpc,
    href, ⟨hp.1, hp.2, hp.3, hp.4, hp.5, hp.6⟩, _, rfl⟩

/-- A successful `refund_expired` of campaign `c`. -/
structure Refund (env : Env) (campaignId : UInt64) (c : Campaign) (token : Address)
    (s : EscrowStorage) (t : Tokens) (s' : EscrowStorage) (t' : Tokens) : Prop where
  initialized : s.governance.isSome
  campaign : s.campaign campaignId = some c
  pending : c.status = .active ∨ c.status = .funded
  late : c.expiresAt ≤ env.timestamp
  paysIn : s.token = some token
  liability : c.amount ≤ s.liability
  covered : s.liability ≤ t.balance token env.self
  amount : 0 ≤ c.amount
  transfer : t.After [⟨token, env.self, c.sponsor, c.amount⟩] t'
  post : ∃ live, s' = { s with
    campaign := update s.campaign campaignId (some { c with status := .refunded })
    totalLiability := some (s.liability - c.amount)
    live := live }

theorem refundExpired_ok {id : UInt64} (h : refundExpired env id s t = .ok (s', t')) :
    ∃ c token, Refund env id c token s t s' t' := by
  simp only [refundExpired, Escrow.campaign, bind_eq_ok, init_eq_ok, rejectIf_eq_ok, trapOr_eq_ok,
    okOr_eq_ok, plainI128_eq_ok, exists_const, pure_eq, Except.ok.injEq, Prod.mk.injEq] at h
  obtain ⟨_, ⟨hg, rfl⟩, c, hc, hst, hlate, token, htoken, hdef, _, ⟨-, rfl⟩, t₁, htr, rfl, rfl⟩ := h
  obtain ⟨-, h₀, -, hafter⟩ := Tokens.transfer_eq_ok.1 htr
  have hdef' : ¬ (s.liability < c.amount ∨ t.balance token env.self < s.liability) := hdef
  exact ⟨c, token, hg, hc, by tauto, by simpa using hlate, htoken, by omega, by omega, h₀, hafter, _, rfl⟩

/-- **When `refund_expired` succeeds.** -/
theorem refundExpired_succeeds {id : UInt64} {c : Campaign} {token : Address}
    (hg : s.governance.isSome) (hc : s.campaign id = some c)
    (hst : c.status = .active ∨ c.status = .funded) (hlate : c.expiresAt ≤ env.timestamp)
    (htoken : s.token = some token) (h₀ : 0 ≤ c.amount) (hl : c.amount ≤ s.liability)
    (hcov : s.liability ≤ t.balance token env.self) :
    ∃ s' t', refundExpired env id s t = .ok (s', t') := by
  obtain ⟨t', htr, -⟩ := Tokens.transfer_succeeds (ε := EscrowError) env t token env.self c.sponsor
    (.inl rfl) h₀ (hl.trans hcov)
  have hnext : InI128 (s.liability - c.amount) :=
    inI128_of_nonneg (by omega) (by have := t.balance_le token env.self; omega)
  have hdef : ¬ (s.liability < c.amount ∨ t.balance token env.self < s.liability) := by omega
  simp only [refundExpired, Escrow.campaign, bind_eq_ok, init_eq_ok, rejectIf_eq_ok, trapOr_eq_ok,
    okOr_eq_ok, plainI128_eq_ok, exists_const, pure_eq, Except.ok.injEq, Prod.mk.injEq]
  exact ⟨_, t', _, ⟨hg, rfl⟩, c, hc, by tauto, by simpa using hlate, token, htoken, hdef, _, ⟨hnext, rfl⟩,
    t', htr, rfl, rfl⟩

/-! ### The calls that leave the books alone -/

/-- `s'` differs from `s` at most in the roles, the pause flag and the lives. -/
structure SameBooks (s s' : EscrowStorage) : Prop where
  initialized : s'.governance.isSome = s.governance.isSome
  token : s'.token = s.token
  treasury : s'.serviceTreasury = s.serviceTreasury
  nftPool : s'.nftPool = s.nftPool
  revenuePool : s'.revenuePool = s.revenuePool
  liability : s'.totalLiability = s.totalLiability
  campaign : s'.campaign = s.campaign
  consumed : s'.consumedOperation = s.consumedOperation

theorem SameBooks.refl (s : EscrowStorage) : SameBooks s s := ⟨rfl, rfl, rfl, rfl, rfl, rfl, rfl, rfl⟩

theorem SameBooks.extend (s : EscrowStorage) (env : Env) (e : EscrowEntry) :
    SameBooks s (s.extend env e) :=
  ⟨rfl, rfl, rfl, rfl, rfl, rfl, rfl, rfl⟩

theorem SameBooks.trans {s₁ s₂ s₃ : EscrowStorage} (h₁ : SameBooks s₁ s₂) (h₂ : SameBooks s₂ s₃) :
    SameBooks s₁ s₃ :=
  ⟨h₂.1.trans h₁.1, h₂.2.trans h₁.2, h₂.3.trans h₁.3, h₂.4.trans h₁.4, h₂.5.trans h₁.5,
    h₂.6.trans h₁.6, h₂.7.trans h₁.7, h₂.8.trans h₁.8⟩

theorem propose_same {role : ℕ} {account : Address} (h : propose env role account s = .ok s') :
    SameBooks s s' := by
  simp only [propose, currentGovernance, bind_eq_ok, init_eq_ok, okOr_eq_ok, requireAuth_eq_ok,
    exists_const, pure_eq, Except.ok.injEq] at h
  obtain ⟨_, ⟨-, rfl⟩, _, -, -, rfl⟩ := h
  split <;> exact ⟨rfl, rfl, rfl, rfl, rfl, rfl, rfl, rfl⟩

theorem accept_same {role : ℕ} (h : accept env role s = .ok s') : SameBooks s s' := by
  simp only [accept, bind_eq_ok, init_eq_ok, okOr_eq_ok, requireAuth_eq_ok, exists_const, pure_eq,
    Except.ok.injEq] at h
  obtain ⟨_, ⟨hg, rfl⟩, _, -, -, rfl⟩ := h
  split <;> exact ⟨by simp [hg], rfl, rfl, rfl, rfl, rfl, rfl, rfl⟩

theorem setPaused_same {b : Bool} (h : setPaused b env s = .ok s') : SameBooks s s' := by
  simp only [setPaused, currentGovernance, bind_eq_ok, init_eq_ok, okOr_eq_ok, requireAuth_eq_ok,
    exists_const, pure_eq, Except.ok.injEq] at h
  obtain ⟨_, ⟨-, rfl⟩, _, -, -, rfl⟩ := h
  exact ⟨rfl, rfl, rfl, rfl, rfl, rfl, rfl, rfl⟩

theorem readInstance_same {α : Type} {get : EscrowStorage → Result α} {a : α}
    (h : readInstance env get s = .ok (a, s')) : SameBooks s s' := by
  simp only [readInstance, bind_eq_ok, init_eq_ok, pure_eq, Except.ok.injEq, Prod.mk.injEq] at h
  obtain ⟨_, ⟨-, rfl⟩, _, -, -, rfl⟩ := h
  exact ⟨rfl, rfl, rfl, rfl, rfl, rfl, rfl, rfl⟩

/-! ## All calls -/

/-- The calls that can change the books. -/
def EscrowCall.isBooking : EscrowCall → Bool
  | .initializeEscrow .. | .fund .. | .activate .. | .complete .. | .refundExpired .. => true
  | _ => false

/-- What a successful call did, by the kind of call. -/
inductive Effect (env : Env) (s : EscrowStorage) (pools : Pools) (t : Tokens) (s' : EscrowStorage)
    (pools' : Pools) (t' : Tokens) : EscrowCall → Prop
  | initializeEscrow {g se tok tr nft rev d salt}
      (h : Initialize env g se tok tr nft rev d salt s pools s') (hp : pools' = pools) (ht : t' = t) :
      Effect env s pools t s' pools' t' (.initializeEscrow g se tok tr nft rev d salt)
  | fund {id sponsor amount token} (h : Fund env id sponsor amount token s t s' t')
      (hp : pools' = pools) : Effect env s pools t s' pools' t' (.fund id sponsor amount)
  | activate {id creator referrer terms c} (h : Activate env id creator referrer terms c s s')
      (hp : pools' = pools) (ht : t' = t) :
      Effect env s pools t s' pools' t' (.activate id creator referrer terms)
  | complete {id version c token p} (h : Complete env id version c token p s pools t s' pools' t') :
      Effect env s pools t s' pools' t' (.complete id version)
  | refundExpired {id c token} (h : Refund env id c token s t s' t') (hp : pools' = pools) :
      Effect env s pools t s' pools' t' (.refundExpired id)
  | other {call} (hcall : call.isBooking = false) (h : SameBooks s s') (hp : pools' = pools)
      (ht : t' = t) : Effect env s pools t s' pools' t' call

/-- **What a successful call did.** -/
theorem EscrowCall.effect {call : EscrowCall} (h : call.exec env s pools t = .ok (s', pools', t')) :
    Effect env s pools t s' pools' t' call := by
  cases call
  case initializeEscrow =>
    obtain ⟨hc, he⟩ := pair_eq_ok.1 h
    obtain ⟨rfl, rfl⟩ := Prod.mk.inj he
    exact .initializeEscrow (initializeEscrow_ok hc) rfl rfl
  case fund =>
    simp only [exec, bind_eq_ok, pure_eq, Except.ok.injEq, Prod.mk.injEq, Prod.exists] at h
    obtain ⟨_, _, h, rfl, rfl, rfl⟩ := h
    obtain ⟨token, h⟩ := fund_ok h
    exact .fund h rfl
  case activate =>
    obtain ⟨hc, he⟩ := pair_eq_ok.1 h
    obtain ⟨rfl, rfl⟩ := Prod.mk.inj he
    obtain ⟨c, hc⟩ := activate_ok hc
    exact .activate hc rfl rfl
  case complete =>
    obtain ⟨c, token, p, h⟩ := complete_ok h
    exact .complete h
  case refundExpired =>
    simp only [exec, bind_eq_ok, pure_eq, Except.ok.injEq, Prod.mk.injEq, Prod.exists] at h
    obtain ⟨_, _, h, rfl, rfl, rfl⟩ := h
    obtain ⟨c, token, h⟩ := refundExpired_ok h
    exact .refundExpired h rfl
  case proposeGovernance | proposeSettlement =>
    obtain ⟨hc, he⟩ := pair_eq_ok.1 h
    obtain ⟨rfl, rfl⟩ := Prod.mk.inj he
    exact .other rfl (propose_same hc) rfl rfl
  case acceptGovernance | acceptSettlement =>
    obtain ⟨hc, he⟩ := pair_eq_ok.1 h
    obtain ⟨rfl, rfl⟩ := Prod.mk.inj he
    exact .other rfl (accept_same hc) rfl rfl
  case pause | unpause =>
    obtain ⟨hc, he⟩ := pair_eq_ok.1 h
    obtain ⟨rfl, rfl⟩ := Prod.mk.inj he
    exact .other rfl (setPaused_same hc) rfl rfl
  case getCampaign =>
    obtain ⟨⟨_, hc⟩, he⟩ := snd_pair_eq_ok.1 h
    obtain ⟨rfl, rfl⟩ := Prod.mk.inj he
    simp only [Escrow.getCampaign, bind_eq_ok, pure_eq, Except.ok.injEq, Prod.mk.injEq] at hc
    obtain ⟨_, -, -, rfl⟩ := hc
    exact .other rfl (.extend s env _) rfl rfl
  case configVersion | poolDestinations | tokenContract | serviceTreasury | settlementAuthority =>
    obtain ⟨⟨_, hc⟩, he⟩ := snd_pair_eq_ok.1 h
    obtain ⟨rfl, rfl⟩ := Prod.mk.inj he
    exact .other rfl (readInstance_same hc) rfl rfl
  case isPaused =>
    simp only [exec, Except.ok.injEq, Prod.mk.injEq] at h
    obtain ⟨rfl, rfl, rfl⟩ := h
    exact .other rfl (.refl s) rfl rfl
  case governance =>
    simp only [exec, bind_eq_ok, pure_eq, Except.ok.injEq, Prod.mk.injEq] at h
    obtain ⟨_, -, rfl, rfl, rfl⟩ := h
    exact .other rfl (.refl s) rfl rfl
  case extendInstanceTtl =>
    obtain ⟨hc, he⟩ := pair_eq_ok.1 h
    obtain ⟨rfl, rfl⟩ := Prod.mk.inj he
    simp only [Escrow.extendInstanceTtl, bind_eq_ok, init_eq_ok, pure_eq, Except.ok.injEq] at hc
    obtain ⟨_, ⟨-, rfl⟩, rfl⟩ := hc
    exact .other rfl ⟨rfl, rfl, rfl, rfl, rfl, rfl, rfl, rfl⟩ rfl rfl
  case extendCampaignTtl =>
    obtain ⟨hc, he⟩ := pair_eq_ok.1 h
    obtain ⟨rfl, rfl⟩ := Prod.mk.inj he
    simp only [Escrow.extendCampaignTtl, bind_eq_ok, pure_eq, Except.ok.injEq] at hc
    obtain ⟨_, -, rfl⟩ := hc
    exact .other rfl (.extend s env _) rfl rfl

end Escrow

end TogetherFi
