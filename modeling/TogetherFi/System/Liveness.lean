/-
  No campaign is locked, unless the credits of a pool run out.

  After expiry every open campaign can be refunded by anyone.  Before, an
  active campaign can be completed as long as the total each pool was ever
  credited still fits in an `i128`: that total only grows, and `record_credit`
  rejects a credit that overflows it.  `Recycling` reaches that state by
  funding, completing and claiming the same money over and over.
-/
import TogetherFi.Escrow.Completion
import TogetherFi.System.Solvency

namespace TogetherFi

open Outcome Function Escrow Pool

variable {D : Deployment}

theorem Escrow.CampaignBooks.fundable {escrow : Address} {c : Campaign}
    (h : CampaignBooks escrow c) : Fundable c.amount :=
  ⟨h.minimum, h.maximum⟩

/-- A campaign is uncompleted, so its credit is still open at both pools. -/
theorem Execution.creditable (x : Execution D) (hx : x.NoClawback) {p token : Address} {id : UInt64}
    {c : Campaign} {amount : ℤ} (hp : D.isPool p = true)
    (hb : BoundTo token D.escrow (x.final.pools p)) (hc : x.final.escrow.campaign id = some c)
    (hst : c.status = .active) (hroom : (x.final.pools p).credited + amount ≤ i128Max) :
    Creditable token D.escrow id amount x.final.tokens p (x.final.pools p) := by
  have hbooks := x.pool_books p
  have hl := hbooks.liability_nonneg
  have hpaid := hbooks.paid_nonneg
  have hcov := hbooks.covered
  have hfresh : (x.final.pools p).creditedCampaign id = none := by
    have h := (x.credits_agree p hp (.inr hb)).campaigns id
    have hnc := Books.not_completed hc (by simp [hst])
    simpa [hnc] using h
  exact ⟨hb.initialized, hb.token, hb.escrow, hfresh, by omega, hpaid, by omega, hroom,
    x.pool_covered hx hp hb⟩

/-- **An active campaign can be completed** before it expires, while the credits fit. -/
theorem Execution.can_complete (x : Execution D) (hx : x.NoClawback) {id : UInt64} {c : Campaign}
    {nft rev settlement : Address} {env : Env} (hc : x.final.escrow.campaign id = some c)
    (hst : c.status = .active) (hrun : x.final.escrow.paused.getD false = false)
    (hnft : x.final.escrow.nftPool = some nft) (hrev : x.final.escrow.revenuePool = some rev)
    (hsettle : x.final.escrow.settlement = some settlement) (hpn : D.isPool nft = true)
    (hpr : D.isPool rev = true)
    (hroomn : (x.final.pools nft).credited + share c.amount Escrow.nftPool ≤ i128Max)
    (hroomr : (x.final.pools rev).credited + share c.amount revenue ≤ i128Max)
    (hself : env.self = D.escrow) (hpool : env.isPool = D.isPool) (htime : env.timestamp < c.expiresAt)
    (hauth : env.authorized settlement = true) :
    ∃ r, complete env id c.operationVersion x.final.escrow x.final.pools x.final.tokens = .ok r := by
  have hbooks := x.escrow_books
  have hcb := hbooks.campaign id c hc
  obtain ⟨tok, tr, hb⟩ := x.bound_pools hnft hrev
  have hbind := hb.bindings
  simp only [EscrowStorage.bindings, Bindings.mk.injEq] at hbind
  have hcons : x.final.escrow.consumedOperation id c.operationVersion = none := by
    have h := hbooks.consumed id c.operationVersion
    have hnc := Books.not_completed hc (by simp [hst])
    simpa [hnc] using h
  have hcov := x.escrow_solvent hx tok hbind.1
  have hcn := x.creditable hx hpn (hb.nft hpn) hc hst hroomn
  have hcr := x.creditable hx hpr (hb.revenue hpr) hc hst hroomr
  rw [← hself] at hcov hcn hcr
  exact complete_succeeds hb.initialized hrun hsettle hauth hc hst htime hcons hbind.1 hbind.2.1 hnft hrev
    (hcb.active hst).referrer hcb.fundable (hbooks.amount_le hc (.inr hst)) hcov hb.distinct
    (hpool ▸ hpn) (hpool ▸ hpr) (hself ▸ Deployment.ne_escrow_of_isPool hpn)
    (hself ▸ Deployment.ne_escrow_of_isPool hpr) hcn hcr

/-- **No campaign is ever locked.**  After expiry an open campaign can be
    refunded to its sponsor by anyone; before, an active campaign can be completed
    as long as the lifetime credits of both pools fit in an `i128`. -/
theorem campaigns_never_locked (x : Execution D) (hx : x.NoClawback) {id : UInt64} {c : Campaign}
    (hc : x.final.escrow.campaign id = some c) :
    let s := x.final.escrow
    let t := x.final.tokens
    (c.isOpen → ∀ env : Env, env.self = D.escrow → c.expiresAt ≤ env.timestamp →
      ∃ token s' t', s.token = some token ∧ refundExpired env id s t = .ok (s', t') ∧
        t.After [⟨token, D.escrow, c.sponsor, c.amount⟩] t') ∧
    (c.status = .active → s.paused.getD false = false →
      ∀ nft rev settlement, s.nftPool = some nft → s.revenuePool = some rev →
      s.settlement = some settlement → D.isPool nft = true → D.isPool rev = true →
      (x.final.pools nft).credited + share c.amount Escrow.nftPool ≤ i128Max →
      (x.final.pools rev).credited + share c.amount revenue ≤ i128Max →
      ∀ env : Env, env.self = D.escrow → env.isPool = D.isPool → env.timestamp < c.expiresAt →
      env.authorized settlement = true →
      ∃ r, complete env id c.operationVersion s x.final.pools t = .ok r) := by
  intro s t
  refine ⟨fun hopen env hself hlate => ?_, fun hst hrun nft rev settlement hnft hrev hsettle hpn hpr
    hroomn hroomr env hself hpool htime hauth => x.can_complete hx hc hst hrun hnft hrev hsettle hpn hpr
    hroomn hroomr hself hpool htime hauth⟩
  have hbooks : Escrow.Books D.escrow s := x.escrow_books
  have hinit : s.governance.isSome := by
    refine hbooks.initialized fun live he => ?_
    rw [he.campaign] at hc; cases hc
  obtain ⟨token, htoken⟩ := Option.isSome_iff_exists.1 (hbooks.bindings hinit).token
  have htoken : s.token = some token := htoken
  have hcov := x.escrow_solvent hx token htoken
  rw [← hself] at hcov
  obtain ⟨s', t', h⟩ := refundExpired_succeeds hinit hc hopen.symm hlate htoken
    (hbooks.campaign id c hc).amount_pos.le (hbooks.amount_le hc hopen) hcov
  refine ⟨token, s', t', htoken, h, ?_⟩
  obtain ⟨c', token', hr⟩ := refundExpired_ok h
  obtain rfl := Option.some.inj (hc.symm.trans hr.campaign)
  obtain rfl := Option.some.inj (htoken.symm.trans hr.paysIn)
  rw [← hself]; exact hr.transfer

theorem campaigns_never_locked_sample :
    (∃ token s' t', Sample.execution.final.escrow.token = some token ∧
      refundExpired (Sample.deployment.env { Sample.execution.final with timestamp := 2593000 }
        Sample.escrow (fun _ => false) .silent) 2 Sample.execution.final.escrow
        Sample.execution.final.tokens = .ok (s', t') ∧
      Sample.execution.final.tokens.After [⟨token, Sample.escrow, Sample.sponsor, 5000⟩] t') ∧
    ∃ r, complete (Sample.deployment.env Sample.execution.final Sample.escrow (fun _ => true) .silent) 2 1
      Sample.execution.final.escrow Sample.execution.final.pools Sample.execution.final.tokens = .ok r := by
  obtain ⟨hrefund, hcomplete⟩ := campaigns_never_locked Sample.execution Sample.execution_noClawback
    (show Sample.execution.final.escrow.campaign 2 = some ⟨Sample.sponsor, 5000, Sample.creator,
      some Sample.referrer, [1], 1000, 2593000, 1, .active⟩ by decide +kernel)
  refine ⟨hrefund (.inr rfl) _ rfl (by decide +kernel), ?_⟩
  exact hcomplete rfl (by decide +kernel) Sample.nftPool Sample.revenuePool Sample.settlement
    (by decide +kernel) (by decide +kernel) (by decide +kernel) (by decide) (by decide)
    (by decide +kernel) (by decide +kernel) _ rfl rfl (by decide +kernel) (by decide +kernel)

/-! ## The credits of a pool can run out -/

namespace Recycling

open Sample (deployment asset sponsor nftPool revenuePool)

/-- The largest amount a campaign can have. -/
def amount : ℤ := i128Max / denom

/-- What a campaign credits to the NFT pool. -/
def nftLeg : ℤ := share amount Escrow.nftPool

/-- What a campaign credits to the revenue pool. -/
def revenueLeg : ℤ := share amount revenue

/-- Whoever can sign does. -/
def everyone : Address → Bool := fun _ => true

/-- The environment of a call of `self` by everyone. -/
def env (x : Execution deployment) (self : Address) : Env :=
  deployment.env x.final self everyone .silent

theorem signs {x : Execution deployment} {self a : Address} (h : deployment.isSystem a = false) :
    (env x self).authorized a = true :=
  Deployment.env_authorized_iff.2 ⟨rfl, h⟩

@[simp] theorem env_self {x : Execution deployment} {self : Address} : (env x self).self = self := rfl

theorem env_clock {x : Execution deployment} {self : Address} (h : x.final.timestamp = 1000) :
    (env x self).timestamp = 1000 := h

/-- The escrow owes `o`, and the campaigns from `next` on are free. -/
structure EscrowState (s : EscrowStorage) (next : ℕ) (o : ℤ) : Prop where
  initialized : s.governance.isSome
  running : s.paused.getD false = false
  settlement : s.settlement = some Sample.settlement
  bindings : s.bindings = ⟨some asset, some sponsor, some nftPool, some revenuePool⟩
  owed : s.liability = o
  free : ∀ id : UInt64, next ≤ id.toNat → s.campaign id = none

/-- The pool was credited `c`, paid `d` and owes `l`; `last` is its latest manifest. -/
structure PoolState (s : PoolStorage) (c d l : ℤ) (last : ℕ) : Prop where
  governance : s.governance = some Sample.deployer
  eligibility : s.eligibilityAuthority = some Sample.eligibility
  running : s.paused.getD false = false
  credited : s.credited = c
  paid : s.paid = d
  liability : s.liability = l
  latest : s.latest.toNat = last
  unpublished : ∀ id : UInt64, last < id.toNat → s.manifest id = none

/-- What the cycle keeps track of: the escrow, the NFT pool, the credits of the
    revenue pool, and what the sponsor holds at least. -/
structure State (x : Execution deployment) (next : ℕ) (o c d l : ℤ) (last : ℕ) (r h : ℤ) : Prop where
  noClawback : x.NoClawback
  clock : x.final.timestamp = 1000
  escrow : EscrowState x.final.escrow next o
  nft : PoolState (x.final.pools nftPool) c d l last
  revenue : (x.final.pools revenuePool).credited = r
  held : h ≤ x.final.tokens.balance asset sponsor

/-- The start: everything is initialized, and the treasury is the sponsor's. -/
def start : Execution deployment := ⟨Sample.start, Sample.genesis, Sample.setup sponsor⟩

theorem start_state : State start 0 0 0 0 0 0 0 i128Max := by
  refine ⟨(by decide : ∀ a ∈ Sample.setup sponsor, a.isIssuer = false), by decide +kernel, ?_, ?_,
    by decide +kernel, by decide +kernel⟩
  · exact ⟨by decide +kernel, by decide +kernel, by decide +kernel, rfl, by decide +kernel, fun _ _ => rfl⟩
  · exact ⟨by decide +kernel, by decide +kernel, by decide +kernel, by decide +kernel, by decide +kernel,
      by decide +kernel, by decide +kernel, fun _ _ => rfl⟩

variable {x : Execution deployment} {n m : ℕ} {o c d l r h : ℤ}

theorem extend_escrow (hx : x.NoClawback) {call : EscrowCall} {s : EscrowStorage} {pools : Pools}
    {t : Tokens} (hc : call.exec (env x deployment.escrow) x.final.escrow x.final.pools
      x.final.tokens = .ok (s, pools, t)) :
    ∃ y : Execution deployment, y.NoClawback ∧
      y.final = { x.final with escrow := s, pools := pools, tokens := t } := by
  obtain ⟨y, hy, hact⟩ := x.exists_extend (Deployment.step_escrow hc)
  refine ⟨y, fun a ha => ?_, hy⟩
  rw [hact] at ha
  rcases List.mem_append.1 ha with ha | ha
  · exact hx a ha
  · rw [List.mem_singleton.1 ha]; rfl

theorem extend_pool (hx : x.NoClawback) {call : PoolCall} {s : PoolStorage} {t : Tokens}
    (hc : call.exec (env x nftPool) (x.final.pools nftPool) x.final.tokens = .ok (s, t)) :
    ∃ y : Execution deployment, y.NoClawback ∧
      y.final = { x.final with pools := update x.final.pools nftPool s, tokens := t } := by
  obtain ⟨y, hy, hact⟩ := x.exists_extend (Deployment.step_pool (by decide) hc)
  refine ⟨y, fun a ha => ?_, hy⟩
  rw [hact] at ha
  rcases List.mem_append.1 ha with ha | ha
  · exact hx a ha
  · rw [List.mem_singleton.1 ha]; rfl

theorem State.fund (hs : State x n o c d l m r h) (hn : n < 2 ^ 64) (hh : amount ≤ h)
    (ho : 0 ≤ o) (hmax : o + amount ≤ i128Max) :
    ∃ y, State y (n + 1) (o + amount) c d l m r (h - amount) ∧
      y.final.escrow.campaign (.ofNat n) =
        some (newCampaign (env x deployment.escrow) sponsor amount) := by
  have hid : (UInt64.ofNat n).toNat = n := UInt64.toNat_ofNat_of_lt' hn
  have hbind := hs.escrow.bindings
  simp only [EscrowStorage.bindings, Bindings.mk.injEq] at hbind
  have hauth : (env x deployment.escrow).authorized sponsor = true := signs (by decide)
  have hmin : minimumCampaignAmount ≤ amount := by decide
  have h₀ : 0 ≤ o + amount := by
    have : 0 ≤ amount := by decide
    omega
  have hr : InI128 (x.final.escrow.liability + amount) := by
    rw [hs.escrow.owed]; exact inI128_of_nonneg h₀ hmax
  have hu : (env x deployment.escrow).timestamp.toNat + expiry.toNat < 2 ^ 64 := by
    rw [env_clock hs.clock]; decide
  obtain ⟨s', t', hc⟩ := fund_succeeds hs.escrow.initialized hmin le_rfl hs.escrow.running
    (hs.escrow.free (.ofNat n) hid.ge) hauth hbind.1 (hh.trans hs.held) hr hu
  have hcall : (EscrowCall.fund (.ofNat n) sponsor amount).exec (env x deployment.escrow)
      x.final.escrow x.final.pools x.final.tokens = .ok (s', x.final.pools, t') := by
    rw [EscrowCall.exec, hc]; rfl
  obtain ⟨y, hy, hfinal⟩ := extend_escrow hs.noClawback hcall
  obtain ⟨token, hf⟩ := fund_ok hc
  obtain rfl := Option.some.inj (hbind.1.symm.trans hf.paysIn)
  have hbal := hf.transfer.balance asset sponsor
  obtain ⟨live, hpost⟩ := hf.post
  have hheld := hs.held
  refine ⟨y, ⟨hy, by rw [hfinal]; exact hs.clock, ?_, by rw [hfinal]; exact hs.nft,
    by rw [hfinal]; exact hs.revenue, ?_⟩, by rw [hfinal, hpost]; exact update_self ..⟩
  · rw [hfinal, hpost]
    refine ⟨hs.escrow.initialized, hs.escrow.running, hs.escrow.settlement, hs.escrow.bindings, ?_, ?_⟩
    · exact congrArg (· + amount) hs.escrow.owed
    · intro id hid'
      refine (update_of_ne ?_ ..).trans (hs.escrow.free id (by omega))
      rintro rfl; omega
  · have hne : deployment.escrow ≠ sponsor := by decide
    simp [hne] at hbal
    rw [hfinal]
    change h - amount ≤ t'.balance asset sponsor
    omega

theorem State.activate (hs : State x n o c d l m r h) {id : UInt64} {k : Campaign} (hid : id.toNat < n)
    (hk : x.final.escrow.campaign id = some k) (hst : k.status = .funded) (hsp : k.sponsor = sponsor) :
    ∃ y, State y n o c d l m r h ∧
      y.final.escrow.campaign id = some (k.activated sponsor (some sponsor) [1]) := by
  have hauth : (env x deployment.escrow).authorized k.sponsor = true := by
    rw [hsp]; exact signs (by decide)
  obtain ⟨s', hc⟩ : ∃ s', Escrow.activate (env x deployment.escrow) id sponsor (some sponsor) [1]
      x.final.escrow = .ok s' :=
    activate_succeeds hs.escrow.initialized hs.escrow.running (by simp) rfl hk hst hauth
  have hcall : (EscrowCall.activate id sponsor (some sponsor) [1]).exec (env x deployment.escrow)
      x.final.escrow x.final.pools x.final.tokens = .ok (s', x.final.pools, x.final.tokens) := by
    rw [EscrowCall.exec, hc]; rfl
  obtain ⟨y, hy, hfinal⟩ := extend_escrow hs.noClawback hcall
  obtain ⟨k', ha⟩ := activate_ok hc
  obtain rfl := Option.some.inj (hk.symm.trans ha.campaign)
  obtain ⟨live, hpost⟩ := ha.post
  refine ⟨y, ⟨hy, by rw [hfinal]; exact hs.clock, ?_, by rw [hfinal]; exact hs.nft,
    by rw [hfinal]; exact hs.revenue, by rw [hfinal]; exact hs.held⟩,
    by rw [hfinal, hpost]; exact update_self ..⟩
  rw [hfinal, hpost]
  refine ⟨hs.escrow.initialized, hs.escrow.running, hs.escrow.settlement, hs.escrow.bindings,
    hs.escrow.owed, fun id' hid' => (update_of_ne ?_ ..).trans (hs.escrow.free id' hid')⟩
  rintro rfl; omega

/-- An activated campaign of the cycle. -/
structure Launched (k : Campaign) : Prop where
  active : k.status = .active
  amount : k.amount = amount
  creator : k.creator = sponsor
  referrer : k.referrer = some sponsor
  expires : (1000 : UInt64) < k.expiresAt

theorem State.launch (hs : State x n 0 c d l m r h) (hn : n < 2 ^ 64) (hh : amount ≤ h) :
    ∃ y k, State y (n + 1) amount c d l m r (h - amount) ∧
      y.final.escrow.campaign (.ofNat n) = some k ∧ Launched k := by
  have hid : (UInt64.ofNat n).toNat = n := UInt64.toNat_ofNat_of_lt' hn
  obtain ⟨y, hy, hk⟩ := hs.fund hn hh le_rfl (by decide)
  rw [zero_add] at hy
  obtain ⟨z, hz, hk'⟩ := hy.activate (by omega) hk rfl rfl
  refine ⟨z, _, hz, hk', rfl, rfl, rfl, rfl, ?_⟩
  change (1000 : UInt64) < x.final.timestamp + expiry
  rw [hs.clock]; decide

theorem State.bound (hs : State x n o c d l m r h) :
    BoundTo asset deployment.escrow (x.final.pools nftPool) ∧
      BoundTo asset deployment.escrow (x.final.pools revenuePool) := by
  obtain ⟨tok, tr, nft, rev, hb⟩ := x.bound hs.escrow.initialized
  have hbind := hb.bindings.symm.trans hs.escrow.bindings
  simp only [Bindings.mk.injEq, Option.some.injEq] at hbind
  obtain ⟨rfl, -, rfl, rfl⟩ := hbind
  exact ⟨hb.nft (by decide), hb.revenue (by decide)⟩

theorem State.complete (hs : State x n o c d l m r h) {id : UInt64} {k : Campaign} (hid : id.toNat < n)
    (hk : x.final.escrow.campaign id = some k) (hl : Launched k) (hc : c + nftLeg ≤ i128Max)
    (hr : r + revenueLeg ≤ i128Max) :
    ∃ y, State y n (o - amount) (c + nftLeg) d l m (r + revenueLeg)
      (h + (amount - nftLeg - revenueLeg)) := by
  have hbind := hs.escrow.bindings
  simp only [EscrowStorage.bindings, Bindings.mk.injEq] at hbind
  have hver := ((x.escrow_books.campaign id k hk).active hl.active).version
  have hroomn : (x.final.pools nftPool).credited + share k.amount Escrow.nftPool ≤ i128Max := by
    rw [hs.nft.credited, hl.amount]; exact hc
  have hroomr : (x.final.pools revenuePool).credited + share k.amount Escrow.revenue ≤ i128Max := by
    rw [hs.revenue, hl.amount]; exact hr
  have htime : (env x deployment.escrow).timestamp < k.expiresAt := by
    rw [env_clock hs.clock]; exact hl.expires
  have hauth : (env x deployment.escrow).authorized Sample.settlement = true := signs (by decide)
  obtain ⟨⟨s', pools', t'⟩, hcomp⟩ := x.can_complete hs.noClawback hk hl.active hs.escrow.running
    hbind.2.2.1 hbind.2.2.2 hs.escrow.settlement (by decide) (by decide) hroomn hroomr rfl rfl htime hauth
  have hcall : (EscrowCall.complete id k.operationVersion).exec (env x deployment.escrow)
      x.final.escrow x.final.pools x.final.tokens = .ok (s', pools', t') := hcomp
  obtain ⟨y, hy, hfinal⟩ := extend_escrow hs.noClawback hcall
  obtain ⟨k', token, p, hco⟩ := complete_ok hcomp
  obtain rfl := Option.some.inj (hk.symm.trans hco.campaign)
  obtain rfl := Option.some.inj (hbind.1.symm.trans hco.paysIn)
  obtain ⟨pc, ptr, pn, pr, pf⟩ := p
  obtain rfl := Option.some.inj (hbind.2.1.symm.trans hco.payOut.treasury)
  obtain rfl := Option.some.inj (hbind.2.2.1.symm.trans hco.payOut.nftPool)
  obtain rfl := Option.some.inj (hbind.2.2.2.symm.trans hco.payOut.revenuePool)
  obtain rfl : sponsor = pf := Option.some.inj (hl.referrer.symm.trans hco.referrer)
  obtain rfl : pc = sponsor := hco.creator.trans hl.creator
  have hne : Sample.nftPool ≠ revenuePool := by decide
  obtain ⟨hn, hrev, -⟩ := hco.payOut.credited hne
  obtain ⟨_, -, -, hcn⟩ := hn (by decide : deployment.isPool Sample.nftPool = true)
  obtain ⟨_, -, -, hcr⟩ := hrev (by decide : deployment.isPool revenuePool = true)
  obtain ⟨live₁, hpostn⟩ := hcn.post
  obtain ⟨live₂, hpostr⟩ := hcr.post
  obtain ⟨live, hpost⟩ := hco.post
  have hbal := hco.payOut.transfers.balance asset sponsor
  have hheld := hs.held
  rw [hl.amount] at hpostn hpostr hpost hbal
  refine ⟨y, hy, by rw [hfinal]; exact hs.clock, ?_, ?_, ?_, ?_⟩
  · rw [hfinal, hpost]
    refine ⟨hs.escrow.initialized, hs.escrow.running, hs.escrow.settlement, hs.escrow.bindings,
      congrArg (· - amount) hs.escrow.owed,
      fun id' hid' => (update_of_ne ?_ ..).trans (hs.escrow.free id' hid')⟩
    rintro rfl; omega
  · rw [hfinal]
    dsimp only at hpostn ⊢
    rw [hpostn]
    exact ⟨hs.nft.governance, hs.nft.eligibility, hs.nft.running,
      congrArg (· + nftLeg) hs.nft.credited, hs.nft.paid, hs.nft.liability, hs.nft.latest,
      hs.nft.unpublished⟩
  · rw [hfinal]
    dsimp only at hpostr ⊢
    rw [hpostr]
    exact congrArg (· + revenueLeg) hs.revenue
  · have h₁ : Sample.nftPool ≠ sponsor := by decide
    have h₂ : revenuePool ≠ sponsor := by decide
    have h₃ : deployment.escrow ≠ sponsor := by decide
    rw [env_self, sent_payouts_of_ne h₃.symm] at hbal
    simp only [payouts, split, received_cons, received_nil, h₁, h₂, and_false, if_false, and_self,
      if_true] at hbal
    rw [hfinal]
    change h + (amount - share amount Escrow.nftPool - share amount Escrow.revenue) ≤
      t'.balance asset sponsor
    omega

theorem State.publish (hs : State x n o c d 0 m r h) (hm : m + 1 < 2 ^ 64) (hcd : d < c) :
    ∃ y, State y n o c d (c - d) (m + 1) r h ∧
      ∃ k, (y.final.pools nftPool).manifest (.ofNat (m + 1)) = some k ∧ k.status = .active ∧
        k.expiresAt = 2000 ∧
        (y.final.pools nftPool).allocation (.ofNat (m + 1)) 0 = some ⟨sponsor, c - d, false⟩ := by
  have hid : (UInt64.ofNat (m + 1)).toNat = m + 1 := UInt64.toNat_ofNat_of_lt' hm
  have hb := hs.bound.1
  have hbooks := x.pool_books nftPool
  have havail : availableBalance (env x nftPool) (x.final.pools nftPool) x.final.tokens = .ok _ :=
    x.pool_available hs.noClawback (by decide) hb rfl
  have hmax := hbooks.credited
  have hpaid := hbooks.paid_nonneg
  have hnft := hs.nft
  rw [hnft.credited] at hmax
  rw [hnft.paid] at hpaid
  obtain ⟨s', hc⟩ : ∃ s', publishManifest (env x nftPool) (.ofNat (m + 1)) 0 0 2000 [sponsor] [c - d]
      (x.final.pools nftPool) x.final.tokens = .ok s' :=
    publishManifest_succeeds hnft.running hnft.governance hnft.eligibility (signs (by decide))
      (signs (by decide)) (by simp) rfl (by simp [maxAllocations])
      (by rw [env_clock hs.clock]; decide) (by rw [env_clock hs.clock]; decide)
      (hnft.unpublished _ (by omega)) (by rw [UInt64.lt_iff_toNat_lt, hnft.latest]; omega)
      (by simpa using hcd) (by simp) havail
      (by simp [hnft.credited, hnft.paid, hnft.liability]) hnft.liability.ge
      (by simp [hnft.liability]; omega)
  have hcall : (PoolCall.publishManifest (.ofNat (m + 1)) 0 0 2000 [sponsor] [c - d]).exec
      (env x nftPool) (x.final.pools nftPool) x.final.tokens = .ok (s', x.final.tokens) := by
    rw [PoolCall.exec, hc]; rfl
  obtain ⟨y, hy, hfinal⟩ := extend_pool hs.noClawback hcall
  have hp := publishManifest_ok hc
  obtain ⟨live, hpost⟩ := hp.post
  have hpool : y.final.pools nftPool = s' := by simp only [hfinal, update_self]
  refine ⟨y, ⟨hy, by rw [hfinal]; exact hs.clock, by rw [hfinal]; exact hs.escrow, ?_, ?_,
    by rw [hfinal]; exact hs.held⟩, ?_⟩
  · rw [hpool, hpost]
    refine ⟨hnft.governance, hnft.eligibility, hnft.running, hnft.credited, hnft.paid, ?_, hid, ?_⟩
    · change (x.final.pools nftPool).liability + [c - d].sum = c - d
      rw [hnft.liability]; simp
    · intro id' hid'
      refine (update_of_ne ?_ ..).trans (hnft.unpublished id' (by omega))
      rintro rfl; omega
  · have hne : revenuePool ≠ Sample.nftPool := by decide
    simpa only [hfinal, update_of_ne hne] using hs.revenue
  · rw [hpool, hpost]
    exact ⟨_, update_self .., rfl, rfl, by simp [stored]⟩

theorem State.claim (hs : State x n o c d l m r h) {id : UInt64} {k : Manifest} {b : ℤ}
    (hk : (x.final.pools nftPool).manifest id = some k) (hst : k.status = .active)
    (hexp : k.expiresAt = 2000)
    (ha : (x.final.pools nftPool).allocation id 0 = some ⟨sponsor, b, false⟩) :
    ∃ y, State y n o c (d + b) (l - b) m r (h + b) := by
  have hb := hs.bound.1
  have hnft := hs.nft
  have hhave := hs.held
  have hbooks := x.pool_books nftPool
  have htime : (env x nftPool).timestamp < k.expiresAt := by
    rw [env_clock hs.clock, hexp]; decide
  obtain ⟨s', t', hc, hcl⟩ := hbooks.claimable hb.token
    (x.pool_liability_le hs.noClawback (by decide) hb) hk hst ha rfl hnft.running htime
    (signs (a := sponsor) (by decide))
  have hcall : (PoolCall.claim id 0).exec (env x nftPool) (x.final.pools nftPool) x.final.tokens =
      .ok (s', t') := hc
  obtain ⟨y, hy, hfinal⟩ := extend_pool hs.noClawback hcall
  obtain ⟨live, hpost⟩ := hcl.post
  have hpool : y.final.pools nftPool = s' := by simp only [hfinal, update_self]
  have hbal := hcl.transfer.balance asset sponsor
  have hle := (hbooks.manifest id k hk).2
  refine ⟨y, hy, by rw [hfinal]; exact hs.clock, by rw [hfinal]; exact hs.escrow, ?_, ?_, ?_⟩
  · rw [hpool, hpost]
    refine ⟨hnft.governance, hnft.eligibility, hnft.running, hnft.credited,
      congrArg (· + b) hnft.paid, congrArg (· - b) hnft.liability, hnft.latest, fun id' hid' => ?_⟩
    refine (update_of_ne ?_ ..).trans (hnft.unpublished id' hid')
    rintro rfl
    rw [UInt64.le_iff_toNat_le, hnft.latest] at hle
    omega
  · have hne : revenuePool ≠ Sample.nftPool := by decide
    simpa only [hfinal, update_of_ne hne] using hs.revenue
  · have hne : Sample.nftPool ≠ sponsor := by decide
    simp [hne] at hbal
    rw [hfinal]
    change h + b ≤ t'.balance asset sponsor
    omega

/-- One round: what the NFT pool was credited goes back to the sponsor. -/
theorem State.round (hs : State x n 0 c c 0 n r h) (hn : n + 1 < 2 ^ 64) (hh : amount ≤ h)
    (hc : c + nftLeg ≤ i128Max) (hr : r + revenueLeg ≤ i128Max) :
    ∃ y, State y (n + 1) 0 (c + nftLeg) (c + nftLeg) 0 (n + 1) (r + revenueLeg) (h - revenueLeg) := by
  have hpos : 0 < nftLeg := by decide
  have hn' : n < 2 ^ 64 := by omega
  obtain ⟨y₁, k, h₁, hk, hl⟩ := hs.launch hn' hh
  have hid : (UInt64.ofNat n).toNat = n := UInt64.toNat_ofNat_of_lt' hn'
  obtain ⟨y₂, h₂⟩ := h₁.complete (by omega) hk hl hc hr
  rw [sub_self] at h₂
  obtain ⟨y₃, h₃, k', hk', hst, hexp, ha⟩ := h₂.publish hn (by omega)
  obtain ⟨y₄, h₄⟩ := h₃.claim hk' hst hexp ha
  refine ⟨y₄, ?_⟩
  have e₁ : c + (c + nftLeg - c) = c + nftLeg := by omega
  have e₂ : c + nftLeg - c - (c + nftLeg - c) = 0 := by omega
  have e₃ : h - amount + (amount - nftLeg - revenueLeg) + (c + nftLeg - c) = h - revenueLeg := by omega
  rw [e₁, e₂, e₃] at h₄
  exact h₄

/-- After `n` rounds, as long as the credits fit. -/
theorem rounds : ∀ n : ℕ, n ≤ 200000 →
    ∃ y, State y n 0 (n * nftLeg) (n * nftLeg) 0 n (n * revenueLeg) (i128Max - n * revenueLeg)
  | 0, _ => ⟨start, by simpa using start_state⟩
  | n + 1, hn => by
    obtain ⟨y, hy⟩ := rounds n (by omega)
    have e₁ : nftLeg = 850705917302346158658436518579420 := by decide
    have e₂ : revenueLeg = 340282366920938463463374607431768 := by decide
    have e₃ : amount = 17014118346046923173168730371588410 := by decide
    have e₄ : i128Max = 170141183460469231731687303715884105727 := by decide
    obtain ⟨z, hz⟩ := hy.round (by omega) (by rw [e₂, e₃, e₄]; omega) (by rw [e₁, e₄]; omega)
      (by rw [e₂, e₄]; omega)
    refine ⟨z, ?_⟩
    convert hz using 1 <;> push_cast <;> ring

/-- Without room for its credit an active campaign cannot be completed: `complete`
    fails although it is authorized, in time and not paused. -/
theorem complete_not_always : ∃ (x : Execution Sample.deployment) (id : UInt64) (k : Campaign)
    (env : Env), x.NoClawback ∧ x.final.escrow.campaign id = some k ∧ k.status = .active ∧
      x.final.escrow.paused.getD false = false ∧
      (∃ nft rev, x.final.escrow.nftPool = some nft ∧ x.final.escrow.revenuePool = some rev ∧
        Sample.deployment.isPool nft = true ∧ Sample.deployment.isPool rev = true) ∧
      env.self = Sample.deployment.escrow ∧ env.isPool = Sample.deployment.isPool ∧
      env.timestamp < k.expiresAt ∧
      (∃ a, x.final.escrow.settlement = some a ∧ env.authorized a = true) ∧
      ∀ r, complete env id k.operationVersion x.final.escrow x.final.pools x.final.tokens ≠ .ok r := by
  obtain ⟨y, hy⟩ := rounds 200000 le_rfl
  obtain ⟨x, k, hx, hk, hl⟩ := hy.launch (by decide) (by decide)
  have hbind := hx.escrow.bindings
  simp only [EscrowStorage.bindings, Bindings.mk.injEq] at hbind
  refine ⟨x, _, k, env x Sample.deployment.escrow, hx.noClawback, hk, hl.active, hx.escrow.running,
    ⟨_, _, hbind.2.2.1, hbind.2.2.2, by decide, by decide⟩, rfl, rfl, ?_,
    ⟨_, hx.escrow.settlement, signs (by decide)⟩, ?_⟩
  · rw [env_clock hx.clock]; exact hl.expires
  · rintro ⟨s', pools', t'⟩ hr
    -- the credit of the NFT pool would not fit
    obtain ⟨k', token, p, hc⟩ := complete_ok hr
    obtain rfl := Option.some.inj (hk.symm.trans hc.campaign)
    obtain ⟨_, _, _, -, -, hcr, -⟩ := hc.payOut.credits
    rw [← Option.some.inj (hbind.2.2.1.symm.trans hc.payOut.nftPool)] at hcr
    obtain ⟨s, hcr, -⟩ := clientRecordCredit_pool
      (show deployment.isPool Sample.nftPool = true by decide) hcr
    have hmax := hcr.inRange.2
    rw [hl.amount, hx.nft.credited] at hmax
    exact absurd hmax (by decide)

end Recycling

end TogetherFi
