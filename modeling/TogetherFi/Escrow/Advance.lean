/-
  The calls that move one campaign on, taken apart.

  `activate`, `complete` and `refund_expired` first check the roles, the pause
  flag and their campaign (`CampaignCall.check`), and then carry out what the
  campaign says (`CampaignCall.plan`): they write the campaign, settle its
  amount, transfer and credit.  The check of one campaign does not look at what
  the plan of another one writes, and two plans of different campaigns commute.
-/
import TogetherFi.Pool.Credit
import TogetherFi.Escrow.Books

namespace TogetherFi

open Outcome Function

namespace Escrow

/-- A call that moves one campaign on. -/
inductive CampaignCall where
  | activate (creator : Address) (referrer : Option Address) (termsHash : List UInt8)
  | complete (operationVersion : ℕ)
  | refundExpired

/-- The call of the escrow. -/
def CampaignCall.call (id : UInt64) : CampaignCall → EscrowCall
  | .activate creator referrer terms => .activate id creator referrer terms
  | .complete version => .complete id version
  | .refundExpired => .refundExpired id

/-! ## The checks -/

/-- The checks a call begins with, up to those on the money. -/
def CampaignCall.check (env : Env) (id : UInt64) (s : EscrowStorage) : CampaignCall → Result Campaign
  | .activate _ referrer terms => do
    let s ← init env s
    rejectIf (paused s) .paused
    rejectIf terms.isEmpty .emptyTerms
    rejectIf referrer.isNone .referrerRequired
    let c ← campaign id s
    rejectIf (c.status ≠ .funded) .invalidState
    requireAuth env c.sponsor
    return c
  | .complete version => do
    let s ← init env s
    rejectIf (paused s) .paused
    let settlement ← trapOr s.settlement .missing
    requireAuth env settlement
    let c ← campaign id s
    rejectIf (c.status ≠ .active) .invalidState
    rejectIf (version ≠ c.operationVersion) .wrongVersion
    rejectIf (env.timestamp ≥ c.expiresAt) .expired
    rejectIf (s.consumedOperation id version).isSome .wrongVersion
    return c
  | .refundExpired => do
    let s ← init env s
    let c ← campaign id s
    rejectIf (c.status ≠ .active ∧ c.status ≠ .funded) .invalidState
    rejectIf (env.timestamp < c.expiresAt) .notExpired
    return c

variable {env : Env} {s s' : EscrowStorage} {pools pools' : Pools} {t t' : Tokens} {id : UInt64}
  {c : Campaign}

/-- **A call whose checks fail fails with their error.** -/
theorem CampaignCall.error_of_check {k : CampaignCall} {e : Fault EscrowError HostError}
    (h : k.check env id s = .error e) : (k.call id).exec env s pools t = .error e := by
  cases k with
  | activate creator referrer terms =>
    refine error_bind ?_ _
    refine error_of_bind h fun s h => error_of_bind h fun _ h => error_of_bind h fun _ h =>
      error_of_bind h fun _ h => error_of_bind h fun c h => error_of_bind h fun _ h =>
      error_of_bind h fun _ h => ?_
    cases h
  | complete version =>
    refine error_of_bind h fun s h => error_of_bind h fun _ h => error_of_bind h fun a h =>
      error_of_bind h fun _ h => error_of_bind h fun c h => error_of_bind h fun _ h =>
      error_of_bind h fun _ h => error_of_bind h fun _ h => error_of_bind h fun _ h => ?_
    cases h
  | refundExpired =>
    refine error_bind ?_ _
    refine error_of_bind h fun s h => error_of_bind h fun c h => error_of_bind h fun _ h =>
      error_of_bind h fun _ h => ?_
    cases h

/-- Two storages that agree on all that the checks of campaign `id` look at. -/
structure SameCampaign (id : UInt64) (s s' : EscrowStorage) : Prop where
  governance : s'.governance = s.governance
  paused : s'.paused = s.paused
  settlement : s'.settlement = s.settlement
  campaign : s'.campaign id = s.campaign id
  consumed : s'.consumedOperation id = s.consumedOperation id

theorem CampaignCall.check_congr (h : SameCampaign id s s') (k : CampaignCall) :
    k.check env id s' = k.check env id s := by
  have hinit : ∀ {α : Type} {f : EscrowStorage → Result α},
      f (s'.extend env .instance_) = f (s.extend env .instance_) →
      (init env s' >>= f) = (init env s >>= f) := by
    intro α f hf
    unfold init
    rw [h.governance]
    split
    · exact hf
    · rfl
  cases k <;> refine hinit ?_ <;>
    simp only [Escrow.paused, Escrow.campaign, EscrowStorage.extend_paused,
      EscrowStorage.extend_settlement, EscrowStorage.extend_campaign,
      EscrowStorage.extend_consumedOperation, h.paused, h.settlement, h.campaign, h.consumed]

/-! ## The plans -/

/-- What a call does once its checks have passed. -/
structure Plan where
  /-- what becomes of the campaign -/
  become : Campaign → Campaign
  /-- the operation version it consumes -/
  consumed : Option ℕ
  /-- what it takes off the liability -/
  settled : Option ℤ
  /-- the entries it extends -/
  touched : List EscrowEntry
  transfers : List Transfer
  /-- the pools it credits, and with how much -/
  credits : List (Address × ℤ)

namespace Plan

/-- A rejected call does nothing. -/
def idle : Plan where
  become := fun c => c
  consumed := none
  settled := none
  touched := []
  transfers := []
  credits := []

/-- The storage of the escrow after the plan for campaign `id`. -/
def storage (sequence : ℕ) (id : UInt64) (v : Plan) (s : EscrowStorage) : EscrowStorage :=
  { s with
    campaign := fun i => if i = id then (s.campaign i).map v.become else s.campaign i
    consumedOperation := fun i n =>
      if i = id ∧ v.consumed = some n then some true else s.consumedOperation i n
    totalLiability := v.settled.elim s.totalLiability fun a => some (s.liability - a)
    live := extendAll sequence v.touched s.live }

/-- The credit of one pool. -/
def credit (sequence : ℕ) (id : UInt64) (pools : Pools) (q : Address × ℤ) : Pools :=
  update pools q.1 ((pools q.1).creditedAt sequence id q.2)

/-- The pools after the plan for campaign `id`. -/
def creditAll (sequence : ℕ) (id : UInt64) (v : Plan) (pools : Pools) : Pools :=
  v.credits.foldl (credit sequence id) pools

variable (sequence : ℕ) (v v' : Plan)

@[simp] theorem storage_idle (id : UInt64) (s : EscrowStorage) : idle.storage sequence id s = s := by
  simp [storage, idle]

theorem storage_same {id id' : UInt64} (h : id' ≠ id) (s : EscrowStorage) :
    SameCampaign id' s (v.storage sequence id s) := by
  refine ⟨rfl, rfl, rfl, if_neg h, ?_⟩
  funext n
  exact if_neg fun hc => h hc.1

/-- **Plans of different campaigns commute** on the storage of the escrow. -/
theorem storage_comm {id id' : UInt64} (h : id' ≠ id) (s : EscrowStorage) :
    v'.storage sequence id' (v.storage sequence id s) =
      v.storage sequence id (v'.storage sequence id' s) := by
  have hliability : ∀ (v : Plan) (id : UInt64) (s : EscrowStorage),
      (v.storage sequence id s).liability = s.liability - v.settled.getD 0 := by
    intro v id s
    unfold storage EscrowStorage.liability
    cases v.settled with
    | none => simp
    | some a => rfl
  have htotal : ∀ (v v' : Plan) (id id' : UInt64),
      (v'.storage sequence id' (v.storage sequence id s)).totalLiability =
        v'.settled.elim (v.settled.elim s.totalLiability fun a => some (s.liability - a))
          fun a => some (s.liability - v.settled.getD 0 - a) := by
    intro v v' id id'
    rw [← hliability v id s]
    rfl
  have htotals : (v'.storage sequence id' (v.storage sequence id s)).totalLiability =
      (v.storage sequence id (v'.storage sequence id' s)).totalLiability := by
    rw [htotal, htotal]
    cases v.settled with
    | none => cases v'.settled <;> simp
    | some a =>
      cases v'.settled with
      | none => simp
      | some a' =>
        simp only [Option.elim_some, Option.getD_some, Option.some.injEq]
        omega
  unfold storage at htotals ⊢
  simp only [EscrowStorage.mk.injEq, true_and]
  refine ⟨htotals, ?_, ?_, extendAll_comm ..⟩
  · funext i
    split_ifs with h₁ h₂ h₂
    · exact absurd (h₁.symm.trans h₂) h
    all_goals rfl
  · funext i n
    split_ifs <;> rfl

theorem credit_comm (id id' : UInt64) (pools : Pools) (q q' : Address × ℤ) :
    credit sequence id' (credit sequence id pools q) q' =
      credit sequence id (credit sequence id' pools q') q := by
  unfold credit
  by_cases h : q'.1 = q.1
  · rw [h]
    simp only [update_self, update_idem]
    rw [Pool.PoolStorage.creditedAt_comm]
  · rw [update_of_ne h, update_of_ne (Ne.symm h), update_comm h]

/-- **Any two plans commute** on the pools. -/
theorem creditAll_comm (id id' : UInt64) (pools : Pools) :
    v'.creditAll sequence id' (v.creditAll sequence id pools) =
      v.creditAll sequence id (v'.creditAll sequence id' pools) := by
  unfold creditAll
  induction v.credits generalizing pools with
  | nil => rfl
  | cons q l ih =>
    rw [List.foldl_cons, ih, List.foldl_cons]
    congr 1
    exact List.foldl_hom (credit sequence id · q) fun ps q' => credit_comm sequence id id' ps q q'

end Plan

/-! ## What the calls carry out -/

/-- The addresses an initialized escrow works with. -/
structure Parties where
  escrow : Address
  token : Address
  treasury : Address
  nftPool : Address
  revenuePool : Address

/-- The destinations and the token as the escrow stores them. -/
def Parties.bindings (p : Parties) : Bindings :=
  ⟨some p.token, some p.treasury, some p.nftPool, some p.revenuePool⟩

/-- What a call does for its campaign `c`. -/
def CampaignCall.plan (p : Parties) (id : UInt64) (c : Campaign) : CampaignCall → Plan
  | .activate creator referrer terms =>
    { become := (·.activated creator referrer terms)
      consumed := none
      settled := none
      touched := [.instance_, .campaign id]
      transfers := []
      credits := [] }
  | .complete version =>
    { become := fun c => { c with status := .completed }
      consumed := some version
      settled := some c.amount
      touched := [.instance_, .campaign id, .consumedOperation id version]
      transfers := payouts p.token p.escrow
        ⟨c.creator, p.treasury, p.nftPool, p.revenuePool, c.referrer.getD p.escrow⟩ c.amount
      credits := [(p.nftPool, (split c.amount).nft), (p.revenuePool, (split c.amount).revenue)] }
  | .refundExpired =>
    { become := fun c => { c with status := .refunded }
      consumed := none
      settled := some c.amount
      touched := [.instance_, .campaign id]
      transfers := [⟨p.token, p.escrow, c.sponsor, c.amount⟩]
      credits := [] }

/-- The plan of a call, which is idle if a check fails. -/
def CampaignCall.planned (p : Parties) (env : Env) (id : UInt64) (s : EscrowStorage)
    (k : CampaignCall) : Plan :=
  match k.check env id s with
  | .ok c => k.plan p id c
  | .error _ => .idle

/-- What the checks of a call say of the state and of its campaign `c`. -/
def CampaignCall.Checked (env : Env) (s : EscrowStorage) (c : Campaign) : CampaignCall → Prop
  | .activate _ referrer terms => s.paused.getD false = false ∧ terms ≠ [] ∧ referrer.isSome ∧
      c.status = .funded ∧ env.authorized c.sponsor = true
  | .complete version => s.paused.getD false = false ∧
      (∃ settlement, s.settlement = some settlement ∧ env.authorized settlement = true) ∧
      c.status = .active ∧ version = c.operationVersion ∧ env.timestamp < c.expiresAt
  | .refundExpired => (c.status = .active ∨ c.status = .funded) ∧ c.expiresAt ≤ env.timestamp

theorem CampaignCall.check_ok {k : CampaignCall} (h : k.check env id s = .ok c) :
    s.governance.isSome ∧ s.campaign id = some c ∧ k.Checked env s c := by
  cases k <;>
    simp only [check, Escrow.campaign, bind_eq_ok, init_eq_ok, okOr_eq_ok, rejectIf_eq_ok,
      trapOr_eq_ok, requireAuth_eq_ok, exists_const, pure_eq, Except.ok.injEq] at h
  case activate =>
    obtain ⟨_, ⟨hg, rfl⟩, hrun, hterms, href, c', hc, hst, hauth, rfl⟩ := h
    refine ⟨hg, hc, by simpa [paused] using hrun, by simpa using hterms, ?_, by simpa using hst, hauth⟩
    simpa [Option.isSome_iff_ne_none] using href
  case complete =>
    obtain ⟨_, ⟨hg, rfl⟩, hrun, a, ha, hauth, c', hc, hst, hversion, htime, -, rfl⟩ := h
    exact ⟨hg, hc, by simpa [paused] using hrun, ⟨a, ha, hauth⟩, by simpa using hst,
      by simpa using hversion, by simpa using htime⟩
  case refundExpired =>
    obtain ⟨_, ⟨hg, rfl⟩, c', hc, hst, htime, rfl⟩ := h
    exact ⟨hg, hc, by tauto, by simpa using htime⟩

theorem activate_live {creator : Address} {referrer : Option Address} {terms : List UInt8}
    (h : activate env id creator referrer terms s = .ok s') :
    s'.live = [.instance_, .campaign id].foldl (extendTtl env) s.live := by
  simp only [activate, Escrow.campaign, bind_eq_ok, init_eq_ok, rejectIf_eq_ok, requireAuth_eq_ok,
    okOr_eq_ok, exists_const, pure_eq, Except.ok.injEq] at h
  obtain ⟨_, ⟨-, rfl⟩, -, -, -, c, -, -, -, rfl⟩ := h
  rfl

theorem complete_live {version : ℕ} (h : complete env id version s pools t = .ok (s', pools', t')) :
    s'.live =
      [.instance_, .campaign id, .consumedOperation id version].foldl (extendTtl env) s.live := by
  simp only [complete, Escrow.campaign, bind_eq_ok, init_eq_ok, rejectIf_eq_ok, requireAuth_eq_ok,
    trapOr_eq_ok, okOr_eq_ok, leg_eq_ok, plainI128_eq_ok, exists_const, pure_eq, Except.ok.injEq,
    Prod.mk.injEq, Prod.exists] at h
  obtain ⟨_, ⟨-, rfl⟩, -, _, -, -, c, -, -, -, -, -, _, -, -, _, ⟨-, rfl⟩, _, ⟨-, rfl⟩, _, ⟨-, rfl⟩, _,
    ⟨-, rfl⟩, _, ⟨-, rfl⟩, _, -, _, -, _, _, -, rfl, -, -⟩ := h
  rfl

theorem refundExpired_live (h : refundExpired env id s t = .ok (s', t')) :
    s'.live = [.instance_, .campaign id].foldl (extendTtl env) s.live := by
  simp only [refundExpired, Escrow.campaign, bind_eq_ok, init_eq_ok, rejectIf_eq_ok, trapOr_eq_ok,
    okOr_eq_ok, plainI128_eq_ok, exists_const, pure_eq, Except.ok.injEq, Prod.mk.injEq] at h
  obtain ⟨_, ⟨-, rfl⟩, c, -, -, -, _, -, -, _, ⟨-, rfl⟩, _, -, rfl, -⟩ := h
  rfl

theorem update_eq_map {f : UInt64 → Option Campaign} (hc : f id = some c)
    (become : Campaign → Campaign) :
    update f id (some (become c)) = fun i => if i = id then (f i).map become else f i := by
  funext i
  by_cases h : i = id
  · subst h; simp [hc]
  · simp [h]

theorem clientRecordCredit_post {pool : Address} {amount : ℤ} (hp : env.isPool pool = true)
    (h : clientRecordCredit env pool id amount pools t = .ok pools') :
    pools' = Plan.credit env.sequence id pools (pool, amount) := by
  rw [clientRecordCredit, if_pos hp] at h
  simp only [bind_eq_ok, ofPool_eq_ok, pure_eq, Except.ok.injEq] at h
  obtain ⟨u, h, rfl⟩ := h
  rw [Pool.recordCredit_post h]
  rfl

/-- The escrow `s` works with the addresses `p`, and both destinations are pools. -/
structure Parties.Serve (p : Parties) (env : Env) (s : EscrowStorage) : Prop where
  self : env.self = p.escrow
  bindings : s.bindings = p.bindings
  nftPool : env.isPool p.nftPool = true
  revenuePool : env.isPool p.revenuePool = true

variable {p : Parties}

theorem activate_carries_out {creator : Address} {referrer : Option Address} {terms : List UInt8}
    (hc : s.campaign id = some c) (h : activate env id creator referrer terms s = .ok s') :
    s' = (CampaignCall.plan p id c (.activate creator referrer terms)).storage env.sequence id s := by
  have hlive := activate_live h
  obtain ⟨c', hact⟩ := activate_ok h
  obtain rfl := Option.some.inj (hc.symm.trans hact.campaign)
  obtain ⟨live, rfl⟩ := hact.post
  simp only at hlive
  rw [hlive, foldl_extendTtl, update_eq_map hc (·.activated creator referrer terms)]
  simp [Plan.storage, CampaignCall.plan]

theorem Parties.Serve.payees (hp : p.Serve env s) {version : ℕ} {token : Address} {q : Payees}
    (h : Complete env id version c token q s pools t s' pools' t') : token = p.token ∧
      q = ⟨c.creator, p.treasury, p.nftPool, p.revenuePool, c.referrer.getD p.escrow⟩ := by
  have hbind := hp.bindings
  simp only [EscrowStorage.bindings, Parties.bindings, Bindings.mk.injEq] at hbind
  obtain ⟨htoken, htreasury, hnft, hrev⟩ := hbind
  refine ⟨(Option.some.inj (htoken.symm.trans h.paysIn)).symm, ?_⟩
  obtain ⟨creator, tr, nft, rev, ref⟩ := q
  have hcr : creator = c.creator := h.creator
  have htr : p.treasury = tr := Option.some.inj (htreasury.symm.trans h.payOut.treasury)
  have hn : p.nftPool = nft := Option.some.inj (hnft.symm.trans h.payOut.nftPool)
  have hr : p.revenuePool = rev := Option.some.inj (hrev.symm.trans h.payOut.revenuePool)
  have href : c.referrer = some ref := h.referrer
  rw [hcr, htr, hn, hr, href]
  rfl

theorem complete_carries_out (hp : p.Serve env s) {version : ℕ} (hc : s.campaign id = some c)
    (h : complete env id version s pools t = .ok (s', pools', t')) :
    let v := CampaignCall.plan p id c (.complete version)
    s' = v.storage env.sequence id s ∧ pools' = v.creditAll env.sequence id pools ∧
      t.After v.transfers t' := by
  intro v
  have hlive := complete_live h
  obtain ⟨c', token, q, hcomp⟩ := complete_ok h
  obtain rfl := Option.some.inj (hc.symm.trans hcomp.campaign)
  obtain ⟨rfl, rfl⟩ := hp.payees hcomp
  obtain ⟨t₃, t₄, pools₁, -, -, hcr₁, -, -, hcr₂⟩ := hcomp.payOut.credits
  have htr := hcomp.payOut.transfers
  rw [hp.self] at htr
  refine ⟨?_, ?_, htr⟩
  · obtain ⟨live, rfl⟩ := hcomp.post
    simp only at hlive
    rw [hlive, foldl_extendTtl, update_eq_map hc fun c => { c with status := .completed }]
    simp only [v, Plan.storage, CampaignCall.plan, EscrowStorage.mk.injEq, true_and,
      Option.elim_some, and_true]
    ext i n
    by_cases hi : i = id
    · subst hi
      by_cases hn : n = version
      · simp [hn]
      · simp [hn, Ne.symm hn]
    · simp [hi]
  · rw [clientRecordCredit_post hp.revenuePool hcr₂, clientRecordCredit_post hp.nftPool hcr₁]
    rfl

theorem refundExpired_carries_out (hp : p.Serve env s) (hc : s.campaign id = some c)
    (h : refundExpired env id s t = .ok (s', t')) :
    let v := CampaignCall.plan p id c .refundExpired
    s' = v.storage env.sequence id s ∧ t.After v.transfers t' := by
  intro v
  have hlive := refundExpired_live h
  obtain ⟨c', token, href⟩ := refundExpired_ok h
  obtain rfl := Option.some.inj (hc.symm.trans href.campaign)
  obtain rfl := Option.some.inj ((congrArg Bindings.token hp.bindings).symm.trans href.paysIn)
  have htr := href.transfer
  rw [hp.self] at htr
  refine ⟨?_, htr⟩
  obtain ⟨live, rfl⟩ := href.post
  simp only at hlive
  rw [hlive, foldl_extendTtl, update_eq_map hc fun c => { c with status := .refunded }]
  simp [v, Plan.storage, CampaignCall.plan]

/-- **A successful call carries out its plan.** -/
theorem CampaignCall.carries_out {k : CampaignCall} (hp : p.Serve env s)
    (hcheck : k.check env id s = .ok c)
    (h : (k.call id).exec env s pools t = .ok (s', pools', t')) :
    s' = (k.plan p id c).storage env.sequence id s ∧
      pools' = (k.plan p id c).creditAll env.sequence id pools ∧
      t.After (k.plan p id c).transfers t' := by
  obtain ⟨-, hc, -⟩ := check_ok hcheck
  cases k with
  | activate creator referrer terms =>
    obtain ⟨ha, he⟩ := pair_eq_ok.1 h
    obtain ⟨rfl, rfl⟩ := Prod.mk.inj he
    exact ⟨activate_carries_out hc ha, rfl, .refl _⟩
  | complete version => exact complete_carries_out hp hc h
  | refundExpired =>
    simp only [call, EscrowCall.exec, bind_eq_ok, pure_eq, Except.ok.injEq, Prod.mk.injEq,
      Prod.exists] at h
    obtain ⟨_, _, hr, rfl, rfl, rfl⟩ := h
    obtain ⟨hs, htr⟩ := refundExpired_carries_out hp hc hr
    exact ⟨hs, rfl, htr⟩

end Escrow

end TogetherFi
