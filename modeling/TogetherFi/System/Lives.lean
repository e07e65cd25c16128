/-
  How long the entries of the system live.

  When every ledger takes at least five seconds, the entries a campaign or a
  manifest needs outlast what they are needed for: `fund` and `publish_manifest`
  extend them far enough, and nothing shortens a life.  The instances of the two
  pools are the exception: `fund` does not call the pools.  A campaign stays
  completable exactly as long as their instances live anyway.
-/
import TogetherFi.Escrow.Lives
import TogetherFi.Pool.Publication
import TogetherFi.System.Lifecycle

namespace TogetherFi

open Outcome Function Escrow Pool

/-! ## The clock -/

/-- The clock of the world. -/
def World.clock (w : World) : Clock := ⟨w.timestamp.toNat, w.sequence⟩

/-- A call that only keeps lives alive. -/
def Action.isKeeper : Action → Bool
  | .escrow _ _ .extendInstanceTtl => true
  | .escrow _ _ (.extendCampaignTtl _) => true
  | .pool _ _ .extendInstanceTtl => true
  | .pool _ _ (.extendManifestTtl _) => true
  | _ => false

variable {D : Deployment}

/-- Every ledger of the run takes at least five seconds. -/
def Execution.Paced (x : Execution D) : Prop :=
  ∀ t ∈ x.history, Clock.Paced cadence t.pre.clock t.post.clock

section
variable {w w' : World} {a : Action}

/-- A step takes no time, or is the close of a ledger and changes nothing else. -/
theorem Deployment.step_clock (h : D.step w a = .ok w') :
    w'.clock = w.clock ∨ w'.escrow = w.escrow ∧ w'.pools = w.pools := by
  cases step_effect h with
  | escrow _ hw | pool _ _ hw | transfer _ _ _ hw | issuer _ hw =>
    left
    rw [hw]
    rfl
  | close _ hw =>
    right
    rw [hw]
    exact ⟨rfl, rfl⟩

theorem Deployment.step_contract (h : D.step w a = .ok w') :
    (∃ signers foreign call, a = .escrow signers foreign call) ∨
    (∃ p signers call, a = .pool p signers call) ∨
    w'.escrow = w.escrow ∧ w'.pools = w.pools := by
  cases step_effect h with
  | escrow => exact .inl ⟨_, _, _, rfl⟩
  | pool => exact .inr (.inl ⟨_, _, _, rfl⟩)
  | transfer _ _ _ hw | issuer _ hw | close _ hw =>
    subst hw
    exact .inr (.inr ⟨rfl, rfl⟩)

/-- What every call of the escrow keeps at the time of the ledger, a step keeps. -/
theorem Deployment.step_escrow_keeps {I : EscrowStorage → Prop}
    (hcall : ∀ {env : Env} {c s s' pools pools' t t'}, env.clock = w.clock →
      EscrowCall.exec env s pools t c = .ok (s', pools', t') → I s → I s')
    (h : D.step w a = .ok w') (hI : I w.escrow) : I w'.escrow := by
  rcases step_contract h with ⟨signers, foreign, call, rfl⟩ | ⟨q, signers, call, rfl⟩ | ⟨he, -⟩
  · obtain ⟨s, pools, t, hc, rfl⟩ := step_escrow_ok h
    exact hcall rfl hc hI
  · obtain ⟨-, s, t, hc, rfl⟩ := step_pool_ok h
    exact hI
  · rw [he]
    exact hI

theorem Deployment.step_pool_keeps {p : Address} {I : PoolStorage → Prop}
    (hcall : ∀ {env : Env} {c s s' t t'}, env.clock = w.clock →
      PoolCall.exec env s t c = .ok (s', t') → I s → I s')
    (h : D.step w a = .ok w') (hI : I (w.pools p)) : I (w'.pools p) := by
  rcases step_contract h with ⟨signers, foreign, call, rfl⟩ | ⟨q, signers, call, rfl⟩ | ⟨-, hpools⟩
  · obtain ⟨s, pools, t, hc, rfl⟩ := step_escrow_ok h
    exact EscrowCall.exec_pools (fun hc hI => hcall rfl hc hI) hc hI
  · obtain ⟨-, s, t, hc, rfl⟩ := step_pool_ok h
    by_cases hq : p = q
    · subst hq
      simpa only [update_self] using hcall rfl hc hI
    · simpa only [update_of_ne hq] using hI
  · rw [hpools]
    exact hI

end

/-! ## What a call does to the entries that count -/

section
variable {env : Env} {id : UInt64}

/-- **The entries of an escrow in time**: those of each campaign outlast its expiry by
    ten days. -/
def EscrowLives (c : Clock) (s : EscrowStorage) : Prop :=
  ∀ id k, s.campaign id = some k → ∀ e ∈ [EscrowEntry.instance_, .campaign id],
    Clock.Outlasts cadence c (s.live e) (k.expiresAt.toNat + 864001)

/-- The entries a manifest needs. -/
def manifestEntries (id : UInt64) (m : Manifest) : List PoolEntry :=
  .instance_ :: .manifest id :: allocations id m.allocationCount

/-- **The entries of a pool in time**: those of each manifest outlast its claim window. -/
def PoolLives (c : Clock) (s : PoolStorage) : Prop :=
  ∀ id m, s.manifest id = some m → ∀ e ∈ manifestEntries id m,
    Clock.Outlasts cadence c (s.live e) m.expiresAt.toNat

theorem Escrow.Effect.expires {s s' : EscrowStorage} {pools pools' : Pools} {t t' : Tokens}
    {call : EscrowCall} {k' : Campaign} (h : Escrow.Effect env s pools t s' pools' t' call)
    (hk : s'.campaign id = some k') :
    (∃ sponsor amount, call = .fund id sponsor amount ∧
      k'.expiresAt.toNat = env.timestamp.toNat + 2592000) ∨
    ∃ k, s.campaign id = some k ∧ k.expiresAt = k'.expiresAt := by
  by_cases hw : call.writes = some id
  · obtain ⟨c', hc', hm⟩ := h.move hw
    obtain rfl := Option.some.inj (hk.symm.trans hc')
    generalize hr : s.campaign id = r at hm
    cases hm with
    | @fund i sponsor amount auth =>
      obtain rfl := Option.some.inj hw
      refine .inl ⟨sponsor, amount, rfl, ?_⟩
      cases h with
      | fund hf _ =>
        have hlt := hf.noOverflow
        show (env.timestamp + expiry).toNat = _
        rw [UInt64.toNat_add, Nat.mod_eq_of_lt hlt]
        rfl
      | other hcall => cases hcall
    | activate | complete | refund => exact .inr ⟨_, rfl, rfl⟩
  · right
    rw [(h.frame hw).1] at hk
    exact ⟨k', hk, rfl⟩

/-- A manifest after a call was published by it, or has the terms it had. -/
theorem Pool.Effect.terms {s s' : PoolStorage} {t t' : Tokens} {call : PoolCall} {m' : Manifest}
    (h : Pool.Effect env s t s' t' call) (hm : s'.manifest id = some m') :
    (∃ hash policy expiresAt recipients amounts,
      call = .publishManifest id hash policy expiresAt recipients amounts ∧
      m'.allocationCount = recipients.length ∧
      m'.expiresAt.toNat ≤ env.timestamp.toNat + 2592000) ∨
    ∃ m, s.manifest id = some m ∧ m.terms = m'.terms := by
  -- a call that rewrites manifest `i` and keeps its terms
  have hkept : ∀ {i : UInt64} {m₀ m₁ : Manifest}, s.manifest i = some m₀ →
      s'.manifest = update s.manifest i (some m₁) → m₀.terms = m₁.terms →
      ∃ m, s.manifest id = some m ∧ m.terms = m'.terms := by
    intro i m₀ m₁ h₀ he hterms
    rw [he] at hm
    by_cases hid : id = i
    · subst hid
      rw [update_self] at hm
      obtain rfl := Option.some.inj hm
      exact ⟨m₀, h₀, hterms⟩
    · rw [update_of_ne hid] at hm
      exact ⟨m', hm, rfl⟩
  cases h with
  | initializePool hc _ | recordCredit hc _ =>
    obtain ⟨live, rfl⟩ := hc.post
    exact .inr ⟨m', hm, rfl⟩
  | @publishManifest i hash policy expiresAt recipients amounts hc _ =>
    have hwindow := hc.publishable.window
    obtain ⟨live, rfl⟩ := hc.post
    by_cases hid : id = i
    · subst hid
      simp only [update_self, Option.some.injEq] at hm
      subst hm
      exact .inl ⟨hash, policy, expiresAt, recipients, amounts, rfl, rfl, hwindow⟩
    · simp only [update_of_ne hid] at hm
      exact .inr ⟨m', hm, rfl⟩
  | claim hc =>
    have h₀ := hc.manifest
    obtain ⟨live, rfl⟩ := hc.post
    exact .inr (hkept h₀ rfl rfl)
  | expireManifest hc _ =>
    have h₀ := hc.manifest
    obtain ⟨live, rfl⟩ := hc.post
    exact .inr (hkept h₀ rfl rfl)
  | other _ hc _ =>
    rw [hc.manifest] at hm
    exact .inr ⟨m', hm, rfl⟩

/-- **A call of the escrow keeps its entries in time.** -/
theorem EscrowLives.exec {s s' : EscrowStorage} {pools pools' : Pools} {t t' : Tokens}
    {call : EscrowCall} (h : call.exec env s pools t = .ok (s', pools', t'))
    (hs : EscrowLives env.clock s) : EscrowLives env.clock s' := by
  intro id k' hk' e he
  rw [EscrowCall.exec_live h]
  rcases (EscrowCall.effect h).expires hk' with ⟨sponsor, amount, rfl, hexp⟩ | ⟨k, hk, hexp⟩
  · -- 40 days of ledgers cover the 30 days of the campaign and 10 more
    refine extendAll_outlasts (c := env.clock) he ?_ s.live
    rw [hexp]
    show _ ≤ env.timestamp.toNat + cadence * (ttl + 1)
    unfold cadence ttl
    omega
  · rw [← hexp]
    exact (hs id k hk e he).mono (le_extendAll ..)

/-- **A call of a pool keeps its entries in time.** -/
theorem PoolLives.exec {s s' : PoolStorage} {t t' : Tokens} {call : PoolCall}
    (h : call.exec env s t = .ok (s', t')) (hs : PoolLives env.clock s) : PoolLives env.clock s' := by
  intro id m' hm' e he
  rw [PoolCall.exec_live h]
  rcases (PoolCall.effect h).terms hm' with
    ⟨hash, policy, expiresAt, recipients, amounts, rfl, hcount, hexp⟩ | ⟨m, hm, hterms⟩
  · have htouched : e ∈ PoolCall.touched s
        (.publishManifest id hash policy expiresAt recipients amounts) := by
      simp only [manifestEntries, hcount, List.mem_cons] at he
      simp only [PoolCall.touched, List.cons_append, List.mem_cons, List.mem_append,
        List.not_mem_nil, or_false]
      tauto
    refine extendAll_outlasts (c := env.clock) htouched ?_ s.live
    show _ ≤ env.timestamp.toNat + cadence * (ttl + 1)
    unfold cadence ttl
    omega
  · simp only [Manifest.terms, Prod.mk.injEq] at hterms
    obtain ⟨-, -, -, hcount, hexp⟩ := hterms
    rw [manifestEntries, ← hcount] at he
    rw [← hexp]
    exact (hs id m hm e he).mono (le_extendAll ..)

end

/-! ## Executions -/

/-- The entries of the escrow and of the pools are in time. -/
structure Lives (w : World) : Prop where
  escrow : EscrowLives w.clock w.escrow
  pools : ∀ p, PoolLives w.clock (w.pools p)

theorem Lives.step {w w' : World} {a : Action} (h : Lives w) (hs : D.step w a = .ok w')
    (hp : Clock.Paced cadence w.clock w'.clock) : Lives w' := by
  rcases Deployment.step_clock hs with hc | ⟨he, hpools⟩
  · constructor
    · rw [hc]
      exact Deployment.step_escrow_keeps
        (fun henv hcall hI => henv ▸ EscrowLives.exec hcall (henv ▸ hI)) hs h.escrow
    · intro p
      rw [hc]
      exact Deployment.step_pool_keeps
        (fun henv hcall hI => henv ▸ PoolLives.exec hcall (henv ▸ hI)) hs (h.pools p)
  · have hk : 0 < cadence := by decide
    constructor
    · rw [he]
      exact fun id k hk' e hmem => (h.escrow id k hk' e hmem).later hk hp
    · intro p
      rw [hpools]
      exact fun id m hm e hmem => (h.pools p id m hm e hmem).later hk hp

theorem Execution.lives (x : Execution D) (hx : x.Paced) : Lives x.final := by
  refine induction (A := fun _ => True)
    (P := fun h w => (∀ t ∈ h, Clock.Paced cadence t.pre.clock t.post.clock) → Lives w)
    (fun w hw _ => ?_) (fun y t _ _ _ ih hpaced => ?_) x (fun _ _ => trivial) hx
  · constructor
    · intro id k hk
      obtain ⟨live, he⟩ := hw.escrow
      rw [he] at hk
      cases hk
    · intro p id m hm
      obtain ⟨live, he⟩ := hw.pools p
      rw [he] at hm
      cases hm
  · have hpre : Lives t.pre := ih fun u hu => hpaced u (List.mem_append_left _ hu)
    exact hpre.step t.ok (hpaced t (List.mem_append_right _ (List.mem_singleton_self t)))

/-- **Refunds and claims stay reachable in storage.**  At any pace of at least five
    seconds a ledger, and whoever calls what, the entries of a campaign are alive
    until ten days after its expiry, and all entries of a manifest until its own. -/
theorem entries_alive (x : Execution D) (hx : x.Paced) :
    (∀ id c, x.final.escrow.campaign id = some c →
      x.final.timestamp.toNat ≤ c.expiresAt.toNat + 10 * 86400 →
      x.final.sequence ≤ x.final.escrow.live .instance_ ∧
      x.final.sequence ≤ x.final.escrow.live (.campaign id)) ∧
    ∀ p, D.isPool p = true → ∀ id m, (x.final.pools p).manifest id = some m →
      x.final.timestamp.toNat < m.expiresAt.toNat →
      x.final.sequence ≤ (x.final.pools p).live .instance_ ∧
      x.final.sequence ≤ (x.final.pools p).live (.manifest id) ∧
      ∀ i < m.allocationCount, x.final.sequence ≤ (x.final.pools p).live (.allocation id i) := by
  have hlives := x.lives hx
  constructor
  · intro id c hc htime
    have halive : ∀ e ∈ [EscrowEntry.instance_, .campaign id],
        x.final.sequence ≤ x.final.escrow.live e := by
      intro e he
      refine (hlives.escrow id c hc e he).alive ?_
      show x.final.timestamp.toNat < _
      omega
    exact ⟨halive _ (by simp), halive _ (by simp)⟩
  · intro p _ id m hm htime
    have halive : ∀ e ∈ manifestEntries id m, x.final.sequence ≤ (x.final.pools p).live e :=
      fun e he => (hlives.pools p id m hm e he).alive htime
    refine ⟨halive _ (by simp [manifestEntries]), halive _ (by simp [manifestEntries]), ?_⟩
    intro i hi
    exact halive _ (by simp [manifestEntries, allocations, hi])

namespace Sample

/-- The contracts are deployed with lives up to the ledger `n`. -/
def deployed (n : ℕ) : World :=
  { start with
    escrow := .empty fun _ => n
    pools := fun _ => .empty fun _ => n }

theorem deployed_genesis (n : ℕ) : deployment.Genesis (deployed n) :=
  ⟨⟨_, rfl⟩, fun _ => ⟨_, rfl⟩, rfl, genesis.balance⟩

/-- One campaign is completed and its credit published, another one is open. -/
def quiet : Execution deployment where
  start := deployed 700001
  genesis := deployed_genesis 700001
  actions := setup treasury ++ launch 1 10000 ++ launch 2 5000 ++
    [.escrow (fun _ => true) .silent (.complete 1 1),
     .pool nftPool (fun _ => true) (.publishManifest 1 0 0 2000 [creator, referrer] [300, 150]),
     .close 1900 181]

theorem quiet_paced : quiet.Paced := by
  unfold Execution.Paced
  decide +kernel

end Sample

theorem entries_alive_sample :
    181 ≤ Sample.quiet.final.escrow.live (.campaign 2) ∧
    181 ≤ (Sample.quiet.final.pools Sample.nftPool).live (.allocation 1 1) := by
  have h := entries_alive Sample.quiet Sample.quiet_paced
  have hseq : Sample.quiet.final.sequence = 181 := by decide +kernel
  rw [hseq] at h
  constructor
  · obtain ⟨c, hc, htime⟩ : ∃ c, Sample.quiet.final.escrow.campaign 2 = some c ∧
        Sample.quiet.final.timestamp.toNat ≤ c.expiresAt.toNat + 10 * 86400 :=
      ⟨_, rfl, by decide +kernel⟩
    exact (h.1 2 c hc htime).2
  · obtain ⟨m, hm, htime, hcount⟩ : ∃ m,
        (Sample.quiet.final.pools Sample.nftPool).manifest 1 = some m ∧
        Sample.quiet.final.timestamp.toNat < m.expiresAt.toNat ∧ 1 < m.allocationCount :=
      ⟨_, rfl, by decide +kernel, by decide +kernel⟩
    exact (h.2 Sample.nftPool (by decide) 1 m hm htime).2.2 1 hcount

end TogetherFi
