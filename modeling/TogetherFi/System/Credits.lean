/-
  The escrow and its pools agree on what was credited.

  `CreditsAgree` says of one pool that its credited campaigns are the completed
  ones and that its total is their shares at the pool's rate.  A pool the
  escrow does not pay has rate 0 and no credits, so that the same statement
  holds before the escrow is initialized and of pools it never uses.
-/
import TogetherFi.System.Binding

namespace TogetherFi

open Function Escrow Pool

/-- The rate, of 10,000, at which the escrow credits the pool `p`. -/
def Escrow.EscrowStorage.rateOf (s : EscrowStorage) (p : Address) : ℤ :=
  if s.nftPool = some p then Escrow.nftPool else if s.revenuePool = some p then revenue else 0

theorem Escrow.EscrowStorage.rateOf_nonneg (s : EscrowStorage) (p : Address) : 0 ≤ s.rateOf p := by
  unfold EscrowStorage.rateOf; split_ifs <;> decide

theorem Escrow.Complete.credits {env : Env} {id : UInt64} {version : ℕ} {c : Campaign}
    {token : Address} {q : Payees} {s s' : EscrowStorage} {pools pools' : Pools} {t t' : Tokens}
    {escrow p : Address} (hc : Complete env id version c token q s pools t s' pools' t')
    (hbooks : Escrow.Books escrow s) (hp : env.isPool p = true) :
    (pools' p).creditedCampaign = (if 0 < s.rateOf p then
      update (pools p).creditedCampaign id (some true) else (pools p).creditedCampaign) ∧
    (pools' p).credited = (pools p).credited + share c.amount (s.rateOf p) ∧
    (pools' p).paid = (pools p).paid := by
  have hnft := hc.payOut.nftPool
  have hrev := hc.payOut.revenuePool
  have hne := hbooks.pools_distinct hc
  obtain ⟨hn, hr, hother⟩ := hc.payOut.credited hne
  by_cases h₁ : p = q.nftPool
  · subst h₁
    obtain ⟨t₃, -, -, hcr⟩ := hn hp
    obtain ⟨live, hpost⟩ := hcr.post
    have hrate : s.rateOf q.nftPool = Escrow.nftPool := if_pos hnft
    rw [hpost, hrate, if_pos (by decide)]
    exact ⟨rfl, rfl, rfl⟩
  by_cases h₂ : p = q.revenuePool
  · subst h₂
    obtain ⟨t₄, -, -, hcr⟩ := hr hp
    obtain ⟨live, hpost⟩ := hcr.post
    have hrate : s.rateOf q.revenuePool = revenue := by
      rw [EscrowStorage.rateOf, if_neg (by rw [hnft]; simpa using hne), if_pos hrev]
    rw [hpost, hrate, if_pos (by decide)]
    exact ⟨rfl, rfl, rfl⟩
  have hrate : s.rateOf p = 0 := by
    rw [EscrowStorage.rateOf, if_neg (by rw [hnft]; simpa using Ne.symm h₁),
      if_neg (by rw [hrev]; simpa using Ne.symm h₂)]
  rw [hother p h₁ h₂, hrate]
  simp [share]

/-- The pool `p` was credited for the completed campaigns, and for nothing else. -/
structure CreditsAgree (s : EscrowStorage) (p : Address) (pool : PoolStorage) : Prop where
  campaigns : ∀ id, (pool.creditedCampaign id).isSome ↔ 0 < s.rateOf p ∧ s.isCompleted id
  total : pool.credited = Table.total (Campaign.credit (s.rateOf p)) s.campaign

/-- The pool is uninitialized, or bound to the escrow with this token. -/
def MayServe (token escrow : Address) (pool : PoolStorage) : Prop :=
  pool.governance = none ∨ BoundTo token escrow pool

namespace CreditsAgree

variable {s s' : EscrowStorage} {p : Address} {pool pool' : PoolStorage}

theorem congr (h : CreditsAgree s p pool) (hb : s'.bindings = s.bindings)
    (hc : s'.campaign = s.campaign) (hm : pool'.creditedCampaign = pool.creditedCampaign)
    (ht : pool'.credited = pool.credited) : CreditsAgree s' p pool' := by
  have hrate : s'.rateOf p = s.rateOf p := by
    simp only [Bindings.ext_iff, EscrowStorage.bindings] at hb
    simp only [EscrowStorage.rateOf, hb.2.2.1, hb.2.2.2]
  refine ⟨fun id => ?_, ?_⟩
  · rw [hm, hrate, EscrowStorage.isCompleted, hc]; exact h.campaigns id
  · rw [ht, hrate, hc]; exact h.total

/-- A campaign that is not completed, before and after, changes no credit. -/
theorem write (h : CreditsAgree s p pool) {id : UInt64} {c : Campaign}
    (hb : s'.bindings = s.bindings) (hc : s'.campaign = update s.campaign id (some c))
    (hold : ¬ s.isCompleted id) (hnew : c.status ≠ .completed) : CreditsAgree s' p pool := by
  have hrate : s'.rateOf p = s.rateOf p := by
    simp only [Bindings.ext_iff, EscrowStorage.bindings] at hb
    simp only [EscrowStorage.rateOf, hb.2.2.1, hb.2.2.2]
  refine ⟨fun id' => ?_, ?_⟩
  · rw [h.campaigns, hrate, isCompleted_update hc]
    by_cases hid : id' = id
    · subst hid; simp [hold, hnew]
    · simp [hid]
  · have hw : Table.weight (Campaign.credit (s.rateOf p)) (s.campaign id) = 0 := by
      cases hcamp : s.campaign id with
      | none => rfl
      | some c₀ => exact if_neg fun hst => hold ⟨c₀, hcamp, hst⟩
    rw [h.total, hrate, hc, Table.total_update, hw, Table.weight_some, Campaign.credit, if_neg hnew]
    omega

/-- **A completed campaign is credited to both pools, and to no other.** -/
theorem complete {env : Env} {id : UInt64} {version : ℕ} {c : Campaign} {token : Address} {q : Payees}
    {pools pools' : Pools} {t t' : Tokens} {escrow : Address} (h : CreditsAgree s p (pools p))
    (hbooks : Escrow.Books escrow s) (hp : env.isPool p = true)
    (hc : Complete env id version c token q s pools t s' pools' t') :
    CreditsAgree s' p (pools' p) := by
  have hcamp := hc.campaign
  have hst := hc.active
  obtain ⟨hm, ht, -⟩ := hc.credits hbooks hp
  obtain ⟨live, hs'⟩ := hc.post
  have hcamp' : s'.campaign = update s.campaign id (some { c with status := .completed }) := by rw [hs']
  have hrate : s'.rateOf p = s.rateOf p := by rw [hs']; rfl
  refine ⟨fun id' => ?_, ?_⟩
  · rw [hrate, isCompleted_update hcamp', hm]
    have := h.campaigns id'
    by_cases hpos : 0 < s.rateOf p
    · rw [if_pos hpos]
      by_cases hid : id' = id
      · subst hid; simp [hpos]
      · simp only [update_of_ne hid, hid, if_false]; exact this
    · rw [if_neg hpos]
      simp only [hpos, false_and, iff_false] at this ⊢
      exact this
  · have hamount : 0 ≤ c.amount := (hbooks.campaign id c hcamp).amount_pos.le
    rw [ht, h.total, hrate, hcamp', Table.total_update, hcamp, Table.weight_some, Table.weight_some,
      Campaign.credit, Campaign.credit, if_neg (by simp [hst]), if_pos rfl, sub_zero,
      share_eq_ediv hamount (s.rateOf_nonneg p)]

end CreditsAgree

/-- No call but a `record_credit` changes the credits; in the fresh pool they are empty. -/
theorem Pool.Effect.credits {env : Env} {s s' : PoolStorage} {t t' : Tokens} {call : PoolCall}
    (hb : Pool.Books s) (h : Pool.Effect env s t s' t' call)
    (hcall : ∀ id amount, ¬ RecordCredit env id amount s t s') :
    s'.creditedCampaign = s.creditedCampaign ∧ s'.credited = s.credited := by
  cases h with
  | initializePool hc _ =>
    obtain ⟨live₀, he⟩ := hb.fresh hc.fresh
    obtain ⟨live, rfl⟩ := hc.post
    exact ⟨rfl, by simp [PoolStorage.credited, he.credited, PoolStorage.empty]⟩
  | recordCredit hc _ => exact absurd hc (hcall _ _)
  | publishManifest hc _ => obtain ⟨live, rfl⟩ := hc.post; exact ⟨rfl, rfl⟩
  | claim hc => obtain ⟨live, rfl⟩ := hc.post; exact ⟨rfl, rfl⟩
  | expireManifest hc _ => obtain ⟨live, rfl⟩ := hc.post; exact ⟨rfl, rfl⟩
  | other _ hc _ => exact ⟨hc.creditedCampaign, by simp [PoolStorage.credited, hc.credited]⟩

/-- A pool that may serve the escrow after a call might have done so before. -/
theorem Pool.Effect.mayServe {env : Env} {s s' : PoolStorage} {t t' : Tokens} {call : PoolCall}
    {token escrow : Address} (h : Pool.Effect env s t s' t' call) (hs : MayServe token escrow s') :
    MayServe token escrow s := by
  by_cases hg : s.governance = none
  · exact .inl hg
  · -- an initialized pool stays initialized, with the same token and escrow
    have hkeep : s'.governance.isSome ∧ s'.token = s.token ∧ s'.escrow = s.escrow := by
      have hg : s.governance.isSome := Option.isSome_iff_ne_none.2 hg
      cases h with
      | initializePool hc _ => rw [hc.fresh] at hg; cases hg
      | recordCredit hc _ | publishManifest hc _ | claim hc | expireManifest hc _ =>
        obtain ⟨live, rfl⟩ := hc.post; exact ⟨hg, rfl, rfl⟩
      | other _ hc _ => exact ⟨hc.initialized ▸ hg, hc.token, hc.escrow⟩
    rcases hs with hs | hs
    · rw [hs] at hkeep; cases hkeep.1
    · exact .inr ⟨Option.isSome_iff_ne_none.2 hg, hkeep.2.1 ▸ hs.token, hkeep.2.2 ▸ hs.escrow⟩

variable {D : Deployment} {token : Address}

/-- An action leaves a pool that may serve the escrow afterwards one that might
    have done so before. -/
theorem Effect.mayServe {w w' : World} {a : Action} {p : Address} (h : Effect D w w' a)
    (hs : MayServe token D.escrow (w'.pools p)) : MayServe token D.escrow (w.pools p) :=
  h.pool_preserves (p := p)
    (I := fun s => MayServe token D.escrow s → MayServe token D.escrow (w.pools p))
    (fun _ hc hI hs => hI (hc.mayServe hs)) id hs

/-- Nobody but the escrow, in a call of its own, credits a pool bound to it. -/
theorem not_recordCredit {w : World} {p : Address} {signers : Address → Bool} {foreign : Foreign}
    {id : UInt64} {amount : ℤ} {s s' : PoolStorage} {t : Tokens}
    (hs : MayServe token D.escrow s) :
    ¬ RecordCredit (D.env w p signers foreign) id amount s t s' := by
  intro hc
  obtain ⟨escrow, he, hauth⟩ := hc.escrow
  rcases hs with hs | hs
  · have := hc.initialized
    rw [hs] at this; cases this
  · obtain rfl := Option.some.inj (hs.escrow.symm.trans he)
    exact Deployment.ne_escrow_of_authorized hauth rfl

/-- **The credits agree in every reachable state.** -/
theorem Execution.credits_agree (x : Execution D) (p : Address) (hp : D.isPool p = true)
    (hs : MayServe token D.escrow (x.final.pools p)) :
    CreditsAgree x.final.escrow p (x.final.pools p) := by
  refine invariant (I := fun w => MayServe token D.escrow (w.pools p) →
      CreditsAgree w.escrow p (w.pools p))
    (fun w hw _ => ?_) (fun y a w' h hI hs => ?_) x hs
  · obtain ⟨live, he⟩ := hw.escrow
    obtain ⟨live', hp'⟩ := hw.pools p
    rw [he, hp']
    refine ⟨fun id => ⟨fun h => (by cases h), ?_⟩, (Table.total_empty _).symm⟩
    rintro ⟨-, c, hc, -⟩
    cases hc
  · have hbooks := y.escrow_books
    have hs₀ := h.mayServe hs
    have hI := hI hs₀
    cases h with
    | escrow h hw =>
      subst hw
      cases h with
      | initializeEscrow hc hpools _ =>
        subst hpools
        obtain ⟨live, hs'⟩ := hc.post
        obtain ⟨live₀, he⟩ := hbooks.fresh hc.fresh
        have hcamp : y.final.escrow.campaign = fun _ => none := he.campaign
        refine ⟨fun id => ?_, ?_⟩
        · simp [hI.campaigns, hs', EscrowStorage.isCompleted, hcamp]
        · rw [hI.total, hs', hcamp]
          simp
      | fund hc hpools =>
        subst hpools
        have hnew := hc.newId
        obtain ⟨live, hs'⟩ := hc.post
        refine hI.write (by rw [hs']; rfl) (by rw [hs']) ?_ (by simp [newCampaign])
        rintro ⟨c, hc, -⟩
        rw [hnew] at hc; cases hc
      | activate hc hpools _ =>
        subst hpools
        have hnc := Books.not_completed hc.campaign (by simp [hc.funded])
        obtain ⟨live, hs'⟩ := hc.post
        exact hI.write (by rw [hs']; rfl) (by rw [hs']) hnc (by simp [Campaign.activated])
      | complete hc => exact hI.complete hbooks hp hc
      | refundExpired hc hpools =>
        subst hpools
        have hnc := Books.not_completed hc.campaign (by rcases hc.pending with h | h <;> simp [h])
        obtain ⟨live, hs'⟩ := hc.post
        exact hI.write (by rw [hs']; rfl) (by rw [hs']) hnc (by simp)
      | other _ hc hpools _ =>
        subst hpools
        exact hI.congr hc.bindings hc.campaign rfl rfl
    | pool hq h hw =>
      rename_i q _ _ _ _
      subst hw
      by_cases hpq : p = q
      · subst hpq
        obtain ⟨hm, ht⟩ := h.credits (y.pool_books p) fun _ _ => not_recordCredit hs₀
        exact hI.congr rfl rfl (by simpa using hm) (by simpa using ht)
      · exact hI.congr rfl rfl (by simp [hpq]) (by simp [hpq])
    | transfer _ _ _ hw | issuer _ hw | close _ hw => subst hw; exact hI

/-- **Escrow and pools agree on credits.** -/
theorem pools_agree (x : Execution D) {nft rev : Address}
    (hn : x.final.escrow.nftPool = some nft) (hr : x.final.escrow.revenuePool = some rev)
    (hpn : D.isPool nft = true) (hpr : D.isPool rev = true) :
    let s := x.final.escrow
    (∀ id, ((x.final.pools nft).creditedCampaign id).isSome ↔ s.isCompleted id) ∧
    (∀ id, ((x.final.pools rev).creditedCampaign id).isSome ↔ s.isCompleted id) ∧
    (x.final.pools nft).credited = Table.total (Campaign.credit 500) s.campaign ∧
    (x.final.pools rev).credited = Table.total (Campaign.credit 200) s.campaign := by
  intro s
  obtain ⟨tok, tr, hb⟩ := x.bound_pools hn hr
  have hrn : s.rateOf nft = 500 := if_pos hn
  have hrr : s.rateOf rev = 200 := by
    rw [EscrowStorage.rateOf, if_neg (by rw [hn]; simpa using hb.distinct), if_pos hr]; rfl
  have h₁ := x.credits_agree nft hpn (.inr (hb.nft hpn))
  have h₂ := x.credits_agree rev hpr (.inr (hb.revenue hpr))
  refine ⟨fun id => ?_, fun id => ?_, ?_, ?_⟩
  · rw [h₁.campaigns id, hrn]; simp [s]
  · rw [h₂.campaigns id, hrr]; simp [s]
  · rw [h₁.total, hrn]
  · rw [h₂.total, hrr]

theorem pools_agree_sample :
    (Sample.execution.final.pools Sample.nftPool).credited = 500 ∧
    (Sample.execution.final.pools Sample.revenuePool).credited = 200 ∧
    (((Sample.execution.final.pools Sample.nftPool).creditedCampaign 1).isSome ↔
      Sample.execution.final.escrow.isCompleted 1) := by
  have h := pools_agree Sample.execution
    (show Sample.execution.final.escrow.nftPool = some Sample.nftPool by decide +kernel)
    (show Sample.execution.final.escrow.revenuePool = some Sample.revenuePool by decide +kernel)
    (by decide) (by decide)
  exact ⟨by decide +kernel, by decide +kernel, h.1 1⟩

end TogetherFi
