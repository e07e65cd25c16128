/-
  The books of the escrow: the stored liability agrees with the campaigns, and
  every campaign is in a shape its status allows.

  `CampaignBooks` is what holds of one campaign, `Books` of the whole storage.
  `Books.effect` shows that every successful call keeps them, whatever the
  pools, the tokens and the authorizations are.
-/
import TogetherFi.Lib.Table
import TogetherFi.Escrow.Effect

namespace TogetherFi

open Function

namespace Escrow

/-! ## One campaign -/

namespace Campaign

/-- Not settled yet. -/
def isOpen (c : Campaign) : Prop := c.status = .funded ∨ c.status = .active

instance (c : Campaign) : Decidable c.isOpen := inferInstanceAs (Decidable (_ ∨ _))

/-- What a campaign adds to `TotalLiability`. -/
def owed (c : Campaign) : ℤ := if c.isOpen then c.amount else 0

/-- What a campaign credits to the pool of this rate. -/
def credit (rate : ℤ) (c : Campaign) : ℤ :=
  if c.status = .completed then c.amount * rate / denom else 0

/-- The placeholders of `fund` are in place. -/
structure Pristine (escrow : Address) (c : Campaign) : Prop where
  creator : c.creator = escrow
  referrer : c.referrer = none
  terms : c.termsHash = []
  version : c.operationVersion = 0

/-- The sponsor has activated the campaign. -/
structure Activated (c : Campaign) : Prop where
  referrer : c.referrer.isSome
  terms : c.termsHash ≠ []
  version : c.operationVersion = 1

end Campaign

/-- The shape of a campaign record. -/
structure CampaignBooks (escrow : Address) (c : Campaign) : Prop where
  minimum : minimumCampaignAmount ≤ c.amount
  maximum : c.amount ≤ i128Max / denom
  noOverflow : c.fundedAt.toNat + expiry.toNat < 2 ^ 64
  expires : c.expiresAt = c.fundedAt + expiry
  funded : c.status = .funded → c.Pristine escrow
  active : c.status = .active → c.Activated
  completed : c.status = .completed → c.Activated
  refunded : c.status = .refunded → c.Pristine escrow ∨ c.Activated

namespace CampaignBooks

variable {escrow : Address} {c : Campaign}

theorem amount_pos (h : CampaignBooks escrow c) : 0 < c.amount :=
  lt_of_lt_of_le (by decide) h.minimum

theorem owed_nonneg (h : CampaignBooks escrow c) : 0 ≤ c.owed := by
  have := h.amount_pos
  unfold Campaign.owed; split <;> omega

theorem new {env : Env} {sponsor : Address} {amount : ℤ} (hmin : minimumCampaignAmount ≤ amount)
    (hmax : amount ≤ i128Max / denom) (htime : env.timestamp.toNat + expiry.toNat < 2 ^ 64) :
    CampaignBooks env.self (newCampaign env sponsor amount) :=
  ⟨hmin, hmax, htime, rfl, fun _ => ⟨rfl, rfl, rfl, rfl⟩, nofun, nofun, nofun⟩

theorem activate (h : CampaignBooks escrow c) {creator : Address} {referrer : Option Address}
    {terms : List UInt8} (hterms : terms ≠ []) (href : referrer.isSome) :
    CampaignBooks escrow (c.activated creator referrer terms) :=
  ⟨h.minimum, h.maximum, h.noOverflow, h.expires, nofun, fun _ => ⟨href, hterms, rfl⟩, nofun, nofun⟩

theorem complete (h : CampaignBooks escrow c) (hst : c.status = .active) :
    CampaignBooks escrow { c with status := .completed } := by
  obtain ⟨href, hterms, hver⟩ := h.active hst
  exact ⟨h.minimum, h.maximum, h.noOverflow, h.expires, by simp, by simp,
    fun _ => ⟨href, hterms, hver⟩, by simp⟩

theorem refund (h : CampaignBooks escrow c) (hst : c.status = .active ∨ c.status = .funded) :
    CampaignBooks escrow { c with status := .refunded } := by
  refine ⟨h.minimum, h.maximum, h.noOverflow, h.expires, by simp, by simp, by simp, fun _ => ?_⟩
  rcases hst with hst | hst
  · obtain ⟨href, hterms, hver⟩ := h.active hst
    exact .inr ⟨href, hterms, hver⟩
  · obtain ⟨hcr, href, hterms, hver⟩ := h.funded hst
    exact .inl ⟨hcr, href, hterms, hver⟩

end CampaignBooks

/-! ## The whole storage -/

/-- Campaign `id` is completed. -/
def EscrowStorage.isCompleted (s : EscrowStorage) (id : UInt64) : Prop :=
  ∃ c, s.campaign id = some c ∧ c.status = .completed

/-- The addresses `initialize` fixes. -/
@[ext] structure Bindings where
  token : Option Address
  treasury : Option Address
  nftPool : Option Address
  revenuePool : Option Address

/-- What `initialize` binds. -/
def EscrowStorage.bindings (s : EscrowStorage) : Bindings where
  token := s.token
  treasury := s.serviceTreasury
  nftPool := s.nftPool
  revenuePool := s.revenuePool

theorem SameBooks.bindings {s s' : EscrowStorage} (h : SameBooks s s') : s'.bindings = s.bindings :=
  Bindings.ext h.token h.treasury h.nftPool h.revenuePool

/-- All addresses are set, and the pools differ. -/
structure Bindings.Valid (b : Bindings) : Prop where
  token : b.token.isSome
  treasury : b.treasury.isSome
  nftPool : b.nftPool.isSome
  revenuePool : b.revenuePool.isSome
  distinct : b.nftPool ≠ b.revenuePool

/-- The books of the escrow at address `escrow`. -/
structure Books (escrow : Address) (s : EscrowStorage) : Prop where
  fresh : s.governance = none → ∃ live, SameBooks (.empty live) s
  bindings : s.governance.isSome → s.bindings.Valid
  stored : s.governance.isSome → s.totalLiability.isSome
  liability : s.liability = Table.total Campaign.owed s.campaign
  campaign : ∀ id c, s.campaign id = some c → CampaignBooks escrow c
  consumed : ∀ id v, (s.consumedOperation id v).isSome ↔ s.isCompleted id ∧ v = 1

theorem isCompleted_update {s s' : EscrowStorage} {id : UInt64} {c : Campaign}
    (h : s'.campaign = update s.campaign id (some c)) (id' : UInt64) :
    s'.isCompleted id' ↔ if id' = id then c.status = .completed else s.isCompleted id' := by
  unfold EscrowStorage.isCompleted
  rw [h]
  by_cases hid : id' = id
  · subst hid; simp
  · simp [hid]

namespace Books

variable {escrow : Address} {s s' : EscrowStorage}

theorem liability_nonneg (h : Books escrow s) : 0 ≤ s.liability := by
  rw [h.liability]
  exact Table.total_nonneg fun id c hc => (h.campaign id c hc).owed_nonneg

theorem amount_le (h : Books escrow s) {id : UInt64} {c : Campaign} (hc : s.campaign id = some c)
    (hst : c.isOpen) : c.amount ≤ s.liability := by
  have hle := Table.weight_le_total (g := Campaign.owed) (f := s.campaign)
    (fun id c hc => (h.campaign id c hc).owed_nonneg) id
  rw [hc, Table.weight_some, Campaign.owed, if_pos hst] at hle
  rw [h.liability]; exact hle

theorem empty (live : EscrowEntry → ℕ) : Books escrow (.empty live) := by
  refine ⟨fun _ => ⟨live, .refl _⟩, fun hg => (by cases hg), fun hg => (by cases hg),
    (Table.total_empty Campaign.owed).symm, fun id c hc => (by cases hc),
    fun id v => ⟨fun h => (by cases h), ?_⟩⟩
  rintro ⟨⟨c, hc, -⟩, -⟩
  cases hc

theorem same (h : Books escrow s) (hs : SameBooks s s') : Books escrow s' := by
  have hl : s'.liability = s.liability := by simp [EscrowStorage.liability, hs.liability]
  refine ⟨fun hg => ?_, fun hg => ?_, fun hg => ?_, ?_, ?_, ?_⟩
  · obtain ⟨live, he⟩ := h.fresh (by simpa [hg] using hs.initialized.symm)
    exact ⟨live, he.trans hs⟩
  · rw [hs.bindings]; exact h.bindings (hs.initialized ▸ hg)
  · rw [hs.liability]; exact h.stored (hs.initialized ▸ hg)
  · rw [hl, hs.campaign, h.liability]
  · rw [hs.campaign]; exact h.campaign
  · simpa only [EscrowStorage.isCompleted, hs.campaign, hs.consumed] using h.consumed

theorem initialized (h : Books escrow s) (hs : ∀ live, ¬ SameBooks (.empty live) s) :
    s.governance.isSome := by
  by_contra hg
  obtain ⟨live, he⟩ := h.fresh (by simpa using hg)
  exact hs live he

/-- **Writing one campaign.**  The liability moves by what the campaign owes,
    and a campaign that becomes completed has its operation consumed. -/
theorem write (h : Books escrow s) {id : UInt64} {c : Campaign} (hg : s.governance.isSome)
    (hg' : s'.governance = s.governance) (hbindings : s'.bindings = s.bindings)
    (hc : CampaignBooks escrow c) (hstored : s'.totalLiability.isSome)
    (hcampaign : s'.campaign = update s.campaign id (some c))
    (hliab : s'.liability = s.liability - Table.weight Campaign.owed (s.campaign id) + c.owed)
    (hcons : ∀ id' v, (s'.consumedOperation id' v).isSome ↔
      (if id' = id then c.status = .completed else s.isCompleted id') ∧ v = 1) :
    Books escrow s' := by
  refine ⟨fun hn => ?_, fun _ => hbindings ▸ h.bindings hg, fun _ => hstored, ?_,
    fun id' c' hc' => ?_, fun id' v => ?_⟩
  · rw [← hg', hn] at hg; cases hg
  · rw [hcampaign, Table.total_update, Table.weight_some, ← h.liability, hliab]
  · rw [hcampaign] at hc'
    by_cases hid : id' = id
    · subst hid
      obtain rfl : c = c' := by simpa using hc'
      exact hc
    · exact h.campaign id' c' (by simpa [hid] using hc')
  · rw [isCompleted_update hcampaign]; exact hcons id' v

/-- A campaign that does not become completed leaves the consumed operations. -/
theorem consumed_of_not_completed (h : Books escrow s) {id : UInt64} (hid : ¬ s.isCompleted id)
    {st : CampaignStatus} (hst : st ≠ .completed) (id' : UInt64) (v : ℕ) :
    (s.consumedOperation id' v).isSome ↔
      (if id' = id then st = .completed else s.isCompleted id') ∧ v = 1 := by
  rw [h.consumed]
  by_cases hid' : id' = id
  · subst hid'; simp [hid, hst]
  · simp [hid']

theorem not_completed {id : UInt64} {c : Campaign} (hc : s.campaign id = some c)
    (hst : c.status ≠ .completed) : ¬ s.isCompleted id := by
  rintro ⟨c', hc', hst'⟩
  obtain rfl := Option.some.inj (hc.symm.trans hc')
  exact hst hst'

variable {env : Env} {pools pools' : Pools} {t t' : Tokens}

/-- A completed campaign pays two different pools. -/
theorem pools_distinct {id : UInt64} {version : ℕ} {c : Campaign} {token : Address} {p : Payees}
    (h : Books escrow s) (hc : Complete env id version c token p s pools t s' pools' t') :
    p.nftPool ≠ p.revenuePool := by
  have hne := (h.bindings hc.initialized).distinct
  simpa only [EscrowStorage.bindings, hc.payOut.nftPool, hc.payOut.revenuePool, ne_eq,
    Option.some.injEq] using hne

theorem initializeEscrow {g se tok tr nft rev d : Address} {salt : BytesN32} (h : Books escrow s)
    (hc : Initialize env g se tok tr nft rev d salt s pools s') : Books escrow s' := by
  obtain ⟨live₀, he⟩ := h.fresh hc.fresh
  have hdist := hc.distinct
  obtain ⟨live, rfl⟩ := hc.post
  have hcamp : s.campaign = fun _ => none := he.campaign
  refine ⟨fun hg => (by cases hg), fun _ => ⟨rfl, rfl, rfl, rfl, fun he => hdist (Option.some.inj he)⟩,
    fun _ => rfl, ?_, h.campaign, h.consumed⟩
  simp [hcamp, EscrowStorage.liability]

theorem fund {id : UInt64} {sponsor token : Address} {amount : ℤ} (h : Books env.self s)
    (hc : Fund env id sponsor amount token s t s' t') : Books env.self s' := by
  have hg := hc.initialized
  have hnew := hc.newId
  have hb : CampaignBooks env.self (newCampaign env sponsor amount) :=
    .new hc.minimum hc.maximum hc.noOverflow
  obtain ⟨live, rfl⟩ := hc.post
  have hnc : ¬ s.isCompleted id := by
    rintro ⟨c, hc', -⟩
    rw [hnew] at hc'; cases hc'
  refine h.write hg rfl rfl hb rfl rfl ?_
    (h.consumed_of_not_completed hnc (by simp [newCampaign]))
  rw [hnew, Table.weight_none, sub_zero, Campaign.owed, if_pos (.inl rfl)]
  rfl

theorem activate {id : UInt64} {creator : Address} {referrer : Option Address}
    {terms : List UInt8} {c : Campaign} (h : Books escrow s)
    (hc : Activate env id creator referrer terms c s s') : Books escrow s' := by
  have hg := hc.initialized
  have hst := hc.funded
  have hcamp := hc.campaign
  have hb : CampaignBooks escrow (c.activated creator referrer terms) :=
    (h.campaign id c hcamp).activate hc.terms hc.present
  have hnc := not_completed hcamp (by simp [hst])
  obtain ⟨live, rfl⟩ := hc.post
  refine h.write hg rfl rfl hb (h.stored hg) rfl ?_
    (h.consumed_of_not_completed hnc (by simp [Campaign.activated]))
  rw [hcamp, Table.weight_some, Campaign.owed, Campaign.owed, if_pos (.inl hst), if_pos (.inr rfl)]
  change s.liability = s.liability - c.amount + c.amount
  omega

theorem complete {id : UInt64} {version : ℕ} {c : Campaign} {token : Address} {p : Payees}
    (h : Books escrow s) (hc : Complete env id version c token p s pools t s' pools' t') :
    Books escrow s' := by
  have hg := hc.initialized
  have hst := hc.active
  have hcamp := hc.campaign
  have hb := h.campaign id c hcamp
  have hver : version = 1 := hc.version.trans (hb.active hst).version
  obtain ⟨live, rfl⟩ := hc.post
  refine h.write hg rfl rfl (hb.complete hst) rfl rfl ?_ ?_
  · rw [hcamp, Table.weight_some, Campaign.owed, Campaign.owed, if_pos (.inr hst),
      if_neg (by simp [Campaign.isOpen]), add_zero]
    rfl
  · intro id' v
    by_cases hid : id' = id
    · subst hid hver
      by_cases hv : v = 1
      · subst hv; simp
      · have := h.consumed id' v
        simp only [hv, and_false, iff_false] at this
        simp [hv, this]
    · simp [hid, h.consumed]

theorem refund {id : UInt64} {c : Campaign} {token : Address} (h : Books escrow s)
    (hc : Refund env id c token s t s' t') : Books escrow s' := by
  have hg := hc.initialized
  have hst := hc.pending
  have hcamp := hc.campaign
  have hb := h.campaign id c hcamp
  have hnc := not_completed hcamp (by rcases hst with hst | hst <;> simp [hst])
  obtain ⟨live, rfl⟩ := hc.post
  refine h.write hg rfl rfl (hb.refund hst) rfl rfl ?_
    (h.consumed_of_not_completed hnc (by simp))
  have hopen : c.isOpen := hst.symm
  rw [hcamp, Table.weight_some, Campaign.owed, Campaign.owed, if_pos hopen,
    if_neg (by simp [Campaign.isOpen]), add_zero]
  rfl

/-- **Every successful call keeps the books.** -/
theorem effect {call : EscrowCall} (h : Books env.self s)
    (hc : Effect env s pools t s' pools' t' call) : Books env.self s' := by
  cases hc with
  | initializeEscrow hc _ _ => exact h.initializeEscrow hc
  | fund hc _ => exact h.fund hc
  | activate hc _ _ => exact h.activate hc
  | complete hc => exact h.complete hc
  | refundExpired hc _ => exact h.refund hc
  | other _ hc _ _ => exact h.same hc

end Books

end Escrow

end TogetherFi
