/-
  The exact effect of settlements.

  `Settled` is everything a `complete` changes in the three contracts and the
  tokens, for any coincidence of destinations.
-/
import TogetherFi.Escrow.Split
import TogetherFi.System.Provenance

namespace TogetherFi

open Function Outcome Escrow Pool

variable {D : Deployment}

/-! ## The effect of `complete` -/

/-- What the five legs of `total` bring to `y`. -/
def Escrow.Payees.receives (p : Payees) (total : ℤ) (y : Address) : ℤ :=
  (if p.creator = y then (split total).creator else 0) +
    (if p.treasury = y then (split total).service else 0) +
    (if p.nftPool = y then (split total).nft else 0) +
    (if p.revenuePool = y then (split total).revenue else 0) +
    (if p.referrer = y then (split total).referrer else 0)

theorem received_payouts_eq (token escrow : Address) (p : Payees) (total : ℤ) (y : Address) :
    received (payouts token escrow p total) token y = p.receives total y := by
  simp only [payouts, received_cons, received_nil, true_and, Payees.receives]
  omega

/-- The balances after the payouts of `total`, whatever destinations coincide. -/
theorem Tokens.After.payouts {t t' : Tokens} {token escrow : Address} {p : Payees} {total : ℤ}
    (h : t.After (payouts token escrow p total) t') (y : Address) :
    t'.balance token y =
      t.balance token y + p.receives total y - if y = escrow then total else 0 := by
  have hb := h.balance token y
  rw [received_payouts_eq] at hb
  split
  · rename_i hy
    rw [hb, hy, sent_payouts]
  · rename_i hy
    rw [hb, sent_payouts_of_ne hy]

theorem Tokens.After.payouts_other {t t' : Tokens} {token token' escrow : Address} {p : Payees}
    {total : ℤ} (h : t.After (Escrow.payouts token escrow p total) t') (hne : token' ≠ token)
    (y : Address) : t'.balance token' y = t.balance token' y := by
  rw [h.balance token' y]
  simp [Escrow.payouts, hne.symm]

/-- The pool `s` after the credit of `amount` for campaign `id`. -/
def CreditedTo (id : UInt64) (amount : ℤ) (s s' : PoolStorage) : Prop :=
  ∃ live, s' = { s with
    creditedCampaign := update s.creditedCampaign id (some true)
    totalCredited := some (s.credited + amount)
    live := live }

/-- Everything a `complete` of campaign `c` changes. -/
structure Settled (D : Deployment) (id : UInt64) (version : ℕ) (c : Campaign) (token : Address)
    (p : Payees) (w w' : World) : Prop where
  campaign : w.escrow.campaign id = some c
  paysIn : w.escrow.token = some token
  creator : p.creator = c.creator
  referrer : some p.referrer = c.referrer
  treasury : w.escrow.serviceTreasury = some p.treasury
  nftPool : w.escrow.nftPool = some p.nftPool
  revenuePool : w.escrow.revenuePool = some p.revenuePool
  balances : ∀ y, w'.tokens.balance token y =
    w.tokens.balance token y + p.receives c.amount y - if y = D.escrow then c.amount else 0
  otherTokens : ∀ token' ≠ token, ∀ y, w'.tokens.balance token' y = w.tokens.balance token' y
  escrow : ∃ live, w'.escrow = { w.escrow with
    campaign := update w.escrow.campaign id (some { c with status := .completed })
    consumedOperation := update w.escrow.consumedOperation id
      (update (w.escrow.consumedOperation id) version (some true))
    totalLiability := some (w.escrow.liability - c.amount)
    live := live }
  nft : CreditedTo id (split c.amount).nft (w.pools p.nftPool) (w'.pools p.nftPool)
  revenue : CreditedTo id (split c.amount).revenue (w.pools p.revenuePool) (w'.pools p.revenuePool)
  otherPools : ∀ q, q ≠ p.nftPool → q ≠ p.revenuePool → w'.pools q = w.pools q
  clock : w'.timestamp = w.timestamp ∧ w'.sequence = w.sequence

/-- **The exact effect of `complete`** in every reachable state, clawbacks and
    donations included. -/
theorem complete_effect (x : Execution D) {signers : Address → Bool} {foreign : Foreign}
    {id : UInt64} {version : ℕ} {w' : World}
    (hpools : ∀ q, x.final.escrow.nftPool = some q ∨ x.final.escrow.revenuePool = some q →
      D.isPool q = true)
    (h : D.step x.final (.escrow signers foreign (.complete id version)) = .ok w') :
    ∃ c token p, Settled D id version c token p x.final w' := by
  cases Deployment.step_effect h with
  | escrow h hw =>
    cases h with
    | @complete _ _ c token p hc =>
      obtain ⟨hnft, hrev, hother⟩ := hc.payOut.credited (x.escrow_books.pools_distinct hc)
      obtain ⟨_, -, -, hnft⟩ := hnft (hpools _ (.inl hc.payOut.nftPool))
      obtain ⟨_, -, -, hrev⟩ := hrev (hpools _ (.inr hc.payOut.revenuePool))
      subst hw
      exact ⟨c, token, p, hc.campaign, hc.paysIn, hc.creator, hc.referrer.symm, hc.payOut.treasury,
        hc.payOut.nftPool, hc.payOut.revenuePool, hc.payOut.transfers.payouts,
        fun _ hne y => hc.payOut.transfers.payouts_other hne y, hc.post, hnft.post, hrev.post, hother,
        rfl, rfl⟩
    | other hcall => cases hcall

theorem complete_effect_sample :
    ∃ (x : Execution Sample.deployment) (w' : World),
      Sample.deployment.step x.final (.escrow (fun _ => true) .silent (.complete 1 1)) = .ok w' ∧
      ∃ c token p, Settled Sample.deployment 1 1 c token p x.final w' := by
  let x : Execution Sample.deployment :=
    ⟨Sample.start, Sample.genesis, Sample.setup Sample.treasury ++ Sample.launch 1 10000⟩
  have hok : (Sample.deployment.step x.final
    (.escrow (fun _ => true) .silent (.complete 1 1))).toBool = true := by decide +kernel
  cases h : Sample.deployment.step x.final (.escrow (fun _ => true) .silent (.complete 1 1)) with
  | error e => rw [h] at hok; cases hok
  | ok w' =>
    refine ⟨x, w', h, complete_effect x ?_ h⟩
    rintro q (hq | hq)
    · obtain rfl : q = Sample.nftPool :=
        Option.some.inj (hq.symm.trans (by decide +kernel))
      decide
    · obtain rfl : q = Sample.revenuePool :=
        Option.some.inj (hq.symm.trans (by decide +kernel))
      decide

/-! ## What stays in the escrow -/

/-- A direct token transfer by an outside holder. -/
def Action.isTransfer : Action → Bool
  | .transfer .. => true
  | _ => false

/-- A call of `complete`. -/
def Action.isComplete : Action → Bool
  | .escrow _ _ (.complete ..) => true
  | _ => false

theorem Action.exists_complete {a : Action} (h : a.isComplete = true) :
    ∃ signers foreign id version, a = .escrow signers foreign (.complete id version) := by
  cases a with
  | escrow signers foreign call =>
    cases call with
    | complete id version => exact ⟨signers, foreign, id, version, rfl⟩
    | _ => cases h
  | pool | transfer | issuer | close => cases h

/-- The direct transfers of a history. -/
def donations (h : List D.Step) : List Transfer :=
  h.flatMap fun t => if t.act.isTransfer then t.transfers else []

/-- The payouts of the completed campaigns of a history. -/
def settlements (h : List D.Step) : List Transfer :=
  h.flatMap fun t => if t.act.isComplete then t.transfers else []

/-- No campaign is funded by the escrow itself, and no pool is the escrow. -/
structure Outside (escrow : Address) (s : EscrowStorage) : Prop where
  sponsor : ∀ id c, s.campaign id = some c → c.sponsor ≠ escrow
  nftPool : s.nftPool ≠ some escrow
  revenuePool : s.revenuePool ≠ some escrow

theorem clientEscrowContract_self {env : Env} {pools : Pools} {a : Address}
    (h : env.isPool env.self = false) : clientEscrowContract env pools env.self ≠ .ok a := by
  intro hc
  simp [clientEscrowContract, h, trapOr] at hc

theorem Outside.effect {w : World} {signers : Address → Bool} {foreign : Foreign} {call : EscrowCall}
    {s' : EscrowStorage} {pools' : Pools} {t' : Tokens} (h : Outside D.escrow w.escrow)
    (hc : Escrow.Effect (D.env w D.escrow signers foreign) w.escrow w.pools w.tokens s' pools' t'
      call) : Outside D.escrow s' := by
  -- writing a campaign of the same or an outside sponsor
  have hwrite : ∀ {id c} {s' : EscrowStorage},
      s'.campaign = update w.escrow.campaign id (some c) → c.sponsor ≠ D.escrow →
      s'.nftPool = w.escrow.nftPool → s'.revenuePool = w.escrow.revenuePool →
      Outside D.escrow s' := by
    intro id c s' hcamp hsp hn hr
    refine ⟨fun id' c' hc' => ?_, hn ▸ h.nftPool, hr ▸ h.revenuePool⟩
    rw [hcamp] at hc'
    by_cases hid : id' = id
    · subst hid
      obtain rfl : c = c' := by simpa using hc'
      exact hsp
    · exact h.sponsor id' c' (by simpa [hid] using hc')
  cases hc with
  | initializeEscrow hc _ _ =>
    have hself : (D.env w D.escrow signers foreign).isPool D.escrow = false := D.escrow_not_pool
    have hn := hc.nftEscrow
    have hr := hc.revenueEscrow
    obtain ⟨live, rfl⟩ := hc.post
    refine ⟨h.sponsor, ?_, ?_⟩
    · intro he
      rw [Option.some.inj he] at hn
      exact clientEscrowContract_self hself hn
    · intro he
      rw [Option.some.inj he] at hr
      exact clientEscrowContract_self hself hr
  | fund hc _ =>
    have hsp := Deployment.ne_escrow_of_authorized hc.sponsorAuth
    obtain ⟨live, rfl⟩ := hc.post
    exact hwrite rfl hsp rfl rfl
  | activate hc _ _ =>
    have hsp := h.sponsor _ _ hc.campaign
    obtain ⟨live, rfl⟩ := hc.post
    exact hwrite rfl hsp rfl rfl
  | complete hc =>
    have hsp := h.sponsor _ _ hc.campaign
    obtain ⟨live, rfl⟩ := hc.post
    exact hwrite rfl hsp rfl rfl
  | refundExpired hc _ =>
    have hsp := h.sponsor _ _ hc.campaign
    obtain ⟨live, rfl⟩ := hc.post
    exact hwrite rfl hsp rfl rfl
  | other _ hc _ _ =>
    refine ⟨?_, hc.nftPool ▸ h.nftPool, hc.revenuePool ▸ h.revenuePool⟩
    rw [hc.campaign]; exact h.sponsor

theorem Execution.outside (x : Execution D) : Outside D.escrow x.final.escrow := by
  refine invariant (I := fun w => Outside D.escrow w.escrow) (fun w hw => ?_)
    (fun y a w' h hI => ?_) x
  · obtain ⟨live, he⟩ := hw.escrow
    rw [he]
    exact ⟨fun id c hc => (by cases hc), by simp [EscrowStorage.empty], by simp [EscrowStorage.empty]⟩
  · cases h with
    | escrow h hw => subst hw; exact hI.effect h
    | pool _ _ hw | transfer _ _ _ hw | issuer _ hw | close _ hw => subst hw; exact hI

/-- **What an action moves into and out of the escrow**: the change of the
    liability, and on top what direct transfers and settlements bring to it. -/
theorem Effect.escrow_flow {w w' : World} {a : Action} {token : Address} (h : Effect D w w' a)
    (ha : a.isIssuer = false) (hb : Escrow.Books D.escrow w.escrow) (ho : Outside D.escrow w.escrow)
    (htoken : w.escrow.governance = none ∨ w.escrow.token = some token) :
    ∃ ts, w.tokens.After ts w'.tokens ∧ received ts token D.escrow - sent ts token D.escrow =
      w'.escrow.liability - w.escrow.liability +
        (if a.isTransfer || a.isComplete then received ts token D.escrow else 0) := by
  -- an initialized escrow has this token
  have htok : ∀ {tok}, w.escrow.governance.isSome → w.escrow.token = some tok → tok = token := by
    intro tok hg ht
    rcases htoken with hn | ht'
    · rw [hn] at hg; cases hg
    · exact Option.some.inj (ht.symm.trans ht')
  cases h with
  | @escrow _ _ call _ _ _ h hw =>
    cases h with
    | initializeEscrow hc hpools ht =>
      obtain ⟨live₀, he⟩ := hb.fresh hc.fresh
      obtain ⟨live, hs⟩ := hc.post
      refine ⟨[], by rw [hw, ht]; exact .refl _, ?_⟩
      simp [hw, hs, EscrowStorage.liability, he.liability, EscrowStorage.empty]
    | @fund _ sponsor amount tok hc _ =>
      obtain rfl := htok hc.initialized hc.paysIn
      have hne : sponsor ≠ D.escrow := Deployment.ne_escrow_of_authorized hc.sponsorAuth
      obtain ⟨live, hs⟩ := hc.post
      refine ⟨_, by rw [hw]; exact hc.transfer, ?_⟩
      simp [hw, hs, EscrowStorage.liability, hne, Action.isTransfer, Action.isComplete]
    | activate hc _ ht =>
      obtain ⟨live, hs⟩ := hc.post
      refine ⟨[], by rw [hw, ht]; exact .refl _, ?_⟩
      simp [hw, hs, EscrowStorage.liability]
    | complete hc =>
      obtain rfl := htok hc.initialized hc.paysIn
      obtain ⟨live, hs⟩ := hc.post
      refine ⟨_, by rw [hw]; exact hc.payOut.transfers, ?_⟩
      simp only [Deployment.env_self, sent_payouts, hw, hs, Action.isComplete, Bool.or_true, if_true]
      change _ = w.escrow.liability - _ - w.escrow.liability + _
      omega
    | @refundExpired _ c tok hc _ =>
      obtain rfl := htok hc.initialized hc.paysIn
      have hne := ho.sponsor _ _ hc.campaign
      obtain ⟨live, hs⟩ := hc.post
      refine ⟨_, by rw [hw]; exact hc.transfer, ?_⟩
      simp [hw, hs, EscrowStorage.liability, hne, Action.isTransfer, Action.isComplete]
    | other hcall hc _ ht =>
      refine ⟨[], by rw [hw, ht]; exact .refl _, ?_⟩
      simp [hw, EscrowStorage.liability, hc.liability]
  | @pool p _ _ _ _ hp h hw =>
    have hne := Deployment.ne_escrow_of_isPool hp
    cases h with
    | claim hc =>
      have hrec := Deployment.ne_escrow_of_authorized hc.recipient
      refine ⟨_, by rw [hw]; exact hc.transfer, ?_⟩
      simp [hw, hne, hrec]
    | initializePool _ ht | recordCredit _ ht | publishManifest _ ht | expireManifest _ ht
      | other _ _ ht => exact ⟨[], by rw [hw, ht]; exact .refl _, by simp [hw]⟩
  | @transfer _ src _ _ _ hsrc _ ht hw =>
    have hne : src ≠ D.escrow := by
      rintro rfl
      rw [Deployment.isSystem_escrow] at hsrc; cases hsrc
    exact ⟨_, by rw [hw]; exact ht, by simp [hw, hne, Action.isTransfer]⟩
  | issuer => cases ha
  | close _ hw => exact ⟨[], by rw [hw]; exact .refl _, by simp [hw]⟩

theorem received_flatMap (f : D.Step → List Transfer) (h : List D.Step) (t : D.Step)
    (token a : Address) : received ((h ++ [t]).flatMap f) token a =
      received (h.flatMap f) token a + received (f t) token a := by
  rw [List.flatMap_append, received_append, List.flatMap_singleton]

/-- **The balance of the escrow**: what it owes, what was given to it directly, and
    what settlements paid to its own address. -/
theorem Execution.escrow_holds (x : Execution D) (hx : x.NoClawback) {token : Address}
    (htoken : x.final.escrow.governance = none ∨ x.final.escrow.token = some token) :
    x.final.tokens.balance token D.escrow = x.final.escrow.liability +
      received (donations x.history) token D.escrow +
      received (settlements x.history) token D.escrow := by
  refine induction (A := fun a => a.isIssuer = false) (P := fun h w =>
    w.escrow.governance = none ∨ w.escrow.token = some token → w.tokens.balance token D.escrow =
      w.escrow.liability + received (donations h) token D.escrow +
        received (settlements h) token D.escrow)
    (fun w hw _ => ?_) (fun y t hy hok hpre hP htoken => ?_) x hx htoken
  · obtain ⟨live, he⟩ := hw.escrow
    have hz := hw.balance token D.escrow Deployment.isSystem_escrow
    simp [hz, he, EscrowStorage.liability, EscrowStorage.empty, donations, settlements]
  · -- the token was there before the step, or nothing was initialized
    have htoken₀ : t.pre.escrow.governance = none ∨ t.pre.escrow.token = some token := by
      by_cases hg : t.pre.escrow.governance = none
      · exact .inl hg
      · obtain ⟨hg', hb⟩ := t.effect.escrow_bindings (Option.isSome_iff_ne_none.2 hg)
        refine .inr ((congrArg Bindings.token hb).symm.trans (htoken.resolve_left ?_))
        intro hn
        rw [hn] at hg'; cases hg'
    have hP := hP htoken₀
    obtain ⟨ts, hts, heq⟩ := t.effect.escrow_flow hok (hpre ▸ y.escrow_books)
      (hpre ▸ y.outside) htoken₀
    have hb := hts.balance token D.escrow
    have htr := t.transfers_eq hts
    rw [donations, settlements, received_flatMap, received_flatMap, ← donations, ← settlements, hb, hP,
      htr]
    cases h₁ : t.act.isTransfer <;> cases h₂ : t.act.isComplete <;> simp [h₁, h₂] at heq ⊢
    · omega
    · omega
    · omega
    · cases ha : t.act <;> simp [ha, Action.isTransfer, Action.isComplete] at h₁ h₂

/-- The destinations the sponsor and `initialize` chose are not the escrow. -/
structure PaysOutside (escrow : Address) (s : EscrowStorage) (c : Campaign) : Prop where
  creator : c.creator ≠ escrow
  referrer : c.referrer ≠ some escrow
  treasury : s.serviceTreasury ≠ some escrow

/-- The payouts of a fundable amount bring something exactly to their destinations. -/
theorem Escrow.Payees.receives_nonneg {p : Payees} {total : ℤ} (h : Fundable total) {y : Address}
    (hn : p.nftPool ≠ y) (hr : p.revenuePool ≠ y) : 0 ≤ p.receives total y ∧
      (p.receives total y = 0 ↔ p.creator ≠ y ∧ p.referrer ≠ y ∧ p.treasury ≠ y) := by
  obtain ⟨h₁, h₂, -, -, h₅⟩ := h.exact.positive
  simp only [Payees.receives, hn, hr, if_false]
  by_cases hc : p.creator = y <;> by_cases ht : p.treasury = y <;> by_cases hf : p.referrer = y <;>
    simp [hc, ht, hf] <;> omega

/-- What was received in a history is nothing exactly if no step brought anything. -/
theorem received_eq_zero {f : D.Step → List Transfer} {token a : Address} : ∀ {h : List D.Step},
    (∀ t ∈ h, 0 ≤ received (f t) token a) → 0 ≤ received (h.flatMap f) token a ∧
      (received (h.flatMap f) token a = 0 ↔ ∀ t ∈ h, received (f t) token a = 0)
  | [], _ => by simp
  | t :: h, hpos => by
    have h₁ := hpos t (by simp)
    obtain ⟨h₂, ih⟩ := received_eq_zero (f := f) fun u hu => hpos u (List.mem_cons_of_mem t hu)
    rw [List.flatMap_cons, received_append, List.forall_mem_cons, ← ih]
    omega

theorem Execution.token_then {x y : Execution D} (hp : y.history <+: x.history) {token : Address}
    (h : y.final.escrow.token = some token) : x.final.escrow.token = some token := by
  have hy := congrArg Bindings.token y.endpoints
  have hx := congrArg Bindings.token x.endpoints
  cases hg : given Action.endpoints y.history with
  | none => rw [hg] at hy; cases h.symm.trans hy
  | some e =>
    rw [hg] at hy
    rw [given_mono hp hg] at hx
    exact hx.trans (hy.symm.trans h)

section
variable {x : Execution D} {t : D.Step} {signers : Address → Bool} {foreign : Foreign} {id : UInt64}
  {token : Address}

/-- **What a `complete` takes from the escrow**: the amount, less the legs that go
    to the escrow itself. -/
theorem Execution.completed_step (ht : t ∈ x.history) {version : ℕ}
    (ha : t.act = .escrow signers foreign (.complete id version))
    (htoken : x.final.escrow.token = some token) :
    ∃ c, t.pre.escrow.campaign id = some c ∧ 0 ≤ received t.transfers token D.escrow ∧
      t.post.tokens.balance token D.escrow = t.pre.tokens.balance token D.escrow - c.amount +
        received t.transfers token D.escrow ∧
      (received t.transfers token D.escrow = 0 ↔ PaysOutside D.escrow t.pre.escrow c) := by
  obtain ⟨y, hy, hp, -⟩ := exists_prefix ht
  have h := t.effect
  rw [ha] at h
  cases h with
  | escrow h hw =>
    cases h with
    | @complete _ _ c tok p hc =>
      have hpaid : t.pre.tokens.After (payouts tok D.escrow p c.amount) t.post.tokens := by
        rw [hw]; exact hc.payOut.transfers
      have hout := hy ▸ y.outside
      have hbooks : Escrow.Books D.escrow t.pre.escrow := hy ▸ y.escrow_books
      have hfund := hbooks.campaign id c hc.campaign
      have htok : t.pre.escrow.token = some tok := hc.paysIn
      obtain rfl : tok = token := by
        rw [← hy] at htok
        exact Option.some.inj ((token_then hp htok).symm.trans htoken)
      have hn : p.nftPool ≠ D.escrow := by
        rintro he
        exact hout.nftPool (hc.payOut.nftPool.trans (congrArg some he))
      have hr : p.revenuePool ≠ D.escrow := by
        rintro he
        exact hout.revenuePool (hc.payOut.revenuePool.trans (congrArg some he))
      obtain ⟨hpos, hzero⟩ := Payees.receives_nonneg ⟨hfund.minimum, hfund.maximum⟩ hn hr
      have hb := hpaid.payouts D.escrow
      rw [if_pos rfl] at hb
      rw [t.transfers_eq hpaid, received_payouts_eq]
      refine ⟨c, hc.campaign, hpos, by omega, hzero.trans ?_⟩
      rw [← hc.creator.symm]
      constructor
      · rintro ⟨h₁, h₂, h₃⟩
        refine ⟨hc.creator ▸ h₁, ?_, ?_⟩
        · rw [hc.referrer]; simpa using h₂
        · rw [hc.payOut.treasury]; simpa using h₃
      · rintro ⟨h₁, h₂, h₃⟩
        refine ⟨hc.creator.symm ▸ h₁, ?_, ?_⟩
        · rw [hc.referrer] at h₂; simpa using h₂
        · rw [hc.payOut.treasury] at h₃; simpa using h₃
    | other hcall => cases hcall

theorem Execution.refunded_step (ht : t ∈ x.history)
    (ha : t.act = .escrow signers foreign (.refundExpired id))
    (htoken : x.final.escrow.token = some token) :
    ∃ c, t.pre.escrow.campaign id = some c ∧
      t.post.tokens.balance token D.escrow = t.pre.tokens.balance token D.escrow - c.amount := by
  obtain ⟨y, hy, hp, -⟩ := exists_prefix ht
  have h := t.effect
  rw [ha] at h
  cases h with
  | escrow h hw =>
    cases h with
    | @refundExpired _ c tok hc _ =>
      have hsp := (hy ▸ y.outside : Outside D.escrow t.pre.escrow).sponsor id c hc.campaign
      have htok : t.pre.escrow.token = some tok := hc.paysIn
      obtain rfl : tok = token := by
        rw [← hy] at htok
        exact Option.some.inj ((token_then hp htok).symm.trans htoken)
      have hb := hc.transfer.balance tok D.escrow
      simp [hsp] at hb
      rw [hw]
      exact ⟨c, hc.campaign, by omega⟩
    | other hcall => cases hcall

/-- **Settlements bring the escrow nothing** exactly if no completed campaign names
    it as a destination. -/
theorem Execution.settlements_eq_zero (x : Execution D)
    (htoken : x.final.escrow.token = some token) :
    0 ≤ received (settlements x.history) token D.escrow ∧
    (received (settlements x.history) token D.escrow = 0 ↔
      ∀ t ∈ x.history, ∀ signers foreign id version c,
        t.act = .escrow signers foreign (.complete id version) →
        t.pre.escrow.campaign id = some c → PaysOutside D.escrow t.pre.escrow c) := by
  have hstep : ∀ t ∈ x.history,
      0 ≤ received (if t.act.isComplete then t.transfers else []) token D.escrow := by
    intro t ht
    split
    · rename_i hc
      obtain ⟨_, _, _, _, ha⟩ := Action.exists_complete hc
      obtain ⟨_, -, hpos, -⟩ := completed_step ht ha htoken
      exact hpos
    · simp
  obtain ⟨hpos, hzero⟩ := received_eq_zero hstep
  refine ⟨hpos, hzero.trans ?_⟩
  constructor
  · intro h t ht signers foreign id version c ha hc
    obtain ⟨c', hc', -, -, hiff⟩ := completed_step ht ha htoken
    obtain rfl := Option.some.inj (hc.symm.trans hc')
    refine hiff.1 ?_
    simpa [ha, Action.isComplete] using h t ht
  · intro h t ht
    split
    · rename_i hc
      obtain ⟨signers, foreign, id, version, ha⟩ := Action.exists_complete hc
      obtain ⟨c, hc, -, -, hiff⟩ := completed_step ht ha htoken
      exact hiff.2 (h t ht signers foreign id version c ha hc)
    · simp

end

/-- **What stays in the escrow.**  Its balance is the liability, the direct
    transfers into it, and what settlements paid to its own address; this last
    part is nothing exactly if no completed campaign names the escrow as creator,
    referrer or treasury. -/
theorem escrow_balance (x : Execution D) (hx : x.NoClawback) {token : Address}
    (htoken : x.final.escrow.token = some token) :
    let r := received (settlements x.history) token D.escrow
    x.final.tokens.balance token D.escrow =
      x.final.escrow.liability + received (donations x.history) token D.escrow + r ∧
    0 ≤ r ∧
    (r = 0 ↔ ∀ t ∈ x.history, ∀ signers foreign id version c,
      t.act = .escrow signers foreign (.complete id version) →
      t.pre.escrow.campaign id = some c → PaysOutside D.escrow t.pre.escrow c) ∧
    (∀ t ∈ x.history, ∀ signers foreign id version,
      t.act = .escrow signers foreign (.complete id version) →
      ∃ c, t.pre.escrow.campaign id = some c ∧
        t.post.tokens.balance token D.escrow = t.pre.tokens.balance token D.escrow - c.amount +
          received t.transfers token D.escrow ∧
        (received t.transfers token D.escrow = 0 ↔ PaysOutside D.escrow t.pre.escrow c)) ∧
    ∀ t ∈ x.history, ∀ signers foreign id,
      t.act = .escrow signers foreign (.refundExpired id) →
      ∃ c, t.pre.escrow.campaign id = some c ∧
        t.post.tokens.balance token D.escrow = t.pre.tokens.balance token D.escrow - c.amount := by
  intro r
  obtain ⟨hpos, hzero⟩ := x.settlements_eq_zero htoken
  refine ⟨x.escrow_holds hx (.inr htoken), hpos, hzero, ?_, ?_⟩
  · intro t ht signers foreign id version ha
    obtain ⟨c, hc, -, h⟩ := Execution.completed_step ht ha htoken
    exact ⟨c, hc, h⟩
  · intro t ht signers foreign id ha
    exact Execution.refunded_step ht ha htoken

theorem escrow_balance_sample :
    Sample.execution.final.tokens.balance Sample.asset Sample.escrow = 5700 + 0 +
      received (settlements Sample.execution.history) Sample.asset Sample.escrow := by
  have h := escrow_balance Sample.execution Sample.execution_noClawback
    (show Sample.execution.final.escrow.token = some Sample.asset by decide +kernel)
  exact h.1.trans (by decide +kernel)

/-- One campaign completed under a treasury that is the escrow itself. -/
def Sample.ownTreasury : Execution Sample.deployment where
  start := Sample.start
  genesis := Sample.genesis
  actions := Sample.setup Sample.escrow ++ Sample.launch 1 10000 ++
    [.escrow (fun _ => true) .silent (.complete 1 1)]

/-- A treasury that is the escrow itself keeps its share of every campaign there. -/
theorem escrow_balance_not_exact : ∃ (x : Execution Sample.deployment) (token : Address),
    x.NoClawback ∧ x.final.escrow.token = some token ∧
    x.final.tokens.balance token Sample.escrow ≠
      x.final.escrow.liability + received (donations x.history) token Sample.escrow := by
  refine ⟨Sample.ownTreasury, Sample.asset, ?_, ?_, ?_⟩
  · show ∀ a ∈ Sample.ownTreasury.actions, Action.isIssuer a = false
    decide
  · decide +kernel
  · decide +kernel

end TogetherFi
