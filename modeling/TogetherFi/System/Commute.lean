/-
  Calls for different campaigns commute.

  The calls share the liability, the balance of the escrow and the pools, and
  each looks at what the other changes.  But in a solvent system whose credits
  still fit, none of these looks decides anything: a call is rejected only by
  the checks on its own campaign, and otherwise carries out its plan
  (`Ready.next_eq`).
-/
import TogetherFi.Escrow.Advance
import TogetherFi.System.Liveness

namespace TogetherFi

open Outcome Function Escrow Pool

variable {D : Deployment}

/-! ## What was ever funded -/

/-- The amount a call funds a campaign with. -/
def Escrow.EscrowCall.funds : EscrowCall → ℤ
  | .fund _ _ amount => amount
  | _ => 0

/-- What an action funds. -/
def Action.funds : Action → ℤ
  | .escrow _ _ call => call.funds
  | _ => 0

/-- The total ever funded. -/
def funded (h : List D.Step) : ℤ := (h.map fun t => t.act.funds).sum

theorem Escrow.CampaignCall.funds_call (k : CampaignCall) (id : UInt64) : (k.call id).funds = 0 := by
  cases k <;> rfl

theorem Escrow.Effect.funds {env : Env} {s s' : EscrowStorage} {pools pools' : Pools} {t t' : Tokens}
    {call : EscrowCall} (h : Escrow.Effect env s pools t s' pools' t' call) :
    Table.total Campaign.amount s'.campaign = Table.total Campaign.amount s.campaign + call.funds := by
  have hsame : ∀ {id : UInt64} {c c' : Campaign}, s'.campaign = update s.campaign id (some c') →
      s.campaign id = some c → c'.amount = c.amount →
      Table.total Campaign.amount s'.campaign = Table.total Campaign.amount s.campaign + 0 := by
    intro id c c' hs hc hamount
    rw [hs, Table.total_update, hc, Table.weight_some, Table.weight_some, hamount]
    omega
  cases h with
  | initializeEscrow h _ _ =>
    obtain ⟨_, hs⟩ := h.post
    rw [hs]
    exact (add_zero _).symm
  | @fund id sponsor amount _ h _ =>
    obtain ⟨_, hs⟩ := h.post
    have hcamp : s'.campaign = update s.campaign id (some (newCampaign env sponsor amount)) := by
      rw [hs]
    rw [hcamp, Table.total_update, h.newId, Table.weight_none, Table.weight_some, sub_zero]
    rfl
  | activate h _ _ =>
    obtain ⟨_, hs⟩ := h.post
    exact hsame (congrArg EscrowStorage.campaign hs) h.campaign rfl
  | complete h =>
    obtain ⟨_, hs⟩ := h.post
    exact hsame (congrArg EscrowStorage.campaign hs) h.campaign rfl
  | refundExpired h _ =>
    obtain ⟨_, hs⟩ := h.post
    exact hsame (congrArg EscrowStorage.campaign hs) h.campaign rfl
  | other hcall h _ _ =>
    have hzero : call.funds = 0 := by
      cases call <;> first | rfl | cases hcall
    rw [h.campaign, hzero, add_zero]

theorem Effect.funds {w w' : World} {a : Action} (h : Effect D w w' a) :
    Table.total Campaign.amount w'.escrow.campaign =
      Table.total Campaign.amount w.escrow.campaign + a.funds := by
  cases h with
  | escrow h hw =>
    subst hw
    exact h.funds
  | pool _ _ hw | transfer _ _ _ hw | issuer _ hw | close _ hw =>
    subst hw
    exact (add_zero _).symm

theorem Execution.funded_eq (x : Execution D) :
    funded x.history = Table.total Campaign.amount x.final.escrow.campaign := by
  refine x.induction (A := fun _ => True)
    (P := fun h w => funded h = Table.total Campaign.amount w.escrow.campaign) ?_ ?_ fun _ _ => trivial
  · intro w hw
    obtain ⟨_, he⟩ := hw.escrow
    rw [he]
    exact (Table.total_empty _).symm
  · intro y t _ _ _ hP
    rw [t.effect.funds, ← hP]
    simp [funded]

theorem Escrow.EscrowStorage.rateOf_le (s : EscrowStorage) (q : Address) : s.rateOf q ≤ denom := by
  unfold EscrowStorage.rateOf
  split_ifs <;> decide

/-- **While all that was ever funded fits**, the next credit of a pool does. -/
theorem Execution.credit_room (x : Execution D) (hfit : funded x.history ≤ i128Max)
    {q token : Address} {id : UInt64} {c : Campaign} (hq : D.isPool q = true)
    (hb : BoundTo token D.escrow (x.final.pools q)) (hc : x.final.escrow.campaign id = some c)
    (hst : c.status = .active) :
    (x.final.pools q).credited + share c.amount (x.final.escrow.rateOf q) ≤ i128Max := by
  have hbooks := x.escrow_books
  have h₀ := x.final.escrow.rateOf_nonneg q
  have hshare : ∀ c : Campaign, 0 ≤ c.amount →
      c.amount * x.final.escrow.rateOf q / denom ≤ c.amount := by
    intro c hpos
    refine Int.ediv_le_of_le_mul (by decide) ?_
    exact Int.mul_le_mul_of_nonneg_left (x.final.escrow.rateOf_le q) hpos
  have hpos := (hbooks.campaign id c hc).amount_pos.le
  have hle := Table.weight_le_total
    (g := fun c => c.amount - c.credit (x.final.escrow.rateOf q)) (f := x.final.escrow.campaign)
    (fun id' c' hc' => by
      have hpos' := (hbooks.campaign id' c' hc').amount_pos
      have := hshare c' hpos'.le
      unfold Campaign.credit
      split <;> omega) id
  rw [hc, Table.weight_some, Table.total_sub, ← x.funded_eq, Campaign.credit,
    if_neg (by simp [hst])] at hle
  have htotal := (x.credits_agree q hq (.inr hb)).total
  have := hshare c hpos
  rw [share_eq_ediv hpos h₀, htotal]
  omega

/-! ## The plans of a reachable state -/

/-- A solvent state in which every call can carry out its plan: all that was
    ever funded fits, and the destinations of an initialized escrow are pools. -/
structure Execution.Ready (p : Parties) (x : Execution D) : Prop where
  noClawback : x.NoClawback
  fits : funded x.history ≤ i128Max
  escrow : p.escrow = D.escrow
  bindings : x.final.escrow.governance.isSome → x.final.escrow.bindings = p.bindings
  nftPool : x.final.escrow.governance.isSome → D.isPool p.nftPool = true
  revenuePool : x.final.escrow.governance.isSome → D.isPool p.revenuePool = true

/-- The call of campaign `id`. -/
def Action.campaign (signers : Address → Bool) (foreign : Foreign) (id : UInt64)
    (k : CampaignCall) : Action :=
  .escrow signers foreign (k.call id)

/-- What the call of campaign `id` does in the state `w`. -/
def World.planned (D : Deployment) (p : Parties) (signers : Address → Bool) (foreign : Foreign)
    (id : UInt64) (k : CampaignCall) (w : World) : Plan :=
  k.planned p (D.env w D.escrow signers foreign) id w.escrow

/-- The error of the checks of campaign `id` in the state `w`. -/
def World.checkFault (D : Deployment) (signers : Address → Bool) (foreign : Foreign) (id : UInt64)
    (k : CampaignCall) (w : World) : Option Rejected :=
  match k.check (D.env w D.escrow signers foreign) id w.escrow with
  | .ok _ => none
  | .error e => some (.escrow e)

/-- The state after the plan `v` for campaign `id`, with the tokens `t`. -/
def World.carriedOut (w : World) (id : UInt64) (v : Plan) (t : Tokens) : World :=
  { w with
    escrow := v.storage w.sequence id w.escrow
    pools := v.creditAll w.sequence id w.pools
    tokens := t }

namespace Execution.Ready

variable {p : Parties} {x : Execution D} {signers : Address → Bool} {foreign : Foreign} {id : UInt64}
  {c : Campaign} {k : CampaignCall}

/-- **A call whose checks pass succeeds.** -/
theorem succeeds (h : x.Ready p)
    (hcheck : k.check (D.env x.final D.escrow signers foreign) id x.final.escrow = .ok c) :
    ∃ r, (k.call id).exec (D.env x.final D.escrow signers foreign) x.final.escrow x.final.pools
      x.final.tokens = .ok r := by
  have hbooks := x.escrow_books
  obtain ⟨hg, hc, hok⟩ := CampaignCall.check_ok hcheck
  have hbind := h.bindings hg
  simp only [EscrowStorage.bindings, Parties.bindings, Bindings.mk.injEq] at hbind
  obtain ⟨htoken, -, hnft, hrev⟩ := hbind
  cases k with
  | activate creator referrer terms =>
    obtain ⟨hrun, hterms, href, hst, hauth⟩ := hok
    obtain ⟨s', ha⟩ : ∃ s', activate (D.env x.final D.escrow signers foreign) id creator referrer terms
        x.final.escrow = .ok s' := activate_succeeds hg hrun hterms href hc hst hauth
    exact ⟨_, pair_eq_ok.2 ⟨ha, rfl⟩⟩
  | complete version =>
    obtain ⟨hrun, ⟨settlement, hsettle, hauth⟩, hst, rfl, htime⟩ := hok
    obtain ⟨tok, tr, hb⟩ := x.bound_pools hnft hrev
    have hpn := h.nftPool hg
    have hpr := h.revenuePool hg
    have hroomn := x.credit_room h.fits hpn (hb.nft hpn) hc hst
    have hroomr := x.credit_room h.fits hpr (hb.revenue hpr) hc hst
    rw [EscrowStorage.rateOf, if_pos hnft] at hroomn
    rw [EscrowStorage.rateOf, if_neg (by rw [hnft]; simpa using hb.distinct), if_pos hrev] at hroomr
    exact x.can_complete h.noClawback hc hst hrun hnft hrev hsettle hpn hpr hroomn hroomr rfl rfl htime
      hauth
  | refundExpired =>
    obtain ⟨hopen, hlate⟩ := hok
    obtain ⟨s', t', hr⟩ := refundExpired_succeeds hg hc hopen hlate htoken
      (hbooks.campaign id c hc).amount_pos.le (hbooks.amount_le hc hopen.symm)
      (x.escrow_solvent h.noClawback _ htoken)
    refine ⟨(s', x.final.pools, t'), ?_⟩
    rw [CampaignCall.call, EscrowCall.exec, hr]
    rfl

/-- **A call is rejected only by its checks.** -/
theorem rejection_eq (h : x.Ready p) (signers : Address → Bool) (foreign : Foreign) (id : UInt64)
    (k : CampaignCall) :
    D.machine.rejection x.final (.campaign signers foreign id k) =
      x.final.checkFault D signers foreign id k := by
  unfold World.checkFault
  cases hcheck : k.check (D.env x.final D.escrow signers foreign) id x.final.escrow with
  | ok c =>
    obtain ⟨⟨s', pools', t'⟩, hr⟩ := h.succeeds hcheck
    exact Machine.rejection_ok (Deployment.step_escrow hr)
  | error e =>
    exact Machine.rejection_error
      (Deployment.step_escrow_error (CampaignCall.error_of_check hcheck))

/-- **A call carries out its plan.** -/
theorem next_eq (h : x.Ready p) (signers : Address → Bool) (foreign : Foreign) (id : UInt64)
    (k : CampaignCall) :
    ∃ t, D.machine.next x.final (.campaign signers foreign id k) =
        x.final.carriedOut id (x.final.planned D p signers foreign id k) t ∧
      x.final.tokens.After (x.final.planned D p signers foreign id k).transfers t := by
  unfold World.planned CampaignCall.planned
  cases hcheck : k.check (D.env x.final D.escrow signers foreign) id x.final.escrow with
  | ok c =>
    obtain ⟨⟨s', pools', t'⟩, hr⟩ := h.succeeds hcheck
    have hg := (CampaignCall.check_ok hcheck).1
    have hp : p.Serve (D.env x.final D.escrow signers foreign) x.final.escrow :=
      ⟨h.escrow.symm, h.bindings hg, h.nftPool hg, h.revenuePool hg⟩
    obtain ⟨rfl, rfl, htr⟩ := CampaignCall.carries_out hp hcheck hr
    exact ⟨t', Machine.next_ok (Deployment.step_escrow hr), htr⟩
  | error e =>
    refine ⟨x.final.tokens, ?_, .refl _⟩
    rw [Machine.next_error (Deployment.step_escrow_error (CampaignCall.error_of_check hcheck))]
    unfold World.carriedOut
    rw [Plan.storage_idle]
    rfl

theorem after (h : x.Ready p) (signers : Address → Bool) (foreign : Foreign) (id : UInt64)
    (k : CampaignCall) : (x.after [.campaign signers foreign id k]).Ready p := by
  obtain ⟨t, hnext, -⟩ := h.next_eq signers foreign id k
  have hfinal : (x.after [.campaign signers foreign id k]).final =
      x.final.carriedOut id (x.final.planned D p signers foreign id k) t := by
    rw [Execution.after_final, Machine.run_cons, hnext, Machine.run_nil]
  have hclawback : ∀ a ∈ x.actions ++ [.campaign signers foreign id k], a.isIssuer = false := by
    intro a ha
    rcases List.mem_append.1 ha with ha | ha
    · exact h.noClawback a ha
    · rw [List.mem_singleton.1 ha]; rfl
  have hfunded : funded (x.after [.campaign signers foreign id k]).history = funded x.history := by
    unfold funded Execution.history Execution.after
    rw [Machine.trace_append, List.map_append, List.sum_append]
    refine add_eq_left.2 (List.sum_eq_zero fun n hn => ?_)
    obtain ⟨u, hu, rfl⟩ := List.mem_map.1 hn
    obtain ⟨bs, cs, hact, -, -⟩ := Machine.mem_trace hu
    have hact : u.act = .campaign signers foreign id k := by
      have hmem : u.act ∈ [Action.campaign signers foreign id k] := by rw [hact]; simp
      exact List.mem_singleton.1 hmem
    rw [hact]
    exact k.funds_call id
  refine ⟨hclawback, hfunded.trans_le h.fits, h.escrow, ?_, ?_, ?_⟩ <;> rw [hfinal]
  · exact h.bindings
  · exact h.nftPool
  · exact h.revenuePool

/-- **The second of two calls does what it would have done first.** -/
theorem second_eq (h : x.Ready p) {id' : UInt64} (hne : id' ≠ id) (signers signers' : Address → Bool)
    (foreign foreign' : Foreign) (k k' : CampaignCall) :
    let v := x.final.planned D p signers foreign id k
    let v' := x.final.planned D p signers' foreign' id' k'
    let w := D.machine.next x.final (.campaign signers foreign id k)
    D.machine.rejection w (.campaign signers' foreign' id' k') =
        D.machine.rejection x.final (.campaign signers' foreign' id' k') ∧
      ∃ t₁ t, D.machine.next w (.campaign signers' foreign' id' k') =
          (x.final.carriedOut id v t₁).carriedOut id' v' t ∧
        x.final.tokens.After (v.transfers ++ v'.transfers) t := by
  intro v v' w
  have hy := h.after signers foreign id k
  obtain ⟨t₁, hnext, htr₁⟩ := h.next_eq signers foreign id k
  have hfinal : (x.after [.campaign signers foreign id k]).final = x.final.carriedOut id v t₁ := by
    rw [Execution.after_final, Machine.run_cons, hnext, Machine.run_nil]
  have hcheck : k'.check (D.env (x.final.carriedOut id v t₁) D.escrow signers' foreign') id'
      (x.final.carriedOut id v t₁).escrow =
      k'.check (D.env x.final D.escrow signers' foreign') id' x.final.escrow :=
    CampaignCall.check_congr (v.storage_same x.final.sequence hne x.final.escrow) k'
  have hplanned : (x.final.carriedOut id v t₁).planned D p signers' foreign' id' k' = v' := by
    unfold v' World.planned CampaignCall.planned
    rw [hcheck]
  obtain ⟨t, hnext', htr⟩ := hy.next_eq signers' foreign' id' k'
  have hreject := hy.rejection_eq signers' foreign' id' k'
  rw [hfinal] at hnext' htr hreject
  rw [hplanned] at hnext' htr
  unfold w
  rw [hnext]
  refine ⟨?_, t₁, t, hnext', htr₁.trans htr⟩
  rw [hreject, h.rejection_eq]
  unfold World.checkFault
  rw [hcheck]

end Execution.Ready

theorem Execution.exists_ready (x : Execution D) (hx : x.NoClawback)
    (hfits : funded x.history ≤ i128Max)
    (hpools : ∀ q, x.final.escrow.nftPool = some q ∨ x.final.escrow.revenuePool = some q →
      D.isPool q = true) : ∃ p, x.Ready p := by
  by_cases hg : x.final.escrow.governance.isSome
  · obtain ⟨tok, tr, nft, rev, hb⟩ := x.bound hg
    have hbind := hb.bindings
    simp only [EscrowStorage.bindings, Bindings.mk.injEq] at hbind
    exact ⟨⟨D.escrow, tok, tr, nft, rev⟩, hx, hfits, rfl, fun _ => hb.bindings,
      fun _ => hpools nft (.inl hbind.2.2.1), fun _ => hpools rev (.inr hbind.2.2.2)⟩
  · exact ⟨⟨D.escrow, D.escrow, D.escrow, D.escrow, D.escrow⟩, hx, hfits, rfl, fun h => absurd h hg,
      fun h => absurd h hg, fun h => absurd h hg⟩

/-- **Calls for different campaigns commute.**  In either order each has the same
    result, and the storages of all contracts and the balances of all holders end
    the same. -/
theorem campaigns_commute (x : Execution D) (hx : x.NoClawback) (hfits : funded x.history ≤ i128Max)
    (hpools : ∀ q, x.final.escrow.nftPool = some q ∨ x.final.escrow.revenuePool = some q →
      D.isPool q = true) {id id' : UInt64} (hne : id' ≠ id) (k k' : CampaignCall)
    (signers signers' : Address → Bool) (foreign foreign' : Foreign) :
    let a : Action := .escrow signers foreign (k.call id)
    let a' : Action := .escrow signers' foreign' (k'.call id')
    let w := D.machine.next x.final a
    let w' := D.machine.next x.final a'
    D.machine.rejection w a' = D.machine.rejection x.final a' ∧
      D.machine.rejection w' a = D.machine.rejection x.final a ∧
      (D.machine.next w a').escrow = (D.machine.next w' a).escrow ∧
      (D.machine.next w a').pools = (D.machine.next w' a).pools ∧
      (D.machine.next w a').tokens.balance = (D.machine.next w' a).tokens.balance := by
  intro a a' w w'
  obtain ⟨p, h⟩ := x.exists_ready hx hfits hpools
  obtain ⟨hreject, t₁, t, hnext, htr⟩ := h.second_eq hne signers signers' foreign foreign' k k'
  obtain ⟨hreject', t₁', t', hnext', htr'⟩ :=
    h.second_eq (Ne.symm hne) signers' signers foreign' foreign k' k
  refine ⟨hreject, hreject', ?_, ?_, ?_⟩
  · exact (congrArg World.escrow hnext).trans
      ((Plan.storage_comm _ _ _ hne _).trans (congrArg World.escrow hnext').symm)
  · exact (congrArg World.pools hnext).trans
      ((Plan.creditAll_comm _ _ _ _ _ _).trans (congrArg World.pools hnext').symm)
  · have hbalance := htr.balance_eq htr' List.perm_append_comm
    exact (congrArg (·.tokens.balance) hnext).trans
      (hbalance.trans (congrArg (·.tokens.balance) hnext').symm)

theorem campaigns_commute_sample :
    let M := Sample.deployment.machine
    let a : Action := .escrow (fun _ => true) .silent (.complete 2 1)
    let a' : Action := .escrow (fun _ => true) .silent
      (.activate 3 Sample.creator (some Sample.referrer) [1])
    let w := M.next Sample.execution.final a
    let w' := M.next Sample.execution.final a'
    M.rejection w a' = none ∧ M.rejection w' a = none ∧
      (M.next w a').escrow = (M.next w' a).escrow ∧ (M.next w a').pools = (M.next w' a).pools ∧
      (M.next w a').tokens.balance = (M.next w' a).tokens.balance := by
  have hnft : Sample.execution.final.escrow.nftPool = some Sample.nftPool := by decide +kernel
  have hrev : Sample.execution.final.escrow.revenuePool = some Sample.revenuePool := by decide +kernel
  have hpools : ∀ q, Sample.execution.final.escrow.nftPool = some q ∨
      Sample.execution.final.escrow.revenuePool = some q → Sample.deployment.isPool q = true := by
    rintro q (hq | hq)
    · rw [← Option.some.inj (hnft.symm.trans hq)]; decide
    · rw [← Option.some.inj (hrev.symm.trans hq)]; decide
  have hne : (3 : UInt64) ≠ 2 := by decide
  obtain ⟨hreject, hreject', hsame⟩ := campaigns_commute Sample.execution Sample.execution_noClawback
    (by decide +kernel) hpools hne (.complete 1) (.activate Sample.creator (some Sample.referrer) [1])
    (fun _ => true) (fun _ => true) .silent .silent
  refine ⟨hreject.trans ?_, hreject'.trans ?_, hsame⟩
  · exact Option.isNone_iff_eq_none.1 (by decide +kernel)
  · exact Option.isNone_iff_eq_none.1 (by decide +kernel)

end TogetherFi
