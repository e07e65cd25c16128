/-
  The provenance of every token that leaves the escrow.

  `given` reads from the history what `initialize`, `fund` and `activate` were
  given.  The state agrees with it (`Execution.endpoints`, `Execution.funding`,
  `Execution.activation`), so what a settlement pays (`payment`) is a
  function of these arguments alone.
-/
import TogetherFi.System.Lifecycle

namespace TogetherFi

open Function Escrow Pool

variable {D : Deployment}

/-! ## What the calls were given -/

/-- The addresses of `initialize` that payments go to, and the token. -/
structure Endpoints where
  token : Address
  treasury : Address
  nftPool : Address
  revenuePool : Address

/-- What `initialize` names. -/
def Escrow.EscrowCall.endpoints : EscrowCall → Option Endpoints
  | .initializeEscrow _ _ token treasury nft rev _ _ => some ⟨token, treasury, nft, rev⟩
  | _ => none

/-- What an initialization of the escrow names. -/
def Action.endpoints : Action → Option Endpoints
  | .escrow _ _ call => call.endpoints
  | _ => none

/-- Sponsor and amount of a `fund` of campaign `id`. -/
def Action.funding (id : UInt64) : Action → Option (Address × ℤ)
  | .escrow _ _ (.fund id' sponsor amount) => if id' = id then some (sponsor, amount) else none
  | _ => none

/-- Creator and referrer of an `activate` of campaign `id`. -/
def Action.activation (id : UInt64) : Action → Option (Address × Option Address)
  | .escrow _ _ (.activate id' creator referrer _) =>
    if id' = id then some (creator, referrer) else none
  | _ => none

/-- What the first successful call of a kind was given. -/
def given {β : Type} (f : Action → Option β) (h : List D.Step) : Option β :=
  h.findSome? fun t => f t.act

theorem given_append {β : Type} (f : Action → Option β) (h : List D.Step) (t : D.Step) :
    given f (h ++ [t]) = (given f h).or (f t.act) := by
  simp [given, List.findSome?_append]

theorem given_mono {β : Type} {f : Action → Option β} {h h' : List D.Step} (hp : h <+: h') {b : β}
    (hb : given f h = some b) : given f h' = some b := by
  obtain ⟨l, rfl⟩ := hp
  rw [given, List.findSome?_append, ← given, hb, Option.some_or]

theorem Action.funding_eq_none {id : UInt64} {a : Action} (h : a.writes ≠ some id) :
    a.funding id = none := by
  unfold Action.funding
  split
  · exact if_neg fun hid => h (congrArg some hid)
  · rfl

theorem Action.activation_eq_none {id : UInt64} {a : Action} (h : a.writes ≠ some id) :
    a.activation id = none := by
  unfold Action.activation
  split
  · exact if_neg fun hid => h (congrArg some hid)
  · rfl

/-! ## The state agrees with what was given -/

/-- The bindings of an escrow that was given these addresses. -/
def Endpoints.bindings : Option Endpoints → Bindings
  | none => ⟨none, none, none, none⟩
  | some e => ⟨some e.token, some e.treasury, some e.nftPool, some e.revenuePool⟩

theorem Escrow.Effect.endpoints {env : Env} {s s' : EscrowStorage} {pools pools' : Pools}
    {t t' : Tokens} {call : EscrowCall} (h : Escrow.Effect env s pools t s' pools' t' call) :
    (call.endpoints = none ∧ s'.bindings = s.bindings) ∨
      (s.governance = none ∧ s'.bindings = Endpoints.bindings call.endpoints) := by
  cases h with
  | initializeEscrow h _ _ =>
    have hfresh := h.fresh
    obtain ⟨live, rfl⟩ := h.post
    exact .inr ⟨hfresh, rfl⟩
  | fund h _ => obtain ⟨live, rfl⟩ := h.post; exact .inl ⟨rfl, rfl⟩
  | activate h _ _ => obtain ⟨live, rfl⟩ := h.post; exact .inl ⟨rfl, rfl⟩
  | complete h => obtain ⟨live, rfl⟩ := h.post; exact .inl ⟨rfl, rfl⟩
  | refundExpired h _ => obtain ⟨live, rfl⟩ := h.post; exact .inl ⟨rfl, rfl⟩
  | other hcall h _ _ =>
    refine .inl ⟨?_, h.bindings⟩
    cases call <;> first | rfl | cases hcall

/-- **The bindings are what `initialize` was given.** -/
theorem Execution.endpoints (x : Execution D) :
    x.final.escrow.bindings = Endpoints.bindings (given Action.endpoints x.history) := by
  refine induction (A := fun _ => True)
    (P := fun h w => w.escrow.bindings = Endpoints.bindings (given Action.endpoints h))
    (fun w hw => ?_) (fun y t _ _ hpre hP => ?_) x (fun _ _ => trivial)
  · obtain ⟨live, he⟩ := hw.escrow
    rw [he]; rfl
  · rw [given_append]
    have h := t.effect
    generalize t.act = a at h
    cases h with
    | escrow h hw =>
      rcases h.endpoints with ⟨hnone, hb⟩ | ⟨hfresh, hb⟩
      · rw [hw, Action.endpoints, hnone, Option.or_none, ← hP]; exact hb
      · -- nothing was given before: the fresh escrow has no bindings
        rw [hpre] at hfresh hP
        obtain ⟨live, hs⟩ := y.escrow_books.fresh hfresh
        have hnone : given Action.endpoints y.history = none := by
          rw [hs.bindings] at hP
          cases hg : given Action.endpoints y.history with
          | none => rfl
          | some e => rw [hg] at hP; cases hP
        rw [hw, hnone, Option.none_or]; exact hb
    | pool _ _ hw | transfer _ _ _ hw | issuer _ hw | close _ hw =>
      rw [hw, show Action.endpoints _ = none from rfl, Option.or_none]; exact hP

/-- **Sponsor and amount of a campaign are what `fund` was given.** -/
theorem Execution.funding (x : Execution D) (id : UInt64) :
    (x.final.escrow.campaign id).map (fun c => (c.sponsor, c.amount)) =
      given (Action.funding id) x.history := by
  refine induction (A := fun _ => True)
    (P := fun h w => (w.escrow.campaign id).map (fun c => (c.sponsor, c.amount)) =
      given (Action.funding id) h) (fun w hw => ?_) (fun y t _ _ _ hP => ?_) x (fun _ _ => trivial)
  · obtain ⟨live, he⟩ := hw.escrow
    rw [he]; rfl
  · rw [given_append, ← hP]
    by_cases hw : t.act.writes = some id
    · obtain ⟨signers, foreign, call, c', hact, hc', hmove⟩ := t.effect.move hw
      rw [hc', hact]
      rw [hact] at hw
      generalize t.pre.escrow.campaign id = r at hmove
      cases hmove with
      | fund =>
        obtain rfl := Option.some.inj hw
        simp [Action.funding, newCampaign]
      | activate | complete | refund => exact (Option.or_none).symm
    · rw [(t.effect.campaign_frame hw).1, Action.funding_eq_none hw, Option.or_none]

/-- Creator and referrer, once the campaign is activated. -/
def Escrow.Campaign.activation (c : Campaign) : Option (Address × Option Address) :=
  if c.operationVersion = 0 then none else some (c.creator, c.referrer)

/-- **Creator and referrer of a campaign are what `activate` was given.** -/
theorem Execution.activation (x : Execution D) (id : UInt64) :
    (x.final.escrow.campaign id).bind Campaign.activation =
      given (Action.activation id) x.history := by
  refine induction (A := fun _ => True)
    (P := fun h w => (w.escrow.campaign id).bind Campaign.activation =
      given (Action.activation id) h) (fun w hw => ?_) (fun y t _ _ hpre hP => ?_) x
    (fun _ _ => trivial)
  · obtain ⟨live, he⟩ := hw.escrow
    rw [he]; rfl
  · rw [given_append, ← hP]
    by_cases hw : t.act.writes = some id
    · obtain ⟨signers, foreign, call, c', hact, hc', hmove⟩ := t.effect.move hw
      rw [hc', hact]
      rw [hact] at hw
      generalize hr : t.pre.escrow.campaign id = r at hmove
      cases hmove with
      | fund => rfl
      | @activate id' _ _ _ c funded =>
        obtain rfl := Option.some.inj hw
        -- a funded campaign has its placeholders
        have hver : c.operationVersion = 0 :=
          ((y.escrow_books.campaign id' c (by rw [← hpre, hr])).funded funded).version
        simp [Action.activation, Campaign.activation, Campaign.activated, hver]
      | complete | refund => exact (Option.or_none).symm
    · rw [(t.effect.campaign_frame hw).1, Action.activation_eq_none hw, Option.or_none]

/-! ## What settlements pay -/

/-- What a call pays out of the escrow, by what `initialize`, `fund` and
    `activate` were given: the five legs for `complete`, the amount for
    `refund_expired`, and nothing for the others. -/
def payment (escrow : Address) (h : List D.Step) : Action → Option (List Transfer)
  | .escrow _ _ (.complete id _) => do
    let e ← given Action.endpoints h
    let (_, amount) ← given (Action.funding id) h
    let (creator, referrer) ← given (Action.activation id) h
    let referrer ← referrer
    return payouts e.token escrow ⟨creator, e.treasury, e.nftPool, e.revenuePool, referrer⟩ amount
  | .escrow _ _ (.refundExpired id) => do
    let e ← given Action.endpoints h
    let (sponsor, amount) ← given (Action.funding id) h
    return [⟨e.token, escrow, sponsor, amount⟩]
  | _ => some []

theorem outflow_eq_filter {t : D.Step} {ts : List Transfer} {c : Address}
    (h : t.pre.tokens.After ts t.post.tokens) : t.outflow c = ts.filter (·.src = c) := by
  rw [Deployment.Step.outflow, t.transfers_eq h]

theorem Execution.exists_endpoints (x : Execution D) (hg : x.final.escrow.governance.isSome) :
    ∃ e, given Action.endpoints x.history = some e ∧
      x.final.escrow.bindings = Endpoints.bindings (some e) := by
  have he := x.endpoints
  cases hgiven : given Action.endpoints x.history with
  | none =>
    have hb := (x.escrow_books.bindings hg).token
    rw [he, hgiven] at hb; cases hb
  | some e => exact ⟨e, rfl, hgiven ▸ he⟩

section
variable {x : Execution D} {signers : Address → Bool} {foreign : Foreign} {id : UInt64}
  {c : Campaign} {token : Address} {s' : EscrowStorage} {pools' : Pools} {t' : Tokens}

theorem Escrow.Complete.pays {version : ℕ} {p : Payees}
    (h : Complete (D.env x.final D.escrow signers foreign) id version c token p x.final.escrow
      x.final.pools x.final.tokens s' pools' t') :
    payment D.escrow x.history (.escrow signers foreign (.complete id version)) =
      some (payouts token D.escrow p c.amount) := by
  obtain ⟨e, he, hb⟩ := x.exists_endpoints h.initialized
  have hf := x.funding id
  have ha := x.activation id
  have hver : c.operationVersion = 1 :=
    ((x.escrow_books.campaign id c h.campaign).active h.active).version
  obtain rfl : token = e.token := Option.some.inj (h.paysIn.symm.trans (congrArg Bindings.token hb))
  have htr : p.treasury = e.treasury :=
    Option.some.inj (h.payOut.treasury.symm.trans (congrArg Bindings.treasury hb))
  have hnft : p.nftPool = e.nftPool :=
    Option.some.inj (h.payOut.nftPool.symm.trans (congrArg Bindings.nftPool hb))
  have hrev : p.revenuePool = e.revenuePool :=
    Option.some.inj (h.payOut.revenuePool.symm.trans (congrArg Bindings.revenuePool hb))
  rw [h.campaign, Option.map_some] at hf
  rw [h.campaign, Option.bind_some, Campaign.activation, hver, if_neg one_ne_zero, ← h.creator,
    h.referrer] at ha
  simp only [payment, he, ← hf, ← ha]
  change some (payouts e.token D.escrow ⟨p.creator, e.treasury, e.nftPool, e.revenuePool, p.referrer⟩
    c.amount) = _
  rw [← htr, ← hnft, ← hrev]

theorem Escrow.Refund.pays
    (h : Refund (D.env x.final D.escrow signers foreign) id c token x.final.escrow x.final.tokens
      s' t') :
    payment D.escrow x.history (.escrow signers foreign (.refundExpired id)) =
      some [⟨token, D.escrow, c.sponsor, c.amount⟩] := by
  obtain ⟨e, he, hb⟩ := x.exists_endpoints h.initialized
  have hf := x.funding id
  obtain rfl : token = e.token := Option.some.inj (h.paysIn.symm.trans (congrArg Bindings.token hb))
  rw [h.campaign, Option.map_some] at hf
  simp only [payment, he, ← hf]
  rfl

end

theorem payment_mono {h h' : List D.Step} (hp : h <+: h') {a : Action} {ts : List Transfer}
    (hs : payment D.escrow h a = some ts) : payment D.escrow h' a = some ts := by
  unfold payment at hs ⊢
  split at hs
  · simp only [Option.bind_eq_bind, Option.bind_eq_some_iff] at hs ⊢
    obtain ⟨e, he, f, hf, g, hg, hs⟩ := hs
    exact ⟨e, given_mono hp he, f, given_mono hp hf, g, given_mono hp hg, hs⟩
  · simp only [Option.bind_eq_bind, Option.bind_eq_some_iff] at hs ⊢
    obtain ⟨e, he, f, hf, hs⟩ := hs
    exact ⟨e, given_mono hp he, f, given_mono hp hf, hs⟩
  · exact hs

/-- **What leaves the escrow in a step is the settlement the step makes.** -/
theorem Execution.outflow_payment (x : Execution D) {t : D.Step} (ht : t ∈ x.history) :
    payment D.escrow x.history t.act = some (t.outflow D.escrow) := by
  obtain ⟨y, hy, hp, -⟩ := exists_prefix ht
  refine payment_mono hp ?_
  have hother : t.act.callee D.escrow ≠ some D.escrow → t.outflow D.escrow = [] :=
    t.outflow_eq_nil Deployment.isSystem_escrow
  have hsame : t.post.tokens = t.pre.tokens → t.outflow D.escrow = [] := fun h =>
    outflow_eq_filter (show t.pre.tokens.After [] t.post.tokens from h ▸ .refl _)
  have h := t.effect
  have hout : ∀ {ts}, t.pre.tokens.After ts t.post.tokens →
    t.outflow D.escrow = ts.filter (·.src = D.escrow) := outflow_eq_filter
  rw [← hy] at h hout hsame
  generalize t.act = a at h hother
  cases h with
  | @escrow _ _ call _ _ _ h hw =>
    rw [hw] at hsame hout
    cases h with
    | complete h =>
      rw [h.pays, hout h.payOut.transfers]
      simp [payouts]
    | refundExpired h _ =>
      rw [h.pays, hout h.transfer]
      simp
    | @fund _ sponsor _ _ h _ =>
      have hne : sponsor ≠ D.escrow := Deployment.ne_escrow_of_authorized h.sponsorAuth
      rw [hout h.transfer]
      simp [payment, hne]
    | initializeEscrow _ _ ht | activate _ _ ht => rw [hsame ht]; rfl
    | other hcall _ _ ht =>
      rw [hsame ht]
      cases call <;> first | rfl | cases hcall
  | pool hpool _ _ =>
    rw [hother (by simpa [Action.callee] using Deployment.ne_escrow_of_isPool hpool)]; rfl
  | transfer | issuer | close => rw [hother (by simp [Action.callee])]; rfl

/-- An `activate` is authorized by the sponsor that funded the campaign. -/
theorem Execution.activate_authorized (x : Execution D) {t : D.Step} (ht : t ∈ x.history) {id : UInt64}
    (ha : t.act.moves id .active = true) : ∃ sponsor amount,
      given (Action.funding id) x.history = some (sponsor, amount) ∧ t.act.signers sponsor = true := by
  obtain ⟨y, hy, hp, -⟩ := exists_prefix ht
  obtain ⟨hw, htarget⟩ : t.act.writes = some id ∧ t.act.target = some .active := by
    simpa [Action.moves] using ha
  obtain ⟨signers, foreign, call, c', hact, -, hmove⟩ := t.effect.move hw
  rw [hact] at htarget ⊢
  have hf := y.funding id
  rw [hy] at hf
  generalize t.pre.escrow.campaign id = r at hmove hf
  cases hmove with
  | @activate _ _ _ _ c _ auth =>
    exact ⟨c.sponsor, c.amount, given_mono hp hf.symm, (Deployment.env_authorized_iff.1 auth).1⟩
  | fund | complete | refund => cases htarget

theorem payment_congr {h h' : List D.Step} {id : UInt64} {a a' : Action}
    (ha : a.moves id .completed = true) (ha' : a'.moves id .completed = true)
    (he : given Action.endpoints h = given Action.endpoints h')
    (hf : given (Action.funding id) h = given (Action.funding id) h')
    (hc : given (Action.activation id) h = given (Action.activation id) h') :
    payment D.escrow h a = payment D.escrow h' a' := by
  obtain ⟨signers, foreign, v, rfl⟩ := Action.eq_complete ha
  obtain ⟨signers', foreign', v', rfl⟩ := Action.eq_complete ha'
  simp only [payment, he, hf, hc]

/-- **Escrow outflow provenance.**  What leaves the escrow is what its
    settlements pay, by the arguments of `initialize`, `fund` and `activate`,
    and no campaign is settled twice; so runs that agree on these arguments
    complete the campaign with the same legs. -/
theorem outflow_provenance (x : Execution D) :
    x.final.tokens.log.filter (·.src = D.escrow) = x.history.flatMap (·.outflow D.escrow) ∧
    (∀ t ∈ x.history, payment D.escrow x.history t.act = some (t.outflow D.escrow)) ∧
    (∀ id, (x.history.countP fun t => t.act.moves id .completed) +
      (x.history.countP fun t => t.act.moves id .refunded) ≤ 1) ∧
    (∀ id, (x.history.countP fun t => t.act.moves id .active) ≤ 1 ∧
      ∀ t ∈ x.history, t.act.moves id .active = true → ∃ sponsor amount,
        given (Action.funding id) x.history = some (sponsor, amount) ∧ t.act.signers sponsor = true) ∧
    ∀ (y : Execution D) (id : UInt64),
      given Action.endpoints x.history = given Action.endpoints y.history →
      given (Action.funding id) x.history = given (Action.funding id) y.history →
      given (Action.activation id) x.history = given (Action.activation id) y.history →
      ∀ t ∈ x.history, ∀ t' ∈ y.history, t.act.moves id .completed = true →
        t'.act.moves id .completed = true → t.outflow D.escrow = t'.outflow D.escrow := by
  refine ⟨x.outflow_eq D.escrow, fun t ht => x.outflow_payment ht, fun id => ?_,
    fun id => ⟨x.moves_le_one id .active, fun t ht => x.activate_authorized ht⟩,
    fun y id he hf hc t ht t' ht' ha ha' => ?_⟩
  · rw [countP_moves, countP_moves]
    exact (x.path id).settled_le_one
  · have h := x.outflow_payment ht
    rw [payment_congr ha ha' he hf hc, y.outflow_payment ht'] at h
    exact (Option.some.inj h).symm

end TogetherFi
