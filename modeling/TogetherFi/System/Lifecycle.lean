/-
  The lifecycle of a campaign.

  A successful call either leaves the record of a campaign alone or makes one
  of four moves (`Move`).  The moves of a run form the status history of the
  campaign, and `Evolves` says what of a record no later call changes.
-/
import TogetherFi.System.Binding

namespace TogetherFi

open Function Escrow Pool

/-! ## The moves of one record -/

/-- The campaign a call writes. -/
def Escrow.EscrowCall.writes : EscrowCall → Option UInt64
  | .fund id .. | .activate id .. | .complete id .. | .refundExpired id => some id
  | _ => none

theorem Escrow.EscrowCall.writes_eq_none {call : EscrowCall} (h : call.isBooking = false) :
    call.writes = none := by
  cases call <;> first | rfl | cases h

/-- The status a call gives the campaign it writes. -/
def Escrow.EscrowCall.target : EscrowCall → Option CampaignStatus
  | .fund .. => some .funded
  | .activate .. => some .active
  | .complete .. => some .completed
  | .refundExpired .. => some .refunded
  | _ => none

/-- What a successful call does to the record of the campaign it writes. -/
inductive Move (env : Env) : EscrowCall → Option Campaign → Campaign → Prop
  | fund {id sponsor amount} (auth : env.authorized sponsor = true) :
      Move env (.fund id sponsor amount) none (newCampaign env sponsor amount)
  | activate {id creator referrer terms c} (funded : c.status = .funded)
      (auth : env.authorized c.sponsor = true) (present : referrer.isSome) (nonempty : terms ≠ []) :
      Move env (.activate id creator referrer terms) (some c) (c.activated creator referrer terms)
  | complete {id version c} (active : c.status = .active) (same : version = c.operationVersion)
      (inTime : env.timestamp < c.expiresAt) :
      Move env (.complete id version) (some c) { c with status := .completed }
  | refund {id c} (isOpen : c.isOpen) (late : c.expiresAt ≤ env.timestamp) :
      Move env (.refundExpired id) (some c) { c with status := .refunded }

section
variable {env : Env} {s s' : EscrowStorage} {pools pools' : Pools} {t t' : Tokens}
  {call : EscrowCall} {id : UInt64} {r : Option Campaign} {c c' : Campaign}

/-- **A call moves the campaign it writes.** -/
theorem Escrow.Effect.move (h : Escrow.Effect env s pools t s' pools' t' call)
    (hw : call.writes = some id) :
    ∃ c', s'.campaign id = some c' ∧ Move env call (s.campaign id) c' := by
  cases h with
  | initializeEscrow => cases hw
  | fund h _ =>
    obtain rfl := Option.some.inj hw
    rw [h.newId]
    refine ⟨_, ?_, .fund h.sponsorAuth⟩
    obtain ⟨live, rfl⟩ := h.post
    exact update_self ..
  | activate h _ _ =>
    obtain rfl := Option.some.inj hw
    rw [h.campaign]
    refine ⟨_, ?_, .activate h.funded h.sponsorAuth h.present h.terms⟩
    obtain ⟨live, rfl⟩ := h.post
    exact update_self ..
  | complete h =>
    obtain rfl := Option.some.inj hw
    rw [h.campaign]
    refine ⟨_, ?_, .complete h.active h.version h.inTime⟩
    obtain ⟨live, rfl⟩ := h.post
    exact update_self ..
  | refundExpired h _ =>
    obtain rfl := Option.some.inj hw
    rw [h.campaign]
    refine ⟨_, ?_, .refund h.pending.symm h.late⟩
    obtain ⟨live, rfl⟩ := h.post
    exact update_self ..
  | other hcall => rw [EscrowCall.writes_eq_none hcall] at hw; cases hw

/-- **And leaves the others alone**, with their consumed operations. -/
theorem Escrow.Effect.frame (h : Escrow.Effect env s pools t s' pools' t' call)
    (hw : call.writes ≠ some id) :
    s'.campaign id = s.campaign id ∧ s'.consumedOperation id = s.consumedOperation id := by
  have hne : ∀ {id'}, call.writes = some id' → id ≠ id' := by
    rintro _ hid rfl
    exact hw hid
  cases h with
  | initializeEscrow h _ _ => obtain ⟨live, rfl⟩ := h.post; exact ⟨rfl, rfl⟩
  | fund h _ => obtain ⟨live, rfl⟩ := h.post; exact ⟨update_of_ne (hne rfl) .., rfl⟩
  | activate h _ _ => obtain ⟨live, rfl⟩ := h.post; exact ⟨update_of_ne (hne rfl) .., rfl⟩
  | complete h =>
    obtain ⟨live, rfl⟩ := h.post
    exact ⟨update_of_ne (hne rfl) .., update_of_ne (hne rfl) ..⟩
  | refundExpired h _ => obtain ⟨live, rfl⟩ := h.post; exact ⟨update_of_ne (hne rfl) .., rfl⟩
  | other _ h _ _ => exact ⟨congrFun h.campaign id, congrFun h.consumed id⟩

theorem Move.target (h : Move env call r c') : call.target = some c'.status := by
  cases h <;> rfl

theorem Move.status_ne (h : Move env call (some c) c') : c'.status ≠ c.status := by
  cases h with
  | activate funded => rw [funded]; simp [Campaign.activated]
  | complete active => rw [active]; simp
  | refund isOpen => rcases isOpen with hst | hst <;> simp [hst]

theorem Move.ne (h : Move env call r c') : r ≠ some c' := by
  rintro rfl
  exact h.status_ne rfl

end

/-! ## What a move keeps -/

/-- The fields `activate` sets. -/
def Escrow.Campaign.commitment (c : Campaign) : Address × Option Address × List UInt8 × ℕ :=
  (c.creator, c.referrer, c.termsHash, c.operationVersion)

/-- `c'` may be a later record of the campaign whose record was `c`. -/
structure Evolves (c c' : Campaign) : Prop where
  sponsor : c'.sponsor = c.sponsor
  amount : c'.amount = c.amount
  fundedAt : c'.fundedAt = c.fundedAt
  expiresAt : c'.expiresAt = c.expiresAt
  committed : c.status ≠ .funded → c'.status ≠ .funded ∧ c'.commitment = c.commitment
  settled : ¬ c.isOpen → c' = c

theorem Evolves.refl (c : Campaign) : Evolves c c :=
  ⟨rfl, rfl, rfl, rfl, fun h => ⟨h, rfl⟩, fun _ => rfl⟩

theorem Evolves.trans {c₁ c₂ c₃ : Campaign} (h₁ : Evolves c₁ c₂) (h₂ : Evolves c₂ c₃) :
    Evolves c₁ c₃ := by
  refine ⟨h₂.sponsor.trans h₁.sponsor, h₂.amount.trans h₁.amount, h₂.fundedAt.trans h₁.fundedAt,
    h₂.expiresAt.trans h₁.expiresAt, fun hst => ?_, fun hst => ?_⟩
  · obtain ⟨hst', he⟩ := h₁.committed hst
    obtain ⟨hst'', he'⟩ := h₂.committed hst'
    exact ⟨hst'', he'.trans he⟩
  · obtain rfl := h₁.settled hst
    exact h₂.settled hst

theorem Move.evolves {env : Env} {call : EscrowCall} {c c' : Campaign}
    (h : Move env call (some c) c') : Evolves c c' := by
  cases h with
  | activate funded =>
    exact ⟨rfl, rfl, rfl, rfl, fun h => absurd funded h, fun h => absurd (.inl funded) h⟩
  | complete active =>
    exact ⟨rfl, rfl, rfl, rfl, fun _ => ⟨by simp, rfl⟩, fun h => absurd (.inr active) h⟩
  | refund isOpen => exact ⟨rfl, rfl, rfl, rfl, fun _ => ⟨by simp, rfl⟩, fun h => absurd isOpen h⟩

/-! ## The moves of a run -/

variable {D : Deployment}

/-- The campaign an action writes. -/
def Action.writes : Action → Option UInt64
  | .escrow _ _ call => call.writes
  | _ => none

/-- The status an action gives the campaign it writes. -/
def Action.target : Action → Option CampaignStatus
  | .escrow _ _ call => call.target
  | _ => none

/-- Whether an action brings campaign `id` to the status `st`. -/
def Action.moves (id : UInt64) (st : CampaignStatus) (a : Action) : Bool :=
  a.writes = some id ∧ a.target = some st

theorem Action.eq_complete {id : UInt64} {a : Action} (h : a.moves id .completed = true) :
    ∃ signers foreign version, a = .escrow signers foreign (.complete id version) := by
  have h : a.writes = some id ∧ a.target = some .completed := by simpa [Action.moves] using h
  obtain ⟨hw, ht⟩ := h
  cases a with
  | escrow signers foreign call =>
    cases call with
    | complete id' version =>
      obtain rfl := Option.some.inj hw
      exact ⟨_, _, _, rfl⟩
    | fund | activate | refundExpired => cases ht
    | _ => cases hw
  | pool | transfer | issuer | close => cases hw

section
variable {w w' : World} {a : Action} {id : UInt64}

/-- **An action moves the campaign it writes.** -/
theorem Effect.move (h : Effect D w w' a) (hw : a.writes = some id) :
    ∃ signers foreign call c', a = .escrow signers foreign call ∧
      w'.escrow.campaign id = some c' ∧
      Move (D.env w D.escrow signers foreign) call (w.escrow.campaign id) c' := by
  cases h with
  | escrow h hpost =>
    subst hpost
    obtain ⟨c', hc', hmove⟩ := h.move hw
    exact ⟨_, _, _, c', rfl, hc', hmove⟩
  | pool | transfer | issuer | close => cases hw

/-- **And leaves the others alone.** -/
theorem Effect.campaign_frame (h : Effect D w w' a) (hw : a.writes ≠ some id) :
    w'.escrow.campaign id = w.escrow.campaign id ∧
      w'.escrow.consumedOperation id = w.escrow.consumedOperation id := by
  cases h with
  | escrow h hpost => subst hpost; exact h.frame hw
  | pool _ _ hpost | transfer _ _ _ hpost | issuer _ hpost | close _ hpost =>
    subst hpost; exact ⟨rfl, rfl⟩

theorem Effect.evolves (h : Effect D w w' a) {c : Campaign} (hc : w.escrow.campaign id = some c) :
    ∃ c', w'.escrow.campaign id = some c' ∧ Evolves c c' := by
  by_cases hw : a.writes = some id
  · obtain ⟨_, _, _, c', -, hc', hmove⟩ := h.move hw
    rw [hc] at hmove
    exact ⟨c', hc', hmove.evolves⟩
  · exact ⟨c, (h.campaign_frame hw).1.trans hc, .refl c⟩

end

/-- **What no run changes of a record.** -/
theorem Execution.evolves (x : Execution D) (as : List Action) {id : UInt64} {c : Campaign}
    (hc : x.final.escrow.campaign id = some c) :
    ∃ c', (x.after as).final.escrow.campaign id = some c' ∧ Evolves c c' := by
  refine x.after_relation (R := fun w w' => ∀ c, w.escrow.campaign id = some c →
    ∃ c', w'.escrow.campaign id = some c' ∧ Evolves c c') (fun w c hc => ⟨c, hc, .refl c⟩)
    (fun w₁ w₂ w₃ h₁ h₂ c hc => ?_) (fun h c hc => h.evolves hc) as c hc
  obtain ⟨c', hc', he⟩ := h₁ c hc
  obtain ⟨c'', hc'', he'⟩ := h₂ c' hc'
  exact ⟨c'', hc'', he.trans he'⟩

/-! ## The status history -/

/-- The status campaign `id` is given by a step that changes its record. -/
def Deployment.Step.statusChange (id : UInt64) (t : D.Step) : Option CampaignStatus :=
  if t.post.escrow.campaign id = t.pre.escrow.campaign id then none
  else (t.post.escrow.campaign id).map (·.status)

/-- The statuses campaign `id` was given, in order. -/
def statusHistory (id : UInt64) (h : List D.Step) : List CampaignStatus :=
  h.filterMap (Deployment.Step.statusChange id)

/-- The ways to reach a status. -/
inductive Path : Option CampaignStatus → List CampaignStatus → Prop
  | unused : Path none []
  | funded : Path (some .funded) [.funded]
  | active : Path (some .active) [.funded, .active]
  | completed : Path (some .completed) [.funded, .active, .completed]
  | refunded : Path (some .refunded) [.funded, .active, .refunded]
  | abandoned : Path (some .refunded) [.funded, .refunded]

/-- No path settles twice. -/
theorem Path.settled_le_one {st : Option CampaignStatus} {h : List CampaignStatus} (hp : Path st h) :
    h.count .completed + h.count .refunded ≤ 1 := by
  cases hp <;> decide

theorem Path.move {env : Env} {call : EscrowCall} {r : Option Campaign} {c' : Campaign}
    {h : List CampaignStatus} (hp : Path (r.map (·.status)) h) (hm : Move env call r c') :
    Path (some c'.status) (h ++ [c'.status]) := by
  cases hm with
  | fund => cases hp; exact .funded
  | activate funded =>
    rw [Option.map_some, funded] at hp
    cases hp; exact .active
  | complete active =>
    rw [Option.map_some, active] at hp
    cases hp; exact .completed
  | refund isOpen =>
    rcases isOpen with hst | hst <;> rw [Option.map_some, hst] at hp <;> cases hp
    · exact .abandoned
    · exact .refunded

theorem Path.isPrefix {st : Option CampaignStatus} {h : List CampaignStatus} (hp : Path st h) :
    h <+: [.funded, .active, .completed] ∨ h <+: [.funded, .active, .refunded] ∨
      h <+: [.funded, .refunded] := by
  cases hp <;> decide

theorem Path.getLast {st : Option CampaignStatus} {h : List CampaignStatus} (hp : Path st h) :
    st = h.getLast? := by
  cases hp <;> rfl

theorem Path.nodup {st : Option CampaignStatus} {h : List CampaignStatus} (hp : Path st h) :
    h.Nodup := by
  cases hp <;> decide

theorem statusChange_eq_target {id : UInt64} (t : D.Step) :
    t.statusChange id = if t.act.writes = some id then t.act.target else none := by
  unfold Deployment.Step.statusChange
  by_cases hw : t.act.writes = some id
  · obtain ⟨signers, foreign, call, c', hact, hc', hmove⟩ := t.effect.move hw
    rw [hc', if_neg (Ne.symm hmove.ne), if_pos hw, hact]
    exact hmove.target.symm
  · rw [if_pos (t.effect.campaign_frame hw).1, if_neg hw]

/-- **The status history of a campaign leads to its status.** -/
theorem Execution.path (x : Execution D) (id : UInt64) :
    Path ((x.final.escrow.campaign id).map (·.status)) (statusHistory id x.history) := by
  refine induction (A := fun _ => True)
    (P := fun h w => Path ((w.escrow.campaign id).map (·.status)) (statusHistory id h))
    (fun w hw => ?_) (fun y t _ _ _ hp => ?_) x (fun _ _ => trivial)
  · obtain ⟨live, he⟩ := hw.escrow
    rw [he]; exact .unused
  · rw [statusHistory, List.filterMap_append, ← statusHistory]
    by_cases hw : t.act.writes = some id
    · obtain ⟨signers, foreign, call, c', hact, hc', hmove⟩ := t.effect.move hw
      have hch : t.statusChange id = some c'.status := by
        rw [statusChange_eq_target, if_pos hw, hact]; exact hmove.target
      rw [hc', List.filterMap_cons_some hch]
      exact hp.move hmove
    · have hch : t.statusChange id = none := by rw [statusChange_eq_target, if_neg hw]
      rw [(t.effect.campaign_frame hw).1, List.filterMap_cons_none hch, List.filterMap_nil,
        List.append_nil]
      exact hp

theorem countP_moves (id : UInt64) (st : CampaignStatus) (h : List D.Step) :
    (h.countP fun t => t.act.moves id st) = (statusHistory id h).count st := by
  induction h with
  | nil => rfl
  | cons t h ih =>
    rw [statusHistory, List.countP_cons, ih, List.filterMap_cons, statusChange_eq_target]
    by_cases hw : t.act.writes = some id
    · cases htgt : t.act.target with
      | none => simp [Action.moves, hw, htgt, statusHistory]
      | some st' => simp [Action.moves, hw, htgt, statusHistory, List.count_cons]
    · simp [Action.moves, hw, statusHistory]

/-- **Every campaign is funded, activated, completed and refunded at most once.** -/
theorem Execution.moves_le_one (x : Execution D) (id : UInt64) (st : CampaignStatus) :
    (x.history.countP fun t => t.act.moves id st) ≤ 1 := by
  rw [countP_moves]
  exact List.nodup_iff_count_le_one.1 (x.path id).nodup st

/-! ## The lifecycle -/

theorem Escrow.CampaignBooks.expiresAt_toNat {escrow : Address} {c : Campaign}
    (h : CampaignBooks escrow c) : c.expiresAt.toNat = c.fundedAt.toNat + 2592000 := by
  rw [h.expires, UInt64.toNat_add, Nat.mod_eq_of_lt h.noOverflow]
  rfl

theorem Effect.inTime {w w' : World} {id : UInt64} {signers : Address → Bool} {foreign : Foreign}
    {v : ℕ} (h : Effect D w w' (.escrow signers foreign (.complete id v))) :
    ∃ c, w.escrow.campaign id = some c ∧ w.timestamp < c.expiresAt := by
  cases h with
  | escrow h _ =>
    cases h with
    | complete h => exact ⟨_, h.campaign, h.inTime⟩
    | other hcall => cases hcall

theorem Effect.late {w w' : World} {id : UInt64} {signers : Address → Bool} {foreign : Foreign}
    (h : Effect D w w' (.escrow signers foreign (.refundExpired id))) :
    ∃ c, w.escrow.campaign id = some c ∧ c.expiresAt ≤ w.timestamp := by
  cases h with
  | escrow h _ =>
    cases h with
    | refundExpired h => exact ⟨_, h.campaign, h.late⟩
    | other hcall => cases hcall

/-- The steps that change the fields of the commitment: the sponsor's `activate`
    of a campaign that has its placeholders. -/
theorem Effect.commitment {w w' : World} {a : Action} {id : UInt64} {c c' : Campaign}
    (h : Effect D w w' a) (hc : w.escrow.campaign id = some c) (hc' : w'.escrow.campaign id = some c')
    (hne : c'.commitment ≠ c.commitment) :
    ∃ signers foreign creator referrer terms,
      a = .escrow signers foreign (.activate id creator referrer terms) ∧
      signers c.sponsor = true ∧ c.status = .funded ∧ referrer.isSome ∧ terms ≠ [] ∧
      c' = c.activated creator referrer terms := by
  by_cases hw : a.writes = some id
  · obtain ⟨signers, foreign, call, c₁, rfl, hc₁, hmove⟩ := h.move hw
    obtain rfl := Option.some.inj (hc'.symm.trans hc₁)
    rw [hc] at hmove
    cases hmove with
    | activate funded auth present nonempty =>
      obtain rfl := Option.some.inj hw
      exact ⟨_, _, _, _, _, rfl, (Deployment.env_authorized_iff.1 auth).1, funded, present, nonempty,
        rfl⟩
    | complete | refund => exact absurd rfl hne
  · rw [(h.campaign_frame hw).1, hc] at hc'
    exact absurd (congrArg Campaign.commitment (Option.some.inj hc').symm) hne

/-- The lifecycle of campaign `id` in the run `x`. -/
structure Lifecycle (x : Execution D) (id : UInt64) : Prop where
  history : statusHistory id x.history <+: [.funded, .active, .completed] ∨
    statusHistory id x.history <+: [.funded, .active, .refunded] ∨
    statusHistory id x.history <+: [.funded, .refunded]
  once : ∀ st, (x.history.countP fun t => t.act.moves id st) ≤ 1
  current : (x.final.escrow.campaign id).map (·.status) = (statusHistory id x.history).getLast?
  record : ∀ c, x.final.escrow.campaign id = some c →
    c.expiresAt.toNat = c.fundedAt.toNat + 2592000 ∧ (c.status = .funded → c.Pristine D.escrow)
  later : ∀ c, x.final.escrow.campaign id = some c →
    ∀ as, ∃ c', (x.after as).final.escrow.campaign id = some c' ∧ Evolves c c'
  commitment : ∀ t ∈ x.history, ∀ c c', t.pre.escrow.campaign id = some c →
    t.post.escrow.campaign id = some c' → c'.commitment ≠ c.commitment →
    c.Pristine D.escrow ∧ c'.Activated ∧ ∃ signers foreign creator referrer terms,
      t.act = .escrow signers foreign (.activate id creator referrer terms) ∧
      signers c.sponsor = true ∧ c' = c.activated creator referrer terms
  consumed : ∀ v, (x.final.escrow.consumedOperation id v).isSome ↔
    x.final.escrow.isCompleted id ∧ v = 1
  inTime : ∀ t ∈ x.history, ∀ signers foreign v, t.act = .escrow signers foreign (.complete id v) →
    ∃ c, t.pre.escrow.campaign id = some c ∧ t.pre.timestamp < c.expiresAt
  late : ∀ t ∈ x.history, ∀ signers foreign, t.act = .escrow signers foreign (.refundExpired id) →
    ∃ c, t.pre.escrow.campaign id = some c ∧ c.expiresAt ≤ t.pre.timestamp
  exclusive : ∀ signers foreign w, D.step x.final (.escrow signers foreign (.refundExpired id)) = .ok w →
    ∀ as signers' foreign' v w',
      D.step (x.after as).final (.escrow signers' foreign' (.complete id v)) ≠ .ok w'
  frame : ∀ t ∈ x.history, t.act.writes ≠ some id →
    t.post.escrow.campaign id = t.pre.escrow.campaign id ∧
      t.post.escrow.consumedOperation id = t.pre.escrow.consumedOperation id

/-- **Campaign lifecycle.** -/
theorem campaign_lifecycle (x : Execution D) (id : UInt64) : Lifecycle x id where
  history := (x.path id).isPrefix
  once := x.moves_le_one id
  current := (x.path id).getLast
  record := fun c hc =>
    have h := x.escrow_books.campaign id c hc
    ⟨h.expiresAt_toNat, h.funded⟩
  later := fun c hc as => x.evolves as hc
  commitment := by
    intro t ht c c' hc hc' hne
    obtain ⟨signers, foreign, creator, referrer, terms, hact, hsig, hst, href, hterms, rfl⟩ :=
      t.effect.commitment hc hc' hne
    have hp := ((Execution.books_before ht).1.campaign id c hc).funded hst
    exact ⟨hp, ⟨href, hterms, rfl⟩, signers, foreign, creator, referrer, terms, hact, hsig, rfl⟩
  consumed := x.escrow_books.consumed id
  inTime := fun t _ signers foreign v hact => (hact ▸ t.effect).inTime
  late := fun t _ signers foreign hact => (hact ▸ t.effect).late
  exclusive := by
    intro signers foreign w hw as signers' foreign' v w' hw'
    obtain ⟨c, hc, hlate⟩ := (Deployment.step_effect hw).late
    obtain ⟨c₁, hc₁, he⟩ := x.evolves as hc
    obtain ⟨c₂, hc₂, htime⟩ := (Deployment.step_effect hw').inTime
    obtain rfl := Option.some.inj (hc₁.symm.trans hc₂)
    -- the expiry has not moved, and the clock does not go back
    have hmono := UInt64.le_iff_toNat_le.1 (x.timestamp_le as)
    have hlate := UInt64.le_iff_toNat_le.1 hlate
    have htime := UInt64.lt_iff_toNat_lt.1 htime
    rw [he.expiresAt] at htime
    omega
  frame := fun t _ hw => t.effect.campaign_frame hw

end TogetherFi
