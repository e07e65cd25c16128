/-
  What the events of a run tell.

  Each contract has one log: the events of its calls that took effect, in
  order.  A reader who starts knowing nothing accepts the whole log, and what it
  ends up knowing is what is stored (`escrow_log_replays`, `pool_log_replays`);
  what no event tells, such as the first roles of the escrow or the hashes of a
  manifest, it does not know.  All events
  of one campaign, and of one manifest, are determined by its record at the end
  (`campaign_story`, `manifest_story`), and the credits in the log of a pool are
  the legs in the completions of the escrow (`credits_reconcile`).
-/
import TogetherFi.Escrow.Events
import TogetherFi.System.Credits

namespace TogetherFi

open Function Escrow Pool

variable {D : Deployment}

/-! ## Logs -/

/-- The events of the escrow in a step. -/
def Deployment.Step.escrowEvents (t : D.Step) : List EscrowEvent :=
  match t.act with
  | .escrow signers foreign call =>
    call.published (D.env t.pre D.escrow signers foreign) t.pre.escrow
  | _ => []

theorem escrowEvents_escrow {w w' : World} {signers : Address → Bool} {foreign : Foreign}
    {call : EscrowCall} (h : D.machine.step w (.escrow signers foreign call) = .ok w') :
    Deployment.Step.escrowEvents ⟨w, .escrow signers foreign call, w', h⟩ =
      call.published (D.env w D.escrow signers foreign) w.escrow := rfl

/-- What the pool `p` publishes while the escrow completes a campaign. -/
def creditEvents (s : EscrowStorage) (p : Address) (campaignId : UInt64) : List PoolEvent := do
  let c ← (s.campaign campaignId).toList
  (if s.nftPool = some p then [.credited campaignId (split c.amount).nft] else []) ++
    if s.revenuePool = some p then [.credited campaignId (split c.amount).revenue] else []

/-- The events of the pool `p` in a step. -/
def Deployment.Step.poolEvents (p : Address) (t : D.Step) : List PoolEvent :=
  match t.act with
  | .pool q _ call => if p = q then call.published (t.pre.pools p) else []
  | .escrow _ _ (.complete id _) => creditEvents t.pre.escrow p id
  | _ => []

namespace Execution

/-- The events of the escrow, in order. -/
def escrowLog (x : Execution D) : List EscrowEvent := x.history.flatMap (·.escrowEvents)

/-- The events of the pool `p`, in order. -/
def poolLog (x : Execution D) (p : Address) : List PoolEvent := x.history.flatMap (·.poolEvents p)

end Execution

/-! ## The escrow -/

theorem Effect.escrow_eq {w w' : World} {a : Action} (h : Effect D w w' a)
    (ha : ∀ signers foreign call, a ≠ .escrow signers foreign call) : w'.escrow = w.escrow := by
  cases h with
  | escrow => exact absurd rfl (ha _ _ _)
  | pool _ _ hw | transfer _ _ _ hw | issuer _ hw | close _ hw => rw [hw]

/-- **The events explain the escrow.** -/
theorem escrow_explained : Machine.Explains D.machine EscrowView.machine
    Deployment.Step.escrowEvents
    fun w v => v.Shows w.escrow ∧ Escrow.Books D.escrow w.escrow := by
  refine ⟨fun t v hR => ?_⟩
  obtain ⟨hv, hb⟩ := hR
  have heff := Deployment.Step.effect t
  have hb' := heff.escrow_books hb
  obtain ⟨w, a, w', h⟩ := t
  cases a with
  | escrow signers foreign call =>
    obtain ⟨s, pools, tk, hc, rfl⟩ := Deployment.step_escrow_ok h
    obtain ⟨v', hacc, hv'⟩ := EscrowCall.explained hv hb hc
    exact ⟨v', hacc, hv', hb'⟩
  | pool | transfer | issuer | close =>
    have hkeep := heff.escrow_eq fun _ _ _ ha => (by cases ha)
    exact ⟨v, Machine.accepts_nil.2 rfl, hkeep ▸ hv, hb'⟩

theorem Execution.escrow_view (x : Execution D) :
    ∃ v, EscrowView.machine.Accepts .empty x.escrowLog v ∧ v.Shows x.final.escrow := by
  obtain ⟨live, he⟩ := x.genesis.escrow
  have h₀ : EscrowView.empty.Shows x.start.escrow ∧ Escrow.Books D.escrow x.start.escrow := by
    rw [he]
    exact ⟨.empty live, .empty live⟩
  obtain ⟨v, hacc, hv, -⟩ := escrow_explained.run h₀ x.actions
  exact ⟨v, hacc, hv⟩

/-- **The log of the escrow replays.**  A reader of the events accepts them all
    and knows the campaigns, the liability, the pause flag and the proposed
    roles of the escrow, and who holds a role once it was handed over; any other
    run with the same log agrees on all of this. -/
theorem escrow_log_replays (x : Execution D) :
    ∃ v, EscrowView.machine.Accepts .empty x.escrowLog v ∧ v.Shows x.final.escrow ∧
      ∀ {D' : Deployment} (y : Execution D'), y.escrowLog = x.escrowLog → v.Shows y.final.escrow := by
  obtain ⟨v, hacc, hv⟩ := x.escrow_view
  refine ⟨v, hacc, hv, fun y hlog => ?_⟩
  obtain ⟨v', hacc', hv'⟩ := y.escrow_view
  rw [hlog] at hacc'
  rw [hacc.unique hacc']
  exact hv'

/-- **The story of a campaign.**  The events of a campaign are its funding, its
    activation if there was one, and how it ended, with the terms of its record;
    there are no others, and a campaign that does not exist has none. -/
theorem campaign_story (x : Execution D) (id : UInt64) :
    x.escrowLog.filter (·.campaignId = some id) =
      (x.final.escrow.campaign id).elim [] fun c => c.view.story id := by
  obtain ⟨v, hacc, hv⟩ := x.escrow_view
  rw [EscrowView.story_of_accepts hacc id, EscrowView.story, hv.campaign_eq id]
  cases x.final.escrow.campaign id <;> rfl

/-! ## The pools -/

/-- What the escrow may do to the pool `p` while it completes a campaign: the
    two credits, one after the other. -/
theorem Escrow.Complete.explained {env : Env} {id : UInt64} {version : ℕ} {c : Campaign}
    {token : Address} {q : Payees} {s s' : EscrowStorage} {pools pools' : Pools} {t t' : Tokens}
    {escrow p : Address} (hc : Complete env id version c token q s pools t s' pools' t')
    (hbooks : Escrow.Books escrow s) (hp : env.isPool p = true) {v : PoolView}
    (hv : v.Shows (pools p)) :
    ∃ v', PoolView.machine.Accepts v (creditEvents s p id) v' ∧ v'.Shows (pools' p) := by
  have hnft := hc.payOut.nftPool
  have hrev := hc.payOut.revenuePool
  have hne := hbooks.pools_distinct hc
  obtain ⟨hn, hr, hother⟩ := hc.payOut.credited hne
  by_cases h₁ : p = q.nftPool
  · subst h₁
    obtain ⟨t₃, -, -, hcr⟩ := hn hp
    have hpub : creditEvents s q.nftPool id = [.credited id (split c.amount).nft] := by
      simp [creditEvents, hc.campaign, hnft, hrev, Ne.symm hne]
    rw [hpub]
    exact hv.recordCredit hcr
  by_cases h₂ : p = q.revenuePool
  · subst h₂
    obtain ⟨t₄, -, -, hcr⟩ := hr hp
    have hpub : creditEvents s q.revenuePool id = [.credited id (split c.amount).revenue] := by
      simp [creditEvents, hc.campaign, hnft, hrev, hne]
    rw [hpub]
    exact hv.recordCredit hcr
  have hpub : creditEvents s p id = [] := by
    simp [creditEvents, hc.campaign, hnft, hrev, Ne.symm h₁, Ne.symm h₂]
  rw [hpub, hother p h₁ h₂]
  exact ⟨v, Machine.accepts_nil.2 rfl, hv⟩

theorem Effect.pool_eq {w w' : World} {a : Action} {p : Address} (h : Effect D w w' a)
    (ha : ∀ signers foreign id version, a ≠ .escrow signers foreign (.complete id version))
    (ha' : ∀ signers call, a ≠ .pool p signers call) : w'.pools p = w.pools p := by
  cases h with
  | escrow h hw =>
    subst hw
    cases h with
    | complete => exact absurd rfl (ha _ _ _ _)
    | initializeEscrow _ hp _ | fund _ hp | activate _ hp _ | refundExpired _ hp | other _ _ hp _ =>
      rw [hp]
  | @pool q signers call s t _ _ hw =>
    have hne : p ≠ q := fun hpq => ha' signers call (by rw [hpq])
    rw [hw]
    exact update_of_ne hne ..
  | transfer _ _ _ hw | issuer _ hw | close _ hw => rw [hw]

/-- **The events explain a pool.** -/
theorem pool_explained {p : Address} (hp : D.isPool p = true) :
    Machine.Explains D.machine PoolView.machine (Deployment.Step.poolEvents p)
      fun w v => v.Shows (w.pools p) ∧ Pool.Books (w.pools p) ∧ Escrow.Books D.escrow w.escrow := by
  refine ⟨fun t v hR => ?_⟩
  obtain ⟨hv, hb, hbe⟩ := hR
  have heff := Deployment.Step.effect t
  have hb' := heff.pool_books hb
  have hbe' := heff.escrow_books hbe
  obtain ⟨w, a, w', h⟩ := t
  -- an action that neither calls the pool nor completes a campaign
  have hquiet : (∀ signers foreign id version, a ≠ .escrow signers foreign (.complete id version)) →
      (∀ signers call, a ≠ .pool p signers call) → Deployment.Step.poolEvents p ⟨w, a, w', h⟩ = [] →
      ∃ v', PoolView.machine.Accepts v (Deployment.Step.poolEvents p ⟨w, a, w', h⟩) v' ∧
        v'.Shows (w'.pools p) ∧ Pool.Books (w'.pools p) ∧ Escrow.Books D.escrow w'.escrow := by
    intro ha ha' hnil
    rw [hnil]
    exact ⟨v, Machine.accepts_nil.2 rfl, (heff.pool_eq ha ha') ▸ hv, hb', hbe'⟩
  cases a with
  | escrow signers foreign call =>
    cases call
    case complete id version =>
      obtain ⟨s, pools, tk, hc, rfl⟩ := Deployment.step_escrow_ok h
      obtain ⟨c, token, q, hc⟩ := complete_ok hc
      obtain ⟨v', hacc, hv'⟩ := hc.explained hbe hp hv
      exact ⟨v', hacc, hv', hb', hbe'⟩
    all_goals exact hquiet (fun _ _ _ _ he => by cases he) (fun _ _ he => by cases he) rfl
  | pool q signers call =>
    by_cases hpq : p = q
    · subst hpq
      obtain ⟨-, s, tk, hc, rfl⟩ := Deployment.step_pool_ok h
      obtain ⟨v', hacc, hv'⟩ := PoolCall.explained hv hb hc
      refine ⟨v', ?_, ?_, hb', hbe'⟩
      · simpa only [Deployment.Step.poolEvents, if_true] using hacc
      · simpa only [update_self] using hv'
    · refine hquiet (fun _ _ _ _ he => by cases he) (fun _ _ he => ?_) (if_neg hpq)
      cases he
      exact hpq rfl
  | transfer | issuer | close =>
    exact hquiet (fun _ _ _ _ he => by cases he) (fun _ _ he => by cases he) rfl

theorem Execution.pool_view (x : Execution D) {p : Address} (hp : D.isPool p = true) :
    ∃ v, PoolView.machine.Accepts .empty (x.poolLog p) v ∧ v.Shows (x.final.pools p) := by
  obtain ⟨live, he⟩ := x.genesis.escrow
  obtain ⟨live', hpool⟩ := x.genesis.pools p
  have h₀ : PoolView.empty.Shows (x.start.pools p) ∧ Pool.Books (x.start.pools p) ∧
      Escrow.Books D.escrow x.start.escrow := by
    rw [he, hpool]
    exact ⟨.empty live', .empty live', .empty live⟩
  obtain ⟨v, hacc, hv, -⟩ := (pool_explained hp).run h₀ x.actions
  exact ⟨v, hacc, hv⟩

/-- **The log of a pool replays.**  A reader of the events accepts them all and
    knows the bindings, the roles, the totals, the credited campaigns, and of
    each manifest its terms, its status and the claims made; any other run with
    the same log agrees on all of this. -/
theorem pool_log_replays (x : Execution D) {p : Address} (hp : D.isPool p = true) :
    ∃ v, PoolView.machine.Accepts .empty (x.poolLog p) v ∧ v.Shows (x.final.pools p) ∧
      ∀ {D' : Deployment} (y : Execution D') (q : Address), D'.isPool q = true →
        y.poolLog q = x.poolLog p → v.Shows (y.final.pools q) := by
  obtain ⟨v, hacc, hv⟩ := x.pool_view hp
  refine ⟨v, hacc, hv, fun y q hq hlog => ?_⟩
  obtain ⟨v', hacc', hv'⟩ := y.pool_view hq
  rw [hlog] at hacc'
  rw [hacc.unique hacc']
  exact hv'

theorem pool_log_replays_sample :
    ∃ v, PoolView.machine.Accepts .empty (Sample.execution.poolLog Sample.nftPool) v ∧
      v.Shows (Sample.execution.final.pools Sample.nftPool) := by
  obtain ⟨v, hacc, hv, -⟩ := pool_log_replays Sample.execution (p := Sample.nftPool) (by decide)
  exact ⟨v, hacc, hv⟩

/-- **The story of a manifest.**  The events of a manifest are its publication
    with the terms of its record, one claim for each claimed allocation with
    what remains after it, and at its expiry the release of all the rest. -/
theorem manifest_story (x : Execution D) {p : Address} (hp : D.isPool p = true) (id : UInt64) :
    ((x.final.pools p).manifest id = none → (x.poolLog p).filter (·.manifestId = some id) = []) ∧
    ∀ m, (x.final.pools p).manifest id = some m → ∃ claims : List ClaimView,
      (claims.map ClaimView.index).Nodup ∧
      (∀ c, c ∈ claims ↔
        (x.final.pools p).allocation id c.index = some ⟨c.recipient, c.amount, true⟩) ∧
      (x.poolLog p).filter (·.manifestId = some id) =
        .manifest id m.totalAmount m.allocationCount m.expiresAt ::
          (claimEvents id m.totalAmount claims ++
            if m.status = .expired then
              [.expired id (m.totalAmount - (claims.map ClaimView.amount).sum)] else []) := by
  obtain ⟨v, hacc, hv⟩ := x.pool_view hp
  rw [PoolView.story_of_accepts hacc id, PoolView.story]
  refine ⟨fun hnone => by rw [hv.manifest_none hnone]; rfl, fun m hm => ?_⟩
  obtain ⟨mv, hmv, hshows⟩ := hv.exists_manifest hm
  refine ⟨mv.claims, hshows.nodup, hshows.claims, ?_⟩
  rw [hmv, Option.elim_some, ManifestView.story, hshows.totalAmount, hshows.allocationCount,
    hshows.expiresAt]
  congr 2
  cases hrel : mv.released with
  | none =>
    have hst : m.status ≠ .expired := by
      rw [← hshows.status, ManifestView.status, hrel]
      simp only [Option.isSome_none, Bool.false_eq_true, if_false]
      split <;> simp
    simp [hst]
  | some released =>
    have hst : m.status = .expired := by
      rw [← hshows.status, ManifestView.status, hrel]; rfl
    have hzero : m.remainingAmount = 0 := ((x.pool_books p).manifest id m hm).1.expired hst
    have hrem := hshows.remaining
    rw [ManifestView.remaining, hrel, hshows.totalAmount, hzero, Option.getD_some] at hrem
    have : released = m.totalAmount - (mv.claims.map ClaimView.amount).sum := by omega
    simp [hst, this]

namespace Sample

/-- A manifest of the NFT pool expires with one of its allocations claimed. -/
def expired : Execution deployment :=
  ⟨start, genesis, actions ++ [.close 2000 2, .pool nftPool (fun _ => true) (.expireManifest 1)]⟩

end Sample

theorem manifest_story_sample :
    (Sample.expired.poolLog Sample.nftPool).filter (·.manifestId = some 7) = [] ∧
    ∃ claims : List ClaimView, (claims.map ClaimView.index).Nodup ∧
      (∀ c, c ∈ claims ↔ (Sample.expired.final.pools Sample.nftPool).allocation 1 c.index =
        some ⟨c.recipient, c.amount, true⟩) ∧
      (Sample.expired.poolLog Sample.nftPool).filter (·.manifestId = some 1) =
        .manifest 1 450 2 2000 ::
          (claimEvents 1 450 claims ++ [.expired 1 (450 - (claims.map ClaimView.amount).sum)]) := by
  have hp : Sample.deployment.isPool Sample.nftPool = true := by decide
  have hm : (Sample.expired.final.pools Sample.nftPool).manifest 1 =
      some ⟨0, 0, 450, 0, 2, 2000, .expired⟩ := by decide +kernel
  exact ⟨(manifest_story Sample.expired hp 7).1 (by decide +kernel),
    (manifest_story Sample.expired hp 1).2 _ hm⟩

example : (Sample.expired.poolLog Sample.nftPool).filter (·.manifestId = some 1) =
    [.manifest 1 450 2 2000, .claimed 1 0 Sample.creator 300 150, .expired 1 150] := by decide +kernel

/-! ## The logs of the escrow and its pools -/

/-- The campaign and the amount of a credit. -/
def Pool.PoolEvent.credit : PoolEvent → Option (UInt64 × ℤ)
  | .credited id amount => some (id, amount)
  | _ => none

/-- The campaign of a completion, with its two pool legs. -/
def Escrow.EscrowEvent.legs : EscrowEvent → Option (UInt64 × ℤ × ℤ)
  | .completed id _ _ _ _ nft revenue _ => some (id, nft, revenue)
  | _ => none

/-- What the escrow credits to the pool `p`, by one of its events. -/
def creditsOf (s : EscrowStorage) (p : Address) (e : EscrowEvent) : List (UInt64 × ℤ) :=
  e.legs.toList.flatMap fun l =>
    (if s.nftPool = some p then [(l.1, l.2.1)] else []) ++
      if s.revenuePool = some p then [(l.1, l.2.2)] else []

theorem creditsOf_none {s : EscrowStorage} {p : Address} {e : EscrowEvent} (he : e.legs = none) :
    creditsOf s p e = [] := by
  rw [creditsOf, he]; rfl

theorem creditsOf_congr {s s' : EscrowStorage} (h : s'.bindings = s.bindings) (p : Address) :
    creditsOf s' p = creditsOf s p := by
  simp only [Bindings.ext_iff, EscrowStorage.bindings] at h
  funext e
  rw [creditsOf, creditsOf, h.2.2.1, h.2.2.2]

theorem EscrowCall.legs_eq_none {env : Env} {s : EscrowStorage} {call : EscrowCall}
    (hcall : ∀ id version, call ≠ .complete id version) :
    ∀ e ∈ call.published env s, e.legs = none := by
  intro e he
  cases call
  case complete id version => exact absurd rfl (hcall id version)
  case activate | refundExpired | acceptGovernance | acceptSettlement =>
    obtain ⟨_, -, rfl⟩ := List.mem_map.1 he
    rfl
  case fund | proposeGovernance | proposeSettlement | pause | unpause =>
    rw [List.mem_singleton.1 he]
    rfl
  all_goals cases he

/-- The credits the pool `p` publishes in a completion are those of its event. -/
theorem credits_of_complete (env : Env) (s : EscrowStorage) (p : Address) (id : UInt64) (version : ℕ) :
    (creditEvents s p id).filterMap PoolEvent.credit =
      (EscrowCall.published env s (.complete id version)).flatMap (creditsOf s p) := by
  cases hc : s.campaign id with
  | none => simp [creditEvents, EscrowCall.published, hc]
  | some c =>
    by_cases h₁ : s.nftPool = some p <;> by_cases h₂ : s.revenuePool = some p <;>
      simp [creditEvents, EscrowCall.published, hc, completedEvent, creditsOf, EscrowEvent.legs, h₁, h₂,
        PoolEvent.credit]

theorem creditsOf_other {env : Env} {s s' : EscrowStorage} {p : Address} {call : EscrowCall}
    (hcall : ∀ id version, call ≠ .complete id version) :
    (call.published env s).flatMap (creditsOf s' p) = [] := by
  rw [List.flatMap_eq_nil_iff]
  exact fun e he => creditsOf_none (EscrowCall.legs_eq_none hcall e he)

theorem PoolCall.credit_eq_none {s : PoolStorage} {call : PoolCall}
    (hcall : ∀ id amount, call ≠ .recordCredit id amount) :
    (call.published s).filterMap PoolEvent.credit = [] := by
  rw [List.filterMap_eq_nil_iff]
  intro e he
  cases call
  case recordCredit id amount => exact absurd rfl (hcall id amount)
  case claim id index =>
    simp only [PoolCall.published, List.bind_eq_flatMap, List.mem_flatMap] at he
    obtain ⟨m, -, a, -, he⟩ := he
    rw [List.mem_singleton.1 he]
    rfl
  case expireManifest | acceptGovernance | acceptEligibilityAuthority =>
    obtain ⟨_, -, rfl⟩ := List.mem_map.1 he
    rfl
  case initializePool | publishManifest | proposeGovernance | proposeEligibilityAuthority | pause
      | unpause =>
    rw [List.mem_singleton.1 he]
    rfl
  all_goals cases he

theorem Effect.credits_logged {w w' : World} {a : Action} {p token : Address} (h : Effect D w w' a)
    (hok : D.machine.step w a = .ok w') (hs : MayServe token D.escrow (w.pools p)) :
    (Deployment.Step.poolEvents p ⟨w, a, w', hok⟩).filterMap PoolEvent.credit =
      (Deployment.Step.escrowEvents ⟨w, a, w', hok⟩).flatMap (creditsOf w'.escrow p) := by
  cases a with
  | escrow signers foreign call =>
    cases call
    case complete id version =>
      have hinit : w.escrow.governance.isSome := by
        obtain ⟨s, pools, tk, hc, -⟩ := Deployment.step_escrow_ok hok
        obtain ⟨c, tok, q, hc⟩ := complete_ok hc
        exact hc.initialized
      rw [creditsOf_congr (h.escrow_bindings hinit).2]
      exact credits_of_complete (D.env w D.escrow signers foreign) w.escrow p id version
    all_goals
      rw [escrowEvents_escrow, creditsOf_other]
      · rfl
      · intro _ _ he
        cases he
  | pool q signers call =>
    have hnil : (Deployment.Step.escrowEvents ⟨w, .pool q signers call, w', hok⟩).flatMap
      (creditsOf w'.escrow p) = [] := rfl
    rw [hnil]
    by_cases hpq : p = q
    · subst hpq
      simp only [Deployment.Step.poolEvents, if_true]
      refine PoolCall.credit_eq_none fun id amount hcall => ?_
      subst hcall
      obtain ⟨-, s, tk, hc, -⟩ := Deployment.step_pool_ok hok
      exact not_recordCredit hs (recordCredit_ok (Outcome.pair_eq_ok.1 hc).1)
    · simp [Deployment.Step.poolEvents, hpq]
  | transfer | issuer | close => rfl

/-- The credits of a pool that may serve the escrow are those of the escrow's
    events; before the escrow is initialized there are none. -/
theorem Execution.credits_logged (x : Execution D) {p token : Address} :
    (x.final.escrow.governance = none → ∀ e ∈ x.escrowLog, e.legs = none) ∧
    (MayServe token D.escrow (x.final.pools p) →
      (x.poolLog p).filterMap PoolEvent.credit = x.escrowLog.flatMap (creditsOf x.final.escrow p)) := by
  refine induction (A := fun _ => True)
    (P := fun h w => (w.escrow.governance = none →
        ∀ e ∈ h.flatMap Deployment.Step.escrowEvents, e.legs = none) ∧
      (MayServe token D.escrow (w.pools p) →
        (h.flatMap (Deployment.Step.poolEvents p)).filterMap PoolEvent.credit =
          (h.flatMap Deployment.Step.escrowEvents).flatMap (creditsOf w.escrow p)))
    (fun _ _ => ⟨fun _ e he => (by cases he), fun _ => rfl⟩) (fun y t _ _ hpre ih => ?_) x
    fun _ _ => trivial
  obtain ⟨ihnone, ih⟩ := ih
  have heff := t.effect
  have hinit : t.post.escrow.governance = none → t.pre.escrow.governance = none := by
    intro hnone
    by_contra hg
    have hg' := (heff.escrow_bindings (Option.isSome_iff_ne_none.2 hg)).1
    rw [hnone] at hg'; cases hg'
  refine ⟨fun hnone => ?_, fun hs => ?_⟩
  · rw [List.flatMap_append, List.flatMap_singleton, List.forall_mem_append]
    refine ⟨ihnone (hinit hnone), ?_⟩
    obtain ⟨w, a, w', hok⟩ := t
    cases a with
    | escrow signers foreign call =>
      refine EscrowCall.legs_eq_none fun id version hcall => ?_
      subst hcall
      obtain ⟨s, pools, tk, hc, -⟩ := Deployment.step_escrow_ok hok
      obtain ⟨c, tok, q, hc⟩ := complete_ok hc
      have hg := hc.initialized
      rw [hinit hnone] at hg; cases hg
    | pool | transfer | issuer | close => exact fun e he => by cases he
  · have hs₀ := heff.mayServe hs
    -- the earlier events credit what they did before the step
    have hold : (y.history.flatMap Deployment.Step.escrowEvents).flatMap (creditsOf t.post.escrow p) =
        (y.history.flatMap Deployment.Step.escrowEvents).flatMap (creditsOf t.pre.escrow p) := by
      by_cases hg : t.pre.escrow.governance = none
      · refine List.flatMap_congr fun e he => ?_
        rw [creditsOf_none (ihnone hg e he), creditsOf_none (ihnone hg e he)]
      · rw [creditsOf_congr (heff.escrow_bindings (Option.isSome_iff_ne_none.2 hg)).2]
    rw [List.flatMap_append, List.flatMap_singleton, List.filterMap_append, List.flatMap_append,
      List.flatMap_singleton, List.flatMap_append, hold, ih hs₀, heff.credits_logged t.ok hs₀]

/-- **The logs reconcile.**  The credits a pool publishes are the legs of the
    completions the escrow publishes: the same campaigns, with the same
    amounts, in the same order, and nothing else. -/
theorem credits_reconcile (x : Execution D) {nft rev : Address}
    (hn : x.final.escrow.nftPool = some nft) (hr : x.final.escrow.revenuePool = some rev)
    (hpn : D.isPool nft = true) (hpr : D.isPool rev = true) :
    (x.poolLog nft).filterMap PoolEvent.credit =
        x.escrowLog.filterMap (fun e => e.legs.map fun l => (l.1, l.2.1)) ∧
      (x.poolLog rev).filterMap PoolEvent.credit =
        x.escrowLog.filterMap (fun e => e.legs.map fun l => (l.1, l.2.2)) := by
  obtain ⟨tok, tr, hb⟩ := x.bound_pools hn hr
  have hne := hb.distinct
  rw [x.credits_logged.2 (.inr (hb.nft hpn)), x.credits_logged.2 (.inr (hb.revenue hpr)),
    List.filterMap_eq_flatMap_toList, List.filterMap_eq_flatMap_toList]
  constructor
  · refine List.flatMap_congr fun e _ => ?_
    cases he : e.legs <;> simp [creditsOf, he, hn, hr, Ne.symm hne]
  · refine List.flatMap_congr fun e _ => ?_
    cases he : e.legs <;> simp [creditsOf, he, hn, hr, hne]

theorem credits_reconcile_sample :
    (Sample.execution.poolLog Sample.nftPool).filterMap PoolEvent.credit = [(1, 500)] := by
  have hn : Sample.execution.final.escrow.nftPool = some Sample.nftPool := by decide +kernel
  have hr : Sample.execution.final.escrow.revenuePool = some Sample.revenuePool := by decide +kernel
  have h := (credits_reconcile Sample.execution hn hr (by decide) (by decide)).1
  rw [h]
  decide +kernel

end TogetherFi
