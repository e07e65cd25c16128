/-
  The events of the escrow, and what can be rebuilt from them.

  `EscrowCall.published` lists what a successful call publishes.  `EscrowView`
  is what a reader of the events knows, and `EscrowView.step` takes one more
  event in, or refuses it when no run of the escrow publishes it there.
  `EscrowCall.explained` shows that the reader refuses nothing and ends with
  the campaigns, the liability, the pause flag and the proposed roles of the
  storage, and the holder of a role once it was handed over; the first holders
  are in no event.
  `EscrowView.story_of_accepts` determines all events of one campaign from what
  the reader knows of it.
-/
import TogetherFi.Pool.Events
import TogetherFi.Escrow.Books
import TogetherFi.Escrow.Roles

namespace TogetherFi

open Outcome Function Rotation

namespace Escrow

/-! ## Events -/

/-- An event of the escrow: its topics, then its data. -/
inductive EscrowEvent where
  | funded (campaignId : UInt64) (sponsor : Address) (amount : ℤ) (now : UInt64)
  | activated (campaignId : UInt64) (creator : Address) (termsHash : List UInt8)
      (expiresAt : UInt64)
  | completed (campaignId : UInt64) (creatorAddress : Address)
      (total creator service nft revenue referrer : ℤ)
  | refunded (campaignId : UInt64) (sponsor : Address) (amount : ℤ)
  | paused
  | unpaused
  | roleProp (role : ℕ) (account : Address)
  | roleAcc (role : ℕ) (next : Address)
  deriving DecidableEq

/-- The campaign an event is about. -/
def EscrowEvent.campaignId : EscrowEvent → Option UInt64
  | .funded id .. | .activated id .. | .completed id .. | .refunded id .. => some id
  | _ => none

/-- The event that closes a `complete` of campaign `c`. -/
def completedEvent (campaignId : UInt64) (creator : Address) (total : ℤ) : EscrowEvent :=
  .completed campaignId creator total (split total).creator (split total).service
    (split total).nft (split total).revenue (split total).referrer

/-- What a call publishes when it succeeds on the storage `s`.  The other
    contracts it calls publish their own events. -/
def EscrowCall.published (env : Env) (s : EscrowStorage) : EscrowCall → List EscrowEvent
  | .fund id sponsor amount => [.funded id sponsor amount env.timestamp]
  | .activate id creator _ terms =>
    (s.campaign id).toList.map fun c => .activated id creator terms c.expiresAt
  | .complete id _ => (s.campaign id).toList.map fun c => completedEvent id c.creator c.amount
  | .refundExpired id => (s.campaign id).toList.map fun c => .refunded id c.sponsor c.amount
  | .proposeGovernance account => [.roleProp 1 account]
  | .acceptGovernance => s.pendingGovernance.toList.map (.roleAcc 1)
  | .proposeSettlement account => [.roleProp 2 account]
  | .acceptSettlement => s.pendingSettlement.toList.map (.roleAcc 2)
  | .pause => [.paused]
  | .unpause => [.unpaused]
  | _ => []

/-! ## What a reader knows -/

/-- How far a campaign is, with what was committed on the way. -/
inductive Stage where
  | funded
  | active (creator : Address) (termsHash : List UInt8)
  | completed (creator : Address) (termsHash : List UInt8)
  | refunded (activation : Option (Address × List UInt8))
  deriving DecidableEq

namespace Stage

/-- A funded campaign is activated. -/
def activate (creator : Address) (termsHash : List UInt8) : Stage → Option Stage
  | .funded => some (.active creator termsHash)
  | _ => none

/-- An active campaign is completed for its creator. -/
def complete (creator : Address) : Stage → Option Stage
  | .active creator' terms => if creator' = creator then some (.completed creator terms) else none
  | _ => none

/-- A campaign that is not settled is refunded. -/
def refund : Stage → Option Stage
  | .funded => some (.refunded none)
  | .active creator terms => some (.refunded (some (creator, terms)))
  | _ => none

end Stage

/-- A campaign as its events tell it. -/
structure CampaignView where
  sponsor : Address
  amount : ℤ
  fundedAt : UInt64
  expiresAt : UInt64
  stage : Stage
  deriving DecidableEq

/-- What a reader of the events knows of the escrow. -/
structure EscrowView where
  campaign : UInt64 → Option CampaignView
  liability : ℤ
  paused : Bool
  /-- the account proposed for a role -/
  pending : ℕ → Option Address
  /-- the account that last accepted a role -/
  holder : ℕ → Option Address

namespace EscrowView

/-- Nothing is known yet. -/
def empty : EscrowView where
  campaign := fun _ => none
  liability := 0
  paused := false
  pending := fun _ => none
  holder := fun _ => none

/-- The reader writes down campaign `c`. -/
def write (v : EscrowView) (id : UInt64) (c : CampaignView) (liability : ℤ) : EscrowView :=
  { v with campaign := update v.campaign id (some c), liability := liability }

/-- One more event. -/
def step (v : EscrowView) : EscrowEvent → Outcome Unit Empty EscrowView
  | .funded id sponsor amount now => do
    rejectIf (v.paused ∨ (v.campaign id).isSome ∨ amount < minimumCampaignAmount) ()
    return v.write id ⟨sponsor, amount, now, now + expiry, .funded⟩ (v.liability + amount)
  | .activated id creator terms expiresAt => do
    let c ← okOr (v.campaign id) ()
    rejectIf (v.paused ∨ terms = [] ∨ expiresAt ≠ c.expiresAt) ()
    let stage ← okOr (c.stage.activate creator terms) ()
    return v.write id { c with stage } v.liability
  | .completed id creatorAddress total creator service nft revenue referrer => do
    let c ← okOr (v.campaign id) ()
    rejectIf (v.paused ∨ total ≠ c.amount) ()
    rejectIf (.completed id creatorAddress total creator service nft revenue referrer ≠
      completedEvent id creatorAddress total) ()
    let stage ← okOr (c.stage.complete creatorAddress) ()
    return v.write id { c with stage } (v.liability - total)
  | .refunded id sponsor amount => do
    let c ← okOr (v.campaign id) ()
    rejectIf (sponsor ≠ c.sponsor ∨ amount ≠ c.amount) ()
    let stage ← okOr c.stage.refund ()
    return v.write id { c with stage } (v.liability - amount)
  | .paused => return { v with paused := true }
  | .unpaused => return { v with paused := false }
  | .roleProp role account => return { v with pending := update v.pending role (some account) }
  | .roleAcc role next => do
    rejectIf (v.pending role ≠ some next) ()
    return { v with
      pending := update v.pending role none
      holder := update v.holder role (some next) }

/-- The reader. -/
def machine : Machine EscrowView EscrowEvent (Fault Unit Empty) := ⟨step⟩

@[simp] theorem machine_step (v : EscrowView) (e : EscrowEvent) : machine.step v e = v.step e := rfl

end EscrowView

theorem EscrowView.step_completed {v : EscrowView} {id : UInt64} {c : CampaignView} {creator : Address}
    {stage : Stage} (hc : v.campaign id = some c) (hrun : v.paused = false)
    (hst : c.stage.complete creator = some stage) :
    v.step (completedEvent id creator c.amount) =
      .ok (v.write id { c with stage } (v.liability - c.amount)) := by
  simp [completedEvent, step, hc, okOr, rejectIf, hrun, hst]

/-! ## The events of one campaign -/

/-- The events of a campaign, from what a reader knows of it at the end. -/
def CampaignView.story (id : UInt64) (c : CampaignView) : List EscrowEvent :=
  .funded id c.sponsor c.amount c.fundedAt ::
    match c.stage with
    | .funded => []
    | .active creator terms => [.activated id creator terms c.expiresAt]
    | .completed creator terms =>
      [.activated id creator terms c.expiresAt, completedEvent id creator c.amount]
    | .refunded none => [.refunded id c.sponsor c.amount]
    | .refunded (some (creator, terms)) =>
      [.activated id creator terms c.expiresAt, .refunded id c.sponsor c.amount]

/-- The events of campaign `id` so far. -/
def EscrowView.story (v : EscrowView) (id : UInt64) : List EscrowEvent :=
  (v.campaign id).elim [] (CampaignView.story id)

namespace EscrowView

variable {v v' : EscrowView} {e : EscrowEvent}

theorem story_write (v : EscrowView) (id id' : UInt64) (c : CampaignView) (l : ℤ) :
    (v.write id c l).story id' = if id' = id then c.story id else v.story id' := by
  unfold story write
  by_cases h : id' = id
  · subst h; simp
  · simp [h]

/-- **One more event** is one more event in the story of its campaign. -/
theorem story_step (h : v.step e = .ok v') (id : UInt64) :
    v'.story id = v.story id ++ if e.campaignId = some id then [e] else [] := by
  -- the campaign of the event is written, and its story is longer by the event
  have hwrite : ∀ {id' : UInt64} {c : CampaignView} {l : ℤ}, e.campaignId = some id' →
      c.story id' = v.story id' ++ [e] → v' = v.write id' c l →
      v'.story id = v.story id ++ if e.campaignId = some id then [e] else [] := by
    rintro id' c l he hc rfl
    rw [story_write, he]
    by_cases hid : id = id'
    · subst hid; simp [hc]
    · simp [hid, Ne.symm hid]
  cases e with
  | funded id' sponsor amount now =>
    simp only [step, bind_eq_ok, rejectIf_eq_ok, exists_const, pure_eq, Except.ok.injEq, not_or] at h
    obtain ⟨⟨-, hnew, -⟩, rfl⟩ := h
    have hnone : v.campaign id' = none := by simpa using hnew
    exact hwrite rfl (by simp [CampaignView.story, story, hnone]) rfl
  | activated id' creator terms expiresAt =>
    simp only [step, bind_eq_ok, okOr_eq_ok, rejectIf_eq_ok, exists_const, pure_eq, Except.ok.injEq,
      not_or, not_not] at h
    obtain ⟨c, hc, ⟨-, -, rfl⟩, stage, hst, rfl⟩ := h
    refine hwrite rfl ?_ rfl
    cases hs : c.stage with
    | funded =>
      rw [hs, Stage.activate, Option.some.injEq] at hst
      subst hst
      simp [CampaignView.story, story, hc, hs]
    | _ => rw [hs] at hst; cases hst
  | completed id' creatorAddress total creator service nft revenue referrer =>
    simp only [step, bind_eq_ok, okOr_eq_ok, rejectIf_eq_ok, exists_const, pure_eq, Except.ok.injEq,
      not_or, not_not] at h
    obtain ⟨c, hc, ⟨-, rfl⟩, he, stage, hst, rfl⟩ := h
    refine hwrite rfl ?_ rfl
    rw [he]
    cases hs : c.stage with
    | active creator' terms =>
      rw [hs, Stage.complete] at hst
      split at hst
      · rename_i hcr
        subst hcr
        obtain rfl := Option.some.inj hst
        simp [CampaignView.story, story, hc, hs]
      · cases hst
    | _ => rw [hs] at hst; cases hst
  | refunded id' sponsor amount =>
    simp only [step, bind_eq_ok, okOr_eq_ok, rejectIf_eq_ok, exists_const, pure_eq, Except.ok.injEq,
      not_or, not_not] at h
    obtain ⟨c, hc, ⟨rfl, rfl⟩, stage, hst, rfl⟩ := h
    refine hwrite rfl ?_ rfl
    cases hs : c.stage with
    | funded | active =>
      rw [hs, Stage.refund, Option.some.injEq] at hst
      subst hst
      simp [CampaignView.story, story, hc, hs]
    | _ => rw [hs] at hst; cases hst
  | paused | unpaused | roleProp =>
    obtain rfl := Except.ok.inj h
    simp [story, EscrowEvent.campaignId]
  | roleAcc =>
    simp only [step, bind_eq_ok, rejectIf_eq_ok, exists_const, pure_eq, Except.ok.injEq] at h
    obtain ⟨-, rfl⟩ := h
    simp [story, EscrowEvent.campaignId]

/-- **The events of one campaign** are the story of what the reader knows of it. -/
theorem story_of_accepts {log : List EscrowEvent} (h : machine.Accepts empty log v) (id : UInt64) :
    log.filter (·.campaignId = some id) = v.story id := by
  refine h.induction (P := fun log v => log.filter (·.campaignId = some id) = v.story id) rfl
    fun {log b e b'} _ ih hstep => ?_
  rw [List.filter_append, ih, story_step hstep id]
  by_cases he : e.campaignId = some id <;> simp [he]

end EscrowView

/-! ## The reader knows the storage -/

/-- The stage of a stored campaign. -/
def Campaign.stage (c : Campaign) : Stage :=
  match c.status with
  | .funded => .funded
  | .active => .active c.creator c.termsHash
  | .completed => .completed c.creator c.termsHash
  | .refunded => .refunded (if c.operationVersion = 0 then none else some (c.creator, c.termsHash))

/-- What the events tell of a campaign: all but its referrer. -/
def Campaign.view (c : Campaign) : CampaignView :=
  ⟨c.sponsor, c.amount, c.fundedAt, c.expiresAt, c.stage⟩

/-- What the reader knows is what is stored.  Who holds a role is known once it has been
    handed over. -/
structure EscrowView.Shows (v : EscrowView) (s : EscrowStorage) : Prop where
  campaign : v.campaign = fun id => (s.campaign id).map Campaign.view
  liability : v.liability = s.liability
  paused : v.paused = s.paused.getD false
  pending : ∀ r, v.pending (roleCode r) = s.roles.pending r
  holder : ∀ r a, v.holder (roleCode r) = some a → s.roles.holder r = some a
  fresh : s.governance = none → v.paused = false ∧ ∀ r, v.holder (roleCode r) = none

namespace EscrowView.Shows

variable {v : EscrowView} {s s' : EscrowStorage}

theorem empty (live : EscrowEntry → ℕ) : EscrowView.empty.Shows (.empty live) := by
  refine ⟨rfl, rfl, rfl, fun r => ?_, fun r a h => (by cases h), fun _ => ⟨rfl, fun _ => rfl⟩⟩
  cases r <;> rfl

theorem campaign_eq (h : v.Shows s) (id : UInt64) :
    v.campaign id = (s.campaign id).map Campaign.view := by
  rw [h.campaign]

/-- A call that changes neither the books nor the roles nor the pause flag. -/
theorem same (h : v.Shows s) (hb : SameBooks s s') (hr : s'.roles = s.roles)
    (hp : s'.paused = s.paused) : v.Shows s' := by
  refine ⟨?_, ?_, ?_, ?_, ?_, fun hg => h.fresh ?_⟩
  · rw [hb.campaign]; exact h.campaign
  · rw [h.liability, EscrowStorage.liability, EscrowStorage.liability, hb.liability]
  · rw [hp]; exact h.paused
  · rw [hr]; exact h.pending
  · rw [hr]; exact h.holder
  · have := hb.initialized
    rw [hg] at this
    simpa using this.symm

theorem write (h : v.Shows s) {id : UInt64} {c : Campaign} {l : ℤ} (hg : s.governance.isSome)
    (hc : s'.campaign = update s.campaign id (some c)) (hl : s'.liability = l)
    (hr : s'.roles = s.roles) (hp : s'.paused = s.paused) :
    (v.write id c.view l).Shows s' := by
  have hg' : s'.governance = s.governance :=
    congrArg (fun r : Rotation.Roles Address => r.holder .governance) hr
  refine ⟨?_, hl.symm, ?_, ?_, ?_, fun hn => ?_⟩
  · funext id'
    rw [hc, EscrowView.write, h.campaign]
    by_cases hid : id' = id
    · subst hid; simp
    · simp [hid]
  · rw [hp]; exact h.paused
  · rw [hr]; exact h.pending
  · rw [hr]; exact h.holder
  · rw [← hg', hn] at hg; cases hg

end EscrowView.Shows

/-! ## What each call publishes -/

/-- The pause flag after a call. -/
def EscrowCall.pausedAfter (p : Option Bool) : EscrowCall → Option Bool
  | .initializeEscrow .. | .unpause => some false
  | .pause => some true
  | _ => p

variable {env : Env} {s s' : EscrowStorage} {pools pools' : Pools} {t t' : Tokens}

theorem setPaused_paused {b : Bool} (h : setPaused b env s = .ok s') : s'.paused = some b := by
  simp only [setPaused, currentGovernance, bind_eq_ok, init_eq_ok, okOr_eq_ok, requireAuth_eq_ok,
    exists_const, pure_eq, Except.ok.injEq] at h
  obtain ⟨_, ⟨-, rfl⟩, _, -, -, rfl⟩ := h
  rfl

theorem propose_paused {role : ℕ} {account : Address} (h : propose env role account s = .ok s') :
    s'.paused = s.paused := by
  simp only [propose, currentGovernance, bind_eq_ok, init_eq_ok, okOr_eq_ok, requireAuth_eq_ok,
    exists_const, pure_eq, Except.ok.injEq] at h
  obtain ⟨_, ⟨-, rfl⟩, _, -, -, rfl⟩ := h
  split <;> rfl

theorem accept_paused {role : ℕ} (h : accept env role s = .ok s') : s'.paused = s.paused := by
  simp only [accept, bind_eq_ok, init_eq_ok, okOr_eq_ok, requireAuth_eq_ok, exists_const, pure_eq,
    Except.ok.injEq] at h
  obtain ⟨_, ⟨-, rfl⟩, _, -, -, rfl⟩ := h
  split <;> rfl

theorem readInstance_paused {β : Type} {get : EscrowStorage → Result β} {b : β}
    (h : readInstance env get s = .ok (b, s')) : s'.paused = s.paused := by
  simp only [readInstance, bind_eq_ok, init_eq_ok, pure_eq, Except.ok.injEq, Prod.mk.injEq] at h
  obtain ⟨_, ⟨-, rfl⟩, _, -, -, rfl⟩ := h
  rfl

/-- **What a call does to the pause flag.** -/
theorem EscrowCall.paused_eq {call : EscrowCall} (h : call.exec env s pools t = .ok (s', pools', t')) :
    s'.paused = call.pausedAfter s.paused := by
  have heff := EscrowCall.effect h
  cases call
  case initializeEscrow =>
    cases heff with
    | initializeEscrow h => obtain ⟨_, hs⟩ := h.post; rw [hs]; rfl
    | other hno => cases hno
  case fund =>
    cases heff with
    | fund h => obtain ⟨_, hs⟩ := h.post; rw [hs]; rfl
    | other hno => cases hno
  case activate =>
    cases heff with
    | activate h => obtain ⟨_, hs⟩ := h.post; rw [hs]; rfl
    | other hno => cases hno
  case complete =>
    cases heff with
    | complete h => obtain ⟨_, hs⟩ := h.post; rw [hs]; rfl
    | other hno => cases hno
  case refundExpired =>
    cases heff with
    | refundExpired h => obtain ⟨_, hs⟩ := h.post; rw [hs]; rfl
    | other hno => cases hno
  case proposeGovernance | proposeSettlement => exact propose_paused (pair_eq_ok.1 h).1
  case acceptGovernance | acceptSettlement => exact accept_paused (pair_eq_ok.1 h).1
  case pause | unpause => exact setPaused_paused (pair_eq_ok.1 h).1
  case configVersion | poolDestinations | tokenContract | serviceTreasury | settlementAuthority =>
    obtain ⟨⟨_, hc⟩, -⟩ := snd_pair_eq_ok.1 h
    exact readInstance_paused hc
  case getCampaign =>
    obtain ⟨⟨_, hc⟩, -⟩ := snd_pair_eq_ok.1 h
    simp only [Escrow.getCampaign, bind_eq_ok, pure_eq, Except.ok.injEq, Prod.mk.injEq] at hc
    obtain ⟨_, -, -, rfl⟩ := hc
    rfl
  case isPaused =>
    obtain ⟨rfl, -⟩ := Prod.mk.inj (Except.ok.inj h)
    rfl
  case governance =>
    simp only [exec, bind_eq_ok, pure_eq, Except.ok.injEq, Prod.mk.injEq] at h
    obtain ⟨_, -, rfl, -⟩ := h
    rfl
  case extendInstanceTtl =>
    have hc := (pair_eq_ok.1 h).1
    simp only [Escrow.extendInstanceTtl, bind_eq_ok, init_eq_ok, pure_eq, Except.ok.injEq] at hc
    obtain ⟨_, ⟨-, rfl⟩, rfl⟩ := hc
    rfl
  case extendCampaignTtl =>
    have hc := (pair_eq_ok.1 h).1
    simp only [Escrow.extendCampaignTtl, bind_eq_ok, pure_eq, Except.ok.injEq] at hc
    obtain ⟨_, -, rfl⟩ := hc
    rfl

namespace EscrowView.Shows

variable {v : EscrowView} {role : Role} {a : Address}

theorem roles (h : v.Shows s) (hb : SameBooks s s') (hp : s'.paused = s.paused)
    {pending holder : ℕ → Option Address} (hg : s.governance.isSome)
    (hpending : ∀ r, pending (roleCode r) = s'.roles.pending r)
    (hholder : ∀ r a, holder (roleCode r) = some a → s'.roles.holder r = some a) :
    ({ v with pending := pending, holder := holder } : EscrowView).Shows s' := by
  refine ⟨?_, ?_, ?_, hpending, hholder, fun hn => ?_⟩
  · rw [hb.campaign]; exact h.campaign
  · rw [h.liability, EscrowStorage.liability, EscrowStorage.liability, hb.liability]
  · rw [hp]; exact h.paused
  · rw [← hb.initialized, hn] at hg; cases hg

theorem propose (h : v.Shows s) (hb : SameBooks s s') (hp : s'.paused = s.paused)
    (hg : s.governance.isSome) (hr : s'.roles = s.roles.proposed role a) :
    ({ v with pending := update v.pending (roleCode role) (some a) } : EscrowView).Shows s' := by
  refine h.roles hb hp hg (fun r => ?_) (fun r b hb' => ?_)
  · rw [hr]
    by_cases hrole : r = role
    · subst hrole; simp
    · have hne : roleCode r ≠ roleCode role := fun he => hrole (roleCode_injective he)
      simp only [Roles.proposed, update_of_ne hne, update_of_ne hrole]
      exact h.pending r
  · rw [hr]; exact h.holder r b hb'

theorem accept (h : v.Shows s) (role : Role) (hb : SameBooks s s') (hp : s'.paused = s.paused)
    (hg : s.governance.isSome) (hr : s'.roles = s.roles.accepted role a) :
    ({ v with
        pending := update v.pending (roleCode role) none
        holder := update v.holder (roleCode role) (some a) } : EscrowView).Shows s' := by
  refine h.roles hb hp hg (fun r => ?_) (fun r b hb' => ?_)
  · rw [hr]
    by_cases hrole : r = role
    · subst hrole; simp
    · have hne : roleCode r ≠ roleCode role := fun he => hrole (roleCode_injective he)
      simp only [Roles.accepted, update_of_ne hne, update_of_ne hrole]
      exact h.pending r
  · rw [hr]
    by_cases hrole : r = role
    · subst hrole
      rw [update_self] at hb'
      simpa using hb'
    · have hne : roleCode r ≠ roleCode role := fun he => hrole (roleCode_injective he)
      rw [update_of_ne hne] at hb'
      simp only [Roles.accepted, update_of_ne hrole]
      exact h.holder r b hb'

theorem setPaused (h : v.Shows s) (hg : s.governance.isSome) (hb : SameBooks s s')
    (hr : s'.roles = s.roles) {b : Bool} (hp : s'.paused = some b) :
    ({ v with paused := b } : EscrowView).Shows s' := by
  refine ⟨?_, ?_, ?_, ?_, ?_, fun hn => ?_⟩
  · rw [hb.campaign]; exact h.campaign
  · rw [h.liability, EscrowStorage.liability, EscrowStorage.liability, hb.liability]
  · rw [hp]; rfl
  · rw [hr]; exact h.pending
  · rw [hr]; exact h.holder
  · rw [← hb.initialized, hn] at hg; cases hg

/-- The first call of an escrow publishes nothing, and there is nothing to know yet. -/
theorem installed {g se tok tr nft rev d : Address} {salt : BytesN32} {escrow : Address}
    (h : v.Shows s) (hbooks : Books escrow s)
    (hi : Initialize env g se tok tr nft rev d salt s pools s') : v.Shows s' := by
  obtain ⟨live, hempty⟩ := hbooks.fresh hi.fresh
  obtain ⟨hpaused, hholder⟩ := h.fresh hi.fresh
  obtain ⟨live', hs⟩ := hi.post
  have hl : s.liability = 0 := by
    rw [EscrowStorage.liability, hempty.liability]; rfl
  refine ⟨?_, ?_, ?_, fun r => ?_, fun r a ha => ?_, fun hn => ?_⟩
  · rw [hs]; exact h.campaign
  · rw [hs, h.liability, hl]; rfl
  · rw [hs, hpaused]; rfl
  · rw [hi.roles]; exact h.pending r
  · rw [hholder r] at ha; cases ha
  · rw [hs] at hn; cases hn

theorem fund {id : UInt64} {sponsor token : Address} {amount : ℤ} (h : v.Shows s)
    (hf : Fund env id sponsor amount token s t s' t') :
    ∃ v', machine.Accepts v [.funded id sponsor amount env.timestamp] v' ∧ v'.Shows s' := by
  obtain ⟨live, hs⟩ := hf.post
  have hrun : v.paused = false := h.paused.trans hf.running
  have hnew : v.campaign id = none := by rw [h.campaign_eq, hf.newId]; rfl
  refine ⟨v.write id (newCampaign env sponsor amount).view (v.liability + amount),
    Machine.accepts_singleton.2 ?_, h.write hf.initialized (by rw [hs]) (by rw [hs, h.liability]; rfl)
      (by rw [hs]; rfl) (by rw [hs])⟩
  simp only [machine_step, step, bind_eq_ok, rejectIf_eq_ok, exists_const, pure_eq, Except.ok.injEq]
  exact ⟨by simp [hrun, hnew, hf.minimum], rfl⟩

theorem activate {id : UInt64} {creator : Address} {referrer : Option Address} {terms : List UInt8}
    {c : Campaign} (h : v.Shows s) (ha : Activate env id creator referrer terms c s s') :
    ∃ v', machine.Accepts v [.activated id creator terms c.expiresAt] v' ∧ v'.Shows s' := by
  obtain ⟨live, hs⟩ := ha.post
  have hrun : v.paused = false := h.paused.trans ha.running
  have hc : v.campaign id = some c.view := by rw [h.campaign_eq, ha.campaign]; rfl
  have hst : c.view.stage = .funded := by simp [Campaign.view, Campaign.stage, ha.funded]
  refine ⟨v.write id (c.activated creator referrer terms).view v.liability,
    Machine.accepts_singleton.2 ?_, h.write ha.initialized (by rw [hs]) (by rw [hs, h.liability]; rfl)
      (by rw [hs]; rfl) (by rw [hs])⟩
  simp only [machine_step, step, bind_eq_ok, okOr_eq_ok, rejectIf_eq_ok, exists_const, pure_eq,
    Except.ok.injEq]
  exact ⟨c.view, hc, by simp [hrun, ha.terms, Campaign.view], .active creator terms,
    by rw [hst]; rfl, rfl⟩

theorem complete {id : UInt64} {version : ℕ} {c : Campaign} {token : Address} {q : Payees}
    (h : v.Shows s) (hc : Complete env id version c token q s pools t s' pools' t') :
    ∃ v', machine.Accepts v [completedEvent id c.creator c.amount] v' ∧ v'.Shows s' := by
  obtain ⟨live, hs⟩ := hc.post
  have hrun : v.paused = false := h.paused.trans hc.running
  have hview : v.campaign id = some c.view := by rw [h.campaign_eq, hc.campaign]; rfl
  have hst : c.view.stage = .active c.creator c.termsHash := by
    simp [Campaign.view, Campaign.stage, hc.active]
  refine ⟨v.write id ({ c with status := .completed } : Campaign).view (v.liability - c.amount),
    Machine.accepts_singleton.2 ?_, h.write hc.initialized (by rw [hs]) (by rw [hs, h.liability]; rfl)
      (by rw [hs]; rfl) (by rw [hs])⟩
  exact step_completed (c := c.view) hview hrun (by rw [hst]; simp [Stage.complete, Campaign.stage])

theorem refundExpired {id : UInt64} {c : Campaign} {token : Address} (h : v.Shows s)
    (hb : Books env.self s) (hr : Refund env id c token s t s' t') :
    ∃ v', machine.Accepts v [.refunded id c.sponsor c.amount] v' ∧ v'.Shows s' := by
  obtain ⟨live, hs⟩ := hr.post
  have hc : v.campaign id = some c.view := by rw [h.campaign_eq, hr.campaign]; rfl
  have hstage : c.view.stage.refund = some ({ c with status := .refunded } : Campaign).stage := by
    rcases hr.pending with hst | hst
    · have hver := ((hb.campaign id c hr.campaign).active hst).version
      simp [Campaign.view, Campaign.stage, hst, hver, Stage.refund]
    · have hver := ((hb.campaign id c hr.campaign).funded hst).version
      simp [Campaign.view, Campaign.stage, hst, hver, Stage.refund]
  refine ⟨v.write id ({ c with status := .refunded } : Campaign).view (v.liability - c.amount),
    Machine.accepts_singleton.2 ?_, h.write hr.initialized (by rw [hs]) (by rw [hs, h.liability]; rfl)
      (by rw [hs]; rfl) (by rw [hs])⟩
  simp only [machine_step, step, bind_eq_ok, okOr_eq_ok, rejectIf_eq_ok, exists_const, pure_eq,
    Except.ok.injEq]
  exact ⟨c.view, hc, by simp [Campaign.view], _, hstage, rfl⟩

theorem accepted (h : v.Shows s) (role : Role) (hc : Escrow.accept env (roleCode role) s = .ok s')
    (hb : SameBooks s s') (hp : s'.paused = s.paused) :
    ∃ a v', s.roles.pending role = some a ∧ machine.Accepts v [.roleAcc (roleCode role) a] v' ∧
      v'.Shows s' := by
  obtain ⟨a, hg, ha, -, hr⟩ := accept_ok hc
  cases role with
  | governance =>
    have hpend : v.pending 1 = some a := (h.pending .governance).trans ha
    refine ⟨a, _, ha, Machine.accepts_singleton.2 ?_, h.accept .governance hb hp hg hr⟩
    simp [step, hpend, rejectIf, roleCode]
  | authority =>
    have hpend : v.pending 2 = some a := (h.pending .authority).trans ha
    refine ⟨a, _, ha, Machine.accepts_singleton.2 ?_, h.accept .authority hb hp hg hr⟩
    simp [step, hpend, rejectIf, roleCode]

end EscrowView.Shows

/-- **A call and its events.**  The reader accepts what a successful call
    publishes, and knows the storage after it. -/
theorem EscrowCall.explained {v : EscrowView} {call : EscrowCall} (hv : v.Shows s)
    (hb : Books env.self s) (h : call.exec env s pools t = .ok (s', pools', t')) :
    ∃ v', EscrowView.machine.Accepts v (call.published env s) v' ∧ v'.Shows s' := by
  have heff := EscrowCall.effect h
  have hpaused := EscrowCall.paused_eq h
  have hrot := (EscrowCall.rotates h).1
  -- a call that publishes nothing and changes nothing the reader knows
  have hquiet : call.published env s = [] → call.roleEvent = .keep →
      call.pausedAfter s.paused = s.paused → SameBooks s s' →
      ∃ v', EscrowView.machine.Accepts v (call.published env s) v' ∧ v'.Shows s' := by
    intro he hk hp hsame
    rw [hk] at hrot
    rw [he]
    exact ⟨v, Machine.accepts_nil.2 rfl, hv.same hsame (Rotates.keep_eq hrot) (hpaused.trans hp)⟩
  cases heff with
  | initializeEscrow hi => exact ⟨v, Machine.accepts_nil.2 rfl, hv.installed hb hi⟩
  | fund hf _ => exact hv.fund hf
  | activate ha _ _ =>
    rw [EscrowCall.published, ha.campaign]
    exact hv.activate ha
  | complete hc =>
    rw [EscrowCall.published, hc.campaign]
    exact hv.complete hc
  | refundExpired hr _ =>
    rw [EscrowCall.published, hr.campaign]
    exact hv.refundExpired hb hr
  | other hno hsame =>
    cases call
    case initializeEscrow | fund | activate | complete | refundExpired => cases hno
    case proposeGovernance | proposeSettlement =>
      obtain ⟨g, hg, -, hr⟩ := propose_ok (pair_eq_ok.1 h).1
      exact ⟨_, Machine.accepts_singleton.2 rfl, hv.propose hsame hpaused (by rw [hg]; rfl) hr⟩
    case acceptGovernance =>
      obtain ⟨a, v', ha, hacc, hv'⟩ := hv.accepted .governance (pair_eq_ok.1 h).1 hsame hpaused
      have ha : s.pendingGovernance = some a := ha
      exact ⟨v', by rw [published, ha]; exact hacc, hv'⟩
    case acceptSettlement =>
      obtain ⟨a, v', ha, hacc, hv'⟩ := hv.accepted .authority (pair_eq_ok.1 h).1 hsame hpaused
      have ha : s.pendingSettlement = some a := ha
      exact ⟨v', by rw [published, ha]; exact hacc, hv'⟩
    case pause | unpause =>
      obtain ⟨g, hg, -, hr⟩ := setPaused_ok (pair_eq_ok.1 h).1
      exact ⟨_, Machine.accepts_singleton.2 rfl,
        hv.setPaused (by rw [hg]; rfl) hsame hr hpaused⟩
    all_goals exact hquiet rfl rfl rfl hsame

end Escrow

end TogetherFi
