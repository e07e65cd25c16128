/-
  The events of a pool, and what can be rebuilt from them.

  As for the escrow, `PoolCall.published` lists what a successful call
  publishes, `PoolView` is what a reader of the events knows, and
  `PoolCall.explained` shows that the reader accepts every event and what it
  knows is what is stored (`PoolView.Shows`): all but the hashes of the manifests
  and the allocations not claimed yet.  `PoolView.story_of_accepts` determines the
  events of one manifest: its publication, the claims one after another with what
  remains after each, and what an expiry released.
-/
import TogetherFi.Lib.Replay
import TogetherFi.Pool.Manifests
import TogetherFi.Pool.Roles

namespace TogetherFi

open Outcome Function Rotation

/-- The number the contracts use for a role. -/
def roleCode : Role → ℕ
  | .governance => 1
  | .authority => 2

theorem roleCode_injective : Injective roleCode := by
  intro r r'
  cases r <;> cases r' <;> simp [roleCode]

namespace Pool

/-! ## Events -/

/-- An event of a pool: its topics, then its data. -/
inductive PoolEvent where
  | init (governance eligibilityAuthority token escrow : Address)
  | credited (campaignId : UInt64) (amount : ℤ)
  | manifest (manifestId : UInt64) (totalAmount : ℤ) (allocationCount : ℕ) (expiresAt : UInt64)
  | claimed (manifestId : UInt64) (allocationIndex : ℕ) (recipient : Address)
      (amount remainingAmount : ℤ)
  | expired (manifestId : UInt64) (released : ℤ)
  | paused
  | unpaused
  | roleprop (role : ℕ) (account : Address)
  | roleacc (role : ℕ) (account : Address)
  deriving DecidableEq

/-- The manifest an event is about. -/
def PoolEvent.manifestId : PoolEvent → Option UInt64
  | .manifest id .. | .claimed id .. | .expired id .. => some id
  | _ => none

/-- What a call publishes when it succeeds on the storage `s`. -/
def PoolCall.published (s : PoolStorage) : PoolCall → List PoolEvent
  | .initializePool gov elig tok esc _ _ => [.init gov elig tok esc]
  | .recordCredit id amount => [.credited id amount]
  | .publishManifest id _ _ expiresAt recipients amounts =>
    [.manifest id amounts.sum recipients.length expiresAt]
  | .claim id index => do
    let m ← (s.manifest id).toList
    let a ← (s.allocation id index).toList
    [.claimed id index a.recipient a.amount (m.remainingAmount - a.amount)]
  | .expireManifest id => (s.manifest id).toList.map fun m => .expired id m.remainingAmount
  | .proposeGovernance account => [.roleprop 1 account]
  | .acceptGovernance => s.pendingGovernance.toList.map (.roleacc 1)
  | .proposeEligibilityAuthority account => [.roleprop 2 account]
  | .acceptEligibilityAuthority => s.pendingEligibilityAuthority.toList.map (.roleacc 2)
  | .pause => [.paused]
  | .unpause => [.unpaused]
  | _ => []

/-! ## What a reader knows -/

/-- One claim of a manifest. -/
structure ClaimView where
  index : ℕ
  recipient : Address
  amount : ℤ
  deriving DecidableEq

/-- A manifest as its events tell it: the claims in their order, and what was
    released when it expired. -/
structure ManifestView where
  totalAmount : ℤ
  allocationCount : ℕ
  expiresAt : UInt64
  claims : List ClaimView
  released : Option ℤ
  deriving DecidableEq

namespace ManifestView

/-- What is neither claimed nor released. -/
def remaining (m : ManifestView) : ℤ :=
  m.totalAmount - (m.claims.map ClaimView.amount).sum - m.released.getD 0

/-- The status its events tell. -/
def status (m : ManifestView) : ManifestStatus :=
  if m.released.isSome then .expired else if m.remaining = 0 then .completed else .active

/-- One more claim. -/
def claim (m : ManifestView) (c : ClaimView) : ManifestView := { m with claims := m.claims ++ [c] }

end ManifestView

/-- What a reader of the events knows of a pool. -/
structure PoolView where
  token : Option Address
  escrow : Option Address
  /-- who holds a role -/
  holder : ℕ → Option Address
  /-- the account proposed for a role -/
  pending : ℕ → Option Address
  paused : Bool
  credited : ℤ
  paid : ℤ
  liability : ℤ
  latest : UInt64
  /-- what a campaign credited -/
  credit : UInt64 → Option ℤ
  manifest : UInt64 → Option ManifestView

namespace PoolView

/-- Nothing is known yet. -/
def empty : PoolView where
  token := none
  escrow := none
  holder := fun _ => none
  pending := fun _ => none
  paused := false
  credited := 0
  paid := 0
  liability := 0
  latest := 0
  credit := fun _ => none
  manifest := fun _ => none

/-- One more event. -/
def step (v : PoolView) : PoolEvent → Outcome Unit Empty PoolView
  | .init gov elig tok esc => do
    rejectIf ((v.holder 1).isSome ∨ gov = elig) ()
    return { v with
      token := some tok
      escrow := some esc
      holder := update (update v.holder 1 (some gov)) 2 (some elig) }
  | .credited id amount => do
    rejectIf (v.escrow.isNone ∨ (v.credit id).isSome ∨ amount ≤ 0) ()
    return { v with
      credited := v.credited + amount
      credit := update v.credit id (some amount) }
  | .manifest id total count expiresAt => do
    rejectIf (v.paused ∨ (v.manifest id).isSome ∨ id ≤ v.latest) ()
    rejectIf (count = 0 ∨ maxAllocations < count ∨ total < count) ()
    rejectIf (v.credited - v.paid - v.liability < total) ()
    return { v with
      liability := v.liability + total
      latest := id
      manifest := update v.manifest id (some ⟨total, count, expiresAt, [], none⟩) }
  | .claimed id index recipient amount remaining => do
    let m ← okOr (v.manifest id) ()
    rejectIf (v.paused ∨ m.status ≠ .active) ()
    rejectIf (m.allocationCount ≤ index ∨ index ∈ m.claims.map ClaimView.index) ()
    rejectIf (amount ≤ 0 ∨ remaining < 0 ∨ remaining ≠ m.remaining - amount) ()
    return { v with
      paid := v.paid + amount
      liability := v.liability - amount
      manifest := update v.manifest id (some (m.claim ⟨index, recipient, amount⟩)) }
  | .expired id released => do
    let m ← okOr (v.manifest id) ()
    rejectIf (m.status ≠ .active ∨ released ≠ m.remaining) ()
    return { v with
      liability := v.liability - released
      manifest := update v.manifest id (some { m with released := some released }) }
  | .paused => return { v with paused := true }
  | .unpaused => return { v with paused := false }
  | .roleprop role account => return { v with pending := update v.pending role (some account) }
  | .roleacc role account => do
    rejectIf (v.pending role ≠ some account ∨ v.holder (if role = 1 then 2 else 1) = some account) ()
    return { v with
      pending := update v.pending role none
      holder := update v.holder role (some account) }

/-- The reader. -/
def machine : Machine PoolView PoolEvent (Fault Unit Empty) := ⟨step⟩

@[simp] theorem machine_step (v : PoolView) (e : PoolEvent) : machine.step v e = v.step e := rfl

end PoolView

/-! ## The events of one manifest -/

/-- The events of claims made while `remaining` was left. -/
def claimEvents (id : UInt64) : ℤ → List ClaimView → List PoolEvent
  | _, [] => []
  | remaining, c :: cs =>
    .claimed id c.index c.recipient c.amount (remaining - c.amount) ::
      claimEvents id (remaining - c.amount) cs

theorem claimEvents_concat (id : UInt64) (c : ClaimView) : ∀ (cs : List ClaimView) (remaining : ℤ),
    claimEvents id remaining (cs ++ [c]) = claimEvents id remaining cs ++
      [.claimed id c.index c.recipient c.amount
        (remaining - (cs.map ClaimView.amount).sum - c.amount)]
  | [], remaining => by simp [claimEvents]
  | d :: cs, remaining => by
    simp only [List.cons_append, claimEvents, claimEvents_concat id c cs, List.map_cons,
      List.sum_cons]
    rw [sub_add_eq_sub_sub]

/-- The events of a manifest, from what a reader knows of it at the end. -/
def ManifestView.story (id : UInt64) (m : ManifestView) : List PoolEvent :=
  .manifest id m.totalAmount m.allocationCount m.expiresAt ::
    (claimEvents id m.totalAmount m.claims ++ m.released.toList.map (.expired id))

/-- The events of manifest `id` so far. -/
def PoolView.story (v : PoolView) (id : UInt64) : List PoolEvent :=
  (v.manifest id).elim [] (ManifestView.story id)

namespace PoolView

variable {v v' : PoolView} {e : PoolEvent}

theorem story_congr (h : v'.manifest = v.manifest) (id : UInt64) : v'.story id = v.story id := by
  rw [story, h, story]

theorem story_update {id : UInt64} {m : ManifestView} (h : v'.manifest = update v.manifest id (some m))
    (id' : UInt64) : v'.story id' = if id' = id then m.story id else v.story id' := by
  unfold story
  rw [h]
  by_cases hid : id' = id
  · subst hid; simp
  · simp [hid]

theorem released_of_active {m : ManifestView} (h : m.status = .active) :
    m.released = none ∧ m.remaining ≠ 0 := by
  unfold ManifestView.status at h
  split at h
  · cases h
  · rename_i hr
    refine ⟨by simpa using hr, ?_⟩
    split at h
    · cases h
    · assumption

/-- **One more event** is one more event in the story of its manifest. -/
theorem story_step (h : v.step e = .ok v') (id : UInt64) :
    v'.story id = v.story id ++ if e.manifestId = some id then [e] else [] := by
  -- the manifest of the event is written, and its story is longer by the event
  have hwrite : ∀ {id' : UInt64} {m : ManifestView}, e.manifestId = some id' →
      m.story id' = v.story id' ++ [e] → v'.manifest = update v.manifest id' (some m) →
      v'.story id = v.story id ++ if e.manifestId = some id then [e] else [] := by
    intro id' m he hm hv
    rw [story_update hv, he]
    by_cases hid : id = id'
    · subst hid; simp [hm]
    · simp [hid, Ne.symm hid]
  have hkeep : e.manifestId = none → v'.manifest = v.manifest →
      v'.story id = v.story id ++ if e.manifestId = some id then [e] else [] := by
    intro he hv
    rw [story_congr hv, he]
    simp
  cases e with
  | init | credited | roleacc =>
    simp only [step, bind_eq_ok, rejectIf_eq_ok, exists_const, pure_eq, Except.ok.injEq] at h
    obtain ⟨-, rfl⟩ := h
    exact hkeep rfl rfl
  | manifest id' total count expiresAt =>
    simp only [step, bind_eq_ok, rejectIf_eq_ok, exists_const, pure_eq, Except.ok.injEq, not_or] at h
    obtain ⟨⟨-, hnew, -⟩, -, -, rfl⟩ := h
    have hnone : v.manifest id' = none := by simpa using hnew
    exact hwrite rfl (by simp [ManifestView.story, story, hnone, claimEvents]) rfl
  | claimed id' index recipient amount remaining =>
    simp only [step, bind_eq_ok, okOr_eq_ok, rejectIf_eq_ok, exists_const, pure_eq, Except.ok.injEq,
      not_or, not_not] at h
    obtain ⟨m, hm, ⟨-, hact⟩, -, ⟨-, -, rfl⟩, rfl⟩ := h
    obtain ⟨hrel, -⟩ := released_of_active hact
    refine hwrite rfl ?_ rfl
    simp [ManifestView.story, story, hm, ManifestView.claim, hrel, claimEvents_concat,
      ManifestView.remaining]
  | expired id' released =>
    simp only [step, bind_eq_ok, okOr_eq_ok, rejectIf_eq_ok, exists_const, pure_eq, Except.ok.injEq,
      not_or, not_not] at h
    obtain ⟨m, hm, ⟨hact, rfl⟩, rfl⟩ := h
    obtain ⟨hrel, -⟩ := released_of_active hact
    exact hwrite rfl (by simp [ManifestView.story, story, hm, hrel]) rfl
  | paused | unpaused | roleprop =>
    obtain rfl := Except.ok.inj h
    exact hkeep rfl rfl

/-- **The events of one manifest** are the story of what the reader knows of it. -/
theorem story_of_accepts {log : List PoolEvent} (h : machine.Accepts empty log v) (id : UInt64) :
    log.filter (·.manifestId = some id) = v.story id := by
  refine h.induction (P := fun log v => log.filter (·.manifestId = some id) = v.story id) rfl
    fun {log b e b'} _ ih hstep => ?_
  rw [List.filter_append, ih, story_step hstep id]
  by_cases he : e.manifestId = some id <;> simp [he]

end PoolView

/-! ## What the reader knows is stored -/

/-- The reader knows a manifest and which of its allocations are claimed. -/
structure ManifestView.Shows (v : ManifestView) (m : Manifest) (alloc : ℕ → Option Allocation) :
    Prop where
  totalAmount : v.totalAmount = m.totalAmount
  allocationCount : v.allocationCount = m.allocationCount
  expiresAt : v.expiresAt = m.expiresAt
  remaining : v.remaining = m.remainingAmount
  status : v.status = m.status
  nodup : (v.claims.map ClaimView.index).Nodup
  claims : ∀ c, c ∈ v.claims ↔ alloc c.index = some ⟨c.recipient, c.amount, true⟩

namespace ManifestView.Shows

variable {v : ManifestView} {m : Manifest} {alloc : ℕ → Option Allocation}

theorem new {m : Manifest} (hst : m.status = .active) (hrem : m.remainingAmount = m.totalAmount)
    (hpos : 0 < m.totalAmount) (h : ∀ i a, alloc i = some a → a.claimed = false) :
    ManifestView.Shows ⟨m.totalAmount, m.allocationCount, m.expiresAt, [], none⟩ m alloc := by
  refine ⟨rfl, rfl, rfl, ?_, ?_, List.nodup_nil, fun c => ?_⟩
  · simp [ManifestView.remaining, hrem]
  · simp [ManifestView.status, ManifestView.remaining, hst, hpos.ne']
  · refine ⟨fun hc => (by cases hc), fun hc => ?_⟩
    have := h _ _ hc
    simp at this

theorem not_claimed (h : v.Shows m alloc) {i : ℕ} {a : Allocation} (ha : alloc i = some a)
    (hun : a.claimed = false) : i ∉ v.claims.map ClaimView.index := by
  intro hi
  obtain ⟨c, hc, rfl⟩ := List.mem_map.1 hi
  have := (h.claims c).1 hc
  rw [ha, Option.some.injEq] at this
  rw [this] at hun
  cases hun

theorem claim (h : v.Shows m alloc) (hact : m.status = .active) {i : ℕ} {a : Allocation}
    (ha : alloc i = some a) (hun : a.claimed = false) :
    (v.claim ⟨i, a.recipient, a.amount⟩).Shows (m.afterClaim a.amount)
      (update alloc i (some { a with claimed := true })) := by
  obtain ⟨hrel, -⟩ := PoolView.released_of_active (h.status.trans hact)
  have hrem : (v.claim ⟨i, a.recipient, a.amount⟩).remaining = m.remainingAmount - a.amount := by
    rw [← h.remaining]
    simp only [ManifestView.remaining, ManifestView.claim, List.map_append, List.sum_append,
      List.map_cons, List.sum_cons, List.map_nil, List.sum_nil]
    omega
  refine ⟨h.totalAmount, h.allocationCount, h.expiresAt, hrem, ?_, ?_, fun c => ?_⟩
  · rw [ManifestView.status, hrem, ManifestView.claim, hrel, Manifest.afterClaim, hact]
    rfl
  · have hnew := h.not_claimed ha hun
    simp only [ManifestView.claim, List.map_append, List.map_cons, List.map_nil, List.nodup_append]
    refine ⟨h.nodup, by simp, ?_⟩
    rintro j hj k hk rfl
    rw [List.mem_singleton.1 hk] at hj
    exact hnew hj
  · rw [ManifestView.claim, List.mem_append, List.mem_singleton, h.claims]
    by_cases hi : c.index = i
    · subst hi
      rw [ha, update_self]
      constructor
      · rintro (hc | hc)
        · rw [Option.some.inj hc] at hun; cases hun
        · rw [hc]
      · intro hc
        obtain ⟨index, recipient, amount⟩ := c
        simp only [Option.some.injEq, Allocation.mk.injEq, and_true] at hc
        obtain ⟨rfl, rfl⟩ := hc
        exact .inr rfl
    · rw [update_of_ne hi]
      constructor
      · rintro (hc | rfl)
        · exact hc
        · exact absurd rfl hi
      · exact .inl

theorem expire (h : v.Shows m alloc) (hact : m.status = .active) :
    ({ v with released := some m.remainingAmount } : ManifestView).Shows
      { m with remainingAmount := 0, status := .expired } alloc := by
  obtain ⟨hrel, -⟩ := PoolView.released_of_active (h.status.trans hact)
  refine ⟨h.totalAmount, h.allocationCount, h.expiresAt, ?_, rfl, h.nodup, h.claims⟩
  have := h.remaining
  simp only [ManifestView.remaining, hrel, Option.getD_none, Option.getD_some] at this ⊢
  omega

end ManifestView.Shows

/-- What the reader knows is what is stored. -/
structure PoolView.Shows (v : PoolView) (s : PoolStorage) : Prop where
  token : v.token = s.token
  escrow : v.escrow = s.escrow
  holder : ∀ r, v.holder (roleCode r) = s.roles.holder r
  pending : ∀ r, v.pending (roleCode r) = s.roles.pending r
  paused : v.paused = s.paused.getD false
  credited : v.credited = s.credited
  paid : v.paid = s.paid
  liability : v.liability = s.liability
  latest : v.latest = s.latest
  credit : ∀ id, (v.credit id).isSome = (s.creditedCampaign id).isSome
  published : ∀ id, (v.manifest id).isSome = (s.manifest id).isSome
  manifest : ∀ id m m', v.manifest id = some m → s.manifest id = some m' →
    m.Shows m' (s.allocation id)
  fresh : s.governance = none → v.paused = false

namespace PoolView.Shows

variable {v : PoolView} {s s' : PoolStorage}

theorem empty (live : PoolEntry → ℕ) : PoolView.empty.Shows (.empty live) := by
  refine ⟨rfl, rfl, fun r => ?_, fun r => ?_, rfl, rfl, rfl, rfl, rfl, fun _ => rfl, fun _ => rfl,
    fun _ _ _ h => (by cases h), fun _ => rfl⟩
  · cases r <;> rfl
  · cases r <;> rfl

theorem exists_manifest (h : v.Shows s) {id : UInt64} {m : Manifest} (hm : s.manifest id = some m) :
    ∃ mv, v.manifest id = some mv ∧ mv.Shows m (s.allocation id) := by
  have hp := h.published id
  rw [hm, Option.isSome_some] at hp
  obtain ⟨mv, hmv⟩ := Option.isSome_iff_exists.1 hp
  exact ⟨mv, hmv, h.manifest id mv m hmv hm⟩

theorem manifest_none (h : v.Shows s) {id : UInt64} (hm : s.manifest id = none) :
    v.manifest id = none := by
  have hp := h.published id
  rw [hm] at hp
  simpa using hp

/-- A call that changes at most the roles and the pause flag of the books. -/
theorem same (h : v.Shows s) (hb : SameBooks s s') {pending holder : ℕ → Option Address} {p : Bool}
    (hholder : ∀ r, holder (roleCode r) = s'.roles.holder r)
    (hpending : ∀ r, pending (roleCode r) = s'.roles.pending r) (hp : p = s'.paused.getD false)
    (hfresh : s.governance = none → p = false) :
    ({ v with pending := pending, holder := holder, paused := p } : PoolView).Shows s' where
  token := hb.token ▸ h.token
  escrow := hb.escrow ▸ h.escrow
  holder := hholder
  pending := hpending
  paused := hp
  credited := by rw [PoolStorage.credited, hb.credited]; exact h.credited
  paid := by rw [PoolStorage.paid, hb.paid]; exact h.paid
  liability := by rw [PoolStorage.liability, hb.liability]; exact h.liability
  latest := by rw [PoolStorage.latest, hb.latest]; exact h.latest
  credit := hb.creditedCampaign ▸ h.credit
  published := hb.manifest ▸ h.published
  manifest := by rw [hb.manifest, hb.allocation]; exact h.manifest
  fresh := fun hn => hfresh (by simpa [hn] using hb.initialized.symm)

theorem quiet (h : v.Shows s) (hb : SameBooks s s') (hr : s'.roles = s.roles)
    (hp : s'.paused = s.paused) : v.Shows s' :=
  h.same hb (hr ▸ h.holder) (hr ▸ h.pending) (hp ▸ h.paused) h.fresh

theorem setPaused (h : v.Shows s) (hg : s.governance.isSome) (hb : SameBooks s s')
    (hr : s'.roles = s.roles) {b : Bool} (hp : s'.paused = some b) :
    ({ v with paused := b } : PoolView).Shows s' :=
  h.same hb (hr ▸ h.holder) (hr ▸ h.pending) (by rw [hp]; rfl)
    fun hn => by rw [hn] at hg; cases hg

theorem propose (h : v.Shows s) (hg : s.governance.isSome) (hb : SameBooks s s')
    (hp : s'.paused = s.paused) {role : Role} {a : Address} (hr : s'.roles = s.roles.proposed role a) :
    ({ v with pending := update v.pending (roleCode role) (some a) } : PoolView).Shows s' := by
  refine h.same hb ?_ (fun r => ?_) (hp ▸ h.paused) fun hn => by rw [hn] at hg; cases hg
  · rw [hr]; exact h.holder
  · rw [hr]
    by_cases hrole : r = role
    · subst hrole; simp
    · have hne : roleCode r ≠ roleCode role := fun he => hrole (roleCode_injective he)
      simp only [Roles.proposed, update_of_ne hne, update_of_ne hrole]
      exact h.pending r

theorem accept (h : v.Shows s) (role : Role) (hg : s.governance.isSome) (hb : SameBooks s s')
    (hp : s'.paused = s.paused) {a : Address} (hr : s'.roles = s.roles.accepted role a) :
    ({ v with
        pending := update v.pending (roleCode role) none
        holder := update v.holder (roleCode role) (some a) } : PoolView).Shows s' := by
  refine h.same hb (fun r => ?_) (fun r => ?_) (hp ▸ h.paused) fun hn => by rw [hn] at hg; cases hg
  all_goals
    rw [hr]
    by_cases hrole : r = role
    · subst hrole; simp
  · have hne : roleCode r ≠ roleCode role := fun he => hrole (roleCode_injective he)
    simp only [Roles.accepted, update_of_ne hne, update_of_ne hrole]
    exact h.holder r
  · have hne : roleCode r ≠ roleCode role := fun he => hrole (roleCode_injective he)
    simp only [Roles.accepted, update_of_ne hne, update_of_ne hrole]
    exact h.pending r

theorem write (h : v.Shows s) (hg : s.governance.isSome) {id : UInt64} {m : Manifest}
    {mv : ManifestView} {paid liability : ℤ} {latest : UInt64} (ht : s'.token = s.token)
    (he : s'.escrow = s.escrow) (hr : s'.roles = s.roles) (hp : s'.paused = s.paused)
    (hcredited : s'.credited = s.credited) (hcredit : s'.creditedCampaign = s.creditedCampaign)
    (hpaid : paid = s'.paid) (hliability : liability = s'.liability) (hlatest : latest = s'.latest)
    (hm : s'.manifest = update s.manifest id (some m)) (hmv : mv.Shows m (s'.allocation id))
    (halloc : ∀ id', id' ≠ id → s'.allocation id' = s.allocation id') :
    ({ v with
        paid := paid
        liability := liability
        latest := latest
        manifest := update v.manifest id (some mv) } : PoolView).Shows s' where
  token := ht ▸ h.token
  escrow := he ▸ h.escrow
  holder := hr ▸ h.holder
  pending := hr ▸ h.pending
  paused := hp ▸ h.paused
  credited := hcredited ▸ h.credited
  paid := hpaid
  liability := hliability
  latest := hlatest
  credit := hcredit ▸ h.credit
  published := fun id' => by
    rw [hm]
    by_cases hid : id' = id
    · subst hid; simp
    · simpa [hid] using h.published id'
  manifest := fun id' x y hx hy => by
    have hx : update v.manifest id (some mv) id' = some x := hx
    rw [hm] at hy
    by_cases hid : id' = id
    · subst hid
      rw [update_self, Option.some.injEq] at hx hy
      rw [← hx, ← hy]; exact hmv
    · rw [update_of_ne hid] at hx hy
      rw [halloc id' hid]
      exact h.manifest id' x y hx hy
  fresh := fun hn => by
    have hg' : s'.governance = s.governance :=
      congrArg (fun r : Rotation.Roles Address => r.holder .governance) hr
    rw [← hg', hn] at hg; cases hg

end PoolView.Shows

/-! ## What each call publishes -/

/-- The pause flag after a call. -/
def PoolCall.pausedAfter (p : Option Bool) : PoolCall → Option Bool
  | .initializePool .. | .unpause => some false
  | .pause => some true
  | _ => p

variable {env : Env} {s s' : PoolStorage} {t t' : Tokens}

theorem setPaused_paused {b : Bool} (h : setPaused b env s = .ok s') : s'.paused = some b := by
  simp only [setPaused, currentGovernance, bind_eq_ok, init_eq_ok, okOr_eq_ok, requireAuth_eq_ok,
    exists_const, pure_eq, Except.ok.injEq] at h
  obtain ⟨_, ⟨-, rfl⟩, _, -, -, rfl⟩ := h
  rfl

theorem proposeRole_paused {role : ℕ} {account : Address}
    (h : proposeRole env role account s = .ok s') : s'.paused = s.paused := by
  simp only [proposeRole, currentGovernance, bind_eq_ok, init_eq_ok, okOr_eq_ok, requireAuth_eq_ok,
    exists_const, pure_eq, Except.ok.injEq] at h
  obtain ⟨_, ⟨-, rfl⟩, _, -, -, rfl⟩ := h
  split <;> rfl

theorem acceptRole_paused {role : ℕ} (h : acceptRole env role s = .ok s') : s'.paused = s.paused := by
  simp only [acceptRole, bind_eq_ok, init_eq_ok, okOr_eq_ok, requireAuth_eq_ok, rejectIf_eq_ok,
    exists_const, pure_eq, Except.ok.injEq] at h
  obtain ⟨_, ⟨-, rfl⟩, _, -, -, _, -, -, rfl⟩ := h
  split <;> rfl

theorem extendAllocationTtls_paused {id : UInt64} : ∀ {is : List ℕ} {s : PoolStorage},
    extendAllocationTtls env id is s = .ok s' → s'.paused = s.paused
  | [], s, h => by
    simp only [extendAllocationTtls, Except.ok.injEq] at h
    rw [← h]
  | i :: is, s, h => by
    simp only [extendAllocationTtls, bind_eq_ok, rejectIf_eq_ok, exists_const] at h
    rw [extendAllocationTtls_paused h.2]
    rfl

/-- **What a call does to the pause flag.** -/
theorem PoolCall.paused_eq {call : PoolCall} (h : call.exec env s t = .ok (s', t')) :
    s'.paused = call.pausedAfter s.paused := by
  have heff := PoolCall.effect h
  cases call
  case initializePool =>
    cases heff with
    | initializePool h => obtain ⟨_, hs⟩ := h.post; rw [hs]; rfl
    | other hno => cases hno
  case recordCredit =>
    cases heff with
    | recordCredit h => obtain ⟨_, hs⟩ := h.post; rw [hs]; rfl
    | other hno => cases hno
  case publishManifest =>
    cases heff with
    | publishManifest h => obtain ⟨_, hs⟩ := h.post; rw [hs]; rfl
    | other hno => cases hno
  case claim =>
    cases heff with
    | claim h => obtain ⟨_, hs⟩ := h.post; rw [hs]; rfl
    | other hno => cases hno
  case expireManifest =>
    cases heff with
    | expireManifest h => obtain ⟨_, hs⟩ := h.post; rw [hs]; rfl
    | other hno => cases hno
  case proposeGovernance | proposeEligibilityAuthority => exact proposeRole_paused (pair_eq_ok.1 h).1
  case acceptGovernance | acceptEligibilityAuthority => exact acceptRole_paused (pair_eq_ok.1 h).1
  case pause | unpause => exact setPaused_paused (pair_eq_ok.1 h).1
  case getManifest =>
    obtain ⟨⟨_, hc⟩, -⟩ := snd_pair_eq_ok.1 h
    simp only [Pool.getManifest, bind_eq_ok, pure_eq, Except.ok.injEq, Prod.mk.injEq] at hc
    obtain ⟨_, -, -, rfl⟩ := hc
    rfl
  case getAllocation =>
    obtain ⟨⟨_, hc⟩, -⟩ := snd_pair_eq_ok.1 h
    simp only [Pool.getAllocation, bind_eq_ok, pure_eq, Except.ok.injEq, Prod.mk.injEq] at hc
    obtain ⟨_, -, -, rfl⟩ := hc
    rfl
  case totalLiability =>
    obtain ⟨⟨_, hc⟩, -⟩ := snd_pair_eq_ok.1 h
    simp only [Pool.totalLiability, bind_eq_ok, init_eq_ok, pure_eq, Except.ok.injEq,
      Prod.mk.injEq] at hc
    obtain ⟨_, ⟨-, rfl⟩, _, -, -, rfl⟩ := hc
    rfl
  case availableBalance =>
    simp only [exec, bind_eq_ok, pure_eq, Except.ok.injEq, Prod.mk.injEq] at h
    obtain ⟨_, -, rfl, -⟩ := h
    rfl
  case isPaused =>
    obtain ⟨rfl, -⟩ := Prod.mk.inj (Except.ok.inj h)
    rfl
  case extendInstanceTtl =>
    obtain ⟨-, rfl⟩ := init_eq_ok.1 (pair_eq_ok.1 h).1
    rfl
  case extendManifestTtl =>
    have hc := (pair_eq_ok.1 h).1
    simp only [Pool.extendManifestTtl, bind_eq_ok] at hc
    obtain ⟨_, -, hc⟩ := hc
    rw [extendAllocationTtls_paused hc]
    rfl
  case governance | eligibilityAuthority | escrowContract | tokenContract =>
    simp only [exec, bind_eq_ok, pure_eq, Except.ok.injEq, Prod.mk.injEq] at h
    obtain ⟨_, -, rfl, -⟩ := h
    rfl

/-- The amounts of a manifest are positive, so that their sum is at least their number. -/
theorem length_le_sum {amounts : List ℤ} (h : ∀ a ∈ amounts, 0 < a) :
    (amounts.length : ℤ) ≤ amounts.sum := by
  have := List.card_nsmul_le_sum amounts 1 fun a ha => h a ha
  simpa using this

namespace PoolView.Shows

variable {v : PoolView}

theorem installed {g e tok esc d : Address} {salt : BytesN32} (h : v.Shows s) (hb : Books s)
    (hi : Initialize env g e tok esc d salt s s') :
    ∃ v', machine.Accepts v [.init g e tok esc] v' ∧ v'.Shows s' := by
  obtain ⟨live, hempty⟩ := hb.fresh hi.fresh
  obtain ⟨live', hs⟩ := hi.post
  have hgov : v.holder 1 = none := (h.holder .governance).trans hi.fresh
  refine ⟨{ v with
    token := some tok
    escrow := some esc
    holder := update (update v.holder 1 (some g)) 2 (some e) }, Machine.accepts_singleton.2 ?_, ?_⟩
  · simp [step, rejectIf, hgov, hi.roles]
  · refine ⟨?_, ?_, fun r => ?_, fun r => ?_, ?_, ?_, ?_, ?_, ?_, ?_, ?_, ?_, fun hn => ?_⟩
    · rw [hs]
    · rw [hs]
    · rw [hi.roles_eq]; cases r <;> rfl
    · rw [hi.roles_eq]; exact h.pending r
    · rw [hs]; exact h.fresh hi.fresh
    · rw [hs, h.credited, PoolStorage.credited, hempty.credited]; rfl
    · rw [hs, h.paid, PoolStorage.paid, hempty.paid]; rfl
    · rw [hs, h.liability, PoolStorage.liability, hempty.liability]; rfl
    · rw [hs, h.latest, PoolStorage.latest, hempty.latest]; rfl
    · rw [hs]; exact h.credit
    · rw [hs]; exact h.published
    · rw [hs]; exact h.manifest
    · rw [hs] at hn; cases hn

theorem recordCredit {id : UInt64} {amount : ℤ} (h : v.Shows s)
    (hc : RecordCredit env id amount s t s') :
    ∃ v', machine.Accepts v [.credited id amount] v' ∧ v'.Shows s' := by
  obtain ⟨escrow, hescrow, -⟩ := hc.escrow
  obtain ⟨live, hs⟩ := hc.post
  have hknown : v.escrow = some escrow := h.escrow.trans hescrow
  have hfresh : v.credit id = none := by
    have := h.credit id
    rw [hc.fresh] at this
    simpa using this
  refine ⟨{ v with
    credited := v.credited + amount
    credit := update v.credit id (some amount) }, Machine.accepts_singleton.2 ?_, ?_⟩
  · simp only [machine_step, step, bind_eq_ok, rejectIf_eq_ok, exists_const, pure_eq]
    exact ⟨by simp [hknown, hfresh, hc.positive], trivial⟩
  · refine ⟨?_, ?_, ?_, ?_, ?_, ?_, ?_, ?_, ?_, fun id' => ?_, ?_, ?_, fun hn => ?_⟩
    · rw [hs]; exact h.token
    · rw [hs]; exact h.escrow
    · rw [hs]; exact h.holder
    · rw [hs]; exact h.pending
    · rw [hs]; exact h.paused
    · rw [hs, h.credited]; rfl
    · rw [hs]; exact h.paid
    · rw [hs]; exact h.liability
    · rw [hs]; exact h.latest
    · rw [hs]
      by_cases hid : id' = id
      · subst hid; simp
      · simpa [hid] using h.credit id'
    · rw [hs]; exact h.published
    · rw [hs]; exact h.manifest
    · rw [hs] at hn
      exact h.fresh hn

theorem publishManifest {id : UInt64} {hash policy : BytesN32} {expiresAt : UInt64}
    {recipients : List Address} {amounts : List ℤ} (h : v.Shows s) (hb : Books s)
    (hp : Publish env id hash policy expiresAt recipients amounts s t s') :
    ∃ v', machine.Accepts v [.manifest id amounts.sum recipients.length expiresAt] v' ∧ v'.Shows s' := by
  obtain ⟨live, hs⟩ := hp.post
  have hrun : v.paused = false := h.paused.trans hp.running
  have hinit : s.governance.isSome := by obtain ⟨g, hg, -⟩ := hp.governance; rw [hg]; rfl
  have hlen := hp.lengths
  have hne := hp.nonempty
  have hmax := hp.bounded
  have hsum := length_le_sum hp.positive
  have hpos : 0 < amounts.sum := by omega
  have hlatest : id = s'.latest := by rw [hs]; rfl
  have hliability : v.liability + amounts.sum = s'.liability := by rw [hs, h.liability]; rfl
  have hpaid : v.paid = s'.paid := by rw [hs]; exact h.paid
  refine ⟨_, Machine.accepts_singleton.2 ?_, h.write hinit (by rw [hs]) (by rw [hs]) (by rw [hs]; rfl)
    (by rw [hs]) (by rw [hs]; rfl) (by rw [hs]) hpaid hliability hlatest (by rw [hs])
    (.new rfl rfl hpos fun i a ha => ?_) fun id' hid => ?_⟩
  · simp only [machine_step, step, bind_eq_ok, rejectIf_eq_ok, exists_const, pure_eq]
    refine ⟨?_, by omega, ?_, trivial⟩
    · rw [h.latest]
      simp [hrun, h.manifest_none hp.newId, hp.increasing]
    · rw [h.credited, h.paid, h.liability]
      exact not_lt.2 hp.available
  · rw [hs] at ha
    have ha : stored s id recipients amounts id i = some a := ha
    by_cases hi : i < recipients.length
    · obtain ⟨b, hb', -, -, hun⟩ := stored_self s id hp.lengths hi
      rw [Option.some.inj (ha.symm.trans hb')]; exact hun
    · rw [stored, if_neg (by simp [hi]), hb.unpublished id hp.newId i] at ha
      cases ha
  · rw [hs]
    funext i
    exact stored_of_ne hid recipients amounts i

theorem claim {id : UInt64} {index : ℕ} {m : Manifest} {a : Allocation} {token : Address}
    (h : v.Shows s) (hb : Books s) (hc : Claim env id index m a token s t s' t') :
    ∃ v', machine.Accepts v [.claimed id index a.recipient a.amount (m.remainingAmount - a.amount)] v' ∧
      v'.Shows s' := by
  obtain ⟨live, hs⟩ := hc.post
  obtain ⟨mv, hmv, hshows⟩ := h.exists_manifest hc.manifest
  have hrun : v.paused = false := h.paused.trans hc.running
  have hbooks := (hb.manifest id m hc.manifest).1
  have hpaid : v.paid + a.amount = s'.paid := by rw [hs, h.paid]; rfl
  have hliability : v.liability - a.amount = s'.liability := by rw [hs, h.liability]; rfl
  have hlatest : v.latest = s'.latest := by rw [hs]; exact h.latest
  have hmv' : (mv.claim ⟨index, a.recipient, a.amount⟩).Shows (m.afterClaim a.amount)
      (s'.allocation id) := by
    rw [hs]
    simpa only [update_self] using hshows.claim hc.active hc.allocation hc.unclaimed
  refine ⟨_, Machine.accepts_singleton.2 ?_, h.write hc.initialized (by rw [hs]) (by rw [hs])
    (by rw [hs]; rfl) (by rw [hs]) (by rw [hs]; rfl) (by rw [hs]) hpaid hliability hlatest (by rw [hs]) hmv'
    fun id' hid => by rw [hs]; exact update_of_ne hid ..⟩
  simp only [machine_step, step, bind_eq_ok, okOr_eq_ok, rejectIf_eq_ok, exists_const, pure_eq,
    Except.ok.injEq]
  have hpos := hbooks.amount_pos hc.allocation
  have hle := hbooks.amount_le_remaining hc.active hc.allocation hc.unclaimed
  have hrem := hshows.remaining
  have hact : mv.status = .active := hshows.status.trans hc.active
  have hidx : index < mv.allocationCount := hshows.allocationCount ▸ hc.inRange
  have hnew := hshows.not_claimed hc.allocation hc.unclaimed
  exact ⟨mv, hmv, by simp [hrun, hact], not_or.2 ⟨by omega, hnew⟩, by omega, rfl⟩

theorem expireManifest {id : UInt64} {m : Manifest} (h : v.Shows s) (he : Expire env id m s s') :
    ∃ v', machine.Accepts v [.expired id m.remainingAmount] v' ∧ v'.Shows s' := by
  obtain ⟨live, hs⟩ := he.post
  obtain ⟨mv, hmv, hshows⟩ := h.exists_manifest he.manifest
  have hpaid : v.paid = s'.paid := by rw [hs]; exact h.paid
  have hliability : v.liability - m.remainingAmount = s'.liability := by rw [hs, h.liability]; rfl
  have hlatest : v.latest = s'.latest := by rw [hs]; exact h.latest
  have halloc : s'.allocation = s.allocation := by rw [hs]
  refine ⟨_, Machine.accepts_singleton.2 ?_, h.write he.initialized (by rw [hs]) (by rw [hs])
    (by rw [hs]; rfl) (by rw [hs]) (by rw [hs]; rfl) (by rw [hs]) hpaid hliability hlatest (by rw [hs])
    (halloc ▸ hshows.expire he.active) fun id' hid => by rw [halloc]⟩
  simp only [machine_step, step, bind_eq_ok, okOr_eq_ok, rejectIf_eq_ok, exists_const, pure_eq,
    Except.ok.injEq]
  have hact : mv.status = .active := hshows.status.trans he.active
  exact ⟨mv, hmv, by simp [hact, hshows.remaining], rfl⟩

/-- A role is accepted by the account proposed for it, which does not hold the other one. -/
theorem accepted (h : v.Shows s) (role : Role) (hc : acceptRole env (roleCode role) s = .ok s')
    (hb : SameBooks s s') (hp : s'.paused = s.paused) :
    ∃ a v', s.roles.pending role = some a ∧ machine.Accepts v [.roleacc (roleCode role) a] v' ∧
      v'.Shows s' := by
  obtain ⟨a, o, hg, ha, -, ho, hne, hr⟩ := acceptRole_ok hc
  cases role with
  | governance =>
    have hpend : v.pending 1 = some a := (h.pending .governance).trans ha
    have hother : v.holder 2 = some o := (h.holder .authority).trans ho
    refine ⟨a, _, ha, Machine.accepts_singleton.2 ?_, h.accept .governance hg hb hp hr⟩
    simp [step, hpend, hother, rejectIf, roleCode, Ne.symm hne]
  | authority =>
    have hpend : v.pending 2 = some a := (h.pending .authority).trans ha
    have hother : v.holder 1 = some o := (h.holder .governance).trans ho
    refine ⟨a, _, ha, Machine.accepts_singleton.2 ?_, h.accept .authority hg hb hp hr⟩
    simp [step, hpend, hother, rejectIf, roleCode, Ne.symm hne]

end PoolView.Shows

/-- **A call and its events.**  The reader accepts what a successful call
    publishes, and knows the storage after it. -/
theorem PoolCall.explained {v : PoolView} {call : PoolCall} (hv : v.Shows s) (hb : Books s)
    (h : call.exec env s t = .ok (s', t')) :
    ∃ v', PoolView.machine.Accepts v (call.published s) v' ∧ v'.Shows s' := by
  have heff := PoolCall.effect h
  have hpaused := PoolCall.paused_eq h
  have hrot := (PoolCall.rotates h).1
  -- a call that publishes nothing and changes nothing the reader knows
  have hquiet : call.published s = [] → call.roleEvent = .keep →
      call.pausedAfter s.paused = s.paused → SameBooks s s' →
      ∃ v', PoolView.machine.Accepts v (call.published s) v' ∧ v'.Shows s' := by
    intro he hk hp hsame
    rw [hk] at hrot
    rw [he]
    exact ⟨v, Machine.accepts_nil.2 rfl, hv.quiet hsame (Rotates.keep_eq hrot) (hpaused.trans hp)⟩
  cases heff with
  | initializePool hi => exact hv.installed hb hi
  | recordCredit hc => exact hv.recordCredit hc
  | publishManifest hp => exact hv.publishManifest hb hp
  | claim hc =>
    rw [PoolCall.published, hc.manifest, hc.allocation]
    exact hv.claim hb hc
  | expireManifest he =>
    rw [PoolCall.published, he.manifest]
    exact hv.expireManifest he
  | other hno hsame =>
    cases call
    case initializePool | recordCredit | publishManifest | claim | expireManifest => cases hno
    case proposeGovernance | proposeEligibilityAuthority =>
      obtain ⟨g, hg, -, hr⟩ := proposeRole_ok (pair_eq_ok.1 h).1
      exact ⟨_, Machine.accepts_singleton.2 rfl, hv.propose (by rw [hg]; rfl) hsame hpaused hr⟩
    case acceptGovernance =>
      obtain ⟨a, v', ha, hacc, hv'⟩ := hv.accepted .governance (pair_eq_ok.1 h).1 hsame hpaused
      have ha : s.pendingGovernance = some a := ha
      exact ⟨v', by rw [published, ha]; exact hacc, hv'⟩
    case acceptEligibilityAuthority =>
      obtain ⟨a, v', ha, hacc, hv'⟩ := hv.accepted .authority (pair_eq_ok.1 h).1 hsame hpaused
      have ha : s.pendingEligibilityAuthority = some a := ha
      exact ⟨v', by rw [published, ha]; exact hacc, hv'⟩
    case pause | unpause =>
      obtain ⟨g, hg, -, hr⟩ := setPaused_ok (pair_eq_ok.1 h).1
      exact ⟨_, Machine.accepts_singleton.2 rfl, hv.setPaused (by rw [hg]; rfl) hsame hr hpaused⟩
    all_goals exact hquiet rfl rfl rfl hsame

end Pool

end TogetherFi
