/-
  How long a campaign stays completable in storage.

  `complete` needs the instance of the escrow, the record of the campaign and
  the instances of the two pools.  The first two outlast the campaign
  (`System.Lives`).  Nothing between `fund` and `complete` has to call the pools,
  so theirs do when they did at `fund` (`PoolsOutlast`), and only then: a run in
  which only ledgers close passes their lives by.
-/
import TogetherFi.System.Lives

namespace TogetherFi

open Outcome Function Escrow Pool

variable {D : Deployment} {w w' : World}

/-! ## What a run leads on to -/

/-- What the lives and the deadlines of `w` are in a state `w'` reached from it. -/
structure Onward (w w' : World) : Prop where
  clock : Clock.Paced cadence w.clock w'.clock
  bindings : w.escrow.governance.isSome →
    w'.escrow.governance.isSome ∧ w'.escrow.bindings = w.escrow.bindings
  live : ∀ p e, (w.pools p).live e ≤ (w'.pools p).live e

theorem Onward.refl (w : World) : Onward w w :=
  ⟨.refl _ _, fun h => ⟨h, rfl⟩, fun _ _ => le_rfl⟩

theorem Onward.trans {w₁ w₂ w₃ : World} (h₁ : Onward w₁ w₂) (h₂ : Onward w₂ w₃) : Onward w₁ w₃ := by
  refine ⟨h₁.clock.trans h₂.clock, fun hg => ?_, fun p e => (h₁.live p e).trans (h₂.live p e)⟩
  obtain ⟨hg', hb⟩ := h₁.bindings hg
  obtain ⟨hg'', hb'⟩ := h₂.bindings hg'
  exact ⟨hg'', hb'.trans hb⟩

theorem Onward.step {a : Action} (h : D.step w a = .ok w')
    (hp : Clock.Paced cadence w.clock w'.clock) : Onward w w' := by
  refine ⟨hp, (Deployment.step_effect h).escrow_bindings, fun p e => ?_⟩
  refine Deployment.step_pool_keeps (I := fun s => (w.pools p).live e ≤ s.live e) ?_ h le_rfl
  intro env c s s' t t' _ hc hle
  rw [PoolCall.exec_live hc]
  exact hle.trans (le_extendAll ..)

/-- **A paced run leads on.** -/
theorem Execution.onward (x : Execution D) {as : List Action} (h : (x.after as).Paced) :
    Onward x.final (x.after as).final := by
  have hhist : (x.after as).history = x.history ++ D.machine.trace x.final as :=
    Machine.trace_append ..
  rw [after_final]
  refine Machine.trace_relation Onward.refl (fun _ _ _ => Onward.trans) fun t ht => ?_
  exact Onward.step t.ok (h t (hhist ▸ List.mem_append_right _ ht))

/-! ## The pools of a campaign -/

/-- `p` is a pool of the system that the escrow pays into. -/
def World.Serves (D : Deployment) (w : World) (p : Address) : Prop :=
  D.isPool p = true ∧ (w.escrow.nftPool = some p ∨ w.escrow.revenuePool = some p)

/-- The instances of both pools outlast the time `d`. -/
def World.PoolsOutlast (D : Deployment) (w : World) (d : ℕ) : Prop :=
  ∀ p, w.Serves D p → Clock.Outlasts cadence w.clock ((w.pools p).live .instance_) d

theorem Onward.serves {p : Address} (h : Onward w w') (hg : w.escrow.governance.isSome)
    (hp : w'.Serves D p) : w.Serves D p := by
  obtain ⟨-, hb⟩ := h.bindings hg
  have hn : w'.escrow.nftPool = w.escrow.nftPool := congrArg Bindings.nftPool hb
  have hr : w'.escrow.revenuePool = w.escrow.revenuePool := congrArg Bindings.revenuePool hb
  rw [World.Serves, hn, hr] at hp
  exact hp

/-- **Pools that outlast a deadline go on doing so.** -/
theorem World.PoolsOutlast.onward {d : ℕ} (h : w.PoolsOutlast D d) (ho : Onward w w')
    (hg : w.escrow.governance.isSome) : w'.PoolsOutlast D d := by
  intro p hp
  exact ((h p (ho.serves hg hp)).later (by decide) ho.clock).mono (ho.live p _)

/-- The pools live for the 30 days of a campaign funded now. -/
def World.PoolsLast (D : Deployment) (w : World) : Prop :=
  ∀ p, w.Serves D p → w.sequence + 518399 ≤ (w.pools p).live .instance_

theorem World.PoolsLast.outlast (h : w.PoolsLast D) :
    w.PoolsOutlast D (w.timestamp.toNat + 2592000) := by
  intro p hp _
  show w.sequence + (w.timestamp.toNat + 2592000 - 1 - w.timestamp.toNat) / cadence ≤ _
  have hdiv : (w.timestamp.toNat + 2592000 - 1 - w.timestamp.toNat) / cadence = 518399 := by
    unfold cadence
    omega
  rw [hdiv]
  exact h p hp

/-- A step that funds a campaign does it while the pools live for its 30 days. -/
def Deployment.Step.FundsInTime (t : D.Step) : Prop :=
  ∀ signers foreign id sponsor amount, t.act = .escrow signers foreign (.fund id sponsor amount) →
    t.pre.PoolsLast D

theorem Effect.expires {a : Action} {id : UInt64} {k' : Campaign} (h : Effect D w w' a)
    (hk : w'.escrow.campaign id = some k') :
    (∃ signers foreign sponsor amount, a = .escrow signers foreign (.fund id sponsor amount) ∧
      k'.expiresAt.toNat = w.timestamp.toNat + 2592000) ∨
    ∃ k, w.escrow.campaign id = some k ∧ k.expiresAt = k'.expiresAt := by
  cases h with
  | @escrow signers foreign call s pools t h hw =>
    subst hw
    rcases h.expires hk with ⟨sponsor, amount, rfl, hexp⟩ | hold
    · exact .inl ⟨signers, foreign, sponsor, amount, rfl, hexp⟩
    · exact .inr hold
  | pool _ _ hw | transfer _ _ _ hw | issuer _ hw | close _ hw =>
    subst hw
    exact .inr ⟨k', hk, rfl⟩

theorem Execution.governed (x : Execution D) {id : UInt64} {k : Campaign}
    (hk : x.final.escrow.campaign id = some k) : x.final.escrow.governance.isSome := by
  refine x.escrow_books.initialized fun live he => ?_
  rw [he.campaign] at hk
  cases hk

/-- **The pools outlast every campaign that was funded in time.** -/
theorem Execution.pools_outlast (x : Execution D) (hx : x.Paced)
    (hf : ∀ t ∈ x.history, t.FundsInTime) {id : UInt64} {k : Campaign}
    (hk : x.final.escrow.campaign id = some k) : x.final.PoolsOutlast D k.expiresAt.toNat := by
  refine induction (A := fun _ => True)
    (P := fun h w => (∀ t ∈ h, Clock.Paced cadence t.pre.clock t.post.clock ∧ t.FundsInTime) →
      ∀ id k, w.escrow.campaign id = some k → w.PoolsOutlast D k.expiresAt.toNat)
    (fun w hw _ id k hk => ?_) (fun y t _ _ hpre ih hall id k' hk' => ?_) x (fun _ _ => trivial)
    (fun t ht => ⟨hx t ht, hf t ht⟩) id k hk
  · obtain ⟨live, he⟩ := hw.escrow
    rw [he] at hk
    cases hk
  · have hpast := ih fun u hu => hall u (List.mem_append_left _ hu)
    obtain ⟨hpace, hfund⟩ := hall t (List.mem_append_right _ (List.mem_singleton_self t))
    have ho : Onward t.pre t.post := .step t.ok hpace
    have heff := Deployment.Step.effect t
    rcases heff.expires hk' with ⟨signers, foreign, sponsor, amount, hact, hexp⟩ | ⟨k, hk, hexp⟩
    · -- the pools live long enough as the campaign is funded
      have hg : t.pre.escrow.governance.isSome := by
        rw [hact] at heff
        cases heff with
        | escrow h _ =>
          cases h with
          | fund h _ => exact h.initialized
          | other hcall => cases hcall
      rw [hexp]
      exact (hfund signers foreign id sponsor amount hact).outlast.onward ho hg
    · rw [← hexp]
      have hg : t.pre.escrow.governance.isSome := by
        rw [hpre] at hk ⊢
        exact y.governed hk
      exact (hpast id k hk).onward ho hg

/-! ## Completable campaigns -/

/-- Campaign `id` is open and has not expired. -/
def World.Pending (w : World) (id : UInt64) : Prop :=
  ∃ c, w.escrow.campaign id = some c ∧ c.isOpen ∧ w.timestamp < c.expiresAt

/-- The entries that `complete` of campaign `id` reads or writes are alive. -/
structure World.Completable (D : Deployment) (w : World) (id : UInt64) : Prop where
  instance_ : w.sequence ≤ w.escrow.live .instance_
  campaign : w.sequence ≤ w.escrow.live (.campaign id)
  pools : ∀ p, w.Serves D p → w.sequence ≤ (w.pools p).live .instance_

/-- The entries of the escrow never fail a campaign. -/
theorem Execution.completable (x : Execution D) (hx : x.Paced) {id : UInt64} {c : Campaign}
    (hc : x.final.escrow.campaign id = some c) (htime : x.final.timestamp < c.expiresAt)
    (hp : x.final.PoolsOutlast D c.expiresAt.toNat) : x.final.Completable D id := by
  have hlt : x.final.timestamp.toNat < c.expiresAt.toNat := UInt64.lt_iff_toNat_lt.1 htime
  have hown := (entries_alive x hx).1 id c hc (by omega)
  exact ⟨hown.1, hown.2, fun p hserves => (hp p hserves).alive hlt⟩

/-- The close of the last ledger that can come before the time `d`. -/
def lastClose (w : World) (d : UInt64) : Action :=
  .close (d - 1) (Clock.lastBefore cadence w.clock d.toNat).ledger

/-- **The run in which nothing happens until the last ledger before `d`.** -/
theorem Execution.wait (x : Execution D) (hx : x.Paced) {d : UInt64} (hd : x.final.timestamp < d) :
    (x.after [lastClose x.final d]).Paced ∧
    (x.after [lastClose x.final d]).final = { x.final with
      timestamp := d - 1
      sequence := (Clock.lastBefore cadence x.final.clock d.toNat).ledger } := by
  have hlt : x.final.timestamp.toNat < d.toNat := UInt64.lt_iff_toNat_lt.1 hd
  have hsub : (d - 1).toNat = d.toNat - 1 := by
    refine UInt64.toNat_sub_of_le d 1 (UInt64.le_iff_toNat_le.2 ?_)
    show 1 ≤ d.toNat
    omega
  have hpace : Clock.Paced cadence x.final.clock (.lastBefore cadence x.final.clock d.toNat) :=
    Clock.paced_lastBefore hlt
  have hclose : D.machine.step x.final (lastClose x.final d) = .ok { x.final with
      timestamp := d - 1
      sequence := (Clock.lastBefore cadence x.final.clock d.toNat).ledger } := by
    refine if_pos ⟨UInt64.le_iff_toNat_le.2 ?_, hpace.ledger_le⟩
    rw [hsub]
    omega
  constructor
  · intro t ht
    have hhist : (x.after [lastClose x.final d]).history =
        x.history ++ D.machine.trace x.final [lastClose x.final d] := Machine.trace_append ..
    rw [hhist, Machine.trace_cons_ok hclose] at ht
    rcases List.mem_append.1 ht with ht | ht
    · exact hx t ht
    · rw [List.mem_singleton.1 ht]
      show Clock.Paced cadence x.final.clock ⟨(d - 1).toNat, _⟩
      rw [hsub]
      exact hpace
  · rw [after_final, Machine.run_cons, Machine.run_nil]
    exact Machine.next_ok hclose

/-- **When campaigns stay completable without a keeper.**  They do in every run that
    funds each of them while the instances of both pools live for the 30 days to come;
    and a pending campaign stays so, in all runs that go on without a keeper, if and
    only if both instances outlast it. -/
theorem completable_without_keeper (x : Execution D) (hx : x.Paced) :
    ((∀ t ∈ x.history, t.FundsInTime) → ∀ id, x.final.Pending id → x.final.Completable D id) ∧
    ∀ id c, x.final.escrow.campaign id = some c → c.isOpen → x.final.timestamp < c.expiresAt →
      ((∀ as, (∀ a ∈ as, a.isKeeper = false) → (x.after as).Paced →
          (x.after as).final.Pending id → (x.after as).final.Completable D id) ↔
        x.final.PoolsOutlast D c.expiresAt.toNat) := by
  constructor
  · rintro hf id ⟨c, hc, -, htime⟩
    exact x.completable hx hc htime (x.pools_outlast hx hf hc)
  · intro id c hc hopen htime
    constructor
    · intro h p hp
      obtain ⟨hpaced, hfinal⟩ := x.wait hx htime
      have hpos : 1 ≤ c.expiresAt := by
        have hlt := UInt64.lt_iff_toNat_lt.1 htime
        refine UInt64.le_iff_toNat_le.2 ?_
        show 1 ≤ c.expiresAt.toNat
        omega
      have hpending : (x.after [lastClose x.final c.expiresAt]).final.Pending id := by
        rw [hfinal]
        refine ⟨c, hc, hopen, UInt64.lt_iff_toNat_lt.2 ?_⟩
        show (c.expiresAt - 1).toNat < c.expiresAt.toNat
        rw [UInt64.toNat_sub_of_le _ _ hpos]
        have hlt := UInt64.le_iff_toNat_le.1 hpos
        have hone : (1 : UInt64).toNat = 1 := rfl
        omega
      have hlast := h [lastClose x.final c.expiresAt] (by simp [lastClose, Action.isKeeper]) hpaced
        hpending
      rw [hfinal] at hlast
      exact Clock.outlasts_iff.2 fun _ => hlast.pools p hp
    · intro h as _ hpaced hpending
      obtain ⟨c', hc', -, htime'⟩ := hpending
      obtain ⟨c'', hc'', hev⟩ := x.evolves as hc
      obtain rfl := Option.some.inj (hc''.symm.trans hc')
      refine (x.after as).completable hpaced hc' htime' ?_
      rw [hev.expiresAt]
      exact h.onward (x.onward hpaced) (x.governed hc)

theorem completable_without_keeper_sample :
    Sample.quiet.final.Pending 2 ∧ Sample.quiet.final.Completable Sample.deployment 2 := by
  have hpending : Sample.quiet.final.Pending 2 := ⟨_, rfl, by decide +kernel, by decide +kernel⟩
  refine ⟨hpending, (completable_without_keeper Sample.quiet Sample.quiet_paced).1 ?_ 2 hpending⟩
  intro t ht _ _ _ _ _ _ p hp
  have hlive : ∀ t ∈ Sample.quiet.history, ∀ p ∈ [Sample.nftPool, Sample.revenuePool],
      t.pre.sequence + 518399 ≤ (t.pre.pools p).live .instance_ := by decide +kernel
  have hpool : p = Sample.nftPool ∨ p = Sample.revenuePool := by simpa [Sample.deployment] using hp.1
  exact hlive t ht p (by simpa using hpool)

/-! ## Pools that expire first -/

/-- The entry exists. -/
def Escrow.EscrowStorage.holds (s : EscrowStorage) : EscrowEntry → Bool
  | .instance_ => true
  | .campaign id => (s.campaign id).isSome
  | .consumedOperation id version => (s.consumedOperation id version).isSome

/-- Whether an entry is stored. -/
def Pool.PoolStorage.holds (s : PoolStorage) : PoolEntry → Bool
  | .instance_ => true
  | .creditedCampaign id => (s.creditedCampaign id).isSome
  | .manifest id => (s.manifest id).isSome
  | .allocation id i => (s.allocation id i).isSome

/-- The contracts a call of the escrow calls, and the entries they use for it. -/
def Escrow.EscrowCall.nested (s : EscrowStorage) : EscrowCall → List (Address × List PoolEntry)
  | .initializeEscrow _ _ _ _ nft revenue .. => [(nft, [.instance_]), (revenue, [.instance_])]
  | .complete id _ => (s.nftPool.toList ++ s.revenuePool.toList).map fun p =>
    (p, [.instance_, .creditedCampaign id])
  | _ => []

/-- The lives of the entries an action uses. -/
def World.livesUsed (D : Deployment) (w : World) : Action → List ℕ
  | .escrow _ _ call =>
    ((.instance_ :: call.touched).filter w.escrow.holds).map w.escrow.live ++
      ((call.nested w.escrow).filter fun q => D.isPool q.1).flatMap fun q =>
        (q.2.filter (w.pools q.1).holds).map (w.pools q.1).live
  | .pool p _ call =>
    ((.instance_ :: call.touched (w.pools p)).filter (w.pools p).holds).map (w.pools p).live
  | _ => []

/-- No call of the run uses an expired entry, with which it would have failed. -/
def Execution.Unexpired (x : Execution D) : Prop :=
  ∀ t ∈ x.history, ∀ n ∈ t.pre.livesUsed D t.act, t.pre.sequence ≤ n

/-- The escrow is set up, left alone for a month, and a campaign is launched. -/
def Sample.stale : Execution Sample.deployment where
  start := Sample.deployed 120961
  genesis := Sample.deployed_genesis 120961
  actions := Sample.setup Sample.treasury ++ [.close 2500995 500000] ++ Sample.launch 1 10000 ++
    [.close 4000995 800000]

/-- **A campaign is not kept completable by its funding.** -/
theorem pools_expire_first : ¬ ∀ (D : Deployment) (x : Execution D), x.Paced →
    (∀ a ∈ x.actions, a.isKeeper = false) → x.Unexpired →
    ∀ id, x.final.Pending id → x.final.Completable D id := by
  intro h
  have hpaced : Sample.stale.Paced := by
    unfold Execution.Paced
    decide +kernel
  have hunexpired : Sample.stale.Unexpired := by
    unfold Execution.Unexpired
    decide +kernel
  have hpending : Sample.stale.final.Pending 1 := ⟨_, rfl, by decide +kernel, by decide +kernel⟩
  have hall := h _ Sample.stale hpaced (by decide) hunexpired 1 hpending
  have hpool := hall.pools Sample.nftPool ⟨by decide, .inl (by decide +kernel)⟩
  exact absurd hpool (by decide +kernel)

end TogetherFi
