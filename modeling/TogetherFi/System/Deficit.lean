/-
  No cross-spending: what a contract pays it can pay without touching what it
  owes to others.

  The issuers may change any balance between two steps, so nothing is known of
  the balances beforehand.  The contracts compare their stored counters with
  the balance before they pay, and the books say that the counters are the sums
  over all campaigns and all allocations.
-/
import TogetherFi.System.Payouts
import TogetherFi.System.Provenance

namespace TogetherFi

open Function Finset Escrow Pool

variable {D : Deployment}

/-! ## What is to be covered -/

/-- The escrow holds the amounts of all open campaigns. -/
def EscrowCovered (D : Deployment) (w : World) : Prop :=
  ∃ token, w.escrow.token = some token ∧
    Table.total Campaign.owed w.escrow.campaign ≤ w.tokens.balance token D.escrow

/-- What is unclaimed of manifest `id`, while it is active. -/
def Pool.PoolStorage.unclaimedOf (s : PoolStorage) (id : UInt64) : ℤ :=
  Table.weight (fun m => if m.status = .active then m.sum Allocation.unclaimed (s.allocation id) else 0)
    (s.manifest id)

/-- The pool `p` holds the unclaimed amounts of all active manifests. -/
def PoolCovered (p : Address) (w : World) : Prop :=
  ∃ token, (w.pools p).token = some token ∧
    ∑ id, (w.pools p).unclaimedOf id ≤ w.tokens.balance token p

/-- The pool `p` holds what it was credited and did not pay, and that covers
    the active manifests. -/
def PoolFunded (p : Address) (w : World) : Prop :=
  ∃ token, (w.pools p).token = some token ∧
    (w.pools p).credited - (w.pools p).paid ≤ w.tokens.balance token p ∧
    ∑ id, (w.pools p).unclaimedOf id ≤ (w.pools p).credited - (w.pools p).paid

/-- The liability of a pool is what is unclaimed of its active manifests. -/
theorem Pool.Books.sum_unclaimedOf {s : PoolStorage} (h : Pool.Books s) :
    ∑ id, s.unclaimedOf id = s.liability := by
  rw [h.liability, Table.total]
  refine sum_congr rfl fun id _ => ?_
  unfold PoolStorage.unclaimedOf
  cases hm : s.manifest id with
  | none => rfl
  | some m =>
    rw [Table.weight_some, Table.weight_some, Manifest.owed]
    split
    · rename_i hact
      exact (((h.manifest id m hm).1.active hact).1).symm
    · rfl

theorem EscrowCovered.of_solvent {w : World} {token : Address} (hb : Escrow.Books D.escrow w.escrow)
    (ht : w.escrow.token = some token) (h : EscrowSolvent D.escrow w.escrow w.tokens) :
    EscrowCovered D w :=
  ⟨token, ht, hb.liability ▸ h token ht⟩

/-! ## The escrow -/

/-- The calls that settle a campaign. -/
def Escrow.EscrowCall.settles : EscrowCall → Bool
  | .complete .. | .refundExpired .. => true
  | _ => false

/-- Whether an action settles a campaign. -/
def Action.settles : Action → Bool
  | .escrow _ _ call => call.settles
  | _ => false

theorem Escrow.EscrowCall.settles_eq_false {call : EscrowCall} (h : call.isBooking = false) :
    call.settles = false := by
  cases call <;> first | rfl | cases h

section
variable {w w' : World} {a : Action}

/-- **A settlement is made only when the escrow covers all open campaigns**, and
    it leaves the escrow covering the others. -/
theorem Effect.settles_covered (h : Effect D w w' a) (hb : Escrow.Books D.escrow w.escrow)
    (hs : a.settles = true) : EscrowCovered D w ∧ EscrowCovered D w' := by
  have hb' := h.escrow_books hb
  cases h with
  | @escrow signers foreign call s pools t h hw =>
    have hself : (D.env w D.escrow signers foreign).authorized D.escrow = false := by
      simp [Deployment.env, Deployment.isSystem_escrow]
    -- the check of the contract says that the escrow is solvent at this point
    have hsolvent : ∀ {token}, w.escrow.token = some token →
        w.escrow.liability ≤ w.tokens.balance token D.escrow → s.token = some token →
        EscrowCovered D w ∧ EscrowCovered D w' := by
      intro token htoken hcov htoken'
      have hpre : EscrowSolvent D.escrow w.escrow w.tokens := by
        intro token' htok
        obtain rfl := Option.some.inj (htoken.symm.trans htok)
        exact hcov
      have hpost : EscrowSolvent D.escrow w'.escrow w'.tokens := by
        rw [hw]; exact EscrowSolvent.effect hpre hself h
      exact ⟨.of_solvent hb htoken hpre, .of_solvent hb' (by rw [hw]; exact htoken') hpost⟩
    cases h with
    | complete h =>
      refine hsolvent h.paysIn h.covered ?_
      obtain ⟨live, rfl⟩ := h.post
      exact h.paysIn
    | refundExpired h _ =>
      refine hsolvent h.paysIn h.covered ?_
      obtain ⟨live, rfl⟩ := h.post
      exact h.paysIn
    | other hcall => rw [Action.settles, EscrowCall.settles_eq_false hcall] at hs; cases hs
    | initializeEscrow | fund | activate => cases hs
  | pool | transfer | issuer | close => cases hs

theorem payment_eq_nil {h : List D.Step} (hs : a.settles = false) :
    payment D.escrow h a = some [] := by
  unfold payment
  split
  · cases hs
  · cases hs
  · rfl

/-! ## The pools -/

/-- **A claim is paid only when the pool covers all active manifests**, and it
    leaves the pool covering the others. -/
theorem Effect.claim_covered {p : Address} {id : UInt64} {i : ℕ} (h : Effect D w w' a)
    (hb : Pool.Books (w.pools p)) (hc : a.claims p = some (id, i)) :
    PoolCovered p w ∧ PoolCovered p w' := by
  have hb' := h.pool_books hb
  obtain ⟨m, al, token, hcl⟩ := h.claim_of hc
  have h₀ := hcl.amount
  have hcov := hcl.covered
  have hge := hcl.transfer.balance_ge (by simpa using h₀) token p
  obtain ⟨live, hpost⟩ := hcl.post
  have hsent : sent [⟨token, p, al.recipient, al.amount⟩] token p = al.amount := by simp
  have hliab : (w'.pools p).liability = (w.pools p).liability - al.amount := by rw [hpost]; rfl
  refine ⟨⟨token, hcl.paysIn, hb.sum_unclaimedOf ▸ hcov⟩, token, by rw [hpost]; exact hcl.paysIn, ?_⟩
  rw [hb'.sum_unclaimedOf, hliab]
  simp only [Deployment.env_self] at hcov hge
  omega

theorem Pool.RecordCredit.holds {env : Env} {id : UInt64} {amount : ℤ} {s s' : PoolStorage}
    {t : Tokens} (h : RecordCredit env id amount s t s') :
    ∃ token, s'.token = some token ∧ s'.credited - s'.paid ≤ t.balance token env.self := by
  obtain ⟨token, htoken, hcov⟩ := h.covered
  obtain ⟨live, rfl⟩ := h.post
  exact ⟨token, htoken, hcov⟩

theorem PoolFunded.of_books {p token : Address} (hb : Pool.Books (w.pools p))
    (ht : (w.pools p).token = some token)
    (h : (w.pools p).credited - (w.pools p).paid ≤ w.tokens.balance token p) : PoolFunded p w := by
  have hcov := hb.covered
  exact ⟨token, ht, h, by rw [hb.sum_unclaimedOf]; omega⟩

/-- `record_credit` of the pool `p` is called: from outside, or by the escrow
    that completes a campaign. -/
def Action.recordsCredit (p : Address) (s : EscrowStorage) (a : Action) : Prop :=
  (∃ id amount, a.callOf p = some (.recordCredit id amount)) ∨
    ((∃ signers foreign id version, a = .escrow signers foreign (.complete id version)) ∧
      (s.nftPool = some p ∨ s.revenuePool = some p))

theorem balance_drop_le {token : Address} {q : Payees} {total : ℤ} {t t' : Tokens} {p : Address}
    {n : ℕ} (h : t.After ((payouts token D.escrow q total).drop n) t') (hp : p ≠ D.escrow)
    (hpos : ∀ e ∈ payouts token D.escrow q total, 0 ≤ e.amount) (token' : Address) :
    t.balance token' p ≤ t'.balance token' p := by
  refine h.balance_mono (fun e he => hpos e (List.mem_of_mem_drop he)) (fun e he => ?_) token'
  have hmem := List.mem_of_mem_drop he
  simp only [payouts, List.mem_cons, List.not_mem_nil, or_false] at hmem
  rcases hmem with rfl | rfl | rfl | rfl | rfl <;> exact hp.symm

/-- **A credit is recorded only of tokens that are there.** -/
theorem Effect.credit_funded {p : Address} (h : Effect D w w' a) (hp : D.isPool p = true)
    (hb : Pool.Books (w.pools p)) (heb : Escrow.Books D.escrow w.escrow)
    (hr : a.recordsCredit p w.escrow) : PoolFunded p w' := by
  have hb' := h.pool_books hb
  have hne := Deployment.ne_escrow_of_isPool hp
  rcases hr with ⟨id, amount, hc⟩ | ⟨⟨signers, foreign, id, version, rfl⟩, hpool⟩
  · have hcall := h.pool_called hc
    generalize hs' : w'.pools p = s' at hcall
    generalize ht' : w'.tokens = t' at hcall
    cases hcall with
    | recordCredit hcr ht =>
      obtain ⟨token, htoken, hcov⟩ := hcr.holds
      refine .of_books hb' (by rw [hs']; exact htoken) ?_
      rw [hs', ht', ht]; exact hcov
    | other hcall => cases hcall
  · cases h with
    | escrow h hw =>
      cases h with
      | @complete _ _ c tok q hco =>
        obtain ⟨hn, hrev, -⟩ := hco.payOut.credited (heb.pools_distinct hco)
        rcases hpool with hpool | hpool
        · obtain rfl := Option.some.inj (hpool.symm.trans hco.payOut.nftPool)
          obtain ⟨t₃, -, hrest, hcr⟩ := hn hp
          obtain ⟨token, htoken, hcov⟩ := hcr.holds
          have hle := balance_drop_le hrest hne hco.payOut.nonneg token
          exact .of_books hb' (by rw [hw]; exact htoken) (by rw [hw]; exact hcov.trans hle)
        · obtain rfl := Option.some.inj (hpool.symm.trans hco.payOut.revenuePool)
          obtain ⟨t₄, -, hrest, hcr⟩ := hrev hp
          obtain ⟨token, htoken, hcov⟩ := hcr.holds
          have hle := balance_drop_le hrest hne hco.payOut.nonneg token
          exact .of_books hb' (by rw [hw]; exact htoken) (by rw [hw]; exact hcov.trans hle)
      | other hcall => cases hcall

/-- **A manifest is published only of tokens that are there.** -/
theorem Effect.publish_funded {p : Address} {id : UInt64} (h : Effect D w w' a)
    (hb : Pool.Books (w.pools p)) (hc : a.publishes p = some id) : PoolFunded p w' := by
  have hb' := h.pool_books hb
  obtain ⟨call, hcall, hpub⟩ := Option.bind_eq_some_iff.1 hc
  have hcall := h.pool_called hcall
  generalize hs' : w'.pools p = s' at hcall
  generalize ht' : w'.tokens = t' at hcall
  cases hcall with
  | publishManifest hp ht =>
    obtain ⟨token, htoken, hcov⟩ := hp.covered
    obtain ⟨live, hpost⟩ := hp.post
    refine .of_books hb' (by rw [hs', hpost]; exact htoken) ?_
    rw [hs', ht', ht, hpost]; exact hcov
  | other hcall => rw [PoolCall.publishes_eq_none hcall] at hpub; cases hpub
  | initializePool | recordCredit | claim | expireManifest => cases hpub

end

/-! ## Whole runs -/

/-- **No cross-spending under a deficit.**  The issuers may claw back any
    amount at any time: a settlement or a claim still takes place only while
    the contract covers all it owes, and leaves it covering the rest; below
    that nothing leaves the escrow; and what a pool is credited is there when it
    is credited or published. -/
theorem no_cross_spending (x : Execution D) :
    (∀ t ∈ x.history, t.act.settles = true → EscrowCovered D t.pre ∧ EscrowCovered D t.post) ∧
    (∀ t ∈ x.history, ∀ token, t.pre.escrow.token = some token →
      t.pre.tokens.balance token D.escrow < Table.total Campaign.owed t.pre.escrow.campaign →
      t.outflow D.escrow = []) ∧
    (∀ t ∈ x.history, ∀ p id i, t.act.claims p = some (id, i) →
      PoolCovered p t.pre ∧ PoolCovered p t.post) ∧
    (∀ t ∈ x.history, ∀ p, D.isPool p = true → t.act.recordsCredit p t.pre.escrow →
      PoolFunded p t.post) ∧
    ∀ t ∈ x.history, ∀ p id, t.act.publishes p = some id → PoolFunded p t.post := by
  have hbooks : ∀ t ∈ x.history, Escrow.Books D.escrow t.pre.escrow ∧ ∀ p, Pool.Books (t.pre.pools p) :=
    fun t ht => Execution.books_before ht
  have hsettle : ∀ t ∈ x.history, t.act.settles = true →
      EscrowCovered D t.pre ∧ EscrowCovered D t.post :=
    fun t ht hs => t.effect.settles_covered (hbooks t ht).1 hs
  refine ⟨hsettle, fun t ht token htoken hlt => ?_,
    fun t ht p id i hc => t.effect.claim_covered ((hbooks t ht).2 p) hc,
    fun t ht p hp hr => t.effect.credit_funded hp ((hbooks t ht).2 p) (hbooks t ht).1 hr,
    fun t ht p id hc => t.effect.publish_funded ((hbooks t ht).2 p) hc⟩
  cases hs : t.act.settles with
  | false =>
    have h := x.outflow_payment ht
    rw [payment_eq_nil hs] at h
    exact (Option.some.inj h).symm
  | true =>
    obtain ⟨⟨token', htoken', hcov⟩, -⟩ := hsettle t ht hs
    obtain rfl := Option.some.inj (htoken.symm.trans htoken')
    omega

end TogetherFi
