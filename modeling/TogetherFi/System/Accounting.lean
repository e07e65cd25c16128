/-
  The books of every reachable state, and the solvency of the escrow.

  The books of the contracts (`Pool.Books`, `Escrow.Books`) hold in every
  reachable state, whatever the issuers do.  Without clawback the escrow also
  holds what it owes: a settlement pays out exactly what it takes off the
  liability, and nothing else leaves the escrow.
-/
import TogetherFi.Pool.Books
import TogetherFi.Escrow.Books
import TogetherFi.System.World

namespace TogetherFi

open Function Finset Escrow Pool

variable {D : Deployment}

/-! ## The books -/

theorem Effect.escrow_books {w w' : World} {a : Action} (h : Effect D w w' a)
    (hb : Escrow.Books D.escrow w.escrow) : Escrow.Books D.escrow w'.escrow :=
  h.escrow_preserves (fun hself h hI => hself ▸ (hself ▸ hI : Escrow.Books _ _).effect h) hb

theorem Effect.pool_books {w w' : World} {a : Action} (h : Effect D w w' a) {p : Address}
    (hb : Pool.Books (w.pools p)) : Pool.Books (w'.pools p) :=
  h.pool_preserves (fun _ h hI => hI.effect h) hb

theorem Execution.escrow_books (x : Execution D) : Escrow.Books D.escrow x.final.escrow :=
  x.escrow_invariant .empty fun hself h hI => hself ▸ (hself ▸ hI : Escrow.Books _ _).effect h

theorem Execution.pool_books (x : Execution D) (p : Address) : Pool.Books (x.final.pools p) :=
  x.pool_invariant .empty fun _ h hI => hI.effect h

theorem Execution.books_before {x : Execution D} {t : D.Step} (ht : t ∈ x.history) :
    Escrow.Books D.escrow t.pre.escrow ∧ ∀ p, Pool.Books (t.pre.pools p) := by
  obtain ⟨y, hy, -⟩ := exists_prefix ht
  rw [← hy]
  exact ⟨y.escrow_books, y.pool_books⟩

/-- **The accounts of a pool.**  The totals agree with the manifests and the
    allocations, the pool never owes more than it was credited, and no
    subtraction of the contract goes below zero. -/
theorem pool_accounts (x : Execution D) (p : Address) :
    let s := x.final.pools p
    s.liability = Table.total Manifest.owed s.manifest ∧
    (∀ id m, s.manifest id = some m →
      (m.status = .active →
        m.remainingAmount = m.sum Allocation.unclaimed (s.allocation id) ∧ 0 < m.remainingAmount) ∧
      (m.status = .completed → m.remainingAmount = 0 ∧
        ∀ i < m.allocationCount, ∃ a, s.allocation id i = some a ∧ a.claimed = true) ∧
      (m.status = .expired → m.remainingAmount = 0)) ∧
    s.paid = ∑ id, s.claimedOf id ∧
    (∀ id i a, s.allocation id i = some a → ∃ m, s.manifest id = some m ∧ i < m.allocationCount) ∧
    0 ≤ s.liability ∧ s.paid + s.liability ≤ s.credited ∧ 0 ≤ s.credited - s.paid ∧
    ∀ id m, s.manifest id = some m → m.status = .active →
      0 ≤ s.liability - m.remainingAmount ∧
      ∀ i a, s.allocation id i = some a → a.claimed = false →
        0 ≤ m.remainingAmount - a.amount ∧ 0 ≤ s.liability - a.amount := by
  intro s
  have h : Pool.Books s := x.pool_books p
  have hl := h.liability_nonneg
  have hc := h.covered
  refine ⟨h.liability, fun id m hm => ?_, h.paid, fun id i a ha => ?_, hl, hc, by omega,
    fun id m hm hact => ⟨?_, fun i a ha hun => ?_⟩⟩
  · have hb := (h.manifest id m hm).1
    exact ⟨hb.active, hb.completed, hb.expired⟩
  · cases hm : s.manifest id with
    | none => rw [h.unpublished id hm] at ha; cases ha
    | some m => exact ⟨m, rfl, (h.manifest id m hm).1.index_lt ha⟩
  · have := h.remaining_le hm hact
    omega
  · have h₁ := h.remaining_le hm hact
    have h₂ := (h.manifest id m hm).1.amount_le_remaining hact ha hun
    omega

/-! ## Solvency of the escrow -/

/-- The escrow holds what it owes. -/
def EscrowSolvent (escrow : Address) (s : EscrowStorage) (t : Tokens) : Prop :=
  ∀ token, s.token = some token → s.liability ≤ t.balance token escrow

/-- **A call of the escrow keeps it solvent.** -/
theorem EscrowSolvent.effect {env : Env} {s s' : EscrowStorage} {pools pools' : Pools}
    {t t' : Tokens} {call : EscrowCall} (h : EscrowSolvent env.self s t)
    (hself : env.authorized env.self = false)
    (hc : Escrow.Effect env s pools t s' pools' t' call) : EscrowSolvent env.self s' t' := by
  intro token htoken
  cases hc with
  | initializeEscrow hc _ ht =>
    subst ht
    obtain ⟨live, rfl⟩ := hc.post
    exact t'.balance_nonneg token env.self
  | @fund _ sponsor _ _ hc _ =>
    have hauth := hc.sponsorAuth
    have hpays := hc.paysIn
    have hb := hc.transfer.balance token env.self
    obtain ⟨live, rfl⟩ := hc.post
    obtain rfl := Option.some.inj (hpays.symm.trans htoken)
    have := h _ hpays
    have hne : sponsor ≠ env.self := by
      rintro rfl; rw [hself] at hauth; cases hauth
    simp [hne] at hb
    change s.liability + _ ≤ _
    omega
  | activate hc _ ht =>
    subst ht
    obtain ⟨live, rfl⟩ := hc.post
    exact h token htoken
  | complete hc =>
    have hpays := hc.paysIn
    have hge := hc.payOut.transfers.balance_ge hc.payOut.nonneg token env.self
    obtain ⟨live, rfl⟩ := hc.post
    obtain rfl := Option.some.inj (hpays.symm.trans htoken)
    have := h _ hpays
    rw [sent_payouts] at hge
    change s.liability - _ ≤ _
    omega
  | refundExpired hc _ =>
    have hpays := hc.paysIn
    have h₀ := hc.amount
    have hge := hc.transfer.balance_ge (by simpa using h₀) token env.self
    obtain ⟨live, rfl⟩ := hc.post
    obtain rfl := Option.some.inj (hpays.symm.trans htoken)
    have := h _ hpays
    simp at hge
    change s.liability - _ ≤ _
    omega
  | other _ hc _ ht =>
    subst ht
    rw [EscrowStorage.liability, hc.liability]
    exact h token (hc.token ▸ htoken)

/-- **Without clawback the escrow is solvent in every reachable state.** -/
theorem Execution.escrow_solvent (x : Execution D) (hx : x.NoClawback) :
    EscrowSolvent D.escrow x.final.escrow x.final.tokens := by
  refine solvent_invariant (I := fun w => EscrowSolvent D.escrow w.escrow w.tokens)
    (fun w hw token htoken => ?_) (fun y a w' _ ha h hI => ?_) x hx
  · obtain ⟨live, he⟩ := hw.escrow
    rw [he] at htoken; cases htoken
  · -- only calls of the escrow take from it
    have hother : a.callee D.escrow ≠ some D.escrow → w'.escrow = y.final.escrow →
        EscrowSolvent D.escrow w'.escrow w'.tokens := by
      intro hcallee he token htoken
      obtain ⟨ts, hts, hpos⟩ := h.transfers ha
      have hge := hts.balance_ge (fun e he => (hpos e he).1) token D.escrow
      rw [sent_eq_zero_of_callee hpos Deployment.isSystem_escrow hcallee] at hge
      have := hI token (he ▸ htoken)
      rw [he]; omega
    cases h with
    | escrow h hw =>
      subst hw
      refine EscrowSolvent.effect hI ?_ h
      simp [Deployment.env, Deployment.isSystem_escrow]
    | pool hp _ hw =>
      subst hw
      exact hother (by simpa [Action.callee] using Deployment.ne_escrow_of_isPool hp) rfl
    | transfer _ _ _ hw => subst hw; exact hother (by simp [Action.callee]) rfl
    | issuer => cases ha
    | close _ hw => subst hw; exact hother (by simp [Action.callee]) rfl

/-- **Escrow solvency.**  After `initialize` the stored liability is the sum
    over the open campaigns, it is not negative, and the escrow holds it; so
    the addition of `fund` does not overflow once the transfer has succeeded,
    and no settlement takes the liability below zero. -/
theorem escrow_solvency (x : Execution D) (hx : x.NoClawback)
    (hinit : x.final.escrow.governance.isSome) :
    let s := x.final.escrow
    s.totalLiability = some (Table.total Campaign.owed s.campaign) ∧
    0 ≤ s.liability ∧
    ∃ token, s.token = some token ∧ s.liability ≤ x.final.tokens.balance token D.escrow ∧
      (∀ signers foreign sponsor amount t',
        (D.env x.final D.escrow signers foreign).authorized sponsor = true →
        (x.final.tokens.transfer (D.env x.final D.escrow signers foreign) token sponsor D.escrow
          amount : Escrow.Result Tokens) = .ok t' →
        s.liability + amount ≤ i128Max) ∧
      ∀ id c, s.campaign id = some c → c.isOpen → 0 ≤ s.liability - c.amount := by
  intro s
  have h : Escrow.Books D.escrow s := x.escrow_books
  have hs := x.escrow_solvent hx
  obtain ⟨l, hl⟩ := Option.isSome_iff_exists.1 (h.stored hinit)
  obtain ⟨token, htoken⟩ := Option.isSome_iff_exists.1 (h.bindings hinit).token
  have htoken : s.token = some token := htoken
  have hbal : s.liability ≤ x.final.tokens.balance token D.escrow := hs token htoken
  refine ⟨?_, h.liability_nonneg, token, htoken, hbal, ?_, fun id c hc hopen => ?_⟩
  · rw [← h.liability, EscrowStorage.liability, hl]; rfl
  · intro signers foreign sponsor amount t' hauth htr
    -- what the escrow then holds fits in an `i128`
    obtain ⟨-, -, -, hafter⟩ := Tokens.transfer_eq_ok.1 htr
    have hne : sponsor ≠ D.escrow := Deployment.ne_escrow_of_authorized hauth
    have hb := hafter.balance token D.escrow
    have hle := t'.balance_le token D.escrow
    simp [hne] at hb
    omega
  · have := h.amount_le hc hopen
    omega

theorem escrow_solvency_sample :
    Sample.execution.final.escrow.totalLiability = some 5700 ∧
      ∃ token, 5700 ≤ Sample.execution.final.tokens.balance token Sample.escrow := by
  have h := escrow_solvency Sample.execution Sample.execution_noClawback (by decide +kernel)
  obtain ⟨-, -, token, -, hbal, -⟩ := h
  exact ⟨by decide +kernel, token, le_trans (by decide +kernel) hbal⟩

end TogetherFi
