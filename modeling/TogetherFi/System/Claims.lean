/-
  The order of claims does not matter.

  In a pool that is not paused and holds its liability, any list of open claims
  without repetition succeeds claim by claim in every order, and all orders end
  in the same storage with the same balances.
-/
import TogetherFi.Pool.Claims
import TogetherFi.System.Accounting

namespace TogetherFi

open Function Pool

variable {D : Deployment}

/-- The claim of `e` in the pool `p`, authorized by `signers e`. -/
def Action.claim (p : Address) (signers : UInt64 × ℕ → Address → Bool) (e : UInt64 × ℕ) : Action :=
  .pool p (signers e) (.claim e.1 e.2)

/-- What the claim of `e` needs, besides a pool that runs and is covered. -/
def World.Claimable (D : Deployment) (p : Address) (signers : UInt64 × ℕ → Address → Bool)
    (w : World) (e : UInt64 × ℕ) : Prop :=
  (w.pools p).Claimable w.timestamp (D.env w p (signers e) .silent).authorized e

/-- **Open claims all succeed**, one after another. -/
theorem claims_succeed {p token : Address} (hp : D.isPool p = true)
    {signers : UInt64 × ℕ → Address → Bool} {l : List (UInt64 × ℕ)} {w : World}
    (hb : Pool.Books (w.pools p)) (hrun : (w.pools p).paused.getD false = false)
    (htoken : (w.pools p).token = some token)
    (hcov : (w.pools p).liability ≤ w.tokens.balance token p) (hnd : l.Nodup)
    (hopen : ∀ e ∈ l, w.Claimable D p signers e) :
    ∃ t, D.machine.runAll w (l.map (.claim p signers)) =
        .ok { w with
          pools := update w.pools p (l.foldl (·.claimedAt w.sequence) (w.pools p))
          tokens := t } ∧
      w.tokens.After (l.map ((w.pools p).payment token p)) t := by
  induction l generalizing w with
  | nil =>
    refine ⟨w.tokens, ?_, .refl _⟩
    rw [List.foldl_nil, update_eq_self]
    rfl
  | cons e l ih =>
    obtain ⟨hne, hnd⟩ := List.nodup_cons.1 hnd
    have hcl : (w.pools p).Claimable (D.env w p (signers e) .silent).timestamp
        (D.env w p (signers e) .silent).authorized e := hopen e (by simp)
    obtain ⟨t₁, hclaim, htr, hb₁, hcov₁⟩ := hb.claim_open (t := w.tokens) hrun htoken hcov hcl
    have hstep : D.machine.step w (.claim p signers e) = .ok { w with
        pools := update w.pools p ((w.pools p).claimedAt w.sequence e), tokens := t₁ } :=
      Deployment.step_pool hp hclaim
    have hopen₁ : ∀ e' ∈ l, World.Claimable D p signers { w with
        pools := update w.pools p ((w.pools p).claimedAt w.sequence e), tokens := t₁ } e' := by
      intro e' he'
      have hne' : e' ≠ e := by
        rintro rfl
        exact hne he'
      have h := (hopen e' (by simp [he'])).after hb₁ hne'
      unfold World.Claimable
      simp only [update_self]
      exact h
    obtain ⟨t, hrest, htr'⟩ := ih (by simp only [update_self]; exact hb₁)
      (by simp only [update_self]; exact hrun) (by simp only [update_self]; exact htoken)
      (by simp only [update_self]; exact hcov₁) hnd hopen₁
    refine ⟨t, ?_, ?_⟩
    · rw [List.map_cons, Machine.runAll_cons_ok hstep, hrest]
      simp
    · have hpay : l.map ((w.pools p).payment token p) =
          l.map (((w.pools p).claimedAt w.sequence e).payment token p) :=
        List.map_congr_left fun e' _ => (PoolStorage.payment_claimedAt ..).symm
      rw [List.map_cons, hpay]
      simp only [update_self] at htr'
      exact htr.trans htr'

/-- Every expired manifest of a pool has an allocation that nobody claimed. -/
theorem Execution.pool_leavesUnclaimed (x : Execution D) (p : Address) :
    (x.final.pools p).LeavesUnclaimed := by
  refine (x.pool_invariant (I := fun s => Pool.Books s ∧ s.LeavesUnclaimed) ?_ ?_).2
  · intro live
    refine ⟨.empty live, ?_⟩
    rintro id m hm
    cases hm
  · rintro env s s' t t' call - h ⟨hb, hl⟩
    exact ⟨hb.effect h, h.leavesUnclaimed hb hl⟩

/-- **Claim order does not matter.**  Any list of open claims succeeds at every
    step in every order, with the same storage and balances at the end; and a
    manifest ends completed exactly when the list has all its unclaimed
    allocations. -/
theorem claim_order (x : Execution D) {p token : Address} (hp : D.isPool p = true)
    (hrun : (x.final.pools p).paused.getD false = false)
    (htoken : (x.final.pools p).token = some token)
    (hcov : (x.final.pools p).liability ≤ x.final.tokens.balance token p)
    {l : List (UInt64 × ℕ)} (hnd : l.Nodup) (signers : UInt64 × ℕ → Address → Bool)
    (hopen : ∀ e ∈ l, x.final.Claimable D p signers e) :
    ∃ (s' : PoolStorage) (b : Address → Address → ℤ),
      (∀ l' : List (UInt64 × ℕ), l'.Perm l → ∃ t', D.machine.runAll x.final (l'.map (.claim p signers)) =
          .ok { x.final with pools := update x.final.pools p s', tokens := t' } ∧ t'.balance = b) ∧
      ∀ id m, (x.final.pools p).manifest id = some m →
        ((∃ m', s'.manifest id = some m' ∧ m'.status = .completed) ↔
          ∀ i a, (x.final.pools p).allocation id i = some a → a.claimed = false → (id, i) ∈ l) := by
  have hbooks : Pool.Books (x.final.pools p) := x.pool_books p
  have hany : ∀ l' : List (UInt64 × ℕ), l'.Perm l → ∃ t',
      D.machine.runAll x.final (l'.map (.claim p signers)) = .ok { x.final with
        pools := update x.final.pools p (l.foldl (·.claimedAt x.final.sequence) (x.final.pools p))
        tokens := t' } ∧
      x.final.tokens.After (l'.map ((x.final.pools p).payment token p)) t' := by
    intro l' hperm
    rw [← claims_perm _ _ hperm]
    exact claims_succeed hp hbooks hrun htoken hcov (hperm.nodup_iff.2 hnd)
      fun e he => hopen e (hperm.mem_iff.1 he)
  obtain ⟨t, hall, htr⟩ := hany l (.refl l)
  refine ⟨l.foldl (·.claimedAt x.final.sequence) (x.final.pools p), t.balance, ?_, ?_⟩
  · intro l' hperm
    obtain ⟨t', hall', htr'⟩ := hany l' hperm
    exact ⟨t', hall', htr'.balance_eq htr (hperm.map _)⟩
  · intro id m hm
    -- the end of the claims is a state of the run that goes on with them
    have hb := (x.after (l.map (.claim p signers))).pool_books p
    rw [Execution.after_final, Machine.run_of_runAll hall] at hb
    simp only [update_self] at hb
    exact claims_completed_iff hb (x.pool_leavesUnclaimed p) hm

/-- The sample run up to the publication of its manifest. -/
def Sample.published : Execution Sample.deployment :=
  ⟨Sample.start, Sample.genesis, Sample.actions.take 10⟩

theorem claim_order_sample : ∃ (s' : PoolStorage) (t' : Tokens),
    Sample.deployment.machine.runAll Sample.published.final
        ([(1, 0), (1, 1)].map (.claim Sample.nftPool fun _ _ => true)) =
      .ok { Sample.published.final with
        pools := update Sample.published.final.pools Sample.nftPool s', tokens := t' } ∧
    ∃ m, s'.manifest 1 = some m ∧ m.status = .completed := by
  have hm : (Sample.published.final.pools Sample.nftPool).manifest 1 =
      some ⟨0, 0, 450, 450, 2, 2000, .active⟩ := by decide +kernel
  have hopen : ∀ e ∈ [(1, 1), (1, 0)], World.Claimable Sample.deployment Sample.nftPool
      (fun _ _ => true) Sample.published.final e := by
    intro e he
    simp only [List.mem_cons, List.not_mem_nil, or_false] at he
    rcases he with rfl | rfl
    · exact ⟨_, ⟨Sample.referrer, 150, false⟩, hm, rfl, by decide +kernel, by decide +kernel, rfl,
        by decide +kernel⟩
    · exact ⟨_, ⟨Sample.creator, 300, false⟩, hm, rfl, by decide +kernel, by decide +kernel, rfl,
        by decide +kernel⟩
  obtain ⟨s', b, hall, hcompleted⟩ := claim_order Sample.published (by decide)
    (by decide +kernel) (show (Sample.published.final.pools Sample.nftPool).token = some Sample.asset by
      decide +kernel) (by decide +kernel) (by decide) (fun _ _ => true) hopen
  obtain ⟨t', hrun, -⟩ := hall [(1, 0), (1, 1)] (by decide)
  refine ⟨s', t', hrun, (hcompleted 1 _ hm).2 ?_⟩
  intro i a ha _
  have hi := ((Sample.published.pool_books Sample.nftPool).manifest 1 _ hm).1.index_lt ha
  have hi : i < 2 := hi
  interval_cases i <;> simp

end TogetherFi
