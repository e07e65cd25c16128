/-
  What the pools hold.

  Without clawback a pool holds exactly what it was credited, less what it paid,
  plus everything that ever reached it in another way (`unsolicited`).  The
  contract never looks at that last part, so the balance checks of
  `available_balance` and `claim` never fail, and unsolicited tokens are never
  allocated.
-/
import TogetherFi.System.Credits

namespace TogetherFi

open Function Escrow Pool

variable {D : Deployment}

/-! ## Unsolicited transfers -/

/-- The place of the leg of the pool `p` among the payouts of a campaign, past
    the end if `p` has none. -/
def Escrow.EscrowStorage.legIndex (s : EscrowStorage) (p : Address) : ℕ :=
  if s.nftPool = some p then 2 else if s.revenuePool = some p then 3 else 5

/-- The transfers `ts` of an action, without the leg a completed campaign pays
    to the pool `p` as a pool. -/
def Action.unsolicited (p : Address) (s : EscrowStorage) (ts : List Transfer) : Action → List Transfer
  | .escrow _ _ (.complete ..) => ts.eraseIdx (s.legIndex p)
  | _ => ts

/-- The transfers of a history, without the legs of the pool `p`. -/
def unsolicited (p : Address) (h : List D.Step) : List Transfer :=
  h.flatMap fun t => t.act.unsolicited p t.pre.escrow t.transfers

theorem unsolicited_nonneg {x : Execution D} (hx : x.NoClawback) (p : Address) :
    ∀ e ∈ unsolicited p x.history, 0 ≤ e.amount := by
  intro e he
  obtain ⟨t, ht, he⟩ := List.mem_flatMap.1 he
  obtain ⟨y, -, -, -, hact⟩ := Execution.exists_prefix ht
  obtain ⟨ts, hts, hpos⟩ := t.effect.transfers (hx _ hact)
  rw [t.transfers_eq hts] at he
  have hmem : e ∈ ts := by
    unfold Action.unsolicited at he
    split at he
    · exact List.mem_of_mem_eraseIdx he
    · exact he
  exact (hpos e hmem).1

theorem received_payouts {tok escrow : Address} {p : Payees} {total : ℤ} {s : EscrowStorage}
    (hn : s.nftPool = some p.nftPool) (hr : s.revenuePool = some p.revenuePool) (token q : Address) :
    received (payouts tok escrow p total) token q =
      (if tok = token then share total (s.rateOf q) else 0) +
        received ((payouts tok escrow p total).eraseIdx (s.legIndex q)) token q := by
  have h₀ : share total 0 = 0 := by simp [share]
  by_cases h₁ : q = p.nftPool
  · subst h₁
    simp only [EscrowStorage.rateOf, EscrowStorage.legIndex, hn, if_true, payouts, List.eraseIdx,
      received_cons, received_nil, and_true, split]
    omega
  · have h₁' : ¬ some p.nftPool = some q := by simpa using Ne.symm h₁
    by_cases h₂ : q = p.revenuePool
    · subst h₂
      simp only [EscrowStorage.rateOf, EscrowStorage.legIndex, hn, hr, h₁', if_false, if_true, payouts,
        List.eraseIdx, received_cons, received_nil, and_true, split]
      omega
    · have h₂' : ¬ some p.revenuePool = some q := by simpa using Ne.symm h₂
      simp only [EscrowStorage.rateOf, EscrowStorage.legIndex, hn, hr, h₁', h₂', if_false, h₀, ite_self,
        zero_add]
      rfl

/-! ## The balance of a pool -/

/-- The pool `p` holds what it was credited, less what it paid, plus `extra`. -/
def Holds (p token : Address) (w : World) (extra : ℤ) : Prop :=
  w.tokens.balance token p = (w.pools p).credited - (w.pools p).paid + extra

theorem Pool.Effect.sent_eq {env : Env} {s s' : PoolStorage} {t t' : Tokens} {call : PoolCall}
    {token : Address} (hb : Pool.Books s) (h : Pool.Effect env s t s' t' call)
    (htoken : s.governance = none ∨ s.token = some token) :
    ∃ ts, t.After ts t' ∧ sent ts token env.self = s'.paid - s.paid := by
  cases h with
  | initializePool hc ht =>
    subst ht
    obtain ⟨live₀, he⟩ := hb.fresh hc.fresh
    obtain ⟨live, rfl⟩ := hc.post
    exact ⟨[], .refl _, by simp [PoolStorage.paid, he.paid, PoolStorage.empty]⟩
  | recordCredit hc ht | publishManifest hc ht | expireManifest hc ht =>
    subst ht
    obtain ⟨live, rfl⟩ := hc.post
    exact ⟨[], .refl _, by simp [PoolStorage.paid]⟩
  | claim hc =>
    have hg := hc.initialized
    have hpays := hc.paysIn
    have htr := hc.transfer
    obtain ⟨live, rfl⟩ := hc.post
    have htok : s.token = some token := by
      rcases htoken with hn | ht
      · rw [hn] at hg; cases hg
      · exact ht
    obtain rfl := Option.some.inj (htok.symm.trans hpays)
    exact ⟨_, htr, by simp [PoolStorage.paid]⟩
  | other _ hc ht =>
    subst ht
    exact ⟨[], .refl _, by simp [PoolStorage.paid, hc.paid]⟩

/-- **What an action moves into and out of a pool.**  Received less sent is the
    change of credited less paid, plus what was unsolicited. -/
theorem Effect.pool_flow {w w' : World} {a : Action} {p token : Address} (h : Effect D w w' a)
    (ha : a.isIssuer = false) (hp : D.isPool p = true) (hs : MayServe token D.escrow (w.pools p))
    (hpb : Pool.Books (w.pools p)) (heb : Escrow.Books D.escrow w.escrow)
    (htoken : ∀ tok, w.escrow.token = some tok → w.escrow.rateOf p = 0 ∨ tok = token) :
    ∃ ts, w.tokens.After ts w'.tokens ∧ received ts token p - sent ts token p =
      ((w'.pools p).credited - (w'.pools p).paid) - ((w.pools p).credited - (w.pools p).paid) +
        received (a.unsolicited p w.escrow ts) token p := by
  -- an action that does not call the pool and leaves it as it is
  have hother : a.callee D.escrow ≠ some p → w'.pools p = w.pools p →
      (∀ ts, a.unsolicited p w.escrow ts = ts) → ∃ ts, w.tokens.After ts w'.tokens ∧
      received ts token p - sent ts token p =
      ((w'.pools p).credited - (w'.pools p).paid) - ((w.pools p).credited - (w.pools p).paid) +
        received (a.unsolicited p w.escrow ts) token p := by
    intro hcallee hpool hun
    obtain ⟨ts, hts, hpos⟩ := h.transfers ha
    refine ⟨ts, hts, ?_⟩
    rw [sent_eq_zero_of_callee hpos (Deployment.isSystem_pool hp) hcallee, hpool, hun]
    omega
  have hescrow : some D.escrow ≠ some p := by simpa using (Deployment.ne_escrow_of_isPool hp).symm
  cases h with
  | @escrow _ _ call _ _ _ h hw =>
    subst hw
    cases h with
    | @complete _ _ c tok _ hc =>
      obtain ⟨-, hcr, hpaid⟩ := hc.credits heb hp
      -- the leg of `p` is paid in its own token
      have hshare : (if tok = token then share c.amount (w.escrow.rateOf p) else 0) =
          share c.amount (w.escrow.rateOf p) := by
        rcases htoken tok hc.paysIn with h₀ | htok
        · rw [h₀]; simp [share]
        · rw [if_pos htok]
      refine ⟨_, hc.payOut.transfers, ?_⟩
      simp only [Deployment.env_self, hcr, hpaid, Action.unsolicited]
      rw [received_payouts hc.payOut.nftPool hc.payOut.revenuePool,
        sent_payouts_of_ne (Deployment.ne_escrow_of_isPool hp), hshare]
      omega
    | initializeEscrow hc hpools _ | activate hc hpools _ | fund hc hpools | refundExpired hc hpools =>
      subst hpools; exact hother hescrow rfl fun _ => rfl
    | other hcall hc hpools _ =>
      subst hpools
      refine hother hescrow rfl fun ts => ?_
      cases call <;> first | rfl | cases hcall
  | @pool q _ _ _ _ hq h hw =>
    by_cases hpq : q = p
    · subst hpq
      obtain ⟨ts, hts, hsent⟩ := h.sent_eq hpb (hs.imp_right BoundTo.token)
      obtain ⟨-, hcr⟩ := h.credits hpb fun _ _ => not_recordCredit hs
      subst hw
      refine ⟨ts, hts, ?_⟩
      change sent ts token q = _ at hsent
      simp only [update_self, hcr, hsent, Action.unsolicited]
      omega
    · subst hw
      refine hother (by simpa [Action.callee] using hpq) ?_ fun _ => rfl
      exact update_of_ne (Ne.symm hpq) ..
  | transfer _ _ _ hw => subst hw; exact hother (by simp [Action.callee]) rfl fun _ => rfl
  | issuer => cases ha
  | close _ hw => subst hw; exact hother (by simp [Action.callee]) rfl fun _ => rfl

theorem Execution.token_eq (x : Execution D) {p token tok : Address} (hp : D.isPool p = true)
    (hs : MayServe token D.escrow (x.final.pools p)) (htok : x.final.escrow.token = some tok) :
    x.final.escrow.rateOf p = 0 ∨ tok = token := by
  have hinit : x.final.escrow.governance.isSome := by
    refine x.escrow_books.initialized fun live he => ?_
    rw [he.token] at htok; cases htok
  obtain ⟨tok', tr, nft, rev, hb⟩ := x.bound hinit
  have hbind := hb.bindings
  simp only [EscrowStorage.bindings, Bindings.mk.injEq] at hbind
  obtain rfl := Option.some.inj (htok.symm.trans hbind.1)
  have hbound : BoundTo tok D.escrow (x.final.pools p) → tok = token := by
    intro h
    rcases hs with hs | hs
    · have := h.initialized
      rw [hs] at this; cases this
    · exact Option.some.inj (h.token.symm.trans hs.token)
  by_cases h₁ : p = nft
  · subst h₁; exact .inr (hbound (hb.nft hp))
  by_cases h₂ : p = rev
  · subst h₂; exact .inr (hbound (hb.revenue hp))
  · left
    rw [EscrowStorage.rateOf, hbind.2.2.1, hbind.2.2.2, if_neg (by simpa using Ne.symm h₁),
      if_neg (by simpa using Ne.symm h₂)]

/-- **The balance of a pool.** -/
theorem Execution.pool_holds (x : Execution D) (hx : x.NoClawback) {p token : Address}
    (hp : D.isPool p = true) (hs : MayServe token D.escrow (x.final.pools p)) :
    Holds p token x.final (received (unsolicited p x.history) token p) := by
  refine induction (A := fun a => a.isIssuer = false) (P := fun h w =>
    MayServe token D.escrow (w.pools p) → Holds p token w (received (unsolicited p h) token p))
    (fun w hw _ => ?_) (fun y t hy hok hpre hP hs => ?_) x hx hs
  · obtain ⟨live, he⟩ := hw.pools p
    have hz := hw.balance token p (Deployment.isSystem_pool hp)
    simp [Holds, he, hz, unsolicited, PoolStorage.credited, PoolStorage.paid, PoolStorage.empty]
  · have hs₀ := t.effect.mayServe hs
    have hP := hP hs₀
    obtain ⟨ts, hts, heq⟩ := t.effect.pool_flow hok hp hs₀ (hpre ▸ y.pool_books p)
      (hpre ▸ y.escrow_books)
      (fun tok htok => by rw [hpre] at htok hs₀ ⊢; exact y.token_eq hp hs₀ htok)
    have hb := hts.balance token p
    have hun : unsolicited p (y.history ++ [t]) =
        unsolicited p y.history ++ t.act.unsolicited p t.pre.escrow ts := by
      simp [unsolicited, t.transfers_eq hts]
    rw [Holds] at hP ⊢
    rw [hun, received_append, hb, hP]
    omega

/-- A pool bound to the escrow holds at least what it was credited, less what it paid. -/
theorem Execution.pool_covered (x : Execution D) (hx : x.NoClawback) {p token : Address}
    (hp : D.isPool p = true) (hb : BoundTo token D.escrow (x.final.pools p)) :
    (x.final.pools p).credited - (x.final.pools p).paid ≤ x.final.tokens.balance token p := by
  have h := x.pool_holds hx hp (.inr hb)
  have := received_nonneg token p (unsolicited_nonneg hx p)
  rw [Holds] at h
  omega

/-! ## What follows for the calls -/

/-- A pool bound to the escrow never reports a deficit. -/
theorem Execution.pool_available (x : Execution D) (hx : x.NoClawback) {p token : Address}
    (hp : D.isPool p = true) (hb : BoundTo token D.escrow (x.final.pools p)) {env : Env}
    (hself : env.self = p) : availableBalance env (x.final.pools p) x.final.tokens =
      .ok ((x.final.pools p).credited - (x.final.pools p).paid - (x.final.pools p).liability) := by
  subst hself
  exact (x.pool_books env.self).availableBalance_eq hb.initialized
    ⟨token, hb.token, x.pool_covered hx hp hb⟩

theorem Execution.pool_liability_le (x : Execution D) (hx : x.NoClawback) {p token : Address}
    (hp : D.isPool p = true) (hb : BoundTo token D.escrow (x.final.pools p)) :
    (x.final.pools p).liability ≤ x.final.tokens.balance token p := by
  have hle := (x.pool_books p).covered
  have hcov := x.pool_covered hx hp hb
  omega

/-- **Pool solvency and unsolicited money.**  The balance of a pool bound to the
    escrow is what it was credited, less what it paid, plus what it received
    unsolicited; what is available and what can be published do not depend on
    the last part; and every open allocation can be claimed. -/
theorem pool_solvency (x : Execution D) (hx : x.NoClawback) {p token : Address}
    (hp : D.isPool p = true) (hb : BoundTo token D.escrow (x.final.pools p)) :
    let s := x.final.pools p
    let t := x.final.tokens
    0 ≤ received (unsolicited p x.history) token p ∧
    t.balance token p = s.credited - s.paid + received (unsolicited p x.history) token p ∧
    (∀ env, env.self = p → availableBalance env s t = .ok (s.credited - s.paid - s.liability)) ∧
    (∀ env id hash policy expiresAt recipients amounts s',
      publishManifest env id hash policy expiresAt recipients amounts s t = .ok s' →
      amounts.sum ≤ s.credited - s.paid - s.liability) ∧
    ∀ id m, s.manifest id = some m → m.status = .active → ∀ i < m.allocationCount,
      ∃ a, s.allocation id i = some a ∧ (a.claimed = false → s.paused.getD false = false →
        ∀ env, env.self = p → env.timestamp < m.expiresAt → env.authorized a.recipient = true →
        ∃ s' t', claim env id i s t = .ok (s', t') ∧
          t.After [⟨token, p, a.recipient, a.amount⟩] t') := by
  intro s t
  have hbooks : Pool.Books s := x.pool_books p
  refine ⟨received_nonneg token p (unsolicited_nonneg hx p), x.pool_holds hx hp (.inr hb), ?_, ?_, ?_⟩
  · intro env hself
    exact x.pool_available hx hp hb hself
  · intro env id hash policy expiresAt recipients amounts s' h
    exact (publishManifest_ok h).available
  · intro id m hm hact i hi
    obtain ⟨a, ha, -⟩ := (hbooks.manifest id m hm).1.present i hi
    refine ⟨a, ha, fun hun hrun env hself htime hauth => ?_⟩
    subst hself
    obtain ⟨s', t', hc, hclaim⟩ := hbooks.claimable hb.token (x.pool_liability_le hx hp hb) hm hact ha
      hun hrun htime hauth
    exact ⟨s', t', hc, hclaim.transfer⟩

theorem pool_solvency_sample :
    received (unsolicited Sample.nftPool Sample.execution.history) Sample.asset Sample.nftPool = 77 ∧
    Sample.execution.final.tokens.balance Sample.asset Sample.nftPool = 500 - 300 + 77 := by
  have h := pool_solvency Sample.execution Sample.execution_noClawback (p := Sample.nftPool)
    (by decide) (show BoundTo Sample.asset _ _ from
      ⟨by decide +kernel, by decide +kernel, by decide +kernel⟩)
  have hu : received (unsolicited Sample.nftPool Sample.execution.history) Sample.asset
      Sample.nftPool = 77 := by decide +kernel
  have hb := h.2.1
  rw [hu] at hb
  exact ⟨hu, hb.trans (by decide +kernel)⟩

end TogetherFi
