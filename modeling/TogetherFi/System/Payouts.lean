/-
  What leaves a pool is what was published.

  The manifests a run publishes and the allocations it claims are read off its
  history (`published`, `claims`) and agree with the storage of the pool; the
  transfers out of the pool are the payments of the claims, one for one.
-/
import TogetherFi.Pool.Manifests
import TogetherFi.System.Binding

namespace TogetherFi

open Function Pool

variable {D : Deployment}

/-! ## The calls of one pool -/

/-- The call an action makes of the pool `p`. -/
def Action.callOf (p : Address) : Action → Option PoolCall
  | .pool q _ call => if q = p then some call else none
  | _ => none

/-- The manifest of `p` an action publishes. -/
def Action.publishes (p : Address) (a : Action) : Option UInt64 :=
  (a.callOf p).bind PoolCall.publishes

/-- The allocation of `p` an action claims. -/
def Action.claims (p : Address) (a : Action) : Option (UInt64 × ℕ) :=
  (a.callOf p).bind PoolCall.claims

theorem Action.callOf_eq_some {p : Address} {a : Action} {call : PoolCall}
    (h : a.callOf p = some call) : ∃ signers, a = .pool p signers call := by
  cases a with
  | pool q signers call' =>
    simp only [Action.callOf] at h
    split at h
    · rename_i hq
      exact ⟨signers, by rw [hq, Option.some.inj h]⟩
    · cases h
  | escrow | transfer | issuer | close => cases h

section
variable {w w' : World} {a : Action} {p : Address}

theorem Effect.pool_called (h : Effect D w w' a) {call : PoolCall} (hc : a.callOf p = some call) :
    Pool.Effect (D.env w p a.signers .silent) (w.pools p) w.tokens (w'.pools p) w'.tokens call := by
  obtain ⟨signers, rfl⟩ := Action.callOf_eq_some hc
  cases h with
  | pool _ h hw =>
    subst hw
    simp only [update_self, Action.signers]
    exact h

/-- The credit of a completed campaign leaves the manifests alone, and so does
    whatever does not call the pool. -/
theorem Effect.pool_uncalled (h : Effect D w w' a) (hc : a.callOf p = none) :
    (w'.pools p).manifest = (w.pools p).manifest ∧
      (w'.pools p).allocation = (w.pools p).allocation := by
  cases h with
  | escrow h hw =>
    subst hw
    cases h with
    | complete h =>
      obtain ⟨t₃, t₄, pools₁, -, -, h₁, -, -, h₂⟩ := h.payOut.credits
      have hcredit : ∀ {env : Env} {id : UInt64} {amount : ℤ} {s s' : PoolStorage} {t : Tokens},
          RecordCredit env id amount s t s' →
          s.manifest = (w.pools p).manifest ∧ s.allocation = (w.pools p).allocation →
          s'.manifest = (w.pools p).manifest ∧ s'.allocation = (w.pools p).allocation := by
        intro env id amount s s' t hc hI
        obtain ⟨live, rfl⟩ := hc.post
        exact hI
      exact Escrow.clientRecordCredit_preserves hcredit h₂
        (Escrow.clientRecordCredit_preserves hcredit h₁ ⟨rfl, rfl⟩)
    | initializeEscrow _ hp _ | fund _ hp | activate _ hp _ | refundExpired _ hp | other _ _ hp _ =>
      rw [hp]; exact ⟨rfl, rfl⟩
  | @pool q _ _ _ _ _ h hw =>
    subst hw
    have hne : p ≠ q := by
      rintro rfl
      simp [Action.callOf] at hc
    simp only [update_of_ne hne, and_self]
  | transfer _ _ _ hw | issuer _ hw | close _ hw => subst hw; exact ⟨rfl, rfl⟩

/-- **No action changes what a pool has published.** -/
theorem Effect.keeps (h : Effect D w w' a) (hb : Pool.Books (w.pools p)) :
    Keeps (w.pools p) (w'.pools p) := by
  refine (h.pool_preserves (I := fun s => Pool.Books s ∧ Keeps (w.pools p) s) (fun _ hc hI => ?_)
    ⟨hb, .refl _⟩).2
  exact ⟨hI.1.effect hc, hI.2.trans (hc.keeps hI.1)⟩

theorem Effect.published (h : Effect D w w' a) (id : UInt64) :
    ((w'.pools p).manifest id).isSome ↔
      ((w.pools p).manifest id).isSome ∨ a.publishes p = some id := by
  cases hc : a.callOf p with
  | none =>
    rw [(h.pool_uncalled hc).1, Action.publishes, hc]
    exact (or_iff_left (by simp)).symm
  | some call =>
    rw [Action.publishes, hc]
    exact (h.pool_called hc).published id

theorem Effect.isClaimed (h : Effect D w w' a) (hb : Pool.Books (w.pools p)) (id : UInt64) (i : ℕ) :
    (w'.pools p).isClaimed id i ↔ (w.pools p).isClaimed id i ∨ a.claims p = some (id, i) := by
  cases hc : a.callOf p with
  | none =>
    rw [PoolStorage.isClaimed, (h.pool_uncalled hc).2, Action.claims, hc]
    exact (or_iff_left (by simp)).symm
  | some call =>
    rw [Action.claims, hc]
    exact (h.pool_called hc).isClaimed hb id i

theorem Effect.claim_of (h : Effect D w w' a) {id : UInt64} {i : ℕ} (hc : a.claims p = some (id, i)) :
    ∃ m al token, Claim (D.env w p a.signers .silent) id i m al token (w.pools p) w.tokens
      (w'.pools p) w'.tokens := by
  obtain ⟨call, hcall, hc⟩ := Option.bind_eq_some_iff.1 hc
  exact (h.pool_called hcall).claim_of hc

theorem Effect.publish_of (h : Effect D w w' a) {id : UInt64} (hc : a.publishes p = some id) :
    ∃ hash policy expiresAt recipients amounts, Publish (D.env w p a.signers .silent) id hash policy
      expiresAt recipients amounts (w.pools p) w.tokens (w'.pools p) := by
  obtain ⟨call, hcall, hc⟩ := Option.bind_eq_some_iff.1 hc
  exact (h.pool_called hcall).publish_of hc

end

/-- **A run keeps what a pool has published.** -/
theorem Execution.keeps (x : Execution D) (as : List Action) (p : Address) :
    Keeps (x.final.pools p) ((x.after as).final.pools p) := by
  refine (x.after_relation (R := fun w w' => Pool.Books (w.pools p) →
    Pool.Books (w'.pools p) ∧ Keeps (w.pools p) (w'.pools p)) (fun w hb => ⟨hb, .refl _⟩)
    (fun w₁ w₂ w₃ h₁ h₂ hb => ?_) (fun h hb => ⟨h.pool_books hb, h.keeps hb⟩) as (x.pool_books p)).2
  obtain ⟨hb', hk⟩ := h₁ hb
  obtain ⟨hb'', hk'⟩ := h₂ hb'
  exact ⟨hb'', hk.trans hk'⟩

/-! ## Publications -/

/-- The manifests of `p` that were published, in order. -/
def published (p : Address) (h : List D.Step) : List UInt64 := h.filterMap (·.act.publishes p)

theorem published_append (p : Address) (h : List D.Step) (t : D.Step) :
    published p (h ++ [t]) = published p h ++ (t.act.publishes p).toList := by
  rw [published, List.filterMap_append, ← published, List.filterMap_cons]
  cases t.act.publishes p <;> rfl

theorem Execution.mem_published (x : Execution D) (p : Address) (id : UInt64) :
    id ∈ published p x.history ↔ ((x.final.pools p).manifest id).isSome := by
  refine induction (A := fun _ => True)
    (P := fun h w => id ∈ published p h ↔ ((w.pools p).manifest id).isSome) (fun w hw => ?_)
    (fun y t _ _ _ hP => ?_) x (fun _ _ => trivial)
  · obtain ⟨live, hs⟩ := hw.pools p
    rw [hs]
    simp [published, PoolStorage.empty]
  · rw [published_append, List.mem_append, hP, t.effect.published]
    simp

/-- **Published ids increase.** -/
theorem Execution.published_increasing (x : Execution D) (p : Address) :
    (published p x.history).Pairwise (· < ·) := by
  refine induction (A := fun _ => True) (P := fun h _ => (published p h).Pairwise (· < ·))
    (fun w hw => .nil) (fun y t _ _ hpre hP => ?_) x (fun _ _ => trivial)
  rw [published_append, List.pairwise_append]
  refine ⟨hP, by cases t.act.publishes p <;> simp, fun id hid id' hid' => ?_⟩
  · have hpub : t.act.publishes p = some id' := by simpa using hid'
    obtain ⟨hash, policy, expiresAt, recipients, amounts, hc⟩ := t.effect.publish_of hpub
    -- what was published before is at most the latest id
    obtain ⟨m, hm⟩ := Option.isSome_iff_exists.1 ((y.mem_published p id).1 hid)
    have hle := ((y.pool_books p).manifest id m hm).2
    rw [← hpre] at hle
    exact UInt64.lt_of_le_of_lt hle hc.increasing

/-! ## Claims -/

/-- The allocations of `p` that were claimed, in order. -/
def claims (p : Address) (h : List D.Step) : List (UInt64 × ℕ) := h.filterMap (·.act.claims p)

theorem claims_append (p : Address) (h : List D.Step) (t : D.Step) :
    claims p (h ++ [t]) = claims p h ++ (t.act.claims p).toList := by
  rw [claims, List.filterMap_append, ← claims, List.filterMap_cons]
  cases t.act.claims p <;> rfl

/-- The claims of a history are the claimed allocations, each of them once. -/
theorem Execution.claims_spec (x : Execution D) (p : Address) :
    (claims p x.history).Nodup ∧
      ∀ id i, (id, i) ∈ claims p x.history ↔ (x.final.pools p).isClaimed id i := by
  refine induction (A := fun _ => True) (P := fun h w => (claims p h).Nodup ∧
    ∀ id i, (id, i) ∈ claims p h ↔ (w.pools p).isClaimed id i) (fun w hw => ⟨.nil, fun id i => ?_⟩)
    (fun y t _ _ hpre ⟨hnd, hmem⟩ => ?_) x (fun _ _ => trivial)
  · obtain ⟨live, hs⟩ := hw.pools p
    rw [hs]
    simp [claims, PoolStorage.isClaimed, PoolStorage.empty]
  · have hb : Pool.Books (t.pre.pools p) := hpre ▸ y.pool_books p
    rw [claims_append]
    constructor
    · rw [List.nodup_append]
      refine ⟨hnd, by cases t.act.claims p <;> simp, ?_⟩
      rintro ⟨id, i⟩ h₁ c h₂ rfl
      -- a claimed allocation is not claimed again
      obtain ⟨m, a, token, hc⟩ := t.effect.claim_of (by simpa using h₂)
      obtain ⟨a', ha', hclaimed⟩ := (hmem id i).1 h₁
      obtain rfl := Option.some.inj (hc.allocation.symm.trans ha')
      rw [hc.unclaimed] at hclaimed; cases hclaimed
    · intro id i
      rw [List.mem_append, hmem, t.effect.isClaimed hb]
      simp

/-! ## Payments -/

/-- What the pool `p` pays for an allocation. -/
def poolPayment (p : Address) (s : PoolStorage) (c : UInt64 × ℕ) : Option Transfer := do
  let token ← s.token
  let a ← s.allocation c.1 c.2
  return ⟨token, p, a.recipient, a.amount⟩

theorem poolPayment_eq_some {p : Address} {s : PoolStorage} {c : UInt64 × ℕ} {e : Transfer} :
    poolPayment p s c = some e ↔ ∃ token a, s.token = some token ∧ s.allocation c.1 c.2 = some a ∧
      e = ⟨token, p, a.recipient, a.amount⟩ := by
  simp only [poolPayment, Option.bind_eq_bind, Option.bind_eq_some_iff, Option.pure_def,
    Option.some.injEq]
  constructor
  · rintro ⟨token, ht, a, ha, rfl⟩
    exact ⟨token, a, ht, ha, rfl⟩
  · rintro ⟨token, a, ht, ha, rfl⟩
    exact ⟨token, ht, a, ha, rfl⟩

theorem Pool.Keeps.poolPayment {p : Address} {s s' : PoolStorage} (h : Keeps s s') {c : UInt64 × ℕ}
    {e : Transfer} (hp : TogetherFi.poolPayment p s c = some e) :
    TogetherFi.poolPayment p s' c = some e := by
  obtain ⟨token, a, ht, ha, rfl⟩ := poolPayment_eq_some.1 hp
  obtain ⟨a', ha', haward, -⟩ := h.allocation _ _ a ha
  obtain ⟨hr, hm⟩ := Prod.mk.inj haward
  exact poolPayment_eq_some.2 ⟨token, a', h.token token ht, ha', by rw [← hr, ← hm]⟩

/-- **A step pays for the allocation it claims**, and nothing else. -/
theorem Deployment.Step.outflow_pool (t : D.Step) {p : Address} (hp : D.isPool p = true)
    (hb : Pool.Books (t.pre.pools p)) :
    (t.outflow p).map some = (t.act.claims p).toList.map (poolPayment p (t.post.pools p)) := by
  cases hc : t.act.callOf p with
  | none =>
    have hcallee : t.act.callee D.escrow ≠ some p := by
      have hne := Deployment.ne_escrow_of_isPool hp
      cases hact : t.act with
      | pool q signers call =>
        intro hq
        obtain rfl : q = p := Option.some.inj hq
        simp [hact, Action.callOf] at hc
      | escrow => exact fun h => hne (Option.some.inj h).symm
      | transfer | issuer | close => simp [Action.callee]
    rw [t.outflow_eq_nil (Deployment.isSystem_pool hp) hcallee, Action.claims, hc]
    rfl
  | some call =>
    have h := t.effect.pool_called hc
    have hk := t.effect.keeps hb
    rw [Action.claims, hc, Option.bind_some]
    have hsame : t.post.tokens = t.pre.tokens → t.outflow p = [] := fun ht => by
      rw [Deployment.Step.outflow,
        t.transfers_eq (show t.pre.tokens.After [] t.post.tokens from ht ▸ .refl _)]
      rfl
    cases h with
    | claim h =>
      have hpay : poolPayment p (t.pre.pools p) (_, _) = some _ :=
        poolPayment_eq_some.2 ⟨_, _, h.paysIn, h.allocation, rfl⟩
      rw [Deployment.Step.outflow, t.transfers_eq h.transfer, PoolCall.claims, Option.toList_some,
        List.map_singleton, hk.poolPayment hpay]
      simp
    | initializePool _ ht | recordCredit _ ht | publishManifest _ ht | expireManifest _ ht =>
      rw [hsame ht]; rfl
    | other hcall _ ht => rw [hsame ht, PoolCall.claims_eq_none hcall]; rfl

/-- **The transfers out of a pool are the payments of its claims.** -/
theorem Execution.pool_payments (x : Execution D) {p : Address} (hp : D.isPool p = true) :
    (x.final.tokens.log.filter (·.src = p)).map some =
      (claims p x.history).map (poolPayment p (x.final.pools p)) := by
  rw [x.outflow_eq]
  refine induction (A := fun _ => True) (P := fun h w => (h.flatMap (·.outflow p)).map some =
    (claims p h).map (poolPayment p (w.pools p))) (fun _ _ => rfl) (fun y t _ _ hpre hP => ?_) x
    (fun _ _ => trivial)
  have hb : Pool.Books (t.pre.pools p) := hpre ▸ y.pool_books p
  have hk := t.effect.keeps hb
  -- the payments made so far are still the payments of the same allocations
  have hold : ∀ c ∈ claims p y.history,
      poolPayment p (t.pre.pools p) c = poolPayment p (t.post.pools p) c := by
    intro c hc
    have hmem := List.mem_map_of_mem (f := poolPayment p (t.pre.pools p)) hc
    rw [← hP] at hmem
    obtain ⟨e, -, he⟩ := List.mem_map.1 hmem
    rw [hk.poolPayment he.symm, he]
  rw [List.flatMap_append, List.flatMap_singleton, List.map_append, hP, t.outflow_pool hp hb,
    claims_append, List.map_append, List.map_congr_left hold]

/-! ## The history of a pool -/

theorem Effect.published_by {w w' : World} {a : Action} {p : Address} {id : UInt64}
    (h : Effect D w w' a) (hc : a.publishes p = some id) : ∃ g e,
      (w.pools p).governance = some g ∧ (w.pools p).eligibilityAuthority = some e ∧
      a.signers g = true ∧ a.signers e = true := by
  obtain ⟨_, _, _, _, _, hc⟩ := h.publish_of hc
  obtain ⟨g, hg, hga⟩ := hc.governance
  obtain ⟨e, he, hea⟩ := hc.eligibility
  exact ⟨g, e, hg, he, (Deployment.env_authorized_iff.1 hga).1, (Deployment.env_authorized_iff.1 hea).1⟩

/-- A claim is authorized by the recipient, in time, and of an active manifest. -/
structure ClaimedBy (p : Address) (w : World) (act : Action) (id : UInt64) (i : ℕ) (a : Allocation) :
    Prop where
  claim : act.claims p = some (id, i)
  recipient : act.signers a.recipient = true
  active : ∃ m, (w.pools p).manifest id = some m ∧ m.status = .active ∧ w.timestamp < m.expiresAt

theorem Effect.claimedBy {w w' : World} {act : Action} {p : Address} {id : UInt64} {i : ℕ}
    {a a' : Allocation} (h : Effect D w w' act) (hb : Pool.Books (w.pools p))
    (ha : (w.pools p).allocation id i = some a) (ha' : (w'.pools p).allocation id i = some a')
    (hne : a'.claimed ≠ a.claimed) : a.claimed = false ∧ ClaimedBy p w act id i a := by
  have hun : a.claimed = false := by
    by_contra hc
    obtain ⟨b, hb, -, he⟩ := (h.keeps hb).allocation id i a ha
    obtain rfl := Option.some.inj (ha'.symm.trans hb)
    exact hne (congrArg Allocation.claimed (he (by simpa using hc)))
  have hclaimed : (w'.pools p).isClaimed id i := ⟨a', ha', by simpa [hun] using hne⟩
  have hc : act.claims p = some (id, i) := by
    refine ((h.isClaimed hb id i).1 hclaimed).resolve_left ?_
    rintro ⟨b, hb, hbc⟩
    obtain rfl := Option.some.inj (ha.symm.trans hb)
    rw [hun] at hbc; cases hbc
  obtain ⟨m, b, token, hcl⟩ := h.claim_of hc
  obtain rfl := Option.some.inj (ha.symm.trans hcl.allocation)
  exact ⟨hun, hc, (Deployment.env_authorized_iff.1 hcl.recipient).1, m, hcl.manifest, hcl.active,
    hcl.inTime⟩

/-- The allocations of manifest `id` in `s` are `recipients` and `amounts`. -/
structure Published (s : PoolStorage) (id : UInt64) (hash policy : BytesN32) (expiresAt : UInt64)
    (recipients : List Address) (amounts : List ℤ) : Prop where
  lengths : recipients.length = amounts.length
  manifest : ∃ m, s.manifest id = some m ∧
    m.terms = (hash, policy, amounts.sum, recipients.length, expiresAt)
  allocation : ∀ i < recipients.length, ∃ a, s.allocation id i = some a ∧
    recipients[i]? = some a.recipient ∧ amounts[i]? = some a.amount

theorem Published.first {env : Env} {s s' : PoolStorage} {t : Tokens} {id : UInt64}
    {hash policy : BytesN32} {expiresAt : UInt64} {recipients : List Address} {amounts : List ℤ}
    (h : Publish env id hash policy expiresAt recipients amounts s t s') :
    Published s' id hash policy expiresAt recipients amounts := by
  have hlen := h.lengths
  obtain ⟨live, rfl⟩ := h.post
  refine ⟨hlen, ⟨_, update_self .., rfl⟩, fun i hi => ?_⟩
  obtain ⟨a, ha, hr, hm, -⟩ := stored_self s id hlen hi
  exact ⟨a, ha, hr, hm⟩

theorem Published.keeps {s s' : PoolStorage} {id : UInt64} {hash policy : BytesN32}
    {expiresAt : UInt64} {recipients : List Address} {amounts : List ℤ}
    (h : Published s id hash policy expiresAt recipients amounts) (hk : Keeps s s') :
    Published s' id hash policy expiresAt recipients amounts := by
  obtain ⟨m, hm, hterms⟩ := h.manifest
  obtain ⟨m', hm', hterms'⟩ := hk.manifest id m hm
  refine ⟨h.lengths, ⟨m', hm', hterms'.trans hterms⟩, fun i hi => ?_⟩
  obtain ⟨a, ha, hr, hv⟩ := h.allocation i hi
  obtain ⟨a', ha', haward, -⟩ := hk.allocation id i a ha
  obtain ⟨hr', hv'⟩ := Prod.mk.inj haward
  exact ⟨a', ha', by rw [hr', hr], by rw [hv', hv]⟩

theorem Execution.published_of_history (x : Execution D) {p : Address} {id : UInt64}
    {hash policy : BytesN32} {expiresAt : UInt64} {recipients : List Address} {amounts : List ℤ} :
    ∀ t ∈ x.history, t.act.callOf p = some
        (.publishManifest id hash policy expiresAt recipients amounts) →
      Published (x.final.pools p) id hash policy expiresAt recipients amounts := by
  refine induction (A := fun _ => True) (P := fun h w => ∀ t ∈ h, t.act.callOf p = some
    (.publishManifest id hash policy expiresAt recipients amounts) →
      Published (w.pools p) id hash policy expiresAt recipients amounts) (fun _ _ => by simp)
    (fun y t _ _ hpre hP t' ht' hc => ?_) x (fun _ _ => trivial)
  rcases List.mem_append.1 ht' with ht' | ht'
  · exact (hP t' ht' hc).keeps (t.effect.keeps (hpre ▸ y.pool_books p))
  · obtain rfl := List.mem_singleton.1 ht'
    have h := t'.effect.pool_called hc
    cases h with
    | publishManifest h _ => exact .first h
    | other hcall => cases hcall

/-- The history of the pool `p` in the run `x`. -/
structure PoolHistory (x : Execution D) (p : Address) : Prop where
  increasing : (published p x.history).Pairwise (· < ·)
  known : ∀ id, id ∈ published p x.history ↔ ((x.final.pools p).manifest id).isSome
  publishedBy : ∀ t ∈ x.history, ∀ id, t.act.publishes p = some id → ∃ g e,
    (t.pre.pools p).governance = some g ∧ (t.pre.pools p).eligibilityAuthority = some e ∧
    t.act.signers g = true ∧ t.act.signers e = true
  published : ∀ t ∈ x.history, ∀ id hash policy expiresAt recipients amounts,
    t.act.callOf p = some (.publishManifest id hash policy expiresAt recipients amounts) →
    Published (x.final.pools p) id hash policy expiresAt recipients amounts
  kept : ∀ as, Keeps (x.final.pools p) ((x.after as).final.pools p)
  claimedBy : ∀ t ∈ x.history, ∀ id i a a', (t.pre.pools p).allocation id i = some a →
    (t.post.pools p).allocation id i = some a' → a'.claimed ≠ a.claimed →
    a.claimed = false ∧ ClaimedBy p t.pre t.act id i a
  once : (claims p x.history).Nodup
  claimed : ∀ id i, (id, i) ∈ claims p x.history ↔ (x.final.pools p).isClaimed id i
  payments : (x.final.tokens.log.filter (·.src = p)).map some =
    (claims p x.history).map (poolPayment p (x.final.pools p))
  total : ∀ id m, (x.final.pools p).manifest id = some m →
    0 ≤ (x.final.pools p).claimedOf id ∧ (x.final.pools p).claimedOf id ≤ m.totalAmount

/-- **Pool payouts are exactly the published allocations.** -/
theorem pool_payouts (x : Execution D) {p : Address} (hp : D.isPool p = true) : PoolHistory x p where
  increasing := x.published_increasing p
  known := x.mem_published p
  publishedBy := fun t _ id => t.effect.published_by
  published := fun t ht id hash policy expiresAt recipients amounts =>
    x.published_of_history t ht
  kept := fun as => x.keeps as p
  claimedBy := by
    intro t ht id i a a' ha ha' hne
    exact t.effect.claimedBy ((Execution.books_before ht).2 p) ha ha' hne
  once := (x.claims_spec p).1
  claimed := (x.claims_spec p).2
  payments := x.pool_payments hp
  total := by
    intro id m hm
    have h := ((x.pool_books p).manifest id m hm).1
    have hun : 0 ≤ m.sum Allocation.unclaimed ((x.final.pools p).allocation id) :=
      Table.partialTotal_nonneg fun _ _ _ ha => h.unclaimed_nonneg ha
    have hsum := h.sum_add_sum
    rw [PoolStorage.claimedOf, hm, Table.weight_some]
    exact ⟨h.sum_paidOut_nonneg, by omega⟩

theorem pool_payouts_sample :
    published Sample.nftPool Sample.execution.history = [1] ∧
      (Sample.execution.final.tokens.log.filter (·.src = Sample.nftPool)).map some =
        [some ⟨Sample.asset, Sample.nftPool, Sample.creator, 300⟩] := by
  have h := pool_payouts Sample.execution (p := Sample.nftPool) (by decide)
  refine ⟨by decide +kernel, h.payments.trans ?_⟩
  decide +kernel

end TogetherFi
