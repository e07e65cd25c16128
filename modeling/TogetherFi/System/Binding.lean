/-
  First initialization, and what it binds forever.

  Each contract is initialized at most once, by a call its deployer and the
  roles it installs authorize.  The addresses the escrow stores then never
  change, and a pool whose token and escrow are checked at that moment keeps
  both (`Bound`).
-/
import TogetherFi.System.Accounting

namespace TogetherFi

open Function Escrow Pool

/-! ## What calls keep -/

/-- A pool that is initialized with this token and this escrow. -/
structure Pool.BoundTo (token escrow : Address) (s : PoolStorage) : Prop where
  initialized : s.governance.isSome
  token : s.token = some token
  escrow : s.escrow = some escrow

/-- **No call touches the token and the escrow of an initialized pool.** -/
theorem Pool.BoundTo.effect {token escrow : Address} {env : Env} {s s' : PoolStorage}
    {t t' : Tokens} {call : PoolCall} (h : Pool.BoundTo token escrow s)
    (hc : Pool.Effect env s t s' t' call) : Pool.BoundTo token escrow s' := by
  obtain ⟨hg, ht, he⟩ := h
  cases hc with
  | initializePool hc _ => rw [hc.fresh] at hg; cases hg
  | recordCredit hc _ => obtain ⟨live, rfl⟩ := hc.post; exact ⟨hg, ht, he⟩
  | publishManifest hc _ => obtain ⟨live, rfl⟩ := hc.post; exact ⟨hg, ht, he⟩
  | claim hc => obtain ⟨live, rfl⟩ := hc.post; exact ⟨hg, ht, he⟩
  | expireManifest hc _ => obtain ⟨live, rfl⟩ := hc.post; exact ⟨hg, ht, he⟩
  | other _ hc _ => exact ⟨hc.initialized ▸ hg, hc.token ▸ ht, hc.escrow ▸ he⟩

/-- **No call touches the addresses of the initialized escrow.** -/
theorem Escrow.Effect.bindings {env : Env} {s s' : EscrowStorage} {pools pools' : Pools}
    {t t' : Tokens} {call : EscrowCall} (h : Escrow.Effect env s pools t s' pools' t' call)
    (hg : s.governance.isSome) : s'.governance.isSome ∧ s'.bindings = s.bindings := by
  cases h with
  | initializeEscrow hc _ _ => rw [hc.fresh] at hg; cases hg
  | fund hc _ => obtain ⟨live, rfl⟩ := hc.post; exact ⟨hg, rfl⟩
  | activate hc _ _ => obtain ⟨live, rfl⟩ := hc.post; exact ⟨hg, rfl⟩
  | complete hc => obtain ⟨live, rfl⟩ := hc.post; exact ⟨hg, rfl⟩
  | refundExpired hc _ => obtain ⟨live, rfl⟩ := hc.post; exact ⟨hg, rfl⟩
  | other _ hc _ _ => exact ⟨hc.initialized ▸ hg, hc.bindings⟩

theorem Pool.Books.initialized {s : PoolStorage} (h : Pool.Books s) {escrow : Address}
    (he : s.escrow = some escrow) : s.governance.isSome := by
  by_contra hg
  obtain ⟨live, hs⟩ := h.fresh (by simpa using hg)
  rw [hs.escrow] at he; cases he

/-! ## The binding of the system -/

/-- The escrow is initialized with these addresses, and those of its pools that
    are `ContributorPool` instances are bound to it. -/
structure Bound (D : Deployment) (token treasury nftPool revenuePool : Address) (w : World) : Prop where
  initialized : w.escrow.governance.isSome
  bindings : w.escrow.bindings = ⟨some token, some treasury, some nftPool, some revenuePool⟩
  distinct : nftPool ≠ revenuePool
  nft : D.isPool nftPool = true → BoundTo token D.escrow (w.pools nftPool)
  revenue : D.isPool revenuePool = true → BoundTo token D.escrow (w.pools revenuePool)

variable {D : Deployment} {tok tr nft rev : Address}

theorem Effect.escrow_bindings {w w' : World} {a : Action} (h : Effect D w w' a)
    (hg : w.escrow.governance.isSome) :
    w'.escrow.governance.isSome ∧ w'.escrow.bindings = w.escrow.bindings := by
  refine h.escrow_preserves (I := fun s => s.governance.isSome ∧ s.bindings = w.escrow.bindings)
    (fun _ hc hI => ?_) ⟨hg, rfl⟩
  obtain ⟨hg, he⟩ := hc.bindings hI.1
  exact ⟨hg, he.trans hI.2⟩

/-- **A binding is never undone.** -/
theorem Bound.effect {w w' : World} {a : Action} (hb : Bound D tok tr nft rev w)
    (h : Effect D w w' a) : Bound D tok tr nft rev w' := by
  have hpool : ∀ p, BoundTo tok D.escrow (w.pools p) → BoundTo tok D.escrow (w'.pools p) :=
    fun p => h.pool_preserves fun _ hc hI => hI.effect hc
  have hescrow := h.escrow_bindings hb.initialized
  exact ⟨hescrow.1, hescrow.2.trans hb.bindings, hb.distinct, fun hp => hpool _ (hb.nft hp),
    fun hp => hpool _ (hb.revenue hp)⟩

theorem Bound.first {w w' : World} {signers : Address → Bool} {foreign : Foreign}
    {g se d : Address} {salt : BytesN32} (hbooks : ∀ p, Pool.Books (w.pools p))
    (h : Initialize (D.env w D.escrow signers foreign) g se tok tr nft rev d salt w.escrow w.pools
      w'.escrow) (hpools : w'.pools = w.pools) : Bound D tok tr nft rev w' := by
  have hpool : ∀ p, D.isPool p = true →
      clientEscrowContract (D.env w D.escrow signers foreign) w.pools p = .ok D.escrow →
      clientTokenContract (D.env w D.escrow signers foreign) w.pools p = .ok tok →
      BoundTo tok D.escrow (w'.pools p) := by
    intro p hp he ht
    have hp : (D.env w D.escrow signers foreign).isPool p = true := hp
    have he := clientEscrowContract_pool hp he
    have ht := clientTokenContract_pool hp ht
    rw [hpools]
    exact ⟨(hbooks p).initialized he, ht, he⟩
  obtain ⟨live, hs⟩ := h.post
  exact ⟨by rw [hs]; rfl, by rw [hs]; rfl, h.distinct, fun hp => hpool nft hp h.nftEscrow h.nftToken,
    fun hp => hpool rev hp h.revenueEscrow h.revenueToken⟩

/-- **The initialized escrow is bound.** -/
theorem Execution.bound (x : Execution D) (hinit : x.final.escrow.governance.isSome) :
    ∃ tok tr nft rev, Bound D tok tr nft rev x.final := by
  refine invariant (I := fun w => w.escrow.governance.isSome →
    ∃ tok tr nft rev, Bound D tok tr nft rev w) (fun w hw hg => ?_) (fun y a w' h hI hg => ?_) x hinit
  · obtain ⟨live, he⟩ := hw.escrow
    rw [he] at hg; cases hg
  · by_cases hpre : y.final.escrow.governance.isSome
    · obtain ⟨tok, tr, nft, rev, hb⟩ := hI hpre
      exact ⟨tok, tr, nft, rev, hb.effect h⟩
    · -- the only call of the uninitialized escrow that installs a governance
      cases h with
      | escrow h hw =>
        subst hw
        cases h with
        | initializeEscrow hc hp _ => exact ⟨_, _, _, _, .first y.pool_books hc hp⟩
        | fund hc _ => exact absurd hc.initialized hpre
        | activate hc _ _ => exact absurd hc.initialized hpre
        | complete hc => exact absurd hc.initialized hpre
        | refundExpired hc _ => exact absurd hc.initialized hpre
        | other _ hc _ _ => exact absurd (hc.initialized ▸ hg) hpre
      | pool _ _ hw | transfer _ _ _ hw | issuer _ hw | close _ hw => subst hw; exact absurd hg hpre

theorem Execution.bound_pools (x : Execution D) (hn : x.final.escrow.nftPool = some nft)
    (hr : x.final.escrow.revenuePool = some rev) : ∃ tok tr, Bound D tok tr nft rev x.final := by
  have hinit : x.final.escrow.governance.isSome := by
    refine x.escrow_books.initialized fun live he => ?_
    rw [he.nftPool] at hn; cases hn
  obtain ⟨tok, tr, nft', rev', hb⟩ := x.bound hinit
  obtain rfl := Option.some.inj (hn.symm.trans (congrArg Bindings.nftPool hb.bindings))
  obtain rfl := Option.some.inj (hr.symm.trans (congrArg Bindings.revenuePool hb.bindings))
  exact ⟨tok, tr, hb⟩

/-! ## Who initializes, and how often -/

/-- The actions that call `initialize` of the contract `c`. -/
def Action.initializes (D : Deployment) (c : Address) : Action → Bool
  | .escrow _ _ (.initializeEscrow ..) => c = D.escrow
  | .pool p _ (.initializePool ..) => c = p
  | _ => false

/-- Whether the contract `c` is initialized. -/
def World.isInitialized (D : Deployment) (w : World) (c : Address) : Bool :=
  if c = D.escrow then w.escrow.governance.isSome else (w.pools c).governance.isSome

/-- The roles installed at the contract `c` that have to agree to it: the
    governance, and the eligibility authority of a pool. -/
def World.rolesOf (D : Deployment) (w : World) (c : Address) : List Address :=
  if c = D.escrow then w.escrow.governance.toList
  else (w.pools c).governance.toList ++ (w.pools c).eligibilityAuthority.toList

/-- The addresses that authorize an action. -/
def Action.signers : Action → Address → Bool
  | .escrow signers _ _ | .pool _ signers _ => signers
  | _ => fun _ => false

/-- An action that initializes `c` finds it uninitialized, leaves it initialized,
    and is authorized by the deployer of `c` and the roles it installs. -/
structure FirstInitialization (D : Deployment) (c : Address) (w w' : World) (a : Action) : Prop where
  before : w.isInitialized D c = false
  after : w'.isInitialized D c = true
  deployer : a.signers (D.deployer c) = true ∧ D.isSystem (D.deployer c) = false
  roles : ∀ r ∈ w'.rolesOf D c, a.signers r = true ∧ D.isSystem r = false

theorem Deployment.env_authorized_iff {w : World} {self a : Address} {signers : Address → Bool}
    {foreign : Foreign} : (D.env w self signers foreign).authorized a = true ↔
      signers a = true ∧ D.isSystem a = false := by
  simp [Deployment.env]

theorem Effect.firstInitialization {w w' : World} {a : Action} {c : Address} (h : Effect D w w' a)
    (ha : a.initializes D c = true) : FirstInitialization D c w w' a := by
  cases h with
  | @escrow _ _ call _ _ _ h hw =>
    subst hw
    cases h with
    | initializeEscrow hc hp ht =>
      obtain rfl : c = D.escrow := by simpa [Action.initializes] using ha
      have hd := hc.deployment
      obtain rfl := Deployment.deployer_unique Deployment.isSystem_escrow hd
      obtain ⟨live, hs⟩ := hc.post
      refine ⟨?_, ?_, Deployment.env_authorized_iff.1 hc.deployerAuth, fun r hr => ?_⟩
      · simp [World.isInitialized, hc.fresh]
      · simp [World.isInitialized, hs]
      · obtain rfl : r = _ := by simpa [World.rolesOf, hs] using hr
        exact Deployment.env_authorized_iff.1 hc.governanceAuth
    | fund | activate | complete | refundExpired => cases ha
    | other hcall _ _ _ => cases call <;> first | cases ha | cases hcall
  | @pool p _ call _ _ hp h hw =>
    subst hw
    cases h with
    | initializePool hc ht =>
      obtain rfl : c = p := by simpa [Action.initializes] using ha
      have hne := Deployment.ne_escrow_of_isPool hp
      have hd := hc.deployment
      obtain rfl := Deployment.deployer_unique (Deployment.isSystem_pool hp) hd
      obtain ⟨live, hs⟩ := hc.post
      refine ⟨?_, ?_, Deployment.env_authorized_iff.1 hc.deployerAuth, fun r hr => ?_⟩
      · simp [World.isInitialized, hne, hc.fresh]
      · simp [World.isInitialized, hne, hs]
      · obtain rfl | rfl : r = _ ∨ r = _ := by simpa [World.rolesOf, hne, hs] using hr
        · exact Deployment.env_authorized_iff.1 hc.governanceAuth
        · exact Deployment.env_authorized_iff.1 hc.eligibilityAuth
    | recordCredit | publishManifest | claim | expireManifest => cases ha
    | other hcall _ _ => cases call <;> first | cases ha | cases hcall
  | transfer | issuer | close => cases ha

theorem Effect.isInitialized {w w' : World} {a : Action} (h : Effect D w w' a) {c : Address}
    (hc : w.isInitialized D c = true) : w'.isInitialized D c = true := by
  unfold World.isInitialized at hc ⊢
  split
  · rename_i he
    rw [if_pos he] at hc
    exact h.escrow_preserves (I := fun s => s.governance.isSome) (fun _ h hI => (h.bindings hI).1) hc
  · rename_i he
    rw [if_neg he] at hc
    refine h.pool_preserves (I := fun s => s.governance.isSome) (fun _ h hI => ?_) hc
    cases h with
    | initializePool hc _ => rw [hc.fresh] at hI; cases hI
    | recordCredit hc _ | publishManifest hc _ | claim hc | expireManifest hc _ =>
      obtain ⟨live, rfl⟩ := hc.post; exact hI
    | other _ hc _ => exact hc.initialized ▸ hI

/-- A contract is initialized by at most one action of a run, and not at all as
    long as it is uninitialized. -/
theorem Execution.initializations (x : Execution D) (c : Address) :
    (x.history.countP fun t => t.act.initializes D c) ≤
      if x.final.isInitialized D c then 1 else 0 := by
  refine induction (A := fun _ => True)
    (P := fun h w => (h.countP fun t => t.act.initializes D c) ≤ if w.isInitialized D c then 1 else 0)
    (fun w _ => by simp) (fun y t _ _ _ hP => ?_) x (fun _ _ => trivial)
  rw [List.countP_append, List.countP_singleton]
  by_cases ha : t.act.initializes D c = true
  · have h := t.effect.firstInitialization ha
    simp [h.before, h.after, ha] at hP ⊢
    exact hP
  · cases hpre : t.pre.isInitialized D c with
    | true => simpa [ha, t.effect.isInitialized hpre, hpre] using hP
    | false =>
      rw [hpre] at hP
      simp only [ha, Bool.false_eq_true, if_false, add_zero]
      exact hP.trans (by simp)

/-- **First initialization and permanent binding.** -/
theorem initialization_binds (x : Execution D) :
    (∀ c, (x.history.countP fun t => t.act.initializes D c) ≤ 1) ∧
    (∀ t ∈ x.history, ∀ c, t.act.initializes D c = true → FirstInitialization D c t.pre t.post t.act) ∧
    ∀ t ∈ x.history, ∀ signers foreign g se tok tr nft rev d salt,
      t.act = .escrow signers foreign (.initializeEscrow g se tok tr nft rev d salt) →
      D.isPool nft = true → D.isPool rev = true →
      nft ≠ rev ∧ x.final.escrow.bindings = ⟨some tok, some tr, some nft, some rev⟩ ∧
      BoundTo tok D.escrow (x.final.pools nft) ∧ BoundTo tok D.escrow (x.final.pools rev) := by
  refine ⟨fun c => (x.initializations c).trans ?_, fun t _ c => t.effect.firstInitialization, ?_⟩
  · split <;> simp
  · intro t ht signers foreign g se tok tr nft rev d salt hact hnft hrev
    have hall : ∀ t ∈ x.history, t.act = .escrow signers foreign
        (.initializeEscrow g se tok tr nft rev d salt) → Bound D tok tr nft rev x.final := by
      refine Execution.induction (A := fun _ => True) (P := fun h w => ∀ t ∈ h,
        t.act = .escrow signers foreign (.initializeEscrow g se tok tr nft rev d salt) →
          Bound D tok tr nft rev w) (fun _ _ => by simp) (fun y t _ _ hpre hP t' ht' hact => ?_) x
        (fun _ _ => trivial)
      rcases List.mem_append.1 ht' with ht' | ht'
      · exact (hP t' ht' hact).effect t.effect
      · obtain rfl := List.mem_singleton.1 ht'
        have h := t'.effect
        rw [hact] at h
        cases h with
        | escrow h hw =>
          cases h with
          | initializeEscrow hc hp _ =>
            rw [hw]
            exact .first (fun p => by rw [hpre]; exact y.pool_books p) hc hp
          | other hcall _ _ _ => cases hcall
    have hb := hall t ht hact
    exact ⟨hb.distinct, hb.bindings, hb.nft hnft, hb.revenue hrev⟩

end TogetherFi
