/-
  Publishing in reachable states.

  `publish_manifest` accepts exactly the well-formed manifests the pool can
  cover, and whatever is available can be published as long as a larger
  manifest id and a later time exist.  The ids only grow, so a pool that has
  used the largest one publishes nothing any more.
-/
import TogetherFi.Pool.Publication
import TogetherFi.System.Accounting

namespace TogetherFi

open Pool

variable {D : Deployment}

/-- **`publish_manifest` accepts exactly the well-formed, covered manifests**,
    and then writes them and nothing else. -/
theorem publish_accepts_exactly (x : Execution D) (env : Env)
    (hg : ∃ g, (x.final.pools env.self).governance = some g ∧ env.authorized g = true)
    (he : ∃ e, (x.final.pools env.self).eligibilityAuthority = some e ∧ env.authorized e = true)
    (id : UInt64) (hash policy : BytesN32) (expiresAt : UInt64) (recipients : List Address)
    (amounts : List ℤ) :
    let s := x.final.pools env.self
    let t := x.final.tokens
    ((∃ s', publishManifest env id hash policy expiresAt recipients amounts s t = .ok s') ↔
      Publishable env id expiresAt recipients amounts s t) ∧
    ∀ s', publishManifest env id hash policy expiresAt recipients amounts s t = .ok s' →
      Recorded id hash policy expiresAt recipients amounts s s' := by
  intro s t
  have h : Pool.Books s := x.pool_books env.self
  refine ⟨h.publishManifest_iff hg he, ?_⟩
  intro s' hs'
  exact h.recorded (publishManifest_ok hs')

theorem publish_accepts_exactly_sample :
    ∃ s', publishManifest (Sample.deployment.env Sample.execution.final Sample.nftPool
      (fun _ => true) .silent) 2 0 0 2000 [Sample.creator] [50]
      (Sample.execution.final.pools Sample.nftPool) Sample.execution.final.tokens = .ok s' := by
  have h := publish_accepts_exactly Sample.execution
    (Sample.deployment.env Sample.execution.final Sample.nftPool (fun _ => true) .silent)
    ⟨Sample.deployer, by decide +kernel, by decide +kernel⟩
    ⟨Sample.eligibility, by decide +kernel, by decide +kernel⟩ 2 0 0 2000 [Sample.creator] [50]
  refine h.1.2 ⟨by decide +kernel, rfl, ?_, ?_, ?_, ?_, by decide +kernel, by decide +kernel,
    by decide +kernel, ⟨Sample.asset, by decide +kernel, by decide +kernel⟩, by decide +kernel⟩
  all_goals simp

/-! ## Carrying forward -/

/-- Expiry releases what remains, and changes nothing else of the available balance. -/
theorem Pool.Expire.released {env env' : Env} {id : UInt64} {m : Manifest} {s s' : PoolStorage}
    {t : Tokens} {a : ℤ} (hb : Pool.Books s) (h : Expire env' id m s s')
    (ha : availableBalance env s t = .ok a) :
    0 < m.remainingAmount ∧ availableBalance env s' t = .ok (a + m.remainingAmount) := by
  have hb' := hb.expire h
  have hpos := ((hb.manifest id m h.manifest).1.active h.active).2
  obtain ⟨hg, -, -, hcov, -, rfl⟩ := availableBalance_eq_ok.1 ha
  obtain ⟨live, rfl⟩ := h.post
  refine ⟨hpos, (hb'.availableBalance_eq hg hcov).trans (congrArg Except.ok ?_)⟩
  change s.credited - s.paid - (s.liability - m.remainingAmount) = _
  omega

/-- **Carry-forward money can be published** if and only if neither the manifest
    ids nor the times are used up; and what a manifest leaves unclaimed becomes
    available when it expires, whether or not the pool is paused. -/
theorem carry_forward (x : Execution D) (env : Env) {a : ℤ}
    (ha : availableBalance env (x.final.pools env.self) x.final.tokens = .ok a) :
    let s := x.final.pools env.self
    let t := x.final.tokens
    (0 < a → s.paused.getD false = false →
      (∃ g, s.governance = some g ∧ env.authorized g = true) →
      (∃ e, s.eligibilityAuthority = some e ∧ env.authorized e = true) → ∀ hash policy : BytesN32,
      ((∃ id expiresAt recipients amounts, recipients ≠ [] ∧ amounts.sum = a ∧
        ∃ s', publishManifest env id hash policy expiresAt recipients amounts s t = .ok s') ↔
        s.latest.toNat < 2 ^ 64 - 1 ∧ env.timestamp.toNat < 2 ^ 64 - 1)) ∧
    ∀ env' id s', expireManifest env' id s = .ok s' → ∃ m, s.manifest id = some m ∧
      0 < m.remainingAmount ∧ availableBalance env s' t = .ok (a + m.remainingAmount) := by
  intro s t
  have h : Pool.Books s := x.pool_books env.self
  constructor
  · intro hpos hrun hg he hash policy
    obtain ⟨-, -, -, hcov, -, havail⟩ := availableBalance_eq_ok.1 ha
    constructor
    · rintro ⟨id, expiresAt, recipients, amounts, -, -, hpub⟩
      have hp := (h.publishManifest_iff hg he).1 hpub
      have hid := id.toNat_lt
      have hexp := expiresAt.toNat_lt
      have hinc := hp.increasing
      have hfut := hp.future
      omega
    · rintro ⟨hid, htime⟩
      obtain ⟨g, -, -⟩ := id hg
      have hsize : UInt64.size = 2 ^ 64 := rfl
      -- everything for one recipient, under the next id, until the next second
      have hid' : (UInt64.ofNat (s.latest.toNat + 1)).toNat = s.latest.toNat + 1 :=
        UInt64.toNat_ofNat_of_lt' (by rw [hsize]; omega)
      have htime' : (UInt64.ofNat (env.timestamp.toNat + 1)).toNat = env.timestamp.toNat + 1 :=
        UInt64.toNat_ofNat_of_lt' (by rw [hsize]; omega)
      refine ⟨.ofNat (s.latest.toNat + 1), .ofNat (env.timestamp.toNat + 1), [g], [a], by simp,
        by simp, (h.publishManifest_iff hg he).2 ?_⟩
      exact ⟨hrun, rfl, by simp, by simp, by simpa using hpos, by simp, by omega, by omega, by omega,
        hcov, by simpa using havail.le⟩
  · intro env' id s' hs'
    obtain ⟨m, hm⟩ := expireManifest_ok hs'
    exact ⟨m, hm.manifest, hm.released h ha⟩

theorem carry_forward_sample :
    ∃ id expiresAt recipients amounts, recipients ≠ [] ∧ amounts.sum = 50 ∧
      ∃ s', publishManifest (Sample.deployment.env Sample.execution.final Sample.nftPool
        (fun _ => true) .silent) id 0 0 expiresAt recipients amounts
        (Sample.execution.final.pools Sample.nftPool) Sample.execution.final.tokens = .ok s' := by
  have h := carry_forward Sample.execution
    (Sample.deployment.env Sample.execution.final Sample.nftPool (fun _ => true) .silent)
    (availableBalance_eq_ok.2 ⟨by decide +kernel, by decide +kernel, by decide +kernel,
      ⟨Sample.asset, by decide +kernel, by decide +kernel⟩, by decide +kernel, rfl⟩)
  refine (h.1 (by decide +kernel) (by decide +kernel) ⟨Sample.deployer, by decide +kernel, by decide +kernel⟩
    ⟨Sample.eligibility, by decide +kernel, by decide +kernel⟩ 0 0).2 ?_
  exact ⟨by decide +kernel, by decide +kernel⟩

namespace Sample

/-- The credit of a campaign is published under the largest manifest id, and
    released by expiry. -/
def lastManifest : Execution deployment :=
  ⟨start, genesis, setup treasury ++ launch 1 10000 ++
    [.escrow (fun _ => true) .silent (.complete 1 1),
     .pool nftPool (fun _ => true)
       (.publishManifest 18446744073709551615 0 0 2000 [creator] [500]),
     .close 2000 2,
     .pool nftPool (fun _ => true) (.expireManifest 18446744073709551615)]⟩

end Sample

/-- Without a larger manifest id what is available cannot be published, although
    the pool is not paused and both authorities agree. -/
theorem carry_forward_not_always : ∃ (x : Execution Sample.deployment) (p : Address) (a : ℤ),
    0 < a ∧ (x.final.pools p).paused.getD false = false ∧
    (∀ env, env.self = p → availableBalance env (x.final.pools p) x.final.tokens = .ok a) ∧
    ∀ env id hash policy expiresAt recipients amounts s',
      publishManifest env id hash policy expiresAt recipients amounts (x.final.pools p)
        x.final.tokens ≠ .ok s' := by
  refine ⟨Sample.lastManifest, Sample.nftPool, 500, by decide, by decide +kernel, ?_, ?_⟩
  · intro env hself
    refine availableBalance_eq_ok.2 ⟨by decide +kernel, by decide +kernel, by decide +kernel,
      ⟨Sample.asset, by decide +kernel, ?_⟩, by decide +kernel, by decide +kernel⟩
    rw [hself]; decide +kernel
  · intro env id hash policy expiresAt recipients amounts s' h
    have hinc := UInt64.lt_iff_toNat_lt.1 (publishManifest_ok h).increasing
    have hlatest : (Sample.lastManifest.final.pools Sample.nftPool).latest.toNat = 2 ^ 64 - 1 := by
      decide +kernel
    have hid := id.toNat_lt
    omega

end TogetherFi
