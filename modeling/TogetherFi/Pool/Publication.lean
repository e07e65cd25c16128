/-
  Which manifests a pool accepts.

  `Publishable` states over unbounded numbers what `publish_manifest` checks
  step by step: nested loops for duplicates, a running sum that may overflow,
  an unsigned difference of times and four guards on the totals.
  `Books.publishManifest_iff` shows that the two agree in every pool whose
  books are in order.
-/
import TogetherFi.Pool.Manifests

namespace TogetherFi

open Function

namespace Pool

variable {env : Env} {s s' : PoolStorage} {t : Tokens} {id : UInt64} {hash policy : BytesN32}
  {expiresAt : UInt64} {recipients : List Address} {amounts : List ℤ}

/-- A well-formed manifest that the pool can cover. -/
structure Publishable (env : Env) (manifestId expiresAt : UInt64) (recipients : List Address)
    (amounts : List ℤ) (s : PoolStorage) (t : Tokens) : Prop where
  running : s.paused.getD false = false
  lengths : recipients.length = amounts.length
  nonempty : 1 ≤ recipients.length
  bounded : recipients.length ≤ 64
  positive : ∀ a ∈ amounts, 0 < a
  distinct : recipients.Nodup
  future : env.timestamp.toNat < expiresAt.toNat
  window : expiresAt.toNat ≤ env.timestamp.toNat + 2592000
  increasing : s.latest.toNat < manifestId.toNat
  covered : ∃ token, s.token = some token ∧ s.credited - s.paid ≤ t.balance token env.self
  available : amounts.sum ≤ s.credited - s.paid - s.liability

/-- The difference of times that `publish_manifest` bounds. -/
theorem window_iff {now expiresAt : UInt64} (h : now < expiresAt) :
    expiresAt - now ≤ maxClaimWindow ↔ expiresAt.toNat ≤ now.toNat + 2592000 := by
  have hle := UInt64.lt_iff_toNat_lt.1 h
  have hmax : maxClaimWindow.toNat = 2592000 := rfl
  rw [UInt64.le_iff_toNat_le, UInt64.toNat_sub_of_le _ _ (UInt64.le_of_lt h), hmax]
  omega

theorem Publish.publishable (h : Publish env id hash policy expiresAt recipients amounts s t s') :
    Publishable env id expiresAt recipients amounts s t where
  running := h.running
  lengths := h.lengths
  nonempty := h.nonempty
  bounded := h.bounded
  positive := h.positive
  distinct := h.distinct
  future := UInt64.lt_iff_toNat_lt.1 h.future
  window := (window_iff h.future).1 h.window
  increasing := UInt64.lt_iff_toNat_lt.1 h.increasing
  covered := h.covered
  available := h.available

namespace Books

theorem manifest_eq_none (h : Books s) (hinc : s.latest < id) : s.manifest id = none := by
  cases hm : s.manifest id with
  | none => rfl
  | some m =>
    have hle := UInt64.le_iff_toNat_le.1 (h.manifest id m hm).2
    have hlt := UInt64.lt_iff_toNat_lt.1 hinc
    omega

theorem required_le (h : Books s) (hp : Publishable env id expiresAt recipients amounts s t) :
    s.liability + amounts.sum ≤ i128Max := by
  have havail := hp.available
  have hpaid := h.paid_nonneg
  have hmax := h.credited
  omega

/-- **`publish_manifest` accepts exactly the publishable manifests**, with both
    authorities present. -/
theorem publishManifest_iff (h : Books s)
    (hg : ∃ g, s.governance = some g ∧ env.authorized g = true)
    (he : ∃ e, s.eligibilityAuthority = some e ∧ env.authorized e = true) :
    (∃ s', publishManifest env id hash policy expiresAt recipients amounts s t = .ok s') ↔
      Publishable env id expiresAt recipients amounts s t := by
  constructor
  · rintro ⟨s', hs'⟩
    exact (publishManifest_ok hs').publishable
  · intro hp
    obtain ⟨g, hg, hga⟩ := hg
    obtain ⟨e, he, hea⟩ := he
    have hfut : env.timestamp < expiresAt := UInt64.lt_iff_toNat_lt.2 hp.future
    have hinc : s.latest < id := UInt64.lt_iff_toNat_lt.2 hp.increasing
    have hne : recipients ≠ [] := List.length_pos_iff.1 hp.nonempty
    have havail := h.availableBalance_eq (by rw [hg]; rfl) hp.covered
    exact publishManifest_succeeds hp.running hg he hga hea hne hp.lengths hp.bounded hfut
      ((window_iff hfut).2 hp.window) (h.manifest_eq_none hinc) hinc hp.positive hp.distinct havail
      hp.available h.liability_nonneg (h.required_le hp)

end Books

/-- What a successful `publish_manifest` wrote: exactly the listed allocations
    of the new manifest, the manifest, the liability and the latest id. -/
structure Recorded (id : UInt64) (hash policy : BytesN32) (expiresAt : UInt64)
    (recipients : List Address) (amounts : List ℤ) (s s' : PoolStorage) : Prop where
  stored : ∀ i r a, recipients[i]? = some r → amounts[i]? = some a →
    s'.allocation id i = some ⟨r, a, false⟩
  exact : ∀ i, recipients.length ≤ i → s'.allocation id i = none
  others : ∀ id', id' ≠ id → s'.allocation id' = s.allocation id'
  noOverflow : s.liability + amounts.sum ≤ i128Max
  post : ∃ live, s' = { s with
    allocation := s'.allocation
    manifest := update s.manifest id (some
      { manifestHash := hash
        policyHash := policy
        totalAmount := amounts.sum
        remainingAmount := amounts.sum
        allocationCount := recipients.length
        expiresAt := expiresAt
        status := .active })
    totalLiability := some (s.liability + amounts.sum)
    latestManifestId := some id
    live := live }

theorem Books.recorded (h : Books s)
    (hp : Publish env id hash policy expiresAt recipients amounts s t s') :
    Recorded id hash policy expiresAt recipients amounts s s' := by
  have hlen := hp.lengths
  have hnew := hp.newId
  have hmax := h.required_le hp.publishable
  obtain ⟨live, rfl⟩ := hp.post
  refine ⟨fun i r a hr ha => ?_, fun i hi => ?_, fun id' hid => ?_, hmax, live, rfl⟩
  · obtain ⟨hi, rfl⟩ := List.getElem?_eq_some_iff.1 hr
    obtain ⟨hi', rfl⟩ := List.getElem?_eq_some_iff.1 ha
    simp [Pool.stored, hi, hi']
  · -- nothing was stored under the new id before
    have hi : ¬ i < recipients.length := by omega
    simpa [Pool.stored, hi] using h.unpublished id hnew i
  · funext i
    exact stored_of_ne hid recipients amounts i

end Pool

end TogetherFi
