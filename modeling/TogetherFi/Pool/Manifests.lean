/-
  What no call changes of a published manifest.

  `Keeps s s'` says that the manifests and allocations of `s` are still those
  of `s'`, up to what claims and expiry may change.  The calls that publish a
  manifest or claim an allocation are told apart by `publishes` and `claims`.
-/
import TogetherFi.Pool.Books

namespace TogetherFi

open Function

namespace Pool

/-! ## What is kept -/

/-- What a manifest is published with. -/
def Manifest.terms (m : Manifest) : BytesN32 × BytesN32 × ℤ × ℕ × UInt64 :=
  (m.manifestHash, m.policyHash, m.totalAmount, m.allocationCount, m.expiresAt)

/-- Whom an allocation is for, and how much. -/
def Allocation.award (a : Allocation) : Address × ℤ := (a.recipient, a.amount)

/-- The manifests and allocations of `s` are kept in `s'`. -/
structure Keeps (s s' : PoolStorage) : Prop where
  token : ∀ token, s.token = some token → s'.token = some token
  manifest : ∀ id m, s.manifest id = some m → ∃ m', s'.manifest id = some m' ∧ m'.terms = m.terms
  allocation : ∀ id i a, s.allocation id i = some a →
    ∃ a', s'.allocation id i = some a' ∧ a'.award = a.award ∧ (a.claimed = true → a' = a)
  settled : ∀ id m, s.manifest id = some m → m.status ≠ .active →
    s'.manifest id = some m ∧ s'.allocation id = s.allocation id

theorem Keeps.same {s s' : PoolStorage} (ht : ∀ token, s.token = some token → s'.token = some token)
    (hm : s'.manifest = s.manifest) (ha : s'.allocation = s.allocation) : Keeps s s' := by
  refine ⟨ht, fun id m h => ⟨m, ?_, rfl⟩, fun id i a h => ⟨a, ?_, rfl, fun _ => rfl⟩,
    fun id m h _ => ?_⟩
  · rw [hm]; exact h
  · rw [ha]; exact h
  · rw [hm, ha]; exact ⟨h, rfl⟩

theorem Keeps.refl (s : PoolStorage) : Keeps s s := .same (fun _ h => h) rfl rfl

theorem Keeps.trans {s₁ s₂ s₃ : PoolStorage} (h₁ : Keeps s₁ s₂) (h₂ : Keeps s₂ s₃) : Keeps s₁ s₃ := by
  refine ⟨fun token h => h₂.token token (h₁.token token h), fun id m hm => ?_, fun id i a ha => ?_,
    fun id m hm hst => ?_⟩
  · obtain ⟨m', hm', he⟩ := h₁.manifest id m hm
    obtain ⟨m'', hm'', he'⟩ := h₂.manifest id m' hm'
    exact ⟨m'', hm'', he'.trans he⟩
  · obtain ⟨a', ha', he, hc⟩ := h₁.allocation id i a ha
    obtain ⟨a'', ha'', he', hc'⟩ := h₂.allocation id i a' ha'
    refine ⟨a'', ha'', he'.trans he, fun h => ?_⟩
    obtain rfl := hc h
    exact hc' h
  · obtain ⟨hm', ha⟩ := h₁.settled id m hm hst
    obtain ⟨hm'', ha'⟩ := h₂.settled id m hm' hst
    exact ⟨hm'', ha'.trans ha⟩

/-! ## What the calls do to the manifests -/

/-- The manifest a call publishes. -/
def PoolCall.publishes : PoolCall → Option UInt64
  | .publishManifest id .. => some id
  | _ => none

/-- The allocation a call claims. -/
def PoolCall.claims : PoolCall → Option (UInt64 × ℕ)
  | .claim id index => some (id, index)
  | _ => none

/-- Allocation `i` of manifest `id` is claimed. -/
def PoolStorage.isClaimed (s : PoolStorage) (id : UInt64) (i : ℕ) : Prop :=
  ∃ a, s.allocation id i = some a ∧ a.claimed = true

variable {env : Env} {s s' : PoolStorage} {t t' : Tokens} {call : PoolCall}

/-- The allocations of other manifests are not touched by a publication. -/
theorem stored_of_ne {id id' : UInt64} (h : id' ≠ id) (recipients : List Address) (amounts : List ℤ)
    (i : ℕ) : stored s id recipients amounts id' i = s.allocation id' i := by
  simp [stored, h]

theorem stored_self (s : PoolStorage) (id : UInt64) {recipients : List Address} {amounts : List ℤ}
    (hlen : recipients.length = amounts.length) {i : ℕ} (hi : i < recipients.length) :
    ∃ a, stored s id recipients amounts id i = some a ∧ recipients[i]? = some a.recipient ∧
      amounts[i]? = some a.amount ∧ a.claimed = false := by
  have hi' : i < amounts.length := hlen ▸ hi
  refine ⟨⟨recipients[i], amounts[i], false⟩, ?_, List.getElem?_eq_getElem hi,
    List.getElem?_eq_getElem hi', rfl⟩
  simp [stored, hi, hi']

/-- **No call changes what is published.** -/
theorem Effect.keeps (hb : Books s) (h : Effect env s t s' t' call) : Keeps s s' := by
  cases h with
  | initializePool hc _ =>
    obtain ⟨live₀, he⟩ := hb.fresh hc.fresh
    obtain ⟨live, rfl⟩ := hc.post
    refine .same (fun token ht => ?_) rfl rfl
    rw [he.token] at ht; cases ht
  | recordCredit hc _ => obtain ⟨live, rfl⟩ := hc.post; exact .same (fun _ h => h) rfl rfl
  | @publishManifest id _ _ _ _ _ hc _ =>
    have hnew := hc.newId
    obtain ⟨live, rfl⟩ := hc.post
    have hne : ∀ {id' m}, s.manifest id' = some m → id' ≠ id := by
      rintro _ m hm rfl
      rw [hnew] at hm; cases hm
    refine ⟨fun _ h => h, fun id' m hm => ⟨m, ?_, rfl⟩, fun id' i a ha => ⟨a, ?_, rfl, fun _ => rfl⟩,
      fun id' m hm _ => ⟨?_, ?_⟩⟩
    · exact (update_of_ne (hne hm) ..).trans hm
    · cases hm : s.manifest id' with
      | none => rw [hb.unpublished id' hm i] at ha; cases ha
      | some m => exact (stored_of_ne (hne hm) ..).trans ha
    · exact (update_of_ne (hne hm) ..).trans hm
    · funext i; exact stored_of_ne (hne hm) ..
  | @claim id index m a _ hc =>
    have hm := hc.manifest
    have hact := hc.active
    have ha := hc.allocation
    have hun := hc.unclaimed
    obtain ⟨live, rfl⟩ := hc.post
    refine ⟨fun _ h => h, fun id' m' hm' => ?_, fun id' i a' ha' => ?_, fun id' m' hm' hst => ?_⟩
    · by_cases hid : id' = id
      · subst hid
        obtain rfl := Option.some.inj (hm.symm.trans hm')
        exact ⟨_, update_self .., rfl⟩
      · exact ⟨m', (update_of_ne hid ..).trans hm', rfl⟩
    · by_cases hid : id' = id ∧ i = index
      · obtain ⟨rfl, rfl⟩ := hid
        obtain rfl := Option.some.inj (ha.symm.trans ha')
        refine ⟨{ a with claimed := true }, by simp, rfl, fun h => ?_⟩
        rw [hun] at h; cases h
      · refine ⟨a', ?_, rfl, fun _ => rfl⟩
        by_cases hid' : id' = id
        · subst hid'
          simpa [show i ≠ index from fun hi => hid ⟨rfl, hi⟩] using ha'
        · simpa [hid'] using ha'
    · have hid : id' ≠ id := by
        rintro rfl
        obtain rfl := Option.some.inj (hm.symm.trans hm')
        exact hst hact
      exact ⟨(update_of_ne hid ..).trans hm', update_of_ne hid ..⟩
  | @expireManifest id m hc _ =>
    have hm := hc.manifest
    have hact := hc.active
    obtain ⟨live, rfl⟩ := hc.post
    refine ⟨fun _ h => h, fun id' m' hm' => ?_, fun id' i a' ha' => ⟨a', ha', rfl, fun _ => rfl⟩,
      fun id' m' hm' hst => ?_⟩
    · by_cases hid : id' = id
      · subst hid
        obtain rfl := Option.some.inj (hm.symm.trans hm')
        exact ⟨_, update_self .., rfl⟩
      · exact ⟨m', (update_of_ne hid ..).trans hm', rfl⟩
    · have hid : id' ≠ id := by
        rintro rfl
        obtain rfl := Option.some.inj (hm.symm.trans hm')
        exact hst hact
      exact ⟨(update_of_ne hid ..).trans hm', rfl⟩
  | other _ hc _ => exact .same (fun _ h => hc.token ▸ h) hc.manifest hc.allocation

theorem PoolCall.publishes_eq_none (h : call.isBooking = false) : call.publishes = none := by
  cases call <;> first | rfl | cases h

theorem PoolCall.claims_eq_none (h : call.isBooking = false) : call.claims = none := by
  cases call <;> first | rfl | cases h

theorem Effect.claim_of {id : UInt64} {i : ℕ} (h : Effect env s t s' t' call)
    (hc : call.claims = some (id, i)) : ∃ m a token, Claim env id i m a token s t s' t' := by
  cases h with
  | claim h =>
    obtain ⟨rfl, rfl⟩ := Prod.mk.inj (Option.some.inj hc)
    exact ⟨_, _, _, h⟩
  | other hcall => rw [PoolCall.claims_eq_none hcall] at hc; cases hc
  | initializePool | recordCredit | publishManifest | expireManifest => cases hc

/-- A call that publishes a manifest is a successful `publish_manifest`. -/
theorem Effect.publish_of {id : UInt64} (h : Effect env s t s' t' call)
    (hc : call.publishes = some id) : ∃ hash policy expiresAt recipients amounts,
      Publish env id hash policy expiresAt recipients amounts s t s' := by
  cases h with
  | publishManifest h _ =>
    obtain rfl := Option.some.inj hc
    exact ⟨_, _, _, _, _, h⟩
  | other hcall => rw [PoolCall.publishes_eq_none hcall] at hc; cases hc
  | initializePool | recordCredit | claim | expireManifest => cases hc

theorem isSome_update {f : UInt64 → Option Manifest} (id id' : UInt64) (m : Manifest) :
    (update f id (some m) id').isSome ↔ (f id').isSome ∨ id = id' := by
  by_cases h : id' = id
  · subst h; simp
  · simp [h, Ne.symm h]

/-- **The manifests after a call.** -/
theorem Effect.published (h : Effect env s t s' t' call) (id : UInt64) :
    (s'.manifest id).isSome ↔ (s.manifest id).isSome ∨ call.publishes = some id := by
  cases h with
  | initializePool hc _ | recordCredit hc _ =>
    obtain ⟨live, rfl⟩ := hc.post
    exact (or_iff_left (by simp [PoolCall.publishes])).symm
  | publishManifest hc _ =>
    obtain ⟨live, rfl⟩ := hc.post
    rw [isSome_update]; simp [PoolCall.publishes]
  | claim hc | expireManifest hc _ =>
    -- the manifest written is there
    have hm := hc.manifest
    obtain ⟨live, rfl⟩ := hc.post
    rw [isSome_update]
    refine ⟨?_, fun hs => .inl (hs.resolve_right (by simp [PoolCall.publishes]))⟩
    rintro (hs | rfl)
    · exact .inl hs
    · rw [hm]; exact .inl rfl
  | other hcall hc _ =>
    rw [hc.manifest, PoolCall.publishes_eq_none hcall]
    exact (or_iff_left (by simp)).symm

/-- **The claimed allocations after a call.** -/
theorem Effect.isClaimed (hb : Books s) (h : Effect env s t s' t' call) (id : UInt64) (i : ℕ) :
    s'.isClaimed id i ↔ s.isClaimed id i ∨ call.claims = some (id, i) := by
  have hsame : call.claims = none → s'.allocation id i = s.allocation id i →
      (s'.isClaimed id i ↔ s.isClaimed id i ∨ call.claims = some (id, i)) := by
    intro hnone ha
    rw [PoolStorage.isClaimed, PoolStorage.isClaimed, ha, hnone]
    exact (or_iff_left (by simp)).symm
  cases h with
  | initializePool hc _ | recordCredit hc _ | expireManifest hc _ =>
    obtain ⟨live, rfl⟩ := hc.post
    exact hsame rfl rfl
  | @publishManifest id' _ _ _ recipients amounts hc _ =>
    have hnew := hc.newId
    have hlen := hc.lengths
    obtain ⟨live, rfl⟩ := hc.post
    by_cases hid : id = id'
    · -- nothing of a new manifest is claimed
      subst hid
      have h₁ : ¬ s.isClaimed id i := by
        rintro ⟨a, ha, -⟩
        rw [hb.unpublished id hnew i] at ha; cases ha
      refine ⟨?_, fun h => absurd (h.resolve_right (by simp [PoolCall.claims])) h₁⟩
      rintro ⟨a, ha, hclaimed⟩
      by_cases hi : i < recipients.length
      · obtain ⟨a', ha', -, -, hun⟩ := stored_self s id hlen hi
        obtain rfl := Option.some.inj (ha.symm.trans ha')
        rw [hun] at hclaimed; cases hclaimed
      · refine absurd ⟨a, ?_, hclaimed⟩ h₁
        simpa [stored, hi] using ha
    · exact hsame rfl (stored_of_ne hid ..)
  | @claim id' index _ a _ hc =>
    obtain ⟨live, rfl⟩ := hc.post
    by_cases hid : id = id' ∧ i = index
    · obtain ⟨rfl, rfl⟩ := hid
      exact ⟨fun _ => .inr rfl, fun _ => ⟨{ a with claimed := true }, by simp, rfl⟩⟩
    · have hne : (PoolCall.claim id' index).claims ≠ some (id, i) := by
        rintro he
        obtain ⟨rfl, rfl⟩ := Prod.mk.inj (Option.some.inj he)
        exact hid ⟨rfl, rfl⟩
      have ha : update s.allocation id' (update (s.allocation id') index
          (some { a with claimed := true })) id i = s.allocation id i := by
        by_cases hid' : id = id'
        · subst hid'
          simp [show i ≠ index from fun hi => hid ⟨rfl, hi⟩]
        · simp [hid']
      simp only [PoolStorage.isClaimed, ha, hne, or_false]
  | other hcall hc _ => exact hsame (PoolCall.claims_eq_none hcall) (by rw [hc.allocation])

end Pool

end TogetherFi
