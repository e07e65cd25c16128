/-
  What a successful pool call checked and what it changed.

  For each entry point that touches the books there is one record of the facts
  a successful call establishes (`RecordCredit`, `Publish`, `Claim`, `Expire`,
  ...); `PoolCall.effect` sorts every successful call into these and the calls
  that leave the books alone (`SameBooks`).  The other modules use only these
  facts and never unfold an entry point again.
-/
import TogetherFi.Pool.Contract

namespace TogetherFi

open Outcome Function

namespace Pool

/-! ## The stored totals -/

namespace PoolStorage

/-- `TotalLiability`, or 0 where it is not stored. -/
def liability (s : PoolStorage) : ℤ := s.totalLiability.getD 0

/-- `TotalCredited`, or 0 where it is not stored. -/
def credited (s : PoolStorage) : ℤ := s.totalCredited.getD 0

/-- `TotalPaid`, or 0 where it is not stored. -/
def paid (s : PoolStorage) : ℤ := s.totalPaid.getD 0

/-- `LatestManifestId`, or 0 where it is not stored. -/
def latest (s : PoolStorage) : UInt64 := s.latestManifestId.getD 0

end PoolStorage

variable {env : Env} {s s' : PoolStorage} {t t' : Tokens}

/-! ## The internal functions -/

theorem init_eq_ok : init env s = .ok s' ↔ s.governance.isSome ∧ s' = s.extend env .instance_ := by
  unfold init
  split
  · rename_i h
    rw [Except.ok.injEq, eq_comm]
    exact ⟨fun hs => ⟨h, hs⟩, fun hs => hs.2⟩
  · rename_i h
    exact ⟨fun hs => (by cases hs), fun hs => absurd hs.1 h⟩

theorem storedTotalLiability_eq_ok {x : ℤ} :
    storedTotalLiability env s = .ok x ↔ s.governance.isSome ∧ x = s.liability := by
  simp only [storedTotalLiability, bind_eq_ok, init_eq_ok, pure_eq, Except.ok.injEq,
    PoolStorage.liability]
  constructor
  · rintro ⟨_, ⟨h, -⟩, hx⟩
    exact ⟨h, hx.symm⟩
  · rintro ⟨h, hx⟩
    exact ⟨_, ⟨h, rfl⟩, hx.symm⟩

theorem totalCredited_eq_ok {x : ℤ} :
    totalCredited env s = .ok x ↔ s.governance.isSome ∧ x = s.credited := by
  simp only [totalCredited, bind_eq_ok, init_eq_ok, pure_eq, Except.ok.injEq, PoolStorage.credited]
  constructor
  · rintro ⟨_, ⟨h, -⟩, hx⟩
    exact ⟨h, hx.symm⟩
  · rintro ⟨h, hx⟩
    exact ⟨_, ⟨h, rfl⟩, hx.symm⟩

theorem totalPaid_eq_ok {x : ℤ} :
    totalPaid env s = .ok x ↔ s.governance.isSome ∧ x = s.paid := by
  simp only [totalPaid, bind_eq_ok, init_eq_ok, pure_eq, Except.ok.injEq, PoolStorage.paid]
  constructor
  · rintro ⟨_, ⟨h, -⟩, hx⟩
    exact ⟨h, hx.symm⟩
  · rintro ⟨h, hx⟩
    exact ⟨_, ⟨h, rfl⟩, hx.symm⟩

theorem balance_eq_ok {x : ℤ} :
    balance env s t = .ok x ↔ ∃ token, s.token = some token ∧ x = t.balance token env.self := by
  simp only [balance, bind_eq_ok, trapOr_eq_ok, pure_eq, Except.ok.injEq]
  constructor
  · rintro ⟨a, h, hx⟩
    exact ⟨a, h, hx.symm⟩
  · rintro ⟨a, h, hx⟩
    exact ⟨a, h, hx.symm⟩

/-! ## Extending a life changes nothing else -/

section
variable (e : PoolEntry)

@[simp] theorem extend_liability : (s.extend env e).liability = s.liability := rfl
@[simp] theorem extend_credited : (s.extend env e).credited = s.credited := rfl
@[simp] theorem extend_paid : (s.extend env e).paid = s.paid := rfl
@[simp] theorem extend_latest : (s.extend env e).latest = s.latest := rfl

end

/-! ## Entry points -/

/-- A successful `initialize`. -/
structure Initialize (env : Env) (governance eligibilityAuthority token escrow deployer : Address)
    (salt : BytesN32) (s s' : PoolStorage) : Prop where
  fresh : s.governance = none
  deployment : env.deployedAddress deployer salt = env.self
  roles : governance ≠ eligibilityAuthority
  deployerAuth : env.authorized deployer = true
  governanceAuth : env.authorized governance = true
  eligibilityAuth : env.authorized eligibilityAuthority = true
  post : ∃ live, s' = { s with
    governance := some governance
    eligibilityAuthority := some eligibilityAuthority
    token := some token
    escrow := some escrow
    paused := some false
    totalLiability := some 0
    totalCredited := some 0
    totalPaid := some 0
    latestManifestId := some 0
    live := live }

theorem initializePool_ok {g e tok esc d : Address} {salt : BytesN32}
    (h : initializePool env g e tok esc d salt s = .ok s') :
    Initialize env g e tok esc d salt s s' := by
  simp only [initializePool, bind_eq_ok, rejectIf_eq_ok, requireAuth_eq_ok, requireAuthIf_eq_ok,
    exists_const, pure_eq, Except.ok.injEq] at h
  obtain ⟨hfresh, hdep, hd, hroles, hg, he, rfl⟩ := h
  refine ⟨by simpa using hfresh, by simpa using hdep, hroles, hd, ?_, ?_, _, rfl⟩
  · by_cases hgd : g = d
    · rw [hgd]; exact hd
    · exact hg hgd
  · by_cases hed : e = d
    · rw [hed]; exact hd
    · exact he hed

/-- A successful `record_credit`. -/
structure RecordCredit (env : Env) (campaignId : UInt64) (amount : ℤ) (s : PoolStorage)
    (t : Tokens) (s' : PoolStorage) : Prop where
  initialized : s.governance.isSome
  positive : 0 < amount
  escrow : ∃ escrow, s.escrow = some escrow ∧ env.authorized escrow = true
  fresh : s.creditedCampaign campaignId = none
  inRange : InI128 (s.credited + amount)
  covered : ∃ token, s.token = some token ∧
    s.credited + amount - s.paid ≤ t.balance token env.self
  post : ∃ live, s' = { s with
    creditedCampaign := update s.creditedCampaign campaignId (some true)
    totalCredited := some (s.credited + amount)
    live := live }

theorem recordCredit_ok {id : UInt64} {amount : ℤ} (h : recordCredit env id amount s t = .ok s') :
    RecordCredit env id amount s t s' := by
  simp only [recordCredit, escrow, bind_eq_ok, init_eq_ok, rejectIf_eq_ok, requireAuth_eq_ok,
    okOr_eq_ok, totalCredited_eq_ok, totalPaid_eq_ok, balance_eq_ok, checkedI128_eq_some,
    exists_const, pure_eq, Except.ok.injEq] at h
  obtain ⟨_, ⟨hg, rfl⟩, hpos, escrow, hescrow, hauth, hfresh, _, ⟨-, rfl⟩, _, ⟨-, rfl⟩, _,
    ⟨hr, rfl⟩, _, ⟨-, rfl⟩, _, ⟨token, htoken, rfl⟩, hcov, rfl⟩ := h
  exact ⟨hg, by omega, ⟨escrow, hescrow, hauth⟩, by simpa using hfresh, hr,
    ⟨token, htoken, by simpa using hcov⟩, _, rfl⟩

/-- **When `record_credit` succeeds.** -/
theorem recordCredit_succeeds {id : UInt64} {amount : ℤ} {escrow token : Address}
    (hg : s.governance.isSome) (hpos : 0 < amount) (hescrow : s.escrow = some escrow)
    (hauth : env.authorized escrow = true) (hfresh : s.creditedCampaign id = none)
    (hr : InI128 (s.credited + amount)) (hr' : InI128 (s.credited + amount - s.paid))
    (htoken : s.token = some token)
    (hcov : s.credited + amount - s.paid ≤ t.balance token env.self) :
    ∃ s', recordCredit env id amount s t = .ok s' := by
  simp only [recordCredit, Pool.escrow, bind_eq_ok, init_eq_ok, rejectIf_eq_ok, requireAuth_eq_ok,
    okOr_eq_ok, totalCredited_eq_ok, totalPaid_eq_ok, balance_eq_ok, checkedI128_eq_some,
    exists_const, pure_eq, Except.ok.injEq]
  exact ⟨_, _, ⟨hg, rfl⟩, by omega, escrow, hescrow, hauth, by simpa using hfresh, _, ⟨hg, rfl⟩, _,
    ⟨hg, rfl⟩, _, ⟨hr, rfl⟩, _, ⟨hr', rfl⟩, _, ⟨token, htoken, rfl⟩, by simpa using hcov, rfl⟩

theorem availableBalance_eq_ok {x : ℤ} : availableBalance env s t = .ok x ↔
    s.governance.isSome ∧ InI128 (s.credited - s.paid) ∧ s.liability ≤ s.credited - s.paid ∧
      (∃ token, s.token = some token ∧ s.credited - s.paid ≤ t.balance token env.self) ∧
      InI128 (s.credited - s.paid - s.liability) ∧ x = s.credited - s.paid - s.liability := by
  simp only [availableBalance, bind_eq_ok, init_eq_ok, rejectIf_eq_ok, okOr_eq_ok,
    totalCredited_eq_ok, totalPaid_eq_ok, storedTotalLiability_eq_ok, balance_eq_ok,
    checkedI128_eq_some, plainI128_eq_ok, exists_const]
  constructor
  · rintro ⟨_, ⟨hg, rfl⟩, _, ⟨-, rfl⟩, _, ⟨-, rfl⟩, _, ⟨-, rfl⟩, _, ⟨hr, rfl⟩, hl, _,
      ⟨token, htoken, rfl⟩, hcov, hr', rfl⟩
    exact ⟨hg, hr, by simpa using hl, ⟨token, htoken, by simpa using hcov⟩, hr', rfl⟩
  · rintro ⟨hg, hr, hl, ⟨token, htoken, hcov⟩, hr', rfl⟩
    exact ⟨_, ⟨hg, rfl⟩, _, ⟨hg, rfl⟩, _, ⟨hg, rfl⟩, _, ⟨hg, rfl⟩, _, ⟨hr, rfl⟩, by simpa using hl, _,
      ⟨token, htoken, rfl⟩, by simpa using hcov, hr', rfl⟩

/-! ### Publishing -/

/-- What the first loop of `publish_manifest` establishes. -/
structure Checked (prior : List Address) (pairs : List (Address × ℤ)) : Prop where
  positive : ∀ p ∈ pairs, 0 < p.2
  distinct : (prior ++ pairs.map Prod.fst).Nodup

theorem checkAllocations_ok : ∀ {pairs : List (Address × ℤ)} {prior : List Address} {total x : ℤ},
    prior.Nodup → checkAllocations prior pairs total = .ok x →
      Checked prior pairs ∧ x = total + (pairs.map Prod.snd).sum
  | [], prior, total, x, hnd, h => by
    simp only [checkAllocations, Except.ok.injEq] at h
    exact ⟨⟨by simp, by simpa using hnd⟩, by simp [h]⟩
  | (r, a) :: pairs, prior, total, x, hnd, h => by
    simp only [checkAllocations, bind_eq_ok, rejectIf_eq_ok, okOr_eq_ok, checkedI128_eq_some,
      exists_const] at h
    obtain ⟨hpos, hnew, _, ⟨-, rfl⟩, h⟩ := h
    have hnd' : (prior ++ [r]).Nodup := by
      rw [List.nodup_append]
      exact ⟨hnd, by simp, by rintro b hb c hc rfl; simp at hc; exact hnew (hc ▸ hb)⟩
    obtain ⟨⟨hp, hd⟩, rfl⟩ := checkAllocations_ok hnd' h
    refine ⟨⟨?_, by simpa using hd⟩, by simp; omega⟩
    simp only [List.mem_cons, forall_eq_or_imp]
    exact ⟨by omega, hp⟩

/-- The first loop succeeds on positive amounts to distinct recipients that add
    up without overflow. -/
theorem checkAllocations_succeeds : ∀ (pairs : List (Address × ℤ)) (prior : List Address) (total : ℤ),
    Checked prior pairs → 0 ≤ total → total + (pairs.map Prod.snd).sum ≤ i128Max →
      checkAllocations prior pairs total = .ok (total + (pairs.map Prod.snd).sum)
  | [], prior, total, _, _, _ => by simp [checkAllocations]
  | (r, a) :: pairs, prior, total, ⟨hpos, hnd⟩, h₀, hmax => by
    simp only [List.mem_cons, forall_eq_or_imp] at hpos
    simp only [List.map_cons, List.sum_cons] at hmax ⊢
    have hrest : 0 ≤ (pairs.map Prod.snd).sum := by
      refine List.sum_nonneg fun x hx => ?_
      obtain ⟨p, hp, rfl⟩ := List.mem_map.1 hx
      exact (hpos.2 p hp).le
    have hnew : r ∉ prior := by
      intro hr
      exact (List.nodup_append.1 hnd).2.2 r hr r (by simp) rfl
    have ih := checkAllocations_succeeds pairs (prior ++ [r]) (total + a)
      ⟨hpos.2, by simpa using hnd⟩ (by omega) (by omega)
    have hr : checkedI128 (total + a) = some (total + a) :=
      checkedI128_eq_some.2 ⟨inI128_of_nonneg (by omega) (by omega), rfl⟩
    have ha : ¬ a ≤ 0 := by omega
    simp only [checkAllocations, rejectIf, ha, hnew, if_false, hr, okOr, ok_bind, ih]
    rw [add_assoc]

/-- Everything but the allocations and the lives is left by `storeAllocations`;
    the allocations stored are those of the list, from `index` on. -/
theorem storeAllocations_eq (env : Env) (id : UInt64) :
    ∀ (pairs : List (Address × ℤ)) (index : ℕ) (s : PoolStorage), ∃ live,
      storeAllocations env id index pairs s = { s with
        allocation := fun id' i =>
          if id' = id ∧ index ≤ i ∧ i < index + pairs.length then
            (pairs[i - index]?).map fun p => ⟨p.1, p.2, false⟩
          else s.allocation id' i
        live := live }
  | [], index, s => by
    refine ⟨s.live, ?_⟩
    have : ∀ i, ¬ (index ≤ i ∧ i < index) := by omega
    simp [storeAllocations, this]
  | (r, a) :: pairs, index, s => by
    obtain ⟨live, h⟩ := storeAllocations_eq env id pairs (index + 1)
      (setAllocation env id index ⟨r, a, false⟩ s)
    refine ⟨live, ?_⟩
    rw [storeAllocations, h]
    simp only [setAllocation, PoolStorage.extend, PoolStorage.mk.injEq, true_and, and_true]
    funext id' i
    by_cases hid : id' = id
    · subst hid
      rcases Nat.lt_trichotomy i index with hi | rfl | hi
      · have h₁ : ¬ index + 1 ≤ i := by omega
        have h₂ : ¬ index ≤ i := by omega
        have h₃ : i ≠ index := by omega
        simp [h₁, h₂, h₃]
      · have h₁ : ¬ i + 1 ≤ i := by omega
        simp [h₁]
      · obtain ⟨k, rfl⟩ : ∃ k, i = index + 1 + k := ⟨i - index - 1, by omega⟩
        have h₁ : index + 1 + k - index = k + 1 := by omega
        have h₂ : index + 1 + k - (index + 1) = k := by omega
        have h₃ : (index + 1 ≤ index + 1 + k ∧ index + 1 + k < index + 1 + pairs.length) ↔
          (index ≤ index + 1 + k ∧ index + 1 + k < index + ((r, a) :: pairs).length) := by
          simp only [List.length_cons]; omega
        have h₄ : index + 1 + k ≠ index := by omega
        simp only [true_and, h₁, h₂, h₃, List.getElem?_cons_succ, update_self, ne_eq, h₄,
          not_false_eq_true, update_of_ne]
    · simp [hid]

/-- The allocations of manifest `id` after its publication. -/
def stored (s : PoolStorage) (id : UInt64) (recipients : List Address) (amounts : List ℤ) :
    UInt64 → ℕ → Option Allocation := fun id' i =>
  if id' = id ∧ i < recipients.length then
    ((recipients.zip amounts)[i]?).map fun p => ⟨p.1, p.2, false⟩
  else s.allocation id' i

/-- A successful `publish_manifest`. -/
structure Publish (env : Env) (manifestId : UInt64) (manifestHash policyHash : BytesN32)
    (expiresAt : UInt64) (recipients : List Address) (amounts : List ℤ) (s : PoolStorage)
    (t : Tokens) (s' : PoolStorage) : Prop where
  running : s.paused.getD false = false
  governance : ∃ g, s.governance = some g ∧ env.authorized g = true
  eligibility : ∃ e, s.eligibilityAuthority = some e ∧ env.authorized e = true
  nonempty : 0 < recipients.length
  lengths : recipients.length = amounts.length
  bounded : recipients.length ≤ maxAllocations
  future : env.timestamp < expiresAt
  window : expiresAt - env.timestamp ≤ maxClaimWindow
  newId : s.manifest manifestId = none
  increasing : s.latest < manifestId
  positive : ∀ a ∈ amounts, 0 < a
  distinct : recipients.Nodup
  available : amounts.sum ≤ s.credited - s.paid - s.liability
  covered : ∃ token, s.token = some token ∧ s.credited - s.paid ≤ t.balance token env.self
  post : ∃ live, s' = { s with
    allocation := stored s manifestId recipients amounts
    manifest := update s.manifest manifestId (some
      { manifestHash
        policyHash
        totalAmount := amounts.sum
        remainingAmount := amounts.sum
        allocationCount := recipients.length
        expiresAt
        status := .active })
    totalLiability := some (s.liability + amounts.sum)
    latestManifestId := some manifestId
    live := live }

theorem publishManifest_ok {id : UInt64} {hash policy : BytesN32} {expiresAt : UInt64}
    {recipients : List Address} {amounts : List ℤ}
    (h : publishManifest env id hash policy expiresAt recipients amounts s t = .ok s') :
    Publish env id hash policy expiresAt recipients amounts s t s' := by
  simp only [publishManifest, currentGovernance, currentEligibilityAuthority, bind_eq_ok,
    init_eq_ok, rejectIf_eq_ok, requireAuth_eq_ok, okOr_eq_ok, availableBalance_eq_ok,
    storedTotalLiability_eq_ok, checkedI128_eq_some, exists_const, pure_eq, Except.ok.injEq] at h
  obtain ⟨_, ⟨hinit, rfl⟩, hrun, g, hg, e, he, hga, hea, hcount, hfut, hwin, hnew, hinc, total, htotal,
    _, ⟨-, -, -, ⟨token, htoken, hcov⟩, -, rfl⟩, havail, _, ⟨-, rfl⟩, _, ⟨-, rfl⟩, rfl⟩ := h
  have hlen : recipients.length = amounts.length := by omega
  obtain ⟨⟨hpos, hdist⟩, rfl⟩ := checkAllocations_ok List.nodup_nil htotal
  have hfst : (recipients.zip amounts).map Prod.fst = recipients := List.map_fst_zip hlen.le
  have hsnd : (recipients.zip amounts).map Prod.snd = amounts := List.map_snd_zip hlen.ge
  obtain ⟨live, hstore⟩ := storeAllocations_eq env id (recipients.zip amounts) 0
    (s.extend env .instance_)
  have hzip : (recipients.zip amounts).length = recipients.length := by simp [hlen]
  refine ⟨by simpa [paused, PoolStorage.extend] using hrun, ⟨g, hg, hga⟩, ⟨e, he, hea⟩, by omega, hlen,
    by omega, by simpa using hfut, by simpa using hwin, by simpa [PoolStorage.extend] using hnew,
    by simpa [PoolStorage.extend, PoolStorage.latest] using hinc, ?_, by simpa [hfst] using hdist,
    by simpa [hsnd] using havail, ⟨token, htoken, by simpa using hcov⟩, ?_⟩
  · rw [← hsnd]
    simpa only [List.mem_map, forall_exists_index, and_imp, forall_apply_eq_imp_iff₂] using hpos
  · rw [hstore]
    simp only [setManifest, PoolStorage.extend, hsnd, hzip, Nat.zero_le, true_and,
      Nat.sub_zero, zero_add]
    exact ⟨_, rfl⟩

/-- **When `publish_manifest` succeeds.** -/
theorem publishManifest_succeeds {id : UInt64} {hash policy : BytesN32} {expiresAt : UInt64}
    {recipients : List Address} {amounts : List ℤ} {g e : Address}
    (hrun : s.paused.getD false = false) (hg : s.governance = some g)
    (he : s.eligibilityAuthority = some e) (hga : env.authorized g = true)
    (hea : env.authorized e = true) (hne : recipients ≠ []) (hlen : recipients.length = amounts.length)
    (hmax : recipients.length ≤ maxAllocations) (hfut : env.timestamp < expiresAt)
    (hwin : expiresAt - env.timestamp ≤ maxClaimWindow) (hnew : s.manifest id = none)
    (hinc : s.latest < id) (hpos : ∀ a ∈ amounts, 0 < a) (hdist : recipients.Nodup)
    (havail : availableBalance env s t = .ok (s.credited - s.paid - s.liability))
    (hfits : amounts.sum ≤ s.credited - s.paid - s.liability) (hl : 0 ≤ s.liability)
    (hsum : s.liability + amounts.sum ≤ i128Max) :
    ∃ s', publishManifest env id hash policy expiresAt recipients amounts s t = .ok s' := by
  have hfst : (recipients.zip amounts).map Prod.fst = recipients := List.map_fst_zip hlen.le
  have hsnd : (recipients.zip amounts).map Prod.snd = amounts := List.map_snd_zip hlen.ge
  have h₀ : 0 ≤ amounts.sum := List.sum_nonneg fun a ha => (hpos a ha).le
  have hcheck : checkAllocations [] (recipients.zip amounts) 0 = .ok amounts.sum := by
    have := checkAllocations_succeeds (recipients.zip amounts) [] 0
      ⟨fun p hp => hpos _ (List.of_mem_zip hp).2, by simpa [hfst] using hdist⟩ le_rfl
      (by rw [hsnd]; omega)
    rwa [hsnd, zero_add] at this
  have hcount : ¬ (recipients.length = 0 ∨ recipients.length ≠ amounts.length ∨
      recipients.length > maxAllocations) := by
    have := List.length_pos_iff.2 hne
    omega
  simp only [publishManifest, currentGovernance, currentEligibilityAuthority, bind_eq_ok,
    init_eq_ok, rejectIf_eq_ok, requireAuth_eq_ok, okOr_eq_ok, storedTotalLiability_eq_ok,
    checkedI128_eq_some, exists_const, pure_eq, Except.ok.injEq]
  have hinit : s.governance.isSome := by rw [hg]; rfl
  have havail' : availableBalance env (s.extend env .instance_) t =
      .ok (s.credited - s.paid - s.liability) :=
    (availableBalance_eq_ok (s := s.extend env .instance_)).2
      ((availableBalance_eq_ok (s := s)).1 havail)
  exact ⟨_, _, ⟨hinit, rfl⟩, by simpa [paused] using hrun, g, hg, e, he, hga, hea, hcount,
    by simpa using hfut, by simpa using hwin, by simpa using hnew,
    by simpa [PoolStorage.extend, PoolStorage.latest] using hinc, _, hcheck, _,
    havail', by simpa using hfits, _, ⟨hinit, rfl⟩, _,
    ⟨inI128_of_nonneg (by simp; omega) hsum, rfl⟩, rfl⟩

/-! ### Claiming and expiry -/

/-- The manifest after a claim of `amount`. -/
def Manifest.afterClaim (m : Manifest) (amount : ℤ) : Manifest :=
  { m with
    remainingAmount := m.remainingAmount - amount
    status := if m.remainingAmount - amount = 0 then .completed else m.status }

/-- A successful `claim` of allocation `a` of manifest `m`. -/
structure Claim (env : Env) (manifestId : UInt64) (index : ℕ) (m : Manifest) (a : Allocation)
    (token : Address) (s : PoolStorage) (t : Tokens) (s' : PoolStorage) (t' : Tokens) : Prop where
  initialized : s.governance.isSome
  running : s.paused.getD false = false
  manifest : s.manifest manifestId = some m
  active : m.status = .active
  inTime : env.timestamp < m.expiresAt
  inRange : index < m.allocationCount
  allocation : s.allocation manifestId index = some a
  unclaimed : a.claimed = false
  recipient : env.authorized a.recipient = true
  paysIn : s.token = some token
  liability : a.amount ≤ s.liability
  covered : s.liability ≤ t.balance token env.self
  amount : 0 ≤ a.amount
  transfer : t.After [⟨token, env.self, a.recipient, a.amount⟩] t'
  post : ∃ live, s' = { s with
    allocation := update s.allocation manifestId
      (update (s.allocation manifestId) index (some { a with claimed := true }))
    manifest := update s.manifest manifestId (some (m.afterClaim a.amount))
    totalLiability := some (s.liability - a.amount)
    totalPaid := some (s.paid + a.amount)
    live := live }

theorem claim_ok {id : UInt64} {index : ℕ} (h : claim env id index s t = .ok (s', t')) :
    ∃ m a token, Claim env id index m a token s t s' t' := by
  simp only [claim, Pool.manifest, Pool.token, bind_eq_ok, init_eq_ok, rejectIf_eq_ok,
    requireAuth_eq_ok, okOr_eq_ok, storedTotalLiability_eq_ok, totalPaid_eq_ok, balance_eq_ok,
    checkedI128_eq_some, plainI128_eq_ok, exists_const, pure_eq, Except.ok.injEq, Prod.mk.injEq] at h
  obtain ⟨_, ⟨hg, rfl⟩, hrun, m, hm, hact, htime, hidx, a, ha, hun, hauth, _, ⟨-, rfl⟩, hl, _,
    ⟨token, htoken, rfl⟩, hcov, _, ⟨-, rfl⟩, _, ⟨-, rfl⟩, _, ⟨-, rfl⟩, _, ⟨-, rfl⟩, _, htoken', t₁,
    htr, rfl, rfl⟩ := h
  obtain rfl : token = _ := Option.some.inj (htoken.symm.trans htoken')
  obtain ⟨-, h₀, -, hafter⟩ := Tokens.transfer_eq_ok.1 htr
  exact ⟨m, a, token, hg, by simpa [paused] using hrun, hm, by simpa using hact, by simpa using htime,
    by simpa using hidx, ha, by simpa using hun, hauth, htoken, by simpa using hl, by simpa using hcov,
    h₀, hafter, _, rfl⟩

/-- **When `claim` succeeds.** -/
theorem claim_succeeds {id : UInt64} {index : ℕ} {m : Manifest} {a : Allocation} {token : Address}
    (hg : s.governance.isSome) (hrun : s.paused.getD false = false) (hm : s.manifest id = some m)
    (hact : m.status = .active) (htime : env.timestamp < m.expiresAt)
    (hidx : index < m.allocationCount) (ha : s.allocation id index = some a)
    (hun : a.claimed = false) (hauth : env.authorized a.recipient = true)
    (htoken : s.token = some token) (h₀ : 0 ≤ a.amount) (hl : a.amount ≤ s.liability)
    (hcov : s.liability ≤ t.balance token env.self)
    (hrem : InI128 (m.remainingAmount - a.amount)) (hpaid : InI128 (s.paid + a.amount)) :
    ∃ s' t', claim env id index s t = .ok (s', t') := by
  obtain ⟨t', htr, -⟩ := Tokens.transfer_succeeds (ε := PoolError) env t token env.self a.recipient
    (.inl rfl) h₀ (hl.trans hcov)
  have hnext : InI128 (s.liability - a.amount) :=
    inI128_of_nonneg (by omega) (by have := t.balance_le token env.self; omega)
  simp only [claim, Pool.manifest, Pool.token, bind_eq_ok, init_eq_ok, rejectIf_eq_ok,
    requireAuth_eq_ok, okOr_eq_ok, storedTotalLiability_eq_ok, totalPaid_eq_ok, balance_eq_ok,
    checkedI128_eq_some, plainI128_eq_ok, exists_const, pure_eq, Except.ok.injEq, Prod.mk.injEq]
  exact ⟨_, t', _, ⟨hg, rfl⟩, by simpa [paused] using hrun, m, hm, by simpa using hact,
    by simpa using htime, by simpa using hidx, a, ha, by simpa using hun, hauth, _, ⟨hg, rfl⟩,
    by simpa using hl, _, ⟨token, htoken, rfl⟩, by simpa using hcov, _, ⟨hrem, rfl⟩, _, ⟨hnext, rfl⟩, _,
    ⟨hg, rfl⟩, _, ⟨hpaid, rfl⟩, token, htoken, t', htr, rfl, rfl⟩

/-- A successful `expire_manifest` of manifest `m`. -/
structure Expire (env : Env) (manifestId : UInt64) (m : Manifest) (s s' : PoolStorage) : Prop where
  initialized : s.governance.isSome
  manifest : s.manifest manifestId = some m
  active : m.status = .active
  late : m.expiresAt ≤ env.timestamp
  liability : m.remainingAmount ≤ s.liability
  post : ∃ live, s' = { s with
    manifest := update s.manifest manifestId
      (some { m with remainingAmount := 0, status := .expired })
    totalLiability := some (s.liability - m.remainingAmount)
    live := live }

theorem expireManifest_ok {id : UInt64} (h : expireManifest env id s = .ok s') :
    ∃ m, Expire env id m s s' := by
  simp only [expireManifest, Pool.manifest, bind_eq_ok, init_eq_ok, rejectIf_eq_ok, okOr_eq_ok,
    storedTotalLiability_eq_ok, plainI128_eq_ok, exists_const, pure_eq, Except.ok.injEq] at h
  obtain ⟨_, ⟨hg, rfl⟩, m, hm, hact, hlate, _, ⟨-, rfl⟩, hl, _, ⟨-, rfl⟩, rfl⟩ := h
  exact ⟨m, hg, hm, by simpa using hact, by simpa using hlate, by simpa using hl, _, rfl⟩

/-! ### The calls that leave the books alone -/

/-- `s'` differs from `s` at most in the roles, the pause flag and the lives. -/
structure SameBooks (s s' : PoolStorage) : Prop where
  initialized : s'.governance.isSome = s.governance.isSome
  token : s'.token = s.token
  escrow : s'.escrow = s.escrow
  liability : s'.totalLiability = s.totalLiability
  credited : s'.totalCredited = s.totalCredited
  paid : s'.totalPaid = s.totalPaid
  latest : s'.latestManifestId = s.latestManifestId
  creditedCampaign : s'.creditedCampaign = s.creditedCampaign
  manifest : s'.manifest = s.manifest
  allocation : s'.allocation = s.allocation

theorem SameBooks.refl (s : PoolStorage) : SameBooks s s :=
  ⟨rfl, rfl, rfl, rfl, rfl, rfl, rfl, rfl, rfl, rfl⟩

theorem SameBooks.extend (s : PoolStorage) (env : Env) (e : PoolEntry) : SameBooks s (s.extend env e) :=
  ⟨rfl, rfl, rfl, rfl, rfl, rfl, rfl, rfl, rfl, rfl⟩

theorem SameBooks.trans {s₁ s₂ s₃ : PoolStorage} (h₁ : SameBooks s₁ s₂) (h₂ : SameBooks s₂ s₃) :
    SameBooks s₁ s₃ :=
  ⟨h₂.1.trans h₁.1, h₂.2.trans h₁.2, h₂.3.trans h₁.3, h₂.4.trans h₁.4, h₂.5.trans h₁.5,
    h₂.6.trans h₁.6, h₂.7.trans h₁.7, h₂.8.trans h₁.8, h₂.9.trans h₁.9, h₂.10.trans h₁.10⟩

theorem proposeRole_same {role : ℕ} {account : Address}
    (h : proposeRole env role account s = .ok s') : SameBooks s s' := by
  simp only [proposeRole, currentGovernance, bind_eq_ok, init_eq_ok, okOr_eq_ok, requireAuth_eq_ok,
    exists_const, pure_eq, Except.ok.injEq] at h
  obtain ⟨_, ⟨-, rfl⟩, _, -, -, rfl⟩ := h
  split <;> exact ⟨rfl, rfl, rfl, rfl, rfl, rfl, rfl, rfl, rfl, rfl⟩

theorem acceptRole_same {role : ℕ} (h : acceptRole env role s = .ok s') : SameBooks s s' := by
  simp only [acceptRole, bind_eq_ok, init_eq_ok, okOr_eq_ok, requireAuth_eq_ok, rejectIf_eq_ok,
    exists_const, pure_eq, Except.ok.injEq] at h
  obtain ⟨_, ⟨hg, rfl⟩, _, -, -, _, -, -, rfl⟩ := h
  split <;> exact ⟨by simp [hg], rfl, rfl, rfl, rfl, rfl, rfl, rfl, rfl, rfl⟩

theorem setPaused_same {b : Bool} (h : setPaused b env s = .ok s') : SameBooks s s' := by
  simp only [setPaused, currentGovernance, bind_eq_ok, init_eq_ok, okOr_eq_ok, requireAuth_eq_ok,
    exists_const, pure_eq, Except.ok.injEq] at h
  obtain ⟨_, ⟨-, rfl⟩, _, -, -, rfl⟩ := h
  exact ⟨rfl, rfl, rfl, rfl, rfl, rfl, rfl, rfl, rfl, rfl⟩

theorem extendAllocationTtls_same {id : UInt64} : ∀ {is : List ℕ} {s : PoolStorage},
    extendAllocationTtls env id is s = .ok s' → SameBooks s s'
  | [], s, h => by
    simp only [extendAllocationTtls, Except.ok.injEq] at h
    rw [← h]; exact .refl s
  | i :: is, s, h => by
    simp only [extendAllocationTtls, bind_eq_ok, rejectIf_eq_ok, exists_const] at h
    exact (SameBooks.extend s env _).trans (extendAllocationTtls_same h.2)

/-! ## All calls -/

/-- The calls that can change the books. -/
def PoolCall.isBooking : PoolCall → Bool
  | .initializePool .. | .recordCredit .. | .publishManifest .. | .claim .. | .expireManifest .. => true
  | _ => false

/-- What a successful call did, by the kind of call. -/
inductive Effect (env : Env) (s : PoolStorage) (t : Tokens) (s' : PoolStorage) (t' : Tokens) :
    PoolCall → Prop
  | initializePool {g e tok esc d salt} (h : Initialize env g e tok esc d salt s s') (ht : t' = t) :
      Effect env s t s' t' (.initializePool g e tok esc d salt)
  | recordCredit {id amount} (h : RecordCredit env id amount s t s') (ht : t' = t) :
      Effect env s t s' t' (.recordCredit id amount)
  | publishManifest {id hash policy expiresAt recipients amounts}
      (h : Publish env id hash policy expiresAt recipients amounts s t s') (ht : t' = t) :
      Effect env s t s' t' (.publishManifest id hash policy expiresAt recipients amounts)
  | claim {id index m a token} (h : Claim env id index m a token s t s' t') :
      Effect env s t s' t' (.claim id index)
  | expireManifest {id m} (h : Expire env id m s s') (ht : t' = t) :
      Effect env s t s' t' (.expireManifest id)
  | other {call} (hcall : call.isBooking = false) (h : SameBooks s s') (ht : t' = t) :
      Effect env s t s' t' call

/-- **What a successful call did.** -/
theorem PoolCall.effect {call : PoolCall} (h : call.exec env s t = .ok (s', t')) :
    Effect env s t s' t' call := by
  cases call
  case initializePool =>
    obtain ⟨hc, rfl⟩ := pair_eq_ok.1 h
    exact .initializePool (initializePool_ok hc) rfl
  case recordCredit =>
    obtain ⟨hc, rfl⟩ := pair_eq_ok.1 h
    exact .recordCredit (recordCredit_ok hc) rfl
  case publishManifest =>
    obtain ⟨hc, rfl⟩ := pair_eq_ok.1 h
    exact .publishManifest (publishManifest_ok hc) rfl
  case claim =>
    obtain ⟨m, a, token, h⟩ := claim_ok h
    exact .claim h
  case expireManifest =>
    obtain ⟨hc, rfl⟩ := pair_eq_ok.1 h
    obtain ⟨m, hm⟩ := expireManifest_ok hc
    exact .expireManifest hm rfl
  case proposeGovernance | proposeEligibilityAuthority =>
    obtain ⟨hc, rfl⟩ := pair_eq_ok.1 h
    exact .other rfl (proposeRole_same hc) rfl
  case acceptGovernance | acceptEligibilityAuthority =>
    obtain ⟨hc, rfl⟩ := pair_eq_ok.1 h
    exact .other rfl (acceptRole_same hc) rfl
  case pause | unpause =>
    obtain ⟨hc, rfl⟩ := pair_eq_ok.1 h
    exact .other rfl (setPaused_same hc) rfl
  case getManifest =>
    obtain ⟨⟨_, hc⟩, rfl⟩ := snd_pair_eq_ok.1 h
    simp only [Pool.getManifest, bind_eq_ok, pure_eq, Except.ok.injEq, Prod.mk.injEq] at hc
    obtain ⟨_, -, -, rfl⟩ := hc
    exact .other rfl (.extend s env _) rfl
  case getAllocation =>
    obtain ⟨⟨_, hc⟩, rfl⟩ := snd_pair_eq_ok.1 h
    simp only [Pool.getAllocation, bind_eq_ok, pure_eq, Except.ok.injEq, Prod.mk.injEq] at hc
    obtain ⟨_, -, -, rfl⟩ := hc
    exact .other rfl (.extend s env _) rfl
  case totalLiability =>
    obtain ⟨⟨_, hc⟩, rfl⟩ := snd_pair_eq_ok.1 h
    simp only [Pool.totalLiability, bind_eq_ok, init_eq_ok, pure_eq, Except.ok.injEq,
      Prod.mk.injEq] at hc
    obtain ⟨_, ⟨-, rfl⟩, _, -, -, rfl⟩ := hc
    exact .other rfl (.extend s env _) rfl
  case availableBalance =>
    simp only [exec, bind_eq_ok, pure_eq, Except.ok.injEq, Prod.mk.injEq] at h
    obtain ⟨_, -, rfl, rfl⟩ := h
    exact .other rfl (.extend s env _) rfl
  case isPaused =>
    simp only [exec, Except.ok.injEq, Prod.mk.injEq] at h
    obtain ⟨rfl, rfl⟩ := h
    exact .other rfl (.refl s) rfl
  case extendInstanceTtl =>
    obtain ⟨hc, rfl⟩ := pair_eq_ok.1 h
    obtain ⟨-, rfl⟩ := init_eq_ok.1 hc
    exact .other rfl (.extend s env _) rfl
  case extendManifestTtl =>
    obtain ⟨hc, rfl⟩ := pair_eq_ok.1 h
    simp only [Pool.extendManifestTtl, bind_eq_ok] at hc
    obtain ⟨_, -, hc⟩ := hc
    exact .other rfl ((SameBooks.extend s env _).trans (extendAllocationTtls_same hc)) rfl
  case governance | eligibilityAuthority | escrowContract | tokenContract =>
    simp only [exec, bind_eq_ok, pure_eq, Except.ok.injEq, Prod.mk.injEq] at h
    obtain ⟨_, -, rfl, rfl⟩ := h
    exact .other rfl (.refl s) rfl

end Pool

end TogetherFi
