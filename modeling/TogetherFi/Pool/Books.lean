/-
  The books of a pool: the stored totals agree with the manifests and their
  allocations.

  `ManifestBooks` is what holds of one manifest and its allocations, `Books` of
  the whole storage.  `Books.effect` shows that every successful call keeps
  them, whatever the environment and the tokens are: the invariant needs no
  assumption about balances.
-/
import TogetherFi.Lib.Table
import TogetherFi.Pool.Effect

namespace TogetherFi

open Function Finset

namespace Pool

/-! ## What manifests and allocations amount to -/

/-- What a manifest adds to `TotalLiability`. -/
def Manifest.owed (m : Manifest) : ℤ := if m.status = .active then m.remainingAmount else 0

namespace Allocation

/-- What is left to claim of an allocation. -/
def unclaimed (a : Allocation) : ℤ := if a.claimed then 0 else a.amount

/-- What was claimed of an allocation. -/
def paidOut (a : Allocation) : ℤ := if a.claimed then a.amount else 0

theorem unclaimed_add_paidOut (a : Allocation) : a.unclaimed + a.paidOut = a.amount := by
  unfold unclaimed paidOut; split <;> omega

end Allocation

/-- The total of `g` over the allocations of `m`. -/
def Manifest.sum (g : Allocation → ℤ) (m : Manifest) (alloc : ℕ → Option Allocation) : ℤ :=
  Table.partialTotal (range m.allocationCount) g alloc

/-- What was claimed of manifest `id`. -/
def PoolStorage.claimedOf (s : PoolStorage) (id : UInt64) : ℤ :=
  Table.weight (fun m => m.sum Allocation.paidOut (s.allocation id)) (s.manifest id)

/-! ## One manifest -/

/-- A manifest agrees with its allocations. -/
structure ManifestBooks (m : Manifest) (alloc : ℕ → Option Allocation) : Prop where
  present : ∀ i < m.allocationCount, ∃ a, alloc i = some a ∧ 0 < a.amount
  absent : ∀ i, m.allocationCount ≤ i → alloc i = none
  total : m.totalAmount = m.sum Allocation.amount alloc
  active : m.status = .active →
    m.remainingAmount = m.sum Allocation.unclaimed alloc ∧ 0 < m.remainingAmount
  completed : m.status = .completed →
    m.remainingAmount = 0 ∧ ∀ i < m.allocationCount, ∃ a, alloc i = some a ∧ a.claimed = true
  expired : m.status = .expired → m.remainingAmount = 0

namespace ManifestBooks

variable {m : Manifest} {alloc : ℕ → Option Allocation} {i : ℕ} {a : Allocation}

theorem index_lt (h : ManifestBooks m alloc) (ha : alloc i = some a) : i < m.allocationCount := by
  by_contra hi
  rw [h.absent i (by omega)] at ha; cases ha

theorem amount_pos (h : ManifestBooks m alloc) (ha : alloc i = some a) : 0 < a.amount := by
  obtain ⟨b, hb, hpos⟩ := h.present i (h.index_lt ha)
  rw [Option.some.inj (ha.symm.trans hb)]; exact hpos

theorem unclaimed_nonneg (h : ManifestBooks m alloc) (ha : alloc i = some a) : 0 ≤ a.unclaimed := by
  have := h.amount_pos ha
  unfold Allocation.unclaimed; split <;> omega

theorem paidOut_nonneg (h : ManifestBooks m alloc) (ha : alloc i = some a) : 0 ≤ a.paidOut := by
  have := h.amount_pos ha
  unfold Allocation.paidOut; split <;> omega

theorem owed_nonneg (h : ManifestBooks m alloc) : 0 ≤ m.owed := by
  unfold Manifest.owed
  split
  · rename_i hact
    exact (h.active hact).2.le
  · exact le_rfl

theorem sum_paidOut_nonneg (h : ManifestBooks m alloc) : 0 ≤ m.sum Allocation.paidOut alloc :=
  Table.partialTotal_nonneg fun _ _ _ ha => h.paidOut_nonneg ha

theorem sum_add_sum (h : ManifestBooks m alloc) :
    m.sum Allocation.unclaimed alloc + m.sum Allocation.paidOut alloc = m.totalAmount := by
  rw [h.total, Manifest.sum, Manifest.sum, Manifest.sum, Table.partialTotal, Table.partialTotal,
    Table.partialTotal, ← sum_add_distrib]
  refine sum_congr rfl fun i _ => ?_
  cases alloc i with
  | none => rfl
  | some a => exact a.unclaimed_add_paidOut

/-- An unclaimed allocation is part of what an active manifest still owes. -/
theorem amount_le_remaining (h : ManifestBooks m alloc) (hact : m.status = .active)
    (ha : alloc i = some a) (hun : a.claimed = false) : a.amount ≤ m.remainingAmount := by
  have hle := Table.weight_le_partialTotal (s := range m.allocationCount)
    (g := Allocation.unclaimed) (f := alloc) (fun _ _ _ hb => h.unclaimed_nonneg hb)
    (mem_range.2 (h.index_lt ha))
  rw [ha, Table.weight_some, Allocation.unclaimed, if_neg (by simp [hun])] at hle
  rw [(h.active hact).1]; exact hle

/-- The sums of an active manifest after one of its allocations is claimed. -/
theorem sum_claim (ha : alloc i = some a) (hi : i < m.allocationCount) (g : Allocation → ℤ) :
    m.sum g (update alloc i (some { a with claimed := true })) =
      m.sum g alloc - g a + g { a with claimed := true } := by
  rw [Manifest.sum, Table.partialTotal_update g alloc (mem_range.2 hi), ha]; rfl

/-- **A claim keeps the books of its manifest.** -/
theorem claim (h : ManifestBooks m alloc) (hact : m.status = .active) (ha : alloc i = some a)
    (hun : a.claimed = false) :
    ManifestBooks (m.afterClaim a.amount) (update alloc i (some { a with claimed := true })) := by
  obtain ⟨hrem, hpos⟩ := h.active hact
  have hi := h.index_lt ha
  have hpresent : ∀ j < m.allocationCount, ∃ b,
      update alloc i (some { a with claimed := true }) j = some b ∧ 0 < b.amount := by
    intro j hj
    by_cases hji : j = i
    · rw [hji]; exact ⟨_, update_self .., (h.amount_pos ha :)⟩
    · rw [update_of_ne hji]; exact h.present j hj
  have hsum : m.sum Allocation.unclaimed (update alloc i (some { a with claimed := true })) =
      m.remainingAmount - a.amount := by
    rw [sum_claim ha hi, hrem]; simp [Allocation.unclaimed, hun]
  have hnonneg : ∀ j ∈ range m.allocationCount, ∀ b,
      update alloc i (some { a with claimed := true }) j = some b → 0 ≤ b.unclaimed := by
    intro j hj b hb
    obtain ⟨b', hb', hpos⟩ := hpresent j (mem_range.1 hj)
    obtain rfl := Option.some.inj (hb.symm.trans hb')
    unfold Allocation.unclaimed; split <;> omega
  refine ⟨hpresent, fun j hj => ?_, ?_, fun hst => ?_, fun hst => ?_, fun hst => ?_⟩
  · rw [update_of_ne (show j ≠ i by simp [Manifest.afterClaim] at hj; omega)]
    exact h.absent j hj
  · exact h.total.trans (by simp [Manifest.afterClaim, Manifest.sum,
      Table.partialTotal_update Allocation.amount alloc (mem_range.2 hi), ha])
  · have hne : m.remainingAmount - a.amount ≠ 0 := by
      intro h0; simp [Manifest.afterClaim, h0] at hst
    refine ⟨hsum.symm, ?_⟩
    have := Table.partialTotal_nonneg hnonneg
    rw [← Manifest.sum, hsum] at this
    simp only [Manifest.afterClaim]; omega
  · have h0 : m.remainingAmount - a.amount = 0 := by
      by_contra h0; simp [Manifest.afterClaim, h0, hact] at hst
    refine ⟨h0, fun j hj => ?_⟩
    -- nothing remains, so no positive amount is unclaimed
    obtain ⟨b, hb, hbpos⟩ := hpresent j hj
    refine ⟨b, hb, ?_⟩
    have hle := Table.weight_le_partialTotal hnonneg (mem_range.2 hj)
    rw [← Manifest.sum, hsum, h0, hb, Table.weight_some, Allocation.unclaimed] at hle
    by_contra hc
    rw [if_neg (by simpa using hc)] at hle; omega
  · exfalso
    simp only [Manifest.afterClaim] at hst
    split at hst <;> simp_all

end ManifestBooks

/-! ## The whole storage -/

/-- The books of a pool. -/
structure Books (s : PoolStorage) : Prop where
  fresh : s.governance = none → ∃ live, SameBooks (.empty live) s
  liability : s.liability = Table.total Manifest.owed s.manifest
  paid : s.paid = ∑ id, s.claimedOf id
  manifest : ∀ id m, s.manifest id = some m → ManifestBooks m (s.allocation id) ∧ id ≤ s.latest
  unpublished : ∀ id, s.manifest id = none → ∀ i, s.allocation id i = none
  covered : s.paid + s.liability ≤ s.credited
  credited : s.credited ≤ i128Max

namespace Books

variable {s s' : PoolStorage}

theorem liability_nonneg (h : Books s) : 0 ≤ s.liability := by
  rw [h.liability]
  exact Table.total_nonneg fun id m hm => (h.manifest id m hm).1.owed_nonneg

theorem claimedOf_nonneg (h : Books s) (id : UInt64) : 0 ≤ s.claimedOf id := by
  unfold PoolStorage.claimedOf
  cases hm : s.manifest id with
  | none => simp
  | some m => exact (h.manifest id m hm).1.sum_paidOut_nonneg

theorem paid_nonneg (h : Books s) : 0 ≤ s.paid := by
  rw [h.paid]
  exact sum_nonneg fun id _ => h.claimedOf_nonneg id

theorem remaining_le (h : Books s) {id : UInt64} {m : Manifest} (hm : s.manifest id = some m)
    (hact : m.status = .active) : m.remainingAmount ≤ s.liability := by
  have hle := Table.weight_le_total (g := Manifest.owed) (f := s.manifest)
    (fun id m hm => (h.manifest id m hm).1.owed_nonneg) id
  rw [hm, Table.weight_some, Manifest.owed, if_pos hact] at hle
  rw [h.liability]; exact hle

theorem empty (live : PoolEntry → ℕ) : Books (.empty live) := by
  refine ⟨fun _ => ⟨live, .refl _⟩, ?_, ?_, fun id m hm => (by cases hm), fun _ _ _ => rfl, ?_, ?_⟩
  · exact (Table.total_empty Manifest.owed).symm
  · exact (sum_eq_zero fun _ _ => rfl).symm
  · exact (by decide : (0 : ℤ) + 0 ≤ 0)
  · exact (by decide : (0 : ℤ) ≤ i128Max)

theorem same (h : Books s) (hs : SameBooks s s') : Books s' := by
  have hl : s'.liability = s.liability := by simp [PoolStorage.liability, hs.liability]
  have hp : s'.paid = s.paid := by simp [PoolStorage.paid, hs.paid]
  have hc : s'.credited = s.credited := by simp [PoolStorage.credited, hs.credited]
  have hn : s'.latest = s.latest := by simp [PoolStorage.latest, hs.latest]
  have hof : s'.claimedOf = s.claimedOf := by
    funext id; simp [PoolStorage.claimedOf, hs.manifest, hs.allocation]
  refine ⟨fun hg => ?_, ?_, ?_, ?_, ?_, ?_, ?_⟩
  · obtain ⟨live, he⟩ := h.fresh (by simpa [hg] using hs.initialized.symm)
    exact ⟨live, he.trans hs⟩
  · rw [hl, hs.manifest, h.liability]
  · rw [hp, hof, h.paid]
  · rw [hs.manifest, hs.allocation, hn]; exact h.manifest
  · rw [hs.manifest, hs.allocation]; exact h.unpublished
  · rw [hp, hl, hc]; exact h.covered
  · rw [hc]; exact h.credited

theorem sums_update {id : UInt64} {m : Manifest} {alloc : UInt64 → ℕ → Option Allocation}
    (hmanifest : s'.manifest = update s.manifest id (some m)) (halloc : s'.allocation = alloc)
    (hother : ∀ id' ≠ id, alloc id' = s.allocation id') :
    Table.total Manifest.owed s'.manifest = Table.total Manifest.owed s.manifest -
      Table.weight Manifest.owed (s.manifest id) + m.owed ∧
    ∑ i, s'.claimedOf i = ∑ i, s.claimedOf i - s.claimedOf id +
      m.sum Allocation.paidOut (alloc id) := by
  constructor
  · rw [hmanifest, Table.total_update, Table.weight_some]
  · have hof : s'.claimedOf = update s.claimedOf id (m.sum Allocation.paidOut (alloc id)) := by
      funext id'
      by_cases hid : id' = id
      · subst hid; simp [PoolStorage.claimedOf, hmanifest, halloc]
      · simp [PoolStorage.claimedOf, hmanifest, halloc, hid, hother id' hid]
    rw [hof, sum_update_of_mem (mem_univ id),
      sum_eq_add_sum_sdiff_singleton_of_mem (mem_univ id) s.claimedOf]
    omega

variable {env : Env} {t : Tokens}

theorem initializePool {g e tok esc d : Address} {salt : BytesN32} (h : Books s)
    (hc : Initialize env g e tok esc d salt s s') : Books s' := by
  obtain ⟨live₀, he⟩ := h.fresh hc.fresh
  obtain ⟨live, rfl⟩ := hc.post
  have hm : s.manifest = fun _ => none := he.manifest
  have ha : s.allocation = fun _ _ => none := he.allocation
  refine ⟨fun hg => (by cases hg), ?_, ?_, ?_, ?_, ?_, ?_⟩
  · simp [hm, PoolStorage.liability]
  · simp [PoolStorage.claimedOf, hm, PoolStorage.paid]
  · simp [hm]
  · simp [ha]
  · exact (by decide : (0 : ℤ) + 0 ≤ 0)
  · exact (by decide : (0 : ℤ) ≤ i128Max)

theorem recordCredit {id : UInt64} {amount : ℤ} (h : Books s)
    (hc : RecordCredit env id amount s t s') : Books s' := by
  have hcov := h.covered
  have hpos := hc.positive
  have hr := hc.inRange.2
  have hg := hc.initialized
  obtain ⟨live, rfl⟩ := hc.post
  refine ⟨fun hn => ?_, h.liability, h.paid, h.manifest, h.unpublished, ?_, hr⟩
  · rw [hn] at hg; cases hg
  · change s.paid + s.liability ≤ s.credited + amount
    omega

theorem sum_stored (g : Allocation → ℤ) (k : ℤ → ℤ) (hk : ∀ r a, g ⟨r, a, false⟩ = k a)
    {m : Manifest} {recipients : List Address} {amounts : List ℤ} {id : UInt64}
    (hm : m.allocationCount = recipients.length) (hlen : recipients.length = amounts.length) :
    m.sum g (stored s id recipients amounts id) = (amounts.map k).sum := by
  have hzip : (recipients.zip amounts).length = recipients.length := by simp [hlen]
  calc m.sum g (stored s id recipients amounts id)
      = Table.partialTotal (range recipients.length) g fun i =>
          ((recipients.zip amounts).map fun p => (⟨p.1, p.2, false⟩ : Allocation))[i]? := by
        rw [Manifest.sum, hm]
        refine Table.partialTotal_congr fun i hi => ?_
        rw [stored, if_pos ⟨rfl, mem_range.1 hi⟩, List.getElem?_map]
    _ = ((recipients.zip amounts).map fun p => k p.2).sum := by
        have := Table.partialTotal_list g
          ((recipients.zip amounts).map fun p => (⟨p.1, p.2, false⟩ : Allocation))
        rw [List.length_map, hzip] at this
        rw [this, List.map_map]
        exact congrArg List.sum (List.map_congr_left fun p _ => hk p.1 p.2)
    _ = (amounts.map k).sum := by
        rw [show (fun p : Address × ℤ => k p.2) = k ∘ Prod.snd from rfl, ← List.map_map,
          List.map_snd_zip hlen.ge]

theorem publish {id : UInt64} {hash policy : BytesN32} {expiresAt : UInt64}
    {recipients : List Address} {amounts : List ℤ} (h : Books s)
    (hc : Publish env id hash policy expiresAt recipients amounts s t s') : Books s' := by
  obtain ⟨g, hg, -⟩ := hc.governance
  have hnew := hc.newId
  have havail := hc.available
  have hinc : s.latest.toNat < id.toNat := UInt64.lt_iff_toNat_lt.1 hc.increasing
  obtain ⟨live, hs'⟩ := hc.post
  set m : Manifest :=
    { manifestHash := hash
      policyHash := policy
      totalAmount := amounts.sum
      remainingAmount := amounts.sum
      allocationCount := recipients.length
      expiresAt := expiresAt
      status := .active } with hm
  have hsum : ∀ g k, (∀ r a, g ⟨r, a, false⟩ = k a) →
      m.sum g (stored s id recipients amounts id) = (amounts.map k).sum :=
    fun g k hk => sum_stored g k hk rfl hc.lengths
  have hunclaimed := hsum Allocation.unclaimed (fun a => a) fun _ _ => rfl
  have hpaid := hsum Allocation.paidOut (fun _ => 0) fun _ _ => rfl
  have htotal := hsum Allocation.amount (fun a => a) fun _ _ => rfl
  have hpos : 0 < amounts.sum :=
    List.sum_pos amounts hc.positive (List.ne_nil_of_length_pos (hc.lengths ▸ hc.nonempty))
  have hother : ∀ id' ≠ id, stored s id recipients amounts id' = s.allocation id' := by
    intro id' hid; funext i; simp [stored, hid]
  obtain ⟨howed, hclaimed⟩ := sums_update
    (show s'.manifest = update s.manifest id (some m) by rw [hs']) rfl (by rw [hs']; exact hother)
  have hof : s.claimedOf id = 0 := by simp [PoolStorage.claimedOf, hnew]
  have hbooks : ManifestBooks m (stored s id recipients amounts id) := by
    refine ⟨fun i hi => ?_, fun i hi => ?_, ?_, fun _ => ⟨?_, hpos⟩, by simp [hm], by simp [hm]⟩
    · have hi' : i < (recipients.zip amounts).length := by simpa [← hc.lengths] using hi
      refine ⟨⟨(recipients.zip amounts)[i].1, (recipients.zip amounts)[i].2, false⟩, ?_, ?_⟩
      · rw [stored, if_pos ⟨rfl, hi⟩, List.getElem?_eq_getElem hi']; rfl
      · exact hc.positive _ (List.of_mem_zip (List.getElem_mem hi')).2
    · have hi' : ¬ i < recipients.length := by simpa [hm] using hi
      rw [stored, if_neg (by simp [hi'])]
      exact h.unpublished id hnew i
    · simpa using htotal.symm
    · simpa using hunclaimed.symm
  subst hs'
  refine ⟨fun hn => ?_, ?_, ?_, fun id' m' hm' => ?_, fun id' hm' i => ?_, ?_, h.credited⟩
  · rw [show s.governance = none from hn] at hg; cases hg
  · rw [howed, hnew, Table.weight_none, ← h.liability]
    simp [PoolStorage.liability, Manifest.owed, hm]
  · rw [hclaimed, hof, ← h.paid]
    simpa [PoolStorage.paid] using hpaid
  · by_cases hid : id' = id
    · subst hid
      obtain rfl : m = m' := by simpa using hm'
      exact ⟨hbooks, UInt64.le_refl _⟩
    · have hm' : s.manifest id' = some m' := by simpa [hid] using hm'
      obtain ⟨hb, hle⟩ := h.manifest id' m' hm'
      refine ⟨by simpa only [hother id' hid] using hb, ?_⟩
      change id' ≤ id
      rw [UInt64.le_iff_toNat_le] at hle ⊢
      omega
  · by_cases hid : id' = id
    · subst hid; simp at hm'
    · simp only [hother id' hid]
      exact h.unpublished id' (by simpa [hid] using hm') i
  · change s.paid + (s.liability + amounts.sum) ≤ s.credited
    omega

theorem claim {id : UInt64} {index : ℕ} {m : Manifest} {a : Allocation} {token : Address}
    {t' : Tokens} (h : Books s) (hc : Claim env id index m a token s t s' t') : Books s' := by
  have hm := hc.manifest
  have ha := hc.allocation
  obtain ⟨hb, hle⟩ := h.manifest id m hm
  have hg := hc.initialized
  have hcov := h.covered
  have hi := hb.index_lt ha
  obtain ⟨live, hs'⟩ := hc.post
  have hother : ∀ id' ≠ id, update s.allocation id
      (update (s.allocation id) index (some { a with claimed := true })) id' = s.allocation id' :=
    fun id' hid => update_of_ne hid ..
  obtain ⟨howed, hclaimed⟩ := sums_update
    (show s'.manifest = update s.manifest id (some (m.afterClaim a.amount)) by rw [hs']) rfl
    (by rw [hs']; exact hother)
  have hof : s.claimedOf id = m.sum Allocation.paidOut (s.allocation id) := by
    simp [PoolStorage.claimedOf, hm]
  have hpaid : (m.afterClaim a.amount).sum Allocation.paidOut
      (update (s.allocation id) index (some { a with claimed := true })) =
      m.sum Allocation.paidOut (s.allocation id) + a.amount := by
    rw [show (m.afterClaim a.amount).sum Allocation.paidOut = m.sum Allocation.paidOut from rfl,
      ManifestBooks.sum_claim ha hi]
    simp [Allocation.paidOut, hc.unclaimed]
  have howed' : (m.afterClaim a.amount).owed = m.remainingAmount - a.amount := by
    simp only [Manifest.owed, Manifest.afterClaim, hc.active]
    split_ifs <;> simp_all
  subst hs'
  refine ⟨fun hn => ?_, ?_, ?_, fun id' m' hm' => ?_, fun id' hm' i => ?_, ?_, h.credited⟩
  · rw [show s.governance = none from hn] at hg; cases hg
  · rw [howed, hm, Table.weight_some, ← h.liability, howed', Manifest.owed, if_pos hc.active]
    change s.liability - a.amount = _
    omega
  · rw [hclaimed, hof, ← h.paid]
    simp only [update_self, hpaid]
    change s.paid + a.amount = _
    omega
  · by_cases hid : id' = id
    · subst hid
      obtain rfl : m.afterClaim a.amount = m' := by simpa using hm'
      exact ⟨by simpa using hb.claim hc.active ha hc.unclaimed, hle⟩
    · have hm' : s.manifest id' = some m' := by simpa [hid] using hm'
      obtain ⟨hb', hle'⟩ := h.manifest id' m' hm'
      exact ⟨by simpa only [hother id' hid] using hb', hle'⟩
  · by_cases hid : id' = id
    · subst hid; simp at hm'
    · simp only [hother id' hid]
      exact h.unpublished id' (by simpa [hid] using hm') i
  · change s.paid + a.amount + (s.liability - a.amount) ≤ s.credited
    omega

theorem expire {id : UInt64} {m : Manifest} (h : Books s) (hc : Expire env id m s s') : Books s' := by
  have hm := hc.manifest
  obtain ⟨hb, hle⟩ := h.manifest id m hm
  have hg := hc.initialized
  have hcov := h.covered
  have hpos := (hb.active hc.active).2
  obtain ⟨live, hs'⟩ := hc.post
  obtain ⟨howed, hclaimed⟩ := sums_update
    (show s'.manifest = update s.manifest id
      (some { m with remainingAmount := 0, status := .expired }) by rw [hs']) rfl (by rw [hs']; simp)
  have hof : s.claimedOf id = m.sum Allocation.paidOut (s.allocation id) := by
    simp [PoolStorage.claimedOf, hm]
  subst hs'
  refine ⟨fun hn => ?_, ?_, ?_, fun id' m' hm' => ?_, fun id' hm' i => ?_, ?_, h.credited⟩
  · rw [show s.governance = none from hn] at hg; cases hg
  · rw [howed, hm, Table.weight_some, ← h.liability, Manifest.owed, Manifest.owed, if_pos hc.active]
    simp [PoolStorage.liability]
  · rw [hclaimed, hof, ← h.paid]
    change s.paid = s.paid - m.sum Allocation.paidOut (s.allocation id) +
      m.sum Allocation.paidOut (s.allocation id)
    omega
  · by_cases hid : id' = id
    · subst hid
      obtain rfl : { m with remainingAmount := 0, status := .expired } = m' := by simpa using hm'
      exact ⟨⟨hb.present, hb.absent, hb.total, by simp, by simp, fun _ => rfl⟩, hle⟩
    · exact h.manifest id' m' (by simpa [hid] using hm')
  · by_cases hid : id' = id
    · subst hid; simp at hm'
    · exact h.unpublished id' (by simpa [hid] using hm') i
  · change s.paid + (s.liability - m.remainingAmount) ≤ s.credited
    omega

/-- **Every successful call keeps the books.** -/
theorem effect {t' : Tokens} {call : PoolCall} (h : Books s)
    (hc : Effect env s t s' t' call) : Books s' := by
  cases hc with
  | initializePool hc _ => exact h.initializePool hc
  | recordCredit hc _ => exact h.recordCredit hc
  | publishManifest hc _ => exact h.publish hc
  | claim hc => exact h.claim hc
  | expireManifest hc _ => exact h.expire hc
  | other _ hc _ => exact h.same hc

/-! ## What the books let succeed -/

variable {t : Tokens} {token : Address}

theorem availableBalance_eq (h : Books s) (hg : s.governance.isSome)
    (hcov : ∃ token, s.token = some token ∧ s.credited - s.paid ≤ t.balance token env.self) :
    availableBalance env s t = .ok (s.credited - s.paid - s.liability) := by
  have hl := h.liability_nonneg
  have hp := h.paid_nonneg
  have hle := h.covered
  have hmax := h.credited
  exact availableBalance_eq_ok.2 ⟨hg, inI128_of_nonneg (by omega) (by omega), by omega, hcov,
    inI128_of_nonneg (by omega) (by omega), rfl⟩

/-- **An open allocation can be claimed** in a pool that covers its liability. -/
theorem claimable (h : Books s) {id : UInt64} {i : ℕ} {m : Manifest} {a : Allocation}
    (htoken : s.token = some token) (hcov : s.liability ≤ t.balance token env.self)
    (hm : s.manifest id = some m) (hact : m.status = .active) (ha : s.allocation id i = some a)
    (hun : a.claimed = false) (hrun : s.paused.getD false = false)
    (htime : env.timestamp < m.expiresAt) (hauth : env.authorized a.recipient = true) :
    ∃ s' t', Pool.claim env id i s t = .ok (s', t') ∧ Claim env id i m a token s t s' t' := by
  have hg : s.governance.isSome := by
    cases hg : s.governance with
    | none =>
      obtain ⟨_, hs⟩ := h.fresh hg
      rw [hs.manifest] at hm; cases hm
    | some g => rfl
  have hmb := (h.manifest id m hm).1
  have hpos := hmb.amount_pos ha
  have hrem := hmb.amount_le_remaining hact ha hun
  have hliab := h.remaining_le hm hact
  have hpaid := h.paid_nonneg
  have hle := h.covered
  have hmax := h.credited
  obtain ⟨s', t', hc⟩ := Pool.claim_succeeds (t := t) hg hrun hm hact htime
    (hmb.index_lt ha) ha hun hauth htoken hpos.le (by omega) hcov
    (inI128_of_nonneg (by omega) (by omega)) (inI128_of_nonneg (by omega) (by omega))
  obtain ⟨m', a', token', hclaim⟩ := claim_ok hc
  obtain rfl := Option.some.inj (hm.symm.trans hclaim.manifest)
  obtain rfl := Option.some.inj (ha.symm.trans hclaim.allocation)
  obtain rfl := Option.some.inj (htoken.symm.trans hclaim.paysIn)
  exact ⟨s', t', hc, hclaim⟩

end Books

end Pool

end TogetherFi
