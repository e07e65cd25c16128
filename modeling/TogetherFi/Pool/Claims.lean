/-
  Claims in any order.

  `PoolStorage.claimedAt` is what a claim makes of the storage, as a total
  function: two of them commute on every storage, whatever they claim.  In a
  pool whose books are in order and that covers its liability, a claim that is
  open succeeds and leaves exactly that (`Books.claim_open`), and every other
  open claim stays open (`Claimable.after`).
-/
import TogetherFi.Pool.Manifests

namespace TogetherFi

open Outcome Function

namespace Pool

/-! ## What a claim makes of the storage -/

/-- The allocation once it is claimed. -/
def Allocation.claim (a : Allocation) : Allocation := { a with claimed := true }

/-- An active manifest after a claim of `amount`. -/
def Manifest.claim (amount : ℤ) (m : Manifest) : Manifest :=
  { m with
    remainingAmount := m.remainingAmount - amount
    status := if m.remainingAmount - amount = 0 then .completed else .active }

namespace PoolStorage

/-- The amount of an allocation, or 0 where there is none. -/
def amountAt (s : PoolStorage) (e : UInt64 × ℕ) : ℤ :=
  Table.weight Allocation.amount (s.allocation e.1 e.2)

/-- The storage after `amount` is claimed for `e` at the ledger `sequence`. -/
def claimFor (sequence : ℕ) (e : UInt64 × ℕ) (amount : ℤ) (s : PoolStorage) : PoolStorage :=
  { s with
    allocation := fun id i => if (id, i) = e then (s.allocation id i).map .claim else s.allocation id i
    manifest := fun id => if id = e.1 then (s.manifest id).map (.claim amount) else s.manifest id
    totalLiability := some (s.liability - amount)
    totalPaid := some (s.paid + amount)
    live := extendAll sequence [.instance_, .allocation e.1 e.2, .manifest e.1] s.live }

/-- The storage after the claim of `e`. -/
def claimedAt (sequence : ℕ) (s : PoolStorage) (e : UInt64 × ℕ) : PoolStorage :=
  s.claimFor sequence e (s.amountAt e)

variable (sequence : ℕ) (s : PoolStorage) (e e' : UInt64 × ℕ)

@[simp] theorem claimedAt_liability :
    (s.claimedAt sequence e).liability = s.liability - s.amountAt e := rfl

theorem claimedAt_allocation (id : UInt64) (i : ℕ) : (s.claimedAt sequence e).allocation id i =
    if (id, i) = e then (s.allocation id i).map .claim else s.allocation id i := rfl

theorem claimedAt_manifest (id : UInt64) : (s.claimedAt sequence e).manifest id =
    if id = e.1 then (s.manifest id).map (.claim (s.amountAt e)) else s.manifest id := rfl

@[simp] theorem claimedAt_amountAt : (s.claimedAt sequence e).amountAt e' = s.amountAt e' := by
  unfold amountAt
  rw [claimedAt_allocation]
  split
  · cases s.allocation e'.1 e'.2 <;> rfl
  · rfl

theorem claimFor_comm (a a' : ℤ) : (s.claimFor sequence e a).claimFor sequence e' a' =
    (s.claimFor sequence e' a').claimFor sequence e a := by
  simp only [claimFor, liability, paid, Option.getD_some, PoolStorage.mk.injEq, true_and,
    Option.some.injEq]
  refine ⟨by omega, by omega, ?_, ?_, extendAll_comm ..⟩
  · funext id
    split_ifs
    · cases s.manifest id with
      | none => rfl
      | some m =>
        have h : m.remainingAmount - a - a' = m.remainingAmount - a' - a := by omega
        simp only [Option.map_some, Manifest.claim, h]
    all_goals rfl
  · funext id i
    split_ifs <;> rfl

/-- **Any two claims commute.** -/
theorem claimedAt_comm :
    (s.claimedAt sequence e).claimedAt sequence e' = (s.claimedAt sequence e').claimedAt sequence e := by
  calc (s.claimedAt sequence e).claimedAt sequence e'
      = (s.claimFor sequence e (s.amountAt e)).claimFor sequence e' (s.amountAt e') :=
        congrArg (claimFor sequence e' · _) (s.claimedAt_amountAt sequence e e')
    _ = (s.claimFor sequence e' (s.amountAt e')).claimFor sequence e (s.amountAt e) :=
        s.claimFor_comm sequence e e' _ _
    _ = (s.claimedAt sequence e').claimedAt sequence e :=
        congrArg (claimFor sequence e · _) (s.claimedAt_amountAt sequence e' e).symm

end PoolStorage

variable {env : Env} {s s' : PoolStorage} {t t' : Tokens} {id : UInt64} {i : ℕ}

theorem claim_live (h : claim env id i s t = .ok (s', t')) :
    s'.live = [.instance_, .allocation id i, .manifest id].foldl (extendTtl env) s.live := by
  simp only [claim, Pool.manifest, Pool.token, bind_eq_ok, init_eq_ok, rejectIf_eq_ok,
    requireAuth_eq_ok, okOr_eq_ok, storedTotalLiability_eq_ok, totalPaid_eq_ok, balance_eq_ok,
    checkedI128_eq_some, plainI128_eq_ok, exists_const, pure_eq, Except.ok.injEq, Prod.mk.injEq] at h
  obtain ⟨_, ⟨-, rfl⟩, -, m, -, -, -, -, a, -, -, -, _, ⟨-, rfl⟩, -, _, -, -, _, ⟨-, rfl⟩, _, ⟨-, rfl⟩, _,
    ⟨-, rfl⟩, _, ⟨-, rfl⟩, _, -, _, -, rfl, -⟩ := h
  rfl

/-- **What a successful claim leaves.** -/
theorem claim_post (h : claim env id i s t = .ok (s', t')) :
    s' = s.claimedAt env.sequence (id, i) := by
  have hlive := claim_live h
  obtain ⟨m, a, token, hc⟩ := claim_ok h
  have hm := hc.manifest
  have ha := hc.allocation
  have hact := hc.active
  have hamount : s.amountAt (id, i) = a.amount := by rw [PoolStorage.amountAt, ha]; rfl
  obtain ⟨live, rfl⟩ := hc.post
  simp only at hlive
  simp only [PoolStorage.claimedAt, PoolStorage.claimFor, hamount, hlive, PoolStorage.mk.injEq,
    true_and]
  refine ⟨?_, ?_, foldl_extendTtl env [_, _, _] s.live⟩
  · funext id'
    by_cases hid : id' = id
    · subst hid
      simp [hm, Manifest.afterClaim, Manifest.claim, hact]
    · simp [hid]
  · funext id' j
    by_cases hid : id' = id
    · subst hid
      by_cases hj : j = i
      · subst hj; simp [ha, Allocation.claim]
      · simp [hj]
    · simp [hid]

/-! ## Open claims -/

/-- `e` names an unclaimed allocation of an active manifest that has not expired
    at `now`, and its recipient authorizes. -/
def PoolStorage.Claimable (now : UInt64) (authorized : Address → Bool) (s : PoolStorage)
    (e : UInt64 × ℕ) : Prop :=
  ∃ m a, s.manifest e.1 = some m ∧ m.status = .active ∧ now < m.expiresAt ∧
    s.allocation e.1 e.2 = some a ∧ a.claimed = false ∧ authorized a.recipient = true

/-- The transfer that pays the allocation `e`. -/
def PoolStorage.payment (token pool : Address) (s : PoolStorage) (e : UInt64 × ℕ) : Transfer :=
  ⟨token, pool, (s.allocation e.1 e.2).elim pool Allocation.recipient, s.amountAt e⟩

/-- **An open claim succeeds** in a pool that covers its liability. -/
theorem Books.claim_open (h : Books s) {token : Address} {e : UInt64 × ℕ}
    (hrun : s.paused.getD false = false) (htoken : s.token = some token)
    (hcov : s.liability ≤ t.balance token env.self)
    (he : s.Claimable env.timestamp env.authorized e) :
    ∃ t', Pool.claim env e.1 e.2 s t = .ok (s.claimedAt env.sequence e, t') ∧
      t.After [s.payment token env.self e] t' ∧ Books (s.claimedAt env.sequence e) ∧
      (s.claimedAt env.sequence e).liability ≤ t'.balance token env.self := by
  obtain ⟨m, a, hm, hact, htime, ha, hun, hauth⟩ := he
  have hpos := (h.manifest e.1 m hm).1.amount_pos ha
  obtain ⟨s', t', hc, hclaim⟩ := h.claimable htoken hcov hm hact ha hun hrun htime hauth
  obtain rfl := claim_post hc
  have hamount : s.amountAt e = a.amount := by rw [PoolStorage.amountAt, ha]; rfl
  have htr : t.After [s.payment token env.self e] t' := by
    rw [PoolStorage.payment, hamount, ha]; exact hclaim.transfer
  refine ⟨t', hc, htr, h.claim hclaim, ?_⟩
  have hge := htr.balance_ge (by simp [PoolStorage.payment, hamount, hpos.le]) token env.self
  simp only [PoolStorage.payment, sent_cons, sent_nil, and_self, if_true] at hge
  rw [PoolStorage.claimedAt_liability]
  omega

/-- **What is open stays open** when something else is claimed. -/
theorem PoolStorage.Claimable.after {now : UInt64} {authorized : Address → Bool} {sequence : ℕ}
    {e e' : UInt64 × ℕ} (he : s.Claimable now authorized e)
    (hbooks : Books (s.claimedAt sequence e')) (hne : e ≠ e') :
    (s.claimedAt sequence e').Claimable now authorized e := by
  obtain ⟨m, a, hm, hact, htime, ha, hun, hauth⟩ := he
  have ha' : (s.claimedAt sequence e').allocation e.1 e.2 = some a := by
    rw [PoolStorage.claimedAt_allocation, if_neg hne, ha]
  have hm' := s.claimedAt_manifest sequence e' e.1
  rw [hm] at hm'
  split at hm'
  · refine ⟨_, a, hm', ?_, htime, ha', hun, hauth⟩
    -- a completed manifest has nothing left to claim
    by_contra hst
    obtain ⟨hmb, -⟩ := hbooks.manifest e.1 _ hm'
    have hcomp : (m.claim (s.amountAt e')).status = .completed := by
      unfold Manifest.claim at hst ⊢
      split_ifs at hst ⊢ <;> simp_all
    obtain ⟨b, hb, hclaimed⟩ := (hmb.completed hcomp).2 e.2 (hmb.index_lt ha')
    rw [Option.some.inj (ha'.symm.trans hb)] at hun
    rw [hun] at hclaimed
    cases hclaimed
  · exact ⟨m, a, hm', hact, htime, ha', hun, hauth⟩

theorem PoolStorage.payment_claimedAt (token pool : Address) (s : PoolStorage) (sequence : ℕ)
    (e e' : UInt64 × ℕ) :
    (s.claimedAt sequence e).payment token pool e' = s.payment token pool e' := by
  have hrecipient : ((s.claimedAt sequence e).allocation e'.1 e'.2).elim pool Allocation.recipient =
      (s.allocation e'.1 e'.2).elim pool Allocation.recipient := by
    rw [PoolStorage.claimedAt_allocation]
    split
    · cases s.allocation e'.1 e'.2 <;> rfl
    · rfl
  rw [PoolStorage.payment, PoolStorage.payment, hrecipient, PoolStorage.claimedAt_amountAt]

/-! ## The storage after a list of claims -/

section
variable (sequence : ℕ) (s : PoolStorage)

theorem claims_perm {l l' : List (UInt64 × ℕ)} (h : l.Perm l') :
    l.foldl (·.claimedAt sequence) s = l'.foldl (·.claimedAt sequence) s :=
  h.foldl_eq' (fun e _ e' _ s => s.claimedAt_comm sequence e e') s

theorem claims_allocation (l : List (UInt64 × ℕ)) (id : UInt64) (i : ℕ) :
    (l.foldl (·.claimedAt sequence) s).allocation id i =
      if (id, i) ∈ l then (s.allocation id i).map .claim else s.allocation id i := by
  induction l generalizing s with
  | nil => simp
  | cons e l ih =>
    rw [List.foldl_cons, ih, PoolStorage.claimedAt_allocation]
    by_cases he : (id, i) = e
    · rw [if_pos he]
      cases s.allocation id i <;> simp [he, Allocation.claim]
    · simp [he]

theorem claims_manifest (l : List (UInt64 × ℕ)) {m : Manifest} (hm : s.manifest id = some m) :
    ∃ m', (l.foldl (·.claimedAt sequence) s).manifest id = some m' ∧
      (m'.status = .expired → m.status = .expired ∧ ∀ i, (id, i) ∉ l) := by
  induction l generalizing s m with
  | nil => exact ⟨m, hm, fun hst => ⟨hst, by simp⟩⟩
  | cons e l ih =>
    rw [List.foldl_cons]
    by_cases he : id = e.1
    · obtain ⟨m', hm', hst⟩ := ih (s := s.claimedAt sequence e) (m := m.claim (s.amountAt e))
        (by rw [PoolStorage.claimedAt_manifest, if_pos he, hm]; rfl)
      refine ⟨m', hm', fun hexp => ?_⟩
      have hno := (hst hexp).1
      unfold Manifest.claim at hno
      split_ifs at hno
    · obtain ⟨m', hm', hst⟩ := ih (s := s.claimedAt sequence e) (m := m)
        (by rw [PoolStorage.claimedAt_manifest, if_neg he, hm])
      refine ⟨m', hm', fun hexp => ⟨(hst hexp).1, fun i hi => ?_⟩⟩
      rcases List.mem_cons.1 hi with rfl | hi
      · exact he rfl
      · exact (hst hexp).2 i hi

end

/-- Every expired manifest has an allocation that nobody claimed. -/
def PoolStorage.LeavesUnclaimed (s : PoolStorage) : Prop :=
  ∀ id m, s.manifest id = some m → m.status = .expired →
    ∃ i a, s.allocation id i = some a ∧ a.claimed = false

theorem ManifestBooks.exists_unclaimed {m : Manifest} {alloc : ℕ → Option Allocation}
    (h : ManifestBooks m alloc) (hact : m.status = .active) :
    ∃ i a, alloc i = some a ∧ a.claimed = false := by
  obtain ⟨hrem, hpos⟩ := h.active hact
  by_contra hno
  have hzero : m.sum Allocation.unclaimed alloc = 0 := by
    rw [Manifest.sum, Table.partialTotal]
    refine Finset.sum_eq_zero fun i _ => ?_
    cases ha : alloc i with
    | none => rfl
    | some a =>
      have hclaimed : a.claimed = true := by
        by_contra hc
        exact hno ⟨i, a, ha, by simpa using hc⟩
      simp [Allocation.unclaimed, hclaimed]
  omega

theorem Effect.leavesUnclaimed {call : PoolCall} (hb : Books s) (h : Effect env s t s' t' call)
    (hl : s.LeavesUnclaimed) : s'.LeavesUnclaimed := by
  intro id m hm hst
  cases h with
  | initializePool h _ =>
    obtain ⟨_, rfl⟩ := h.post
    exact hl id m hm hst
  | recordCredit h _ =>
    obtain ⟨_, rfl⟩ := h.post
    exact hl id m hm hst
  | @publishManifest new _ _ _ recipients amounts h _ =>
    obtain ⟨_, rfl⟩ := h.post
    simp only at hm ⊢
    by_cases hid : id = new
    · rw [hid, update_self] at hm
      obtain rfl := Option.some.inj hm
      cases hst
    · rw [update_of_ne hid] at hm
      obtain ⟨i, a, ha, hun⟩ := hl id m hm hst
      exact ⟨i, a, (stored_of_ne hid recipients amounts i).trans ha, hun⟩
  | @claim id' i m' a _ h =>
    obtain ⟨_, rfl⟩ := h.post
    simp only at hm ⊢
    by_cases hid : id = id'
    · rw [hid, update_self] at hm
      obtain rfl := Option.some.inj hm
      have hact := h.active
      unfold Manifest.afterClaim at hst
      split_ifs at hst
      rw [hact] at hst; cases hst
    · rw [update_of_ne hid] at hm
      rw [update_of_ne hid]
      exact hl id m hm hst
  | @expireManifest id' m' h _ =>
    obtain ⟨_, rfl⟩ := h.post
    simp only at hm ⊢
    by_cases hid : id = id'
    · rw [hid]
      exact (hb.manifest id' m' h.manifest).1.exists_unclaimed h.active
    · rw [update_of_ne hid] at hm
      exact hl id m hm hst
  | other _ h _ =>
    rw [h.manifest] at hm
    rw [h.allocation]
    exact hl id m hm hst

/-- **Which manifests are completed after a list of claims**: those all of whose
    unclaimed allocations are in the list. -/
theorem claims_completed_iff {sequence : ℕ} {l : List (UInt64 × ℕ)} {m : Manifest}
    (hb : Books (l.foldl (·.claimedAt sequence) s)) (hl : s.LeavesUnclaimed)
    (hm : s.manifest id = some m) :
    (∃ m', (l.foldl (·.claimedAt sequence) s).manifest id = some m' ∧ m'.status = .completed) ↔
      ∀ i a, s.allocation id i = some a → a.claimed = false → (id, i) ∈ l := by
  obtain ⟨m', hm', hexp⟩ := claims_manifest sequence s l hm
  obtain ⟨hmb, -⟩ := hb.manifest id m' hm'
  have halloc := claims_allocation sequence s l id
  constructor
  · rintro ⟨m'', hm'', hst⟩ i a ha hun
    obtain rfl := Option.some.inj (hm'.symm.trans hm'')
    by_contra hi
    have ha' := halloc i
    rw [if_neg hi, ha] at ha'
    obtain ⟨b, hb, hclaimed⟩ := (hmb.completed hst).2 i (hmb.index_lt ha')
    rw [← Option.some.inj (ha'.symm.trans hb), hun] at hclaimed
    cases hclaimed
  · intro hall
    refine ⟨m', hm', ?_⟩
    cases hst : m'.status with
    | completed => rfl
    | active =>
      -- an active manifest would have an allocation outside the list
      obtain ⟨i, a, ha, hun⟩ := hmb.exists_unclaimed hst
      have ha' := halloc i
      rw [ha] at ha'
      split at ha'
      · obtain ⟨b, -, rfl⟩ := Option.map_eq_some_iff.1 ha'.symm
        cases hun
      · rename_i hi
        exact absurd (hall i a ha'.symm hun) hi
    | expired =>
      obtain ⟨hst, hno⟩ := hexp hst
      obtain ⟨i, a, ha, hun⟩ := hl id m hm hst
      exact absurd (hall i a ha hun) (hno i)

end Pool

end TogetherFi
