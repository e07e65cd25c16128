/-
  What a successful call of the asset contract checked and what it changed.

  `Adds s s' a n` says that `s'` is `s` with `n` more held by `a` and nothing
  else different that the rules of the asset depend on (`SameTerms`).  Receiving
  and spending are such changes, and every call is one or two of them, an
  allowance, or a change of the rules themselves.
-/
import TogetherFi.Asset.Contract
import TogetherFi.Lib.Holdings

namespace TogetherFi

open Outcome Function

namespace Asset

/-! ## Holdings -/

namespace Storage

/-- What `a` holds of the asset.  The issuer holds nothing: it issues. -/
def holding (s : Storage) : Address → ℤ
  | .contract id => (s.balance id).elim 0 BalanceValue.amount
  | .account key =>
    match s.assetInfo with
    | .native => (s.account key).elim 0 AccountEntry.balance
    | .credit issuer => if issuer = key then 0 else (s.trustline key).elim 0 TrustLineEntry.balance

end Storage

/-- What classic Stellar keeps true of an account. -/
structure AccountEntry.Valid (ae : AccountEntry) : Prop where
  balance_nonneg : 0 ≤ ae.balance
  selling_nonneg : ∀ x ∈ ae.ext, 0 ≤ x.1.selling
  sponsored_le : ∀ x ∈ ae.ext, ∀ y ∈ x.2, y.numSponsored ≤ 2 + ae.numSubEntries + y.numSponsoring

/-- What classic Stellar keeps true of a trustline. -/
structure TrustLineEntry.Valid (tl : TrustLineEntry) : Prop where
  balance_nonneg : 0 ≤ tl.balance
  selling_nonneg : ∀ l ∈ tl.ext, 0 ≤ l.selling

/-- **The invariant of the storage.** -/
structure Storage.Valid (s : Storage) : Prop where
  account : ∀ key, ∀ ae ∈ s.account key, ae.Valid
  trustline : ∀ key, ∀ tl ∈ s.trustline key, tl.Valid
  balance : ∀ id, ∀ v ∈ s.balance id, 0 ≤ v.amount ∧ v.amount ≤ i128Max
  allowance : ∀ holder spender, ∀ e ∈ s.allowance holder spender, 0 ≤ e.value.amount

/-- The terms of the asset that moving it leaves alone: who issues and
    administers it, what is allowed, and every flag.  The entry of a contract that
    first comes to hold the asset gets the flags of the issuer. -/
structure SameTerms (s s' : Storage) : Prop where
  assetInfo : s'.assetInfo = s.assetInfo
  admin : s'.admin = s.admin
  allowance : s'.allowance = s.allowance
  accountFlags : ∀ key, (s'.account key).map AccountEntry.flags = (s.account key).map AccountEntry.flags
  trustlineFlags : ∀ key,
    (s'.trustline key).map TrustLineEntry.flags = (s.trustline key).map TrustLineEntry.flags
  balanceFlags : ∀ id, ∀ v ∈ s.balance id, ∃ v', s'.balance id = some v' ∧
    v'.authorized = v.authorized ∧ v'.clawback = v.clawback
  fresh : ∀ id, s.balance id = none → ∀ v' ∈ s'.balance id,
    v'.authorized = true ∧ isAssetClawbackEnabled s = .ok v'.clawback

/-- `s'` is `s` with `n` more held by `a`. -/
structure Adds (s s' : Storage) (a : Address) (n : ℤ) : Prop where
  holding : ∀ x, s'.holding x = s.holding x + if x = a ∧ ¬ s.isIssuer a then n else 0
  terms : SameTerms s s'

variable {s s' s₁ s₂ : Storage} {a b : Address} {n : ℤ} {id key : ℕ} {li : LedgerInfo}

namespace Storage

@[simp] theorem holding_contract : s.holding (.contract id) = (s.balance id).elim 0 BalanceValue.amount := rfl

theorem holding_setBalance (v : BalanceValue) (x : Address) :
    (s.setBalance id v).holding x = if x = .contract id then v.amount else s.holding x := by
  cases x with
  | account key => simp [holding]
  | contract j =>
    by_cases h : j = id
    · subst h; simp
    · simp [h]

theorem not_isIssuer_contract : ¬ s.isIssuer (.contract id) := by
  rintro ⟨_, -, h⟩
  cases h

theorem isIssuer_account {issuer : ℕ} (h : s.assetInfo = .credit issuer) :
    s.isIssuer (.account key) ↔ issuer = key := by
  constructor
  · rintro ⟨i, hi, hk⟩
    rw [h] at hi
    cases hi
    cases hk
    rfl
  · rintro rfl
    exact ⟨issuer, h, rfl⟩

theorem not_isIssuer_native (h : s.assetInfo = .native) : ¬ s.isIssuer a := by
  rintro ⟨_, hi, -⟩
  rw [h] at hi
  cases hi

/-- The issuer holds nothing. -/
theorem holding_issuer (h : s.isIssuer a) : s.holding a = 0 := by
  obtain ⟨issuer, hi, rfl⟩ := h
  simp [holding, hi]

theorem Valid.holding_nonneg (h : s.Valid) (a : Address) : 0 ≤ s.holding a := by
  cases a with
  | contract id =>
    cases hv : s.balance id with
    | none => simp [hv]
    | some v => simpa [hv] using (h.balance id v hv).1
  | account key =>
    unfold holding
    cases hi : s.assetInfo with
    | native =>
      cases hv : s.account key with
      | none => simp [hv]
      | some ae => simpa [hv] using (h.account key ae hv).balance_nonneg
    | credit issuer =>
      by_cases hk : issuer = key
      · simp [hk]
      · cases hv : s.trustline key with
        | none => simp [hv, hk]
        | some tl => simpa [hv, hk] using (h.trustline key tl hv).balance_nonneg

end Storage

/-! ## The terms -/

namespace SameTerms

theorem refl (s : Storage) : SameTerms s s where
  assetInfo := rfl
  admin := rfl
  allowance := rfl
  accountFlags _ := rfl
  trustlineFlags _ := rfl
  balanceFlags _ v hv := ⟨v, hv, rfl, rfl⟩
  fresh id hn v' hv' := by rw [hn] at hv'; cases hv'

theorem issuerFlag (h : SameTerms s s') (flag : BitVec 32) :
    isAssetIssuerFlagSet flag s' = isAssetIssuerFlagSet flag s := by
  unfold isAssetIssuerFlagSet
  rw [h.assetInfo]
  split
  · rfl
  · rename_i issuer _
    have hf := h.accountFlags issuer
    cases h₁ : s.account issuer <;> cases h₂ : s'.account issuer <;>
      simp only [h₁, h₂, Option.map_none, Option.map_some, reduceCtorEq, Option.some.injEq] at hf
    · rfl
    · simp [trapOr, hf]

theorem isIssuer (h : SameTerms s s') : s'.isIssuer a ↔ s.isIssuer a := by
  unfold Storage.isIssuer
  rw [h.assetInfo]

theorem trans (h₁ : SameTerms s s₁) (h₂ : SameTerms s₁ s₂) : SameTerms s s₂ where
  assetInfo := h₂.assetInfo.trans h₁.assetInfo
  admin := h₂.admin.trans h₁.admin
  allowance := h₂.allowance.trans h₁.allowance
  accountFlags key := (h₂.accountFlags key).trans (h₁.accountFlags key)
  trustlineFlags key := (h₂.trustlineFlags key).trans (h₁.trustlineFlags key)
  balanceFlags id v hv := by
    obtain ⟨v₁, hv₁, ha₁, hc₁⟩ := h₁.balanceFlags id v hv
    obtain ⟨v₂, hv₂, ha₂, hc₂⟩ := h₂.balanceFlags id v₁ hv₁
    exact ⟨v₂, hv₂, ha₂.trans ha₁, hc₂.trans hc₁⟩
  fresh id hn v₂ hv₂ := by
    cases hv₁ : s₁.balance id with
    | none =>
      obtain ⟨ha, hc⟩ := h₂.fresh id hv₁ v₂ hv₂
      exact ⟨ha, by rw [← hc]; exact (h₁.issuerFlag _).symm⟩
    | some v₁ =>
      obtain ⟨ha, hc⟩ := h₁.fresh id hn v₁ hv₁
      obtain ⟨v, hv, ha', hc'⟩ := h₂.balanceFlags id v₁ hv₁
      obtain rfl : v = v₂ := Option.some.inj (hv.symm.trans hv₂)
      exact ⟨ha'.trans ha, by rw [hc']; exact hc⟩

theorem setBalance {v v' : BalanceValue} (hv : s.balance id = some v)
    (ha : v'.authorized = v.authorized) (hc : v'.clawback = v.clawback) :
    SameTerms s (s.setBalance id v') where
  assetInfo := rfl
  admin := rfl
  allowance := rfl
  accountFlags _ := rfl
  trustlineFlags _ := rfl
  balanceFlags j w hw := by
    by_cases h : j = id
    · subst h
      obtain rfl : v = w := Option.some.inj (hv.symm.trans hw)
      exact ⟨v', by simp, ha, hc⟩
    · exact ⟨w, by simpa [h] using hw, rfl, rfl⟩
  fresh j hn w hw := by
    have h : j ≠ id := by rintro rfl; rw [hv] at hn; cases hn
    simp [h, hn] at hw

theorem newBalance {v' : BalanceValue} (hn : s.balance id = none) (ha : v'.authorized = true)
    (hc : isAssetClawbackEnabled s = .ok v'.clawback) : SameTerms s (s.setBalance id v') where
  assetInfo := rfl
  admin := rfl
  allowance := rfl
  accountFlags _ := rfl
  trustlineFlags _ := rfl
  balanceFlags j w hw := by
    have h : j ≠ id := by rintro rfl; rw [hn] at hw; cases hw
    exact ⟨w, by simpa [h] using hw, rfl, rfl⟩
  fresh j hj w hw := by
    by_cases h : j = id
    · subst h
      obtain rfl : v' = w := by simpa using hw
      exact ⟨ha, hc⟩
    · simp [h, hj] at hw

end SameTerms

namespace Adds

theorem zero (s : Storage) (a : Address) : Adds s s a 0 := ⟨by simp, .refl s⟩

theorem issuer (h : s.isIssuer a) (n : ℤ) : Adds s s a n := ⟨by simp [h], .refl s⟩

theorem setBalance {v' : BalanceValue} (ht : SameTerms s (s.setBalance id v'))
    (hn : v'.amount = s.holding (.contract id) + n) : Adds s (s.setBalance id v') (.contract id) n := by
  refine ⟨fun x => ?_, ht⟩
  rw [Storage.holding_setBalance]
  by_cases h : x = .contract id
  · simp [h, hn, Storage.not_isIssuer_contract]
  · simp [h]

end Adds

/-! ## Classic balances -/

theorem checkedI64_eq_some {x y : ℤ} : checkedI64 x = some y ↔ (-(2 ^ 63) ≤ x ∧ x ≤ i64Max) ∧ y = x := by
  unfold checkedI64
  split <;> simp_all [eq_comm]

theorem addWithin_eq_ok {range : ℤ × ℤ} {balance amount x : ℤ} :
    addWithin range balance amount = .ok x ↔
      (-(2 ^ 63) ≤ balance + amount ∧ balance + amount ≤ i64Max) ∧
        (range.1 ≤ balance + amount ∧ balance + amount ≤ range.2) ∧ x = balance + amount := by
  simp only [addWithin, bind_eq_ok, okOr_eq_ok, checkedI64_eq_some, rejectIf_eq_ok, exists_const, pure_eq,
    Except.ok.injEq, not_not]
  constructor
  · rintro ⟨_, ⟨hx, rfl⟩, hr, rfl⟩
    exact ⟨hx, hr, rfl⟩
  · rintro ⟨hx, hr, rfl⟩
    exact ⟨_, ⟨hx, rfl⟩, hr, rfl⟩

@[simp] theorem plainI64_eq_ok {x y : ℤ} :
    plainI64 x = .ok y ↔ (-(2 ^ 63) ≤ x ∧ x ≤ i64Max) ∧ y = x := by
  rw [plainI64, trapOr_eq_ok, checkedI64_eq_some]

theorem AccountEntry.Valid.min_nonneg {ae : AccountEntry} (hv : ae.Valid) {range : ℤ × ℤ}
    (h : getMinMaxAccountBalance li ae = .ok range) : 0 ≤ range.1 := by
  simp only [getMinMaxAccountBalance, bind_eq_ok, rejectIf_eq_ok, exists_const] at h
  obtain ⟨-, h⟩ := h
  split at h
  · rename_i liabilities ext hext
    have hsell := hv.selling_nonneg _ hext
    have hspon := hv.sponsored_le _ hext
    simp only [bind_eq_ok, plainI64_eq_ok, pure_eq, Except.ok.injEq] at h
    obtain ⟨reserve, ⟨-, hres⟩, _, ⟨-, rfl⟩, _, -, rfl⟩ := h
    have hnet : 0 ≤ reserve := by
      rw [hres]
      refine mul_nonneg ?_ (Int.natCast_nonneg _)
      split
      · rename_i y
        have := hspon y rfl
        omega
      · omega
    exact add_nonneg hnet hsell
  · simp only [bind_eq_ok, plainI64_eq_ok, pure_eq, Except.ok.injEq] at h
    obtain ⟨_, ⟨-, rfl⟩, rfl⟩ := h
    positivity

theorem TrustLineEntry.Valid.min_nonneg {tl : TrustLineEntry} (hv : tl.Valid) {range : ℤ × ℤ}
    (h : getMinMaxTrustlineBalance tl = .ok range) : 0 ≤ range.1 := by
  simp only [getMinMaxTrustlineBalance, bind_eq_ok, rejectIf_eq_ok, exists_const] at h
  obtain ⟨-, h⟩ := h
  split at h
  · rename_i l hl
    simp only [bind_eq_ok, rejectIf_eq_ok, exists_const, plainI64_eq_ok, pure_eq, Except.ok.injEq] at h
    obtain ⟨-, _, -, rfl⟩ := h
    exact hv.selling_nonneg l hl
  · simp only [pure_eq, Except.ok.injEq] at h
    rw [← h]

theorem SameTerms.setAccount {ae : AccountEntry} (h : s.account key = some ae) (balance : ℤ) :
    SameTerms s (s.setAccount key (some { ae with balance := balance })) where
  assetInfo := rfl
  admin := rfl
  allowance := rfl
  accountFlags k := by
    by_cases hk : k = key
    · subst hk; simp [h]
    · simp [hk]
  trustlineFlags _ := rfl
  balanceFlags _ v hv := ⟨v, hv, rfl, rfl⟩
  fresh id hn v hv := by simp [hn] at hv

theorem SameTerms.setTrustline {tl : TrustLineEntry} (h : s.trustline key = some tl) (balance : ℤ) :
    SameTerms s (s.setTrustline key (some { tl with balance := balance })) where
  assetInfo := rfl
  admin := rfl
  allowance := rfl
  accountFlags _ := rfl
  trustlineFlags k := by
    by_cases hk : k = key
    · subst hk; simp [h]
    · simp [hk]
  balanceFlags _ v hv := ⟨v, hv, rfl, rfl⟩
  fresh id hn v hv := by simp [hn] at hv

/-- **A classic balance moves by the amount, stays nonnegative, or is the issuer's.** -/
theorem transferClassicBalance_ok (hv : s.Valid) (h : transferClassicBalance li key n s = .ok s') :
    Adds s s' (.account key) n ∧ s'.Valid ∧
      (¬ s.isIssuer (.account key) → 0 ≤ s.holding (.account key) + n) := by
  unfold transferClassicBalance at h
  split at h
  · rename_i hi
    simp only [transferAccountBalance, bind_eq_ok, okOr_eq_ok, addWithin_eq_ok, pure_eq,
      Except.ok.injEq] at h
    obtain ⟨ae, hae, range, hr, _, ⟨-, ⟨hmin, -⟩, rfl⟩, rfl⟩ := h
    have hvae := hv.account key ae hae
    have hpos : 0 ≤ ae.balance + n := (hvae.min_nonneg hr).trans hmin
    have hold : s.holding (.account key) = ae.balance := by simp [Storage.holding, hi, hae]
    refine ⟨⟨fun x => ?_, .setAccount hae _⟩, { hv with account := fun k a ha => ?_ },
      fun _ => by rw [hold]; exact hpos⟩
    · have hni : ¬ s.isIssuer (.account key) := Storage.not_isIssuer_native hi
      cases x with
      | contract => simp
      | account k =>
        by_cases hk : k = key
        · subst hk; simp [Storage.holding, hi, hae, hni]
        · simp [Storage.holding, hi, hk]
    · by_cases hk : k = key
      · subst hk
        obtain rfl : { ae with balance := ae.balance + n } = a := by simpa using ha
        exact { hvae with balance_nonneg := hpos }
      · exact hv.account k a (by simpa [hk] using ha)
  · rename_i issuer hi
    split at h
    · rename_i hk
      obtain rfl : s = s' := Except.ok.inj h
      have hiss : s.isIssuer (.account key) := (Storage.isIssuer_account hi).2 hk
      exact ⟨.issuer hiss n, hv, fun hni => absurd hiss hni⟩
    · rename_i hk
      simp only [transferTrustlineBalance, bind_eq_ok, okOr_eq_ok, addWithin_eq_ok, pure_eq,
        Except.ok.injEq] at h
      obtain ⟨tl, htl, range, hr, _, ⟨-, ⟨hmin, -⟩, rfl⟩, rfl⟩ := h
      have hvtl := hv.trustline key tl htl
      have hpos : 0 ≤ tl.balance + n := (hvtl.min_nonneg hr).trans hmin
      have hold : s.holding (.account key) = tl.balance := by simp [Storage.holding, hi, htl, hk]
      have hni : ¬ s.isIssuer (.account key) := fun h => hk ((Storage.isIssuer_account hi).1 h)
      refine ⟨⟨fun x => ?_, .setTrustline htl _⟩, { hv with trustline := fun k t ht => ?_ },
        fun _ => by rw [hold]; exact hpos⟩
      · cases x with
        | contract => simp
        | account k =>
          by_cases hkk : k = key
          · subst hkk; simp [Storage.holding, hi, htl, hni, hk]
          · simp [Storage.holding, hi, hkk]
      · by_cases hkk : k = key
        · subst hkk
          obtain rfl : { tl with balance := tl.balance + n } = t := by simpa using ht
          exact { hvtl with balance_nonneg := hpos }
        · exact hv.trustline k t (by simpa [hkk] using ht)

/-! ## Balances -/

theorem Storage.Valid.setBalance (hv : s.Valid) {v : BalanceValue}
    (h : 0 ≤ v.amount ∧ v.amount ≤ i128Max) :
    (s.setBalance id v).Valid :=
  { hv with
    balance := fun j w hw => by
      by_cases hj : j = id
      · subst hj
        obtain rfl : v = w := by simpa using hw
        exact h
      · exact hv.balance j w (by simpa [hj] using hw) }

/-- The entry of a contract, or the one it first receives with. -/
def Storage.entry (s : Storage) (id : ℕ) : Result BalanceValue :=
  match s.balance id with
  | some v => .ok v
  | none => do
    let required ← isAssetAuthRequired s
    let clawback ← isAssetClawbackEnabled s
    return ⟨0, !required, clawback⟩

theorem Storage.entry_amount {v : BalanceValue} (h : s.entry id = .ok v) :
    v.amount = s.holding (.contract id) := by
  unfold entry at h
  split at h
  · rename_i w hw
    obtain rfl := Except.ok.inj h
    simp [hw]
  · rename_i hn
    simp only [bind_eq_ok, pure_eq, Except.ok.injEq] at h
    obtain ⟨_, -, _, -, rfl⟩ := h
    simp [hn]

/-- **What a contract receives.** -/
theorem receiveBalance_contract : receiveBalance li (.contract id) n s = .ok s' ↔
    ∃ v, s.entry id = .ok v ∧ v.authorized = true ∧ InI128 (v.amount + n) ∧
      s' = s.setBalance id { v with amount := v.amount + n } := by
  unfold receiveBalance isAuthorized Storage.entry
  cases hb : s.balance id with
  | some v =>
    simp only [hb, ok_bind, bind_eq_ok, rejectIf_eq_ok, exists_const, pure_eq, Except.ok.injEq, okOr_eq_ok,
      checkedI128_eq_some, Bool.not_eq_false, exists_eq_left']
    constructor
    · rintro ⟨ha, _, ⟨hr, rfl⟩, rfl⟩
      exact ⟨ha, hr, rfl⟩
    · rintro ⟨ha, hr, rfl⟩
      exact ⟨ha, _, ⟨hr, rfl⟩, rfl⟩
  | none =>
    simp only [hb, bind_eq_ok, rejectIf_eq_ok, exists_const, pure_eq, Except.ok.injEq, okOr_eq_ok,
      checkedI128_eq_some, Bool.not_eq_false]
    constructor
    · rintro ⟨_, ⟨r, hr, rfl⟩, ha, c, hc, _, rfl, _, ⟨hx, rfl⟩, rfl⟩
      exact ⟨_, ⟨r, hr, c, hc, rfl⟩, ha, hx, by rw [ha]⟩
    · rintro ⟨_, ⟨r, hr, c, hc, rfl⟩, ha, hx, rfl⟩
      exact ⟨_, ⟨r, hr, rfl⟩, ha, c, hc, _, rfl, _, ⟨hx, rfl⟩, by simp only at ha; rw [ha]⟩

/-- Writing the entry a contract receives with leaves the terms alone. -/
theorem SameTerms.setEntry {v : BalanceValue} (h : s.entry id = .ok v) (ha : v.authorized = true)
    (amount : ℤ) : SameTerms s (s.setBalance id { v with amount := amount }) := by
  unfold Storage.entry at h
  split at h
  · rename_i w hw
    obtain rfl := Except.ok.inj h
    exact .setBalance hw rfl rfl
  · rename_i hn
    simp only [bind_eq_ok, pure_eq, Except.ok.injEq] at h
    obtain ⟨_, -, c, hc, rfl⟩ := h
    exact .newBalance hn ha hc

/-- **Receiving adds to what is held.** -/
theorem receiveBalance_ok (hv : s.Valid) (hn : 0 ≤ n) (h : receiveBalance li a n s = .ok s') :
    Adds s s' a n ∧ s'.Valid := by
  cases a with
  | contract id =>
    obtain ⟨v, he, ha, hr, rfl⟩ := receiveBalance_contract.1 h
    have hamount := Storage.entry_amount he
    have hpos := hv.holding_nonneg (.contract id)
    refine ⟨.setBalance (.setEntry he ha _) (by simp only [hamount]), hv.setBalance ⟨?_, hr.2⟩⟩
    show 0 ≤ v.amount + n
    omega
  | account key =>
    simp only [receiveBalance, bind_eq_ok, rejectIf_eq_ok, exists_const, okOr_eq_ok,
      checkedI64_eq_some] at h
    obtain ⟨_, -, -, _, ⟨-, rfl⟩, h⟩ := h
    obtain ⟨hadd, hv', -⟩ := transferClassicBalance_ok hv h
    exact ⟨hadd, hv'⟩

/-- **Spending takes from what is held**, and no more than that. -/
theorem spendBalanceNoAuthorizationCheck_ok (hv : s.Valid) (hn : 0 ≤ n)
    (h : spendBalanceNoAuthorizationCheck li a n s = .ok s') :
    Adds s s' a (-n) ∧ s'.Valid ∧ (¬ s.isIssuer a → n ≤ s.holding a) := by
  cases a with
  | contract id =>
    simp only [spendBalanceNoAuthorizationCheck] at h
    split at h
    · rename_i v hb
      simp only [bind_eq_ok, rejectIf_eq_ok, exists_const, okOr_eq_ok, checkedI128_eq_some, pure_eq,
        Except.ok.injEq, not_lt] at h
      obtain ⟨hle, _, ⟨-, rfl⟩, rfl⟩ := h
      have hold : s.holding (.contract id) = v.amount := by simp [hb]
      have hmax := (hv.balance id v hb).2
      refine ⟨.setBalance (.setBalance hb rfl rfl) (by rw [hold]; simp only; omega), hv.setBalance ⟨?_, ?_⟩,
        fun _ => by rw [hold]; exact hle⟩
      · show 0 ≤ v.amount - n
        omega
      · show v.amount - n ≤ i128Max
        omega
    · rename_i hb
      simp only [bind_eq_ok, rejectIf_eq_ok, exists_const, pure_eq, Except.ok.injEq, not_lt] at h
      obtain ⟨hle, rfl⟩ := h
      obtain rfl : n = 0 := le_antisymm hle hn
      exact ⟨.zero s _, hv, fun _ => hv.holding_nonneg _⟩
  | account key =>
    simp only [spendBalanceNoAuthorizationCheck, bind_eq_ok, okOr_eq_ok, checkedI64_eq_some] at h
    obtain ⟨_, ⟨-, rfl⟩, h⟩ := h
    obtain ⟨hadd, hv', hpos⟩ := transferClassicBalance_ok hv h
    refine ⟨hadd, hv', fun hni => ?_⟩
    have := hpos hni
    omega

theorem spendBalance_eq_ok : spendBalance li a n s = .ok s' ↔
    isAuthorized a s = .ok true ∧ spendBalanceNoAuthorizationCheck li a n s = .ok s' := by
  simp only [spendBalance, bind_eq_ok, rejectIf_eq_ok, exists_const, Bool.not_eq_false]
  constructor
  · rintro ⟨_, h, rfl, hs⟩
    exact ⟨h, hs⟩
  · rintro ⟨h, hs⟩
    exact ⟨_, h, rfl, hs⟩

theorem receiveBalance_authorized (h : receiveBalance li a n s = .ok s') :
    isAuthorized a s = .ok true := by
  simp only [receiveBalance, bind_eq_ok, rejectIf_eq_ok, exists_const, Bool.not_eq_false] at h
  obtain ⟨_, h, rfl, -⟩ := h
  exact h

/-- **What a contract spends.** -/
theorem spendBalance_contract {v : BalanceValue} (hb : s.balance id = some v) (hn : 0 ≤ n)
    (hmax : v.amount ≤ i128Max) : spendBalance li (.contract id) n s = .ok s' ↔
      v.authorized = true ∧ n ≤ v.amount ∧ s' = s.setBalance id { v with amount := v.amount - n } := by
  rw [spendBalance_eq_ok]
  simp only [isAuthorized, spendBalanceNoAuthorizationCheck, hb, Except.ok.injEq, bind_eq_ok,
    rejectIf_eq_ok, exists_const, okOr_eq_ok, checkedI128_eq_some, pure_eq, not_lt]
  constructor
  · rintro ⟨ha, hle, _, ⟨-, rfl⟩, rfl⟩
    exact ⟨ha, hle, rfl⟩
  · rintro ⟨ha, hle, rfl⟩
    exact ⟨ha, hle, _, ⟨inI128_of_nonneg (by omega) (by omega), rfl⟩, rfl⟩

/-! ## Flags -/

theorem writeAuthorization_revocable {authorize : Bool} (h : writeAuthorization a authorize s = .ok s')
    (hf : authorize = false) : isAssetAuthRevocable s = .ok true := by
  simp only [writeAuthorization, hf, if_true, bind_eq_ok, rejectIf_eq_ok, exists_const,
    Bool.not_eq_false] at h
  obtain ⟨_, h, rfl, -⟩ := h
  exact h

/-- **What a contract's flag is written into.** -/
theorem writeAuthorization_contract {authorize : Bool}
    (h : writeAuthorization (.contract id) authorize s = .ok s') :
    ∃ v, (s.balance id = some v ∨ s.balance id = none ∧ v.amount = 0) ∧
      s' = s.setBalance id { v with authorized := authorize } := by
  have hend : (match s.balance id with
      | some balance => Except.ok (s.setBalance id { balance with authorized := authorize })
      | none => do
        let clawback ← isAssetClawbackEnabled s
        return s.setBalance id ⟨0, authorize, clawback⟩) = .ok s' := by
    unfold writeAuthorization at h
    cases authorize with
    | true => exact h
    | false =>
      obtain ⟨_, -, h⟩ := bind_eq_ok.1 h
      obtain ⟨_, -, h⟩ := bind_eq_ok.1 h
      exact h
  cases hb : s.balance id with
  | some v =>
    rw [hb] at hend
    exact ⟨v, .inl rfl, (Except.ok.inj hend).symm⟩
  | none =>
    rw [hb] at hend
    obtain ⟨clawback, -, hs⟩ := bind_eq_ok.1 hend
    exact ⟨⟨0, authorize, clawback⟩, .inr ⟨rfl, rfl⟩, (Except.ok.inj hs).symm⟩

theorem writeAuthorization_account {authorize : Bool}
    (h : writeAuthorization (.account key) authorize s = .ok s') :
    ∃ tl flags, s.trustline key = some tl ∧
      (s' = s ∨ s' = s.setTrustline key (some { tl with flags := flags })) := by
  have hend : setAuthorization key authorize s = .ok s' := by
    unfold writeAuthorization at h
    cases authorize with
    | true => exact h
    | false =>
      obtain ⟨_, -, h⟩ := bind_eq_ok.1 h
      obtain ⟨_, -, h⟩ := bind_eq_ok.1 h
      exact h
  unfold setAuthorization at hend
  split at hend
  · cases hend
  · split at hend
    · cases hend
    · simp only [setTrustlineAuthorization, bind_eq_ok, okOr_eq_ok] at hend
      obtain ⟨tl, htl, h⟩ := hend
      split at h
      · exact ⟨tl, tl.flags, htl, .inl (Except.ok.inj h).symm⟩
      · exact ⟨tl, _, htl, .inr (Except.ok.inj h).symm⟩

/-- **Changing a flag moves nothing.** -/
theorem writeAuthorization_ok {authorize : Bool} (hv : s.Valid)
    (h : writeAuthorization a authorize s = .ok s') :
    s'.Valid ∧ s'.holding = s.holding ∧ s'.assetInfo = s.assetInfo ∧ s'.admin = s.admin ∧
      s'.allowance = s.allowance ∧ s'.account = s.account := by
  cases a with
  | contract id =>
    obtain ⟨v, hb, rfl⟩ := writeAuthorization_contract h
    have hold : v.amount = s.holding (.contract id) ∧ 0 ≤ v.amount ∧ v.amount ≤ i128Max := by
      rcases hb with hb | ⟨hb, h0⟩
      · exact ⟨by simp [hb], hv.balance id v hb⟩
      · exact ⟨by simp [hb, h0], by rw [h0]; exact ⟨le_rfl, by decide⟩⟩
    refine ⟨hv.setBalance hold.2, funext fun x => ?_, rfl, rfl, rfl, rfl⟩
    rw [Storage.holding_setBalance]
    split
    · rename_i hx; rw [hx]; exact hold.1
    · rfl
  | account key =>
    obtain ⟨tl, flags, htl, rfl | rfl⟩ := writeAuthorization_account h
    · exact ⟨hv, rfl, rfl, rfl, rfl, rfl⟩
    · refine ⟨{ hv with trustline := fun k t ht => ?_ }, funext fun x => ?_, rfl, rfl, rfl, rfl⟩
      · by_cases hk : k = key
        · subst hk
          obtain rfl : { tl with flags := flags } = t := by simpa using ht
          exact ⟨(hv.trustline k tl htl).balance_nonneg, (hv.trustline k tl htl).selling_nonneg⟩
        · exact hv.trustline k t (by simpa [hk] using ht)
      · cases x with
        | contract => rfl
        | account k =>
          by_cases hk : k = key
          · subst hk; simp [Storage.holding, htl]
          · simp [Storage.holding, hk]

/-! ## Allowances -/

theorem checkedAddU32_eq_some {x y z : ℕ} : checkedAddU32 x y = some z ↔ x + y < 2 ^ 32 ∧ z = x + y := by
  unfold checkedAddU32
  split <;> simp_all [eq_comm]

theorem maxLiveUntilLedger_eq_ok {x : ℕ} : li.maxLiveUntilLedger = .ok x ↔
    li.sequenceNumber + (li.maxEntryTtl - 1) < 2 ^ 32 ∧ x = li.sequenceNumber + (li.maxEntryTtl - 1) := by
  rw [LedgerInfo.maxLiveUntilLedger, trapOr_eq_ok, checkedAddU32_eq_some]

/-- An extension with one bound for both, the threshold and the target. -/
theorem extendTtl_eq_ok {old d x : ℕ} : extendTtl li old d d = .ok x ↔
    li.sequenceNumber + (li.maxEntryTtl - 1) < 2 ^ 32 ∧
      li.sequenceNumber + d ≤ li.sequenceNumber + (li.maxEntryTtl - 1) ∧
        x = max old (li.sequenceNumber + d) := by
  simp only [extendTtl, bind_eq_ok, trapOr_eq_ok, checkedAddU32_eq_some, maxLiveUntilLedger_eq_ok,
    trapUnless_eq_ok, exists_const, pure_eq, Except.ok.injEq]
  have hmax : (if old < li.sequenceNumber + d ∧ old - li.sequenceNumber ≤ d then li.sequenceNumber + d
      else old) = max old (li.sequenceNumber + d) := by
    split <;> omega
  constructor
  · rintro ⟨_, ⟨-, rfl⟩, _, ⟨hm, rfl⟩, hle, rfl⟩
    exact ⟨hm, hle, hmax⟩
  · rintro ⟨hm, hle, rfl⟩
    exact ⟨_, ⟨by omega, rfl⟩, _, ⟨hm, rfl⟩, hle, hmax⟩

variable {holder spender : Address} {liveUntil : ℕ}

/-- **What is written as an allowance.**  The entry keeps the life it had, unless
    an amount is allowed for longer than before. -/
structure Writes (li : LedgerInfo) (holder spender : Address) (amount : ℤ) (liveUntil : ℕ)
    (s s' : Storage) (life : ℕ) : Prop where
  write : s' = s.setAllowance holder spender ⟨⟨amount, liveUntil⟩, life⟩
  kept : ∀ e ∈ s.liveAllowance li holder spender, e.liveUntil ≤ life
  new : s.liveAllowance li holder spender = none → 0 < amount
  extended : 0 < amount → deadline (s.liveAllowance li holder spender) < liveUntil → liveUntil ≤ life
  same : ¬ (0 < amount ∧ deadline (s.liveAllowance li holder spender) < liveUntil) →
    ∀ e ∈ s.liveAllowance li holder spender, life = e.liveUntil

theorem writeAllowance_ok (h : writeAllowance li holder spender n liveUntil s = .ok s') :
    liveUntil ≤ li.sequenceNumber + (li.maxEntryTtl - 1) ∧ (0 < n → li.sequenceNumber ≤ liveUntil) ∧
      (s' = s ∧ s.liveAllowance li holder spender = none ∧ n ≤ 0 ∨
        ∃ life, Writes li holder spender n liveUntil s s' life) := by
  simp only [writeAllowance, bind_eq_ok, maxLiveUntilLedger_eq_ok, rejectIf_eq_ok, exists_const,
    not_lt, not_and] at h
  obtain ⟨_, ⟨hmax, rfl⟩, hle, hseq, h⟩ := h
  refine ⟨hle, hseq, ?_⟩
  split at h
  · rename_i hc
    exact .inl ⟨(Except.ok.inj h).symm, hc⟩
  · rename_i hc
    right
    obtain ⟨base, hbase, h⟩ := bind_eq_ok.1 h
    have hkept : ∀ e ∈ s.liveAllowance li holder spender, base = e.liveUntil := by
      intro e he
      rw [he] at hbase
      exact (Except.ok.inj hbase).symm
    have hnew : s.liveAllowance li holder spender = none → 0 < n := fun hn => by
      by_contra hle
      exact hc ⟨hn, not_lt.1 hle⟩
    obtain ⟨life, hlife, h⟩ := bind_eq_ok.1 h
    obtain rfl := Except.ok.inj h
    refine ⟨life, ?_⟩
    unfold extendAllowance at hlife
    split at hlife
    · rename_i hext
      obtain ⟨-, hfit, rfl⟩ := extendTtl_eq_ok.1 hlife
      have := hseq hext.1
      exact
        { write := rfl
          kept := fun e he => by rw [← hkept e he]; exact le_max_left _ _
          new := hnew
          extended := fun _ _ => by omega
          same := fun hne => absurd hext hne }
    · rename_i hext
      obtain rfl := Except.ok.inj hlife
      exact
        { write := rfl
          kept := fun e he => (hkept e he).ge
          new := hnew
          extended := fun hp hl => absurd ⟨hp, hl⟩ hext
          same := fun _ => hkept }

theorem Storage.liveAllowance_eq_some {e : Temporary AllowanceValue} :
    s.liveAllowance li holder spender = some e ↔
      s.allowance holder spender = some e ∧ li.sequenceNumber ≤ e.liveUntil := by
  simp [liveAllowance]

theorem Storage.Valid.readAllowance_nonneg (hv : s.Valid) (li : LedgerInfo) (holder spender : Address) :
    0 ≤ readAllowance li holder spender s := by
  unfold readAllowance
  split
  · rename_i e he
    split
    · exact le_rfl
    · exact hv.allowance _ _ e (Storage.liveAllowance_eq_some.1 he).1
  · exact le_rfl

/-- **Spending an allowance** takes the amount from it, and nothing else changes. -/
theorem spendAllowance_ok (hn : 0 ≤ n) (h : spendAllowance li holder spender n s = .ok s') :
    n ≤ readAllowance li holder spender s ∧ (n = 0 ∧ s' = s ∨
      ∃ e, s.liveAllowance li holder spender = some e ∧ li.sequenceNumber ≤ e.value.liveUntilLedger ∧
        readAllowance li holder spender s = e.value.amount ∧
        s' = s.setAllowance holder spender
          ⟨⟨e.value.amount - n, e.value.liveUntilLedger⟩, e.liveUntil⟩) := by
  simp only [spendAllowance, bind_eq_ok, rejectIf_eq_ok, exists_const, not_lt] at h
  obtain ⟨hle, h⟩ := h
  refine ⟨hle, ?_⟩
  split at h
  · rename_i hpos
    simp only [bind_eq_ok, okOr_eq_ok, checkedI128_eq_some, writeAllowanceAmount, trapOr_eq_ok] at h
    obtain ⟨_, ⟨-, rfl⟩, e, he, h⟩ := h
    have hread : readAllowance li holder spender s =
        if e.value.liveUntilLedger < li.sequenceNumber then 0 else e.value.amount := by
      simp only [readAllowance, he]
    have hlive : li.sequenceNumber ≤ e.value.liveUntilLedger := by
      by_contra hlt
      rw [hread, if_pos (not_le.1 hlt)] at hle
      omega
    rw [if_neg (not_lt.2 hlive)] at hread
    obtain ⟨-, -, ⟨-, hnone, -⟩ | ⟨life, hw⟩⟩ := writeAllowance_ok h
    · rw [he] at hnone
      cases hnone
    · have hd : deadline (s.liveAllowance li holder spender) = e.value.liveUntilLedger := by
        rw [he]; rfl
      have hlife := hw.same (by rw [hd]; omega) e he
      exact .inr ⟨e, he, hlive, hread, by rw [hw.write, hlife, hread]⟩
  · rename_i hpos
    exact .inl ⟨le_antisymm (not_lt.1 hpos) hn, (Except.ok.inj h).symm⟩

end Asset

end TogetherFi
