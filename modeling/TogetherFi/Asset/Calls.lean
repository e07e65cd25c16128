/-
  The calls of the asset contract, and its runs.

  A call that moves the asset draws on an allowance, takes from a payer and gives
  to a payee, as far as it names them (`Moved`); `Call.effect` sorts every
  successful call into these, the approvals, and the changes of the terms.

  In a run ledgers close, calls are made with any authorizations, and classic
  Stellar changes the accounts and trustlines in between as it likes, within what
  it keeps true of them.
-/
import TogetherFi.Asset.Effect

namespace TogetherFi

open Outcome Function

namespace Asset

namespace Call

/-- Who pays. -/
def payer : Call → Option Address
  | .transfer src _ _ | .transferFrom _ src _ _ | .burn src _ | .burnFrom _ src _ | .clawback src _ => some src
  | _ => none

/-- Who is paid. -/
def payee : Call → Option Address
  | .transfer _ dst _ | .transferFrom _ _ dst _ | .mint dst _ => some dst
  | _ => none

/-- Who draws on an allowance of the payer. -/
def spender : Call → Option Address
  | .transferFrom spender _ _ _ | .burnFrom spender _ _ => some spender
  | _ => none

/-- The amount of a call that moves the asset. -/
def amount : Call → ℤ
  | .transfer _ _ n | .transferFrom _ _ _ n | .burn _ n | .burnFrom _ _ n | .clawback _ n | .mint _ n => n
  | _ => 0

/-- Who has to authorize a call. -/
def signer (s : Storage) : Call → Option Address
  | .approve holder _ _ _ => some holder
  | .transfer src _ _ | .burn src _ => some src
  | .transferFrom spender _ _ _ | .burnFrom spender _ _ => some spender
  | .clawback .. | .setAuthorized .. | .mint .. | .setAdmin _ => s.admin

/-- The movement of the asset a call makes.  The issuer is outside the holders. -/
def movements (s : Storage) (c : Call) : List (Movement Address) :=
  Movement.between (c.payer.filter (¬ s.isIssuer ·)) (c.payee.filter (¬ s.isIssuer ·)) c.amount

end Call

variable {inv : Invocation} {s s' s₁ s₂ : Storage} {c : Call} {a : Address} {n : ℤ} {id : ℕ}
  {li : LedgerInfo}

/-- **A call that moves the asset**, by way of the storage `s₁` after it has drawn
    on an allowance and `s₂` after it has taken from the payer. -/
structure Moved (inv : Invocation) (c : Call) (s s₁ s₂ s' : Storage) : Prop where
  nonneg : 0 ≤ c.amount
  drawn : (c.spender.elim (.ok s) fun spender => c.payer.elim (.ok s) fun src =>
    spendAllowance inv.ledger src spender c.amount s) = .ok s₁
  paid : (c.payer.elim (.ok s₁) fun src =>
    spendBalanceNoAuthorizationCheck inv.ledger src c.amount s₁) = .ok s₂
  received : (c.payee.elim (.ok s₂) fun dst => receiveBalance inv.ledger dst c.amount s₂) = .ok s'
  authorized : ∀ src ∈ c.payer, c ≠ .clawback src c.amount → isAuthorized src s₁ = .ok true
  clawable : ∀ src, c = .clawback src c.amount → checkClawbackable src s = .ok ()

/-- What a successful call does. -/
inductive CallEffect (inv : Invocation) (s s' : Storage) : Call → Prop
  | approve {holder spender : Address} {n : ℤ} {liveUntil : ℕ} (nonneg : 0 ≤ n)
      (h : writeAllowance inv.ledger holder spender n liveUntil s = .ok s') :
      CallEffect inv s s' (.approve holder spender n liveUntil)
  | moved {c : Call} {s₁ s₂ : Storage} (h : Moved inv c s s₁ s₂ s') : CallEffect inv s s' c
  | setAuthorized {a : Address} {authorize : Bool} (h : writeAuthorization a authorize s = .ok s') :
      CallEffect inv s s' (.setAuthorized a authorize)
  | setAdmin {newAdmin : Address} (h : s' = { s with admin := some newAdmin }) :
      CallEffect inv s s' (.setAdmin newAdmin)

@[simp] theorem requireAuth_eq_ok {u : Unit} :
    requireAuth inv a = .ok u ↔ inv.authorized a = true := by
  simp [requireAuth]

@[simp] theorem checkNonnegativeAmount_eq_ok {u : Unit} :
    checkNonnegativeAmount n = .ok u ↔ 0 ≤ n := by
  simp [checkNonnegativeAmount]

/-- **Every call is authorized by its signer.** -/
theorem Call.signed (h : c.exec inv s = .ok s') : ∃ a, c.signer s = some a ∧ inv.authorized a = true := by
  cases c <;>
    simp only [exec, Asset.approve, Asset.transfer, Asset.transferFrom, Asset.burn, Asset.burnFrom,
      Asset.clawback, Asset.setAuthorized, Asset.mint, Asset.setAdmin, readAdministrator, bind_eq_ok,
      checkNonnegativeAmount_eq_ok, requireAuth_eq_ok, trapOr_eq_ok, exists_const] at h
  case approve | transfer | transferFrom =>
    exact ⟨_, rfl, h.2.1⟩
  case burn | burnFrom =>
    obtain ⟨-, -, -, -, -, h, -⟩ := h
    exact ⟨_, rfl, h⟩
  case clawback =>
    obtain ⟨-, -, -, -, -, admin, hadmin, h, -⟩ := h
    exact ⟨admin, hadmin, h⟩
  case setAuthorized | setAdmin =>
    obtain ⟨admin, hadmin, h, -⟩ := h
    exact ⟨admin, hadmin, h⟩
  case mint =>
    obtain ⟨-, -, -, admin, hadmin, h, -⟩ := h
    exact ⟨admin, hadmin, h⟩

/-- **What a successful call does.** -/
theorem Call.effect (h : c.exec inv s = .ok s') : CallEffect inv s s' c := by
  cases c with
  | approve holder spender n liveUntil =>
    simp only [exec, Asset.approve, bind_eq_ok, checkNonnegativeAmount_eq_ok, requireAuth_eq_ok,
      exists_const] at h
    exact .approve h.1 h.2.2
  | transfer src dst n =>
    simp only [exec, Asset.transfer, bind_eq_ok, checkNonnegativeAmount_eq_ok, requireAuth_eq_ok,
      exists_const, spendBalance_eq_ok] at h
    obtain ⟨hn, -, s₂, ⟨ha, hs⟩, hr⟩ := h
    exact .moved ⟨hn, rfl, hs, hr, fun a h _ => (by cases h; exact ha), fun _ h => (by cases h)⟩
  | transferFrom spender src dst n =>
    simp only [exec, Asset.transferFrom, bind_eq_ok, checkNonnegativeAmount_eq_ok, requireAuth_eq_ok,
      exists_const, spendBalance_eq_ok] at h
    obtain ⟨hn, -, s₁, hd, s₂, ⟨ha, hs⟩, hr⟩ := h
    exact .moved ⟨hn, hd, hs, hr, fun a h _ => (by cases h; exact ha), fun _ h => (by cases h)⟩
  | burn src n =>
    simp only [exec, Asset.burn, bind_eq_ok, checkNonnegativeAmount_eq_ok, exists_const,
      spendBalance_eq_ok] at h
    obtain ⟨hn, _, -, _, -, _, -, ha, hs⟩ := h
    exact .moved ⟨hn, rfl, hs, rfl, fun a h _ => (by cases h; exact ha), fun _ h => (by cases h)⟩
  | burnFrom spender src n =>
    simp only [exec, Asset.burnFrom, bind_eq_ok, checkNonnegativeAmount_eq_ok, exists_const,
      spendBalance_eq_ok] at h
    obtain ⟨hn, _, -, _, -, _, -, s₁, hd, ha, hs⟩ := h
    exact .moved ⟨hn, hd, hs, rfl, fun a h _ => (by cases h; exact ha), fun _ h => (by cases h)⟩
  | clawback src n =>
    simp only [exec, Asset.clawback, bind_eq_ok, checkNonnegativeAmount_eq_ok, exists_const] at h
    obtain ⟨hn, _, hc, _, -, _, -, _, -, hs⟩ := h
    exact .moved ⟨hn, rfl, hs, rfl, fun a h hne => (by cases h; exact absurd rfl hne),
      fun a h => (by cases h; exact hc)⟩
  | setAuthorized a authorize =>
    simp only [exec, Asset.setAuthorized, bind_eq_ok] at h
    obtain ⟨_, -, _, -, h⟩ := h
    exact .setAuthorized h
  | mint dst n =>
    simp only [exec, Asset.mint, bind_eq_ok, checkNonnegativeAmount_eq_ok, exists_const] at h
    obtain ⟨hn, _, -, _, -, _, -, hr⟩ := h
    exact .moved ⟨hn, rfl, rfl, hr, fun a h => (by cases h), fun _ h => (by cases h)⟩
  | setAdmin newAdmin =>
    simp only [exec, Asset.setAdmin, bind_eq_ok, pure_eq, Except.ok.injEq] at h
    obtain ⟨_, -, _, -, h⟩ := h
    exact .setAdmin h.symm

/-! ## Calls that move the asset -/

theorem Adds.holding_filter (h : Adds s s' a n) (x : Address) :
    s'.holding x = s.holding x + if (some a).filter (¬ s.isIssuer ·) = some x then n else 0 := by
  have hiff : (some a).filter (¬ s.isIssuer ·) = some x ↔ x = a ∧ ¬ s.isIssuer a := by
    rw [Option.filter_eq_some_iff]
    constructor
    · rintro ⟨hx, hi⟩
      obtain rfl := Option.some.inj hx
      exact ⟨rfl, of_decide_eq_true hi⟩
    · rintro ⟨rfl, hi⟩
      exact ⟨rfl, decide_eq_true hi⟩
  rw [h.holding x]
  simp only [hiff]

theorem mem_filter_holder {o : Option Address} : a ∈ o.filter (¬ s.isIssuer ·) ↔ o = some a ∧ ¬ s.isIssuer a := by
  simp [Option.mem_def, Option.filter_eq_some_iff]

namespace Moved

variable (h : Moved inv c s s₁ s₂ s')
include h

theorem frame : s₁ = { s with allowance := s₁.allowance } := by
  have hd := h.drawn
  cases hsp : c.spender with
  | none => rw [hsp] at hd; obtain rfl := Except.ok.inj hd; rfl
  | some spender =>
    cases hp : c.payer with
    | none => rw [hsp, hp] at hd; obtain rfl := Except.ok.inj hd; rfl
    | some src =>
      rw [hsp, hp] at hd
      obtain ⟨-, ⟨-, rfl⟩ | ⟨e, -, -, -, rfl⟩⟩ := spendAllowance_ok h.nonneg hd
      · rfl
      · rfl

theorem holding_drawn : s₁.holding = s.holding := by rw [h.frame]; rfl

theorem isIssuer_drawn : s₁.isIssuer a ↔ s.isIssuer a := by rw [h.frame]; rfl

theorem valid_drawn (hv : s.Valid) : s₁.Valid := by
  have hd := h.drawn
  refine { account := ?_, trustline := ?_, balance := ?_, allowance := ?_ }
  · rw [h.frame]; exact hv.account
  · rw [h.frame]; exact hv.trustline
  · rw [h.frame]; exact hv.balance
  · cases hsp : c.spender with
    | none => rw [hsp] at hd; obtain rfl := Except.ok.inj hd; exact hv.allowance
    | some spender =>
      cases hp : c.payer with
      | none => rw [hsp, hp] at hd; obtain rfl := Except.ok.inj hd; exact hv.allowance
      | some src =>
        rw [hsp, hp] at hd
        obtain ⟨hle, ⟨-, rfl⟩ | ⟨e, -, -, hread, rfl⟩⟩ := spendAllowance_ok h.nonneg hd
        · exact hv.allowance
        · intro x y e' he'
          by_cases hx : x = src
          · subst hx
            by_cases hy : y = spender
            · subst hy
              obtain rfl : _ = e' := by simpa using he'
              show 0 ≤ e.value.amount - c.amount
              omega
            · exact hv.allowance x y e' (by simpa [hy] using he')
          · exact hv.allowance x y e' (by simpa [hx] using he')

theorem paid_ok (hv : s.Valid) : s₂.Valid ∧ SameTerms s₁ s₂ ∧
    (∀ a ∈ c.payer.filter (¬ s.isIssuer ·), c.amount ≤ s.holding a) ∧
      ∀ x, s₂.holding x = s.holding x - if c.payer.filter (¬ s.isIssuer ·) = some x then c.amount else 0 := by
  have hpd := h.paid
  have hv₁ := h.valid_drawn hv
  cases hp : c.payer with
  | none =>
    rw [hp] at hpd
    obtain rfl := Except.ok.inj hpd
    exact ⟨hv₁, .refl _, fun a ha => by simp at ha, fun x => by simp [h.holding_drawn]⟩
  | some src =>
    rw [hp] at hpd
    obtain ⟨hadd, hv₂, hle⟩ := spendBalanceNoAuthorizationCheck_ok hv₁ h.nonneg hpd
    refine ⟨hv₂, hadd.terms, fun a ha => ?_, fun x => ?_⟩
    · obtain ⟨ha, hni⟩ := mem_filter_holder.1 ha
      cases ha
      rw [← h.holding_drawn]
      exact hle fun hi => hni (h.isIssuer_drawn.1 hi)
    · rw [hadd.holding_filter x, h.holding_drawn]
      simp only [h.isIssuer_drawn]
      split <;> omega

theorem received_ok (hv : s.Valid) : s'.Valid ∧ SameTerms s₁ s' ∧
    ∀ x, s'.holding x =
      s₂.holding x + if c.payee.filter (¬ s.isIssuer ·) = some x then c.amount else 0 := by
  have hr := h.received
  obtain ⟨hv₂, hterms, -, -⟩ := h.paid_ok hv
  cases hp : c.payee with
  | none =>
    rw [hp] at hr
    obtain rfl := Except.ok.inj hr
    exact ⟨hv₂, hterms, fun x => by simp⟩
  | some dst =>
    rw [hp] at hr
    obtain ⟨hadd, hv'⟩ := receiveBalance_ok hv₂ h.nonneg hr
    refine ⟨hv', hterms.trans hadd.terms, fun x => ?_⟩
    rw [hadd.holding_filter x]
    simp only [hterms.isIssuer, h.isIssuer_drawn]

end Moved

/-! ## Every call -/

theorem writeAllowance_frame {holder spender : Address} {liveUntil : ℕ}
    (h : writeAllowance li holder spender n liveUntil s = .ok s') :
    s' = { s with allowance := s'.allowance } := by
  obtain ⟨-, -, ⟨rfl, -⟩ | ⟨life, hw⟩⟩ := writeAllowance_ok h
  · rfl
  · rw [hw.write]; rfl

theorem writeAllowance_valid {holder spender : Address} {liveUntil : ℕ} (hv : s.Valid) (hn : 0 ≤ n)
    (h : writeAllowance li holder spender n liveUntil s = .ok s') : s'.Valid := by
  obtain ⟨-, -, ⟨rfl, -⟩ | ⟨life, hw⟩⟩ := writeAllowance_ok h
  · exact hv
  · rw [hw.write]
    refine { hv with allowance := fun x y e he => ?_ }
    by_cases hx : x = holder
    · subst hx
      by_cases hy : y = spender
      · subst hy
        obtain rfl : _ = e := by simpa using he
        exact hn
      · exact hv.allowance x y e (by simpa [hy] using he)
    · exact hv.allowance x y e (by simpa [hx] using he)

/-- **Every call keeps the storage valid, and moves what its movements say.** -/
theorem Call.accepts (hv : s.Valid) (h : c.exec inv s = .ok s') :
    s'.Valid ∧ Movement.machine.Accepts s.holding (c.movements s) s'.holding := by
  have he := Call.effect h
  clear h
  cases he with
  | approve hn h =>
    refine ⟨writeAllowance_valid hv hn h, Machine.accepts_nil.2 ?_⟩
    rw [writeAllowance_frame h]; rfl
  | moved h =>
    obtain ⟨-, -, hle, hpaid⟩ := h.paid_ok hv
    obtain ⟨hv', -, hrec⟩ := h.received_ok hv
    exact ⟨hv', Movement.accepts_between h.nonneg hle fun x => by rw [hrec, hpaid]⟩
  | setAuthorized h =>
    obtain ⟨hv', hh, -⟩ := writeAuthorization_ok hv h
    exact ⟨hv', Machine.accepts_nil.2 hh.symm⟩
  | setAdmin h =>
    subst h
    exact ⟨{ hv with }, Machine.accepts_nil.2 rfl⟩

/-! ## The entry of a contract -/

theorem isAuthorized_contract {v : BalanceValue} (hb : s.balance id = some v) :
    isAuthorized (.contract id) s = .ok v.authorized := by
  simp only [isAuthorized, hb]

/-- **The entry of a contract stays, with the flags it has**; only its
    administrator's word changes whether it is authorized, and only a revocable
    asset can be withdrawn. -/
theorem Call.entry {v : BalanceValue} (hv : s.Valid) (hb : s.balance id = some v)
    (h : c.exec inv s = .ok s') : ∃ v', s'.balance id = some v' ∧ v'.clawback = v.clawback ∧
      (v'.authorized = v.authorized ∨ c = .setAuthorized (.contract id) v'.authorized ∧
        (v'.authorized = false → isAssetAuthRevocable s = .ok true)) := by
  have he := Call.effect h
  clear h
  cases he with
  | approve hn h =>
    rw [writeAllowance_frame h]
    exact ⟨v, hb, rfl, .inl rfl⟩
  | moved h =>
    obtain ⟨-, hterms, -⟩ := h.received_ok hv
    obtain ⟨v', hb', ha, hc⟩ := hterms.balanceFlags id v (by rw [h.frame]; exact hb)
    exact ⟨v', hb', hc, .inl ha⟩
  | setAuthorized h =>
    rename_i a authorize
    cases a with
    | account key =>
      obtain ⟨tl, flags, -, rfl | rfl⟩ := writeAuthorization_account h
      · exact ⟨v, hb, rfl, .inl rfl⟩
      · exact ⟨v, hb, rfl, .inl rfl⟩
    | contract j =>
      have hrev := writeAuthorization_revocable h
      obtain ⟨w, hw, rfl⟩ := writeAuthorization_contract h
      by_cases hj : id = j
      · subst hj
        obtain hw | ⟨hw, -⟩ := hw
        · obtain rfl : v = w := Option.some.inj (hb.symm.trans hw)
          exact ⟨{ v with authorized := authorize }, by simp, rfl, .inr ⟨rfl, hrev⟩⟩
        · rw [hb] at hw; cases hw
      · exact ⟨v, by simpa [hj] using hb, rfl, .inl rfl⟩
  | setAdmin h =>
    subst h
    exact ⟨v, hb, rfl, .inl rfl⟩

/-- What a call claws back from `a`. -/
def Call.clawedBack (a : Address) : Call → ℤ
  | .clawback src n => if src = a then n else 0
  | _ => 0

/-- **A deauthorized contract loses what is clawed back, and nothing else.** -/
theorem Call.frozen {v : BalanceValue} (hv : s.Valid) (hb : s.balance id = some v)
    (ha : v.authorized = false) (h : c.exec inv s = .ok s') :
    s'.holding (.contract id) = s.holding (.contract id) - c.clawedBack (.contract id) := by
  have he := Call.effect h
  clear h
  cases he with
  | approve hn h =>
    rw [writeAllowance_frame h]
    simp [Storage.holding, clawedBack]
  | moved h =>
    obtain ⟨-, hterms, -, hpaid⟩ := h.paid_ok hv
    obtain ⟨-, -, hrec⟩ := h.received_ok hv
    obtain ⟨v₂, hb₂, ha₂, -⟩ := hterms.balanceFlags id v (by rw [h.frame]; exact hb)
    have hpayee : c.payee.filter (¬ s.isIssuer ·) ≠ some (.contract id) := by
      intro hp
      have hr := h.received
      rw [(mem_filter_holder.1 hp).1] at hr
      have hauth := receiveBalance_authorized (show receiveBalance inv.ledger _ _ _ = _ from hr)
      rw [isAuthorized_contract hb₂, ha₂, ha] at hauth
      cases hauth
    rw [hrec, hpaid, if_neg hpayee, add_zero]
    congr 1
    by_cases hp : c.payer = some (.contract id)
    · have hfilter : c.payer.filter (¬ s.isIssuer ·) = some (.contract id) :=
        mem_filter_holder.2 ⟨hp, Storage.not_isIssuer_contract⟩
      rw [if_pos hfilter]
      by_cases hc : c = .clawback (.contract id) c.amount
      · rw [hc]; simp [clawedBack, amount]
      · have hauth := h.authorized _ hp hc
        rw [isAuthorized_contract (by rw [h.frame]; exact hb), ha] at hauth
        cases hauth
    · have hfilter : c.payer.filter (¬ s.isIssuer ·) ≠ some (.contract id) :=
        fun hf => hp (mem_filter_holder.1 hf).1
      rw [if_neg hfilter]
      cases c <;> simp only [clawedBack, payer, Option.some.injEq] at hp ⊢
      rw [if_neg hp]
  | setAuthorized h =>
    obtain ⟨-, hh, -⟩ := writeAuthorization_ok hv h
    rw [hh]; simp [clawedBack]
  | setAdmin h =>
    subst h
    simp [Storage.holding, clawedBack]

theorem Call.issuerFlag (hv : s.Valid) (h : c.exec inv s = .ok s') (flag : BitVec 32) :
    s'.assetInfo = s.assetInfo ∧ isAssetIssuerFlagSet flag s' = isAssetIssuerFlagSet flag s := by
  have he := Call.effect h
  clear h
  cases he with
  | approve hn h => rw [writeAllowance_frame h]; exact ⟨rfl, rfl⟩
  | moved h =>
    obtain ⟨-, hterms, -⟩ := h.received_ok hv
    rw [hterms.issuerFlag, hterms.assetInfo, h.frame]
    exact ⟨rfl, rfl⟩
  | setAuthorized h =>
    obtain ⟨-, -, hi, -, -, hacc⟩ := writeAuthorization_ok hv h
    refine ⟨hi, ?_⟩
    unfold isAssetIssuerFlagSet
    rw [hi, hacc]
  | setAdmin h => subst h; exact ⟨rfl, rfl⟩

/-! ## Runs -/

/-- The current ledger, and the storage of the asset contract in it. -/
structure Chain where
  ledger : LedgerInfo
  storage : Storage

/-- What happens to the asset. -/
inductive Action where
  /-- a call, and who authorizes it -/
  | call (authorized : Address → Bool) (c : Call)
  /-- `n` ledgers close; `settings` are those of the new one, its sequence number aside -/
  | close (n : ℕ) (settings : LedgerInfo)
  /-- a classic operation changes an account -/
  | setAccount (key : ℕ) (ae : Option AccountEntry) (valid : ∀ x ∈ ae, x.Valid)
  /-- a classic operation changes a trustline -/
  | setTrustline (key : ℕ) (tl : Option TrustLineEntry) (valid : ∀ x ∈ tl, x.Valid)

/-- The asset contract, its ledger and the classic operations around it. -/
def machine : Machine Chain Action (Fault ContractError HostFault) where
  step w
    | .call authorized c => do return { w with storage := ← c.exec ⟨w.ledger, authorized⟩ w.storage }
    | .close n settings =>
      .ok { w with ledger := { settings with sequenceNumber := w.ledger.sequenceNumber + n } }
    | .setAccount key ae _ => .ok { w with storage := w.storage.setAccount key ae }
    | .setTrustline key tl _ => .ok { w with storage := w.storage.setTrustline key tl }

theorem machine_call {w w' : Chain} {authorized : Address → Bool} :
    machine.step w (.call authorized c) = .ok w' ↔
      w'.ledger = w.ledger ∧ c.exec ⟨w.ledger, authorized⟩ w.storage = .ok w'.storage := by
  simp only [machine, bind_eq_ok, pure_eq, Except.ok.injEq]
  constructor
  · rintro ⟨s, h, rfl⟩
    exact ⟨rfl, h⟩
  · rintro ⟨hl, h⟩
    exact ⟨_, h, by rw [← hl]⟩

/-- What a classic operation adds to the holding of an account, or takes from it. -/
def classic (key : ℕ) (s s' : Storage) : List (Movement Address) :=
  Movement.adjust (.account key) (s.holding (.account key)) (s'.holding (.account key))

/-- The movements of the asset in a step. -/
def movements (t : machine.Step) : List (Movement Address) :=
  match t.act with
  | .call _ c => c.movements t.pre.storage
  | .close .. => []
  | .setAccount key _ _ | .setTrustline key _ _ => classic key t.pre.storage t.post.storage

/-- A valid storage, and its holdings. -/
def Shows (w : Chain) (f : Address → ℤ) : Prop := w.storage.Valid ∧ w.storage.holding = f

/-- **The movements explain the holdings.** -/
theorem explained : Machine.Explains machine Movement.machine movements Shows where
  step := by
    rintro ⟨w, act, w', h⟩ _ ⟨hv, rfl⟩
    cases act with
    | call authorized c =>
      obtain ⟨hv', hacc⟩ := Call.accepts hv (machine_call.1 h).2
      exact ⟨_, hacc, hv', rfl⟩
    | close n settings =>
      obtain rfl := Except.ok.inj h
      exact ⟨_, Machine.accepts_nil.2 rfl, hv, rfl⟩
    | setAccount key ae valid =>
      obtain rfl := Except.ok.inj h
      have hv' : (w.storage.setAccount key ae).Valid :=
        { hv with
          account := fun k x hx => by
            by_cases hk : k = key
            · subst hk; exact valid x (by simpa using hx)
            · exact hv.account k x (by simpa [hk] using hx) }
      refine ⟨_, Movement.accepts_adjust (hv'.holding_nonneg (.account key)) fun x hx => ?_, hv', rfl⟩
      cases x with
      | contract => rfl
      | account k =>
        have hk : k ≠ key := fun hk => hx (by rw [hk])
        simp [Storage.holding, hk]
    | setTrustline key tl valid =>
      obtain rfl := Except.ok.inj h
      have hv' : (w.storage.setTrustline key tl).Valid :=
        { hv with
          trustline := fun k x hx => by
            by_cases hk : k = key
            · subst hk; exact valid x (by simpa using hx)
            · exact hv.trustline k x (by simpa [hk] using hx) }
      refine ⟨_, Movement.accepts_adjust (hv'.holding_nonneg (.account key)) fun x hx => ?_, hv', rfl⟩
      cases x with
      | contract => rfl
      | account k =>
        have hk : k ≠ key := fun hk => hx (by rw [hk])
        simp [Storage.holding, hk]

end Asset

end TogetherFi
