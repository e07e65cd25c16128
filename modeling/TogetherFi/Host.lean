/-
  The host as the contracts see it: addresses, checked integers, authorization,
  time to live, and the token contracts.

  * An `Env` is what one invocation can ask the host: its own contract address,
    the ledger timestamp and sequence number, which addresses authorize it, how
    contract addresses derive from a deployer and a salt, and what is deployed
    at an address it calls.
  * The tokens are plain conserving ledgers, one for each token contract, and
    `log` records every transfer.  `Tokens.After t ts t'` says that `t'` is `t`
    after exactly the transfers `ts`.
-/
import Mathlib
import TogetherFi.Lib.Outcome
import TogetherFi.Lib.Ledger
import TogetherFi.Lib.Pace

namespace TogetherFi

open Outcome Function

/-- An account or a contract. -/
inductive Address where
  | account (key : ℕ)
  | contract (id : ℕ)
  deriving DecidableEq, Repr

/-- `BytesN<32>` -/
abbrev BytesN32 := BitVec 256

/-- What the host stops an invocation for. -/
inductive HostError where
  /-- a `require_auth` that is not satisfied -/
  | auth
  /-- a token transfer the source does not hold -/
  | token
  /-- an overflow of a plain operator (`overflow-checks = true`) -/
  | arithmetic
  /-- an `unwrap` of a missing entry -/
  | missing
  /-- a call to an address that does not answer it -/
  | call
  /-- the error code of a contract called by this one -/
  | callee (code : ℕ)
  deriving DecidableEq, Repr

/-! ## Checked integers -/

/-- `i128::MAX` -/
def i128Max : ℤ := 2 ^ 127 - 1

/-- The integers an `i128` represents. -/
def InI128 (x : ℤ) : Prop := -(2 ^ 127) ≤ x ∧ x ≤ i128Max

instance (x : ℤ) : Decidable (InI128 x) := inferInstanceAs (Decidable (_ ∧ _))

/-- The result of a `checked_` operation. -/
def checkedI128 (x : ℤ) : Option ℤ := if InI128 x then some x else none

/-- The result of a plain operator on `i128`. -/
def plainI128 {ε : Type} (x : ℤ) : Outcome ε HostError ℤ := trapOr (checkedI128 x) .arithmetic

/-- `a + b` on `u64` -/
def plainAddU64 {ε : Type} (a b : UInt64) : Outcome ε HostError UInt64 :=
  if a.toNat + b.toNat < 2 ^ 64 then .ok (a + b) else .error (.host .arithmetic)

theorem checkedI128_eq_some {x y : ℤ} : checkedI128 x = some y ↔ InI128 x ∧ y = x := by
  unfold checkedI128
  split <;> simp_all [eq_comm]

@[simp] theorem plainI128_eq_ok {ε : Type} {x y : ℤ} :
    (plainI128 x : Outcome ε HostError ℤ) = .ok y ↔ InI128 x ∧ y = x := by
  simp [plainI128, checkedI128_eq_some]

@[simp] theorem plainAddU64_eq_ok {ε : Type} {a b c : UInt64} :
    (plainAddU64 a b : Outcome ε HostError UInt64) = .ok c ↔
      a.toNat + b.toNat < 2 ^ 64 ∧ c = a + b := by
  unfold plainAddU64
  split <;> simp_all [eq_comm]

theorem inI128_of_nonneg {x : ℤ} (h : 0 ≤ x) (h' : x ≤ i128Max) : InI128 x := ⟨by omega, h'⟩

/-! ## The environment of an invocation -/

/-- What contracts outside the system answer when they are called as pools. -/
structure Foreign where
  escrowContract : Address → Option Address
  tokenContract : Address → Option Address
  recordCredit : Address → UInt64 → ℤ → Bool

/-- What an invocation can ask the host. -/
structure Env where
  /-- `env.current_contract_address()` -/
  self : Address
  /-- `env.ledger().timestamp()` -/
  timestamp : UInt64
  /-- `env.ledger().sequence()` -/
  sequence : ℕ
  /-- the addresses that authorize this invocation and the calls under it -/
  authorized : Address → Bool
  /-- `env.deployer().with_address(deployer, salt).deployed_address()` -/
  deployedAddress : Address → BytesN32 → Address
  /-- the addresses at which a `ContributorPool` is deployed -/
  isPool : Address → Bool
  /-- the contracts at all other addresses -/
  foreign : Foreign

section
variable {ε : Type}

/-- `a.require_auth()` -/
def requireAuth (env : Env) (a : Address) : Outcome ε HostError Unit :=
  trapUnless (env.authorized a) .auth

/-- `if p { a.require_auth() }` -/
def requireAuthIf (p : Prop) [Decidable p] (env : Env) (a : Address) : Outcome ε HostError Unit :=
  if p then requireAuth env a else .ok ()

@[simp] theorem requireAuth_eq_ok {env : Env} {a : Address} {u : Unit} :
    (requireAuth env a : Outcome ε HostError Unit) = .ok u ↔ env.authorized a = true := by
  simp [requireAuth]

@[simp] theorem requireAuthIf_eq_ok {p : Prop} [Decidable p] {env : Env} {a : Address} {u : Unit} :
    (requireAuthIf p env a : Outcome ε HostError Unit) = .ok u ↔ (p → env.authorized a = true) := by
  unfold requireAuthIf; split <;> simp_all

end

/-! ## Time to live -/

/-- `TTL`: the ledgers an extension keeps an entry alive. -/
def ttl : ℕ := 700000

/-- `extend_ttl(key, TTL, TTL)`: the entry lives at least `TTL` more ledgers,
    and no extension shortens its life. -/
def extendTtl {K : Type} [DecidableEq K] (env : Env) (live : K → ℕ) (k : K) : K → ℕ :=
  update live k (max (live k) (env.sequence + ttl))

/-- The lives after all entries `ks` are extended at the ledger `sequence`. -/
def extendAll {K : Type} [DecidableEq K] (sequence : ℕ) (ks : List K) (live : K → ℕ) : K → ℕ :=
  fun k => if k ∈ ks then max (live k) (sequence + ttl) else live k

section
variable {K : Type} [DecidableEq K]

@[simp] theorem extendAll_nil (sequence : ℕ) (live : K → ℕ) : extendAll sequence [] live = live := by
  funext k
  simp [extendAll]

theorem foldl_extendTtl (env : Env) (ks : List K) (live : K → ℕ) :
    ks.foldl (extendTtl env) live = extendAll env.sequence ks live := by
  induction ks generalizing live with
  | nil => simp
  | cons k ks ih =>
    rw [List.foldl_cons, ih]
    funext j
    unfold extendAll extendTtl
    by_cases h : j = k
    · subst h; simp
    · simp [h]

theorem extendAll_congr {ks ks' : List K} (h : ∀ k, k ∈ ks ↔ k ∈ ks') (sequence : ℕ) (live : K → ℕ) :
    extendAll sequence ks live = extendAll sequence ks' live := by
  funext k
  simp only [extendAll, h]

theorem le_extendAll (sequence : ℕ) (ks : List K) (live : K → ℕ) (k : K) :
    live k ≤ extendAll sequence ks live k := by
  unfold extendAll
  split
  · exact le_max_left _ _
  · exact le_rfl

theorem extendAll_ge {ks : List K} {k : K} (h : k ∈ ks) (sequence : ℕ) (live : K → ℕ) :
    sequence + ttl ≤ extendAll sequence ks live k := by
  rw [extendAll, if_pos h]
  exact le_max_right _ _

/-- The seconds a ledger takes at least: the cadence `TTL` is chosen for. -/
def cadence : ℕ := 5

/-- The clock of the ledger. -/
def Env.clock (env : Env) : Clock := ⟨env.timestamp.toNat, env.sequence⟩

theorem extendAll_outlasts {ks : List K} {k : K} (h : k ∈ ks) {c : Clock} {d : ℕ}
    (hd : d ≤ c.time + cadence * (ttl + 1)) (live : K → ℕ) :
    Clock.Outlasts cadence c (extendAll c.ledger ks live k) d :=
  (Clock.Outlasts.renewed hd).mono (extendAll_ge h ..)

theorem extendAll_comm (sequence : ℕ) (ks ks' : List K) (live : K → ℕ) :
    extendAll sequence ks (extendAll sequence ks' live) =
      extendAll sequence ks' (extendAll sequence ks live) := by
  funext k
  simp only [extendAll]
  split_ifs <;> rfl

end

/-! ## Tokens -/

/-- One transfer of a token. -/
structure Transfer where
  token : Address
  src : Address
  dst : Address
  amount : ℤ
  deriving DecidableEq, Repr

/-- The balances kept by each token contract, and every transfer made. -/
structure Tokens where
  ledger : Address → Ledger Address i128Max
  log : List Transfer

/-- What `a` received of `token` in the transfers `ts`. -/
def received (ts : List Transfer) (token a : Address) : ℤ :=
  (ts.map fun e => if e.token = token ∧ e.dst = a then e.amount else 0).sum

/-- What `a` sent of `token` in the transfers `ts`. -/
def sent (ts : List Transfer) (token a : Address) : ℤ :=
  (ts.map fun e => if e.token = token ∧ e.src = a then e.amount else 0).sum

section
variable (ts us : List Transfer) (e : Transfer) (token a : Address)

@[simp] theorem received_nil : received [] token a = 0 := rfl

@[simp] theorem sent_nil : sent [] token a = 0 := rfl

@[simp] theorem received_cons : received (e :: ts) token a =
    (if e.token = token ∧ e.dst = a then e.amount else 0) + received ts token a := rfl

@[simp] theorem sent_cons : sent (e :: ts) token a =
    (if e.token = token ∧ e.src = a then e.amount else 0) + sent ts token a := rfl

theorem received_append : received (ts ++ us) token a = received ts token a + received us token a := by
  simp [received]

theorem sent_append : sent (ts ++ us) token a = sent ts token a + sent us token a := by
  simp [sent]

variable {ts us}

theorem received_perm (h : ts.Perm us) : received ts token a = received us token a :=
  (h.map _).sum_eq

theorem sent_perm (h : ts.Perm us) : sent ts token a = sent us token a :=
  (h.map _).sum_eq

theorem received_nonneg (h : ∀ e ∈ ts, 0 ≤ e.amount) : 0 ≤ received ts token a := by
  refine List.sum_nonneg fun x hx => ?_
  obtain ⟨e, he, rfl⟩ := List.mem_map.1 hx
  split
  · exact h e he
  · exact le_rfl

theorem sent_eq_zero {a : Address} (h : ∀ e ∈ ts, e.src ≠ a) : sent ts token a = 0 := by
  refine List.sum_eq_zero fun x hx => ?_
  obtain ⟨e, he, rfl⟩ := List.mem_map.1 hx
  exact if_neg fun hc => h e he hc.2

end

namespace Tokens

/-- `token.balance(a)` -/
def balance (t : Tokens) (token a : Address) : ℤ := (t.ledger token).balance a

/-- `token.transfer(src, dst, amount)`: the source authorizes it, and a contract
    authorizes the transfers it makes itself. -/
def transfer {ε : Type} (env : Env) (t : Tokens) (token src dst : Address) (amount : ℤ) :
    Outcome ε HostError Tokens := do
  trapUnless (src = env.self ∨ env.authorized src) .auth
  let l ← trapOr ((t.ledger token).transfer src dst amount) .token
  return { ledger := update t.ledger token l, log := t.log ++ [⟨token, src, dst, amount⟩] }

theorem balance_nonneg (t : Tokens) (token a : Address) : 0 ≤ t.balance token a :=
  (t.ledger token).nonneg a

theorem balance_le (t : Tokens) (token a : Address) : t.balance token a ≤ i128Max :=
  (t.ledger token).balance_le a

/-- `t'` is `t` after exactly the transfers `ts`. -/
structure After (t : Tokens) (ts : List Transfer) (t' : Tokens) : Prop where
  log : t'.log = t.log ++ ts
  balance : ∀ token a, t'.balance token a = t.balance token a + received ts token a - sent ts token a

theorem After.refl (t : Tokens) : t.After [] t := ⟨by simp, by simp⟩

theorem After.trans {t₁ t₂ t₃ : Tokens} {ts us : List Transfer} (h₁ : t₁.After ts t₂)
    (h₂ : t₂.After us t₃) : t₁.After (ts ++ us) t₃ := by
  refine ⟨by rw [h₂.log, h₁.log, List.append_assoc], fun token a => ?_⟩
  rw [h₂.balance, h₁.balance, received_append, sent_append]
  omega

/-- The order of transfers does not matter to the balances. -/
theorem After.balance_eq {t t₁ t₂ : Tokens} {ts us : List Transfer} (h₁ : t.After ts t₁)
    (h₂ : t.After us t₂) (h : ts.Perm us) : t₁.balance = t₂.balance := by
  funext token a
  rw [h₁.balance, h₂.balance, received_perm token a h, sent_perm token a h]

theorem After.balance_ge {t t' : Tokens} {ts : List Transfer} (h : t.After ts t')
    (hpos : ∀ e ∈ ts, 0 ≤ e.amount) (token a : Address) :
    t.balance token a - sent ts token a ≤ t'.balance token a := by
  have := received_nonneg token a hpos
  rw [h.balance]; omega

theorem After.balance_mono {t t' : Tokens} {ts : List Transfer} (h : t.After ts t')
    (hpos : ∀ e ∈ ts, 0 ≤ e.amount) {a : Address} (hsrc : ∀ e ∈ ts, e.src ≠ a) (token : Address) :
    t.balance token a ≤ t'.balance token a := by
  have := h.balance_ge hpos token a
  rw [sent_eq_zero token hsrc] at this; omega

/-- The tokens are determined by where they started and what was transferred. -/
theorem After.unique {t t₁ t₂ : Tokens} {ts : List Transfer} (h₁ : t.After ts t₁)
    (h₂ : t.After ts t₂) : t₁ = t₂ := by
  obtain ⟨l₁, log₁⟩ := t₁
  obtain ⟨l₂, log₂⟩ := t₂
  have hlog : log₁ = log₂ := h₁.log.trans h₂.log.symm
  have hledger : l₁ = l₂ := by
    funext token
    exact Ledger.ext (funext fun a => (h₁.balance token a).trans (h₂.balance token a).symm)
  rw [hlog, hledger]

variable {ε : Type} {env : Env} {t t' : Tokens} {token src dst : Address} {amount : ℤ}

theorem balance_update (l : Ledger Address i128Max) (log : List Transfer) (token' a : Address) :
    balance ⟨update t.ledger token l, log⟩ token' a =
      if token' = token then l.balance a else t.balance token' a := by
  unfold balance
  by_cases h : token' = token
  · subst h; simp
  · simp [h]

theorem transfer_eq_ok : (t.transfer env token src dst amount : Outcome ε HostError Tokens) = .ok t' ↔
    (src = env.self ∨ env.authorized src = true) ∧ 0 ≤ amount ∧ amount ≤ t.balance token src ∧
      t.After [⟨token, src, dst, amount⟩] t' := by
  simp only [transfer, bind_eq_ok, trapUnless_eq_ok, trapOr_eq_ok, Ledger.transfer_eq_some, pure_eq,
    Except.ok.injEq]
  have hafter : ∀ l : Ledger Address i128Max,
      l.balance = Ledger.move (t.ledger token).balance src dst amount →
      t.After [⟨token, src, dst, amount⟩]
        ⟨update t.ledger token l, t.log ++ [⟨token, src, dst, amount⟩]⟩ := by
    refine fun l hl => ⟨rfl, fun token' a => ?_⟩
    rw [balance_update]
    by_cases h : token' = token
    · subst h
      simp only [if_true, hl, Ledger.move, received_cons, sent_cons, received_nil, sent_nil,
        true_and, balance, eq_comm (a := src), eq_comm (a := dst)]
      omega
    · simp [h, Ne.symm h]
  constructor
  · rintro ⟨_, hauth, l, ⟨h₀, h₁, hl⟩, rfl⟩
    exact ⟨hauth, h₀, h₁, hafter l hl⟩
  · rintro ⟨hauth, h₀, h₁, ht⟩
    obtain ⟨l, hl⟩ := Ledger.transfer_succeeds h₀ h₁ dst
    have hl := (Ledger.transfer_eq_some.1 hl).2.2
    exact ⟨(), hauth, l, ⟨h₀, h₁, hl⟩, (hafter l hl).unique ht⟩

/-- **A transfer succeeds when the source authorizes it and holds the amount.** -/
theorem transfer_succeeds (env : Env) (t : Tokens) (token src dst : Address)
    (hauth : src = env.self ∨ env.authorized src = true) (h₀ : 0 ≤ amount)
    (h₁ : amount ≤ t.balance token src) :
    ∃ t', (t.transfer env token src dst amount : Outcome ε HostError Tokens) = .ok t' ∧
      t.After [⟨token, src, dst, amount⟩] t' := by
  obtain ⟨l, hl⟩ := Ledger.transfer_succeeds (l := t.ledger token) h₀ h₁ dst
  have : (t.transfer env token src dst amount : Outcome ε HostError Tokens) =
      .ok ⟨update t.ledger token l, t.log ++ [⟨token, src, dst, amount⟩]⟩ := by
    simp [transfer, trapUnless, trapOr, hl, hauth]
  exact ⟨_, this, (transfer_eq_ok.1 this).2.2.2⟩

end Tokens

end TogetherFi
