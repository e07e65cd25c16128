/-
  The deployed system: one escrow, the pools, the tokens and the ledger clock.

  An `Action` is one invocation from outside: a call of the escrow or of a pool
  by whoever signs it, a direct token transfer by a third party, an
  intervention of a token issuer, or the close of a ledger.  An `Execution` is
  any list of actions from a genesis state, in which the contracts are deployed
  and nothing is initialized.  `Effect` says what an action that took effect
  did; it is the only way the other modules look at a step.
-/
import TogetherFi.Lib.Run
import TogetherFi.Escrow.Effect

namespace TogetherFi

open Outcome Function Escrow Pool

/-! ## Deployment and world -/

/-- What is fixed of a deployed system.  Every contract address derives from
    the deployer and the salt of its creation. -/
structure Deployment where
  escrow : Address
  isPool : Address → Bool
  escrow_not_pool : isPool escrow = false
  deployedAddress : Address → BytesN32 → Address
  deployer : Address → Address
  salt : Address → BytesN32
  created : ∀ c, c = escrow ∨ isPool c = true → deployedAddress (deployer c) (salt c) = c
  injective : ∀ {d k d' k'}, deployedAddress d k = deployedAddress d' k' → d = d' ∧ k = k'

/-- The ledger: its time, the contracts and the tokens. -/
structure World where
  timestamp : UInt64
  sequence : ℕ
  escrow : EscrowStorage
  pools : Pools
  tokens : Tokens

/-- One invocation from outside. -/
inductive Action where
  /-- a call of the escrow, authorized by `signers`; `foreign` is what contracts
      outside the system answer during it -/
  | escrow (signers : Address → Bool) (foreign : Foreign) (call : EscrowCall)
  /-- a call of a pool -/
  | pool (pool : Address) (signers : Address → Bool) (call : PoolCall)
  /-- a token transfer by an outside holder -/
  | transfer (token src dst : Address) (amount : ℤ)
  /-- the issuer of `token` changes the balances, for example by a clawback -/
  | issuer (token : Address) (ledger : Ledger Address i128Max)
  /-- the close of a ledger -/
  | close (timestamp : UInt64) (sequence : ℕ)

/-- Why an action has no effect. -/
inductive Rejected where
  | escrow (fault : Fault EscrowError HostError)
  | pool (fault : Fault PoolError HostError)
  | token
  | clock
  /-- no contract of the system at this address -/
  | absent

/-- Whether the issuer acts. -/
def Action.isIssuer : Action → Bool
  | .issuer .. => true
  | _ => false

/-- The contract an action calls. -/
def Action.callee (escrow : Address) : Action → Option Address
  | .escrow .. => some escrow
  | .pool p .. => some p
  | _ => none

/-- Contracts that answer nothing. -/
def Foreign.silent : Foreign where
  escrowContract := fun _ => none
  tokenContract := fun _ => none
  recordCredit := fun _ _ _ => false

namespace Deployment

variable (D : Deployment)

/-- The contracts of the system. -/
def isSystem (c : Address) : Bool := decide (c = D.escrow) || D.isPool c

/-- The environment of an invocation of `self`.  The contracts of the system
    authorize only the calls they make themselves. -/
def env (w : World) (self : Address) (signers : Address → Bool) (foreign : Foreign) : Env where
  self := self
  timestamp := w.timestamp
  sequence := w.sequence
  authorized := fun a => signers a && !D.isSystem a
  deployedAddress := D.deployedAddress
  isPool := D.isPool
  foreign := foreign

/-- What an action does to the world. -/
def step (w : World) : Action → Except Rejected World
  | .escrow signers foreign call => do
    let (s, pools, t) ←
      (call.exec (D.env w D.escrow signers foreign) w.escrow w.pools w.tokens).mapError .escrow
    return { w with escrow := s, pools := pools, tokens := t }
  | .pool p signers call =>
    if D.isPool p then do
      let (s, t) ← (call.exec (D.env w p signers .silent) (w.pools p) w.tokens).mapError .pool
      return { w with pools := update w.pools p s, tokens := t }
    else .error .absent
  | .transfer token src dst amount =>
    if D.isSystem src then .error .token
    else match (w.tokens.ledger token).transfer src dst amount with
      | some l => .ok { w with tokens :=
          ⟨update w.tokens.ledger token l, w.tokens.log ++ [⟨token, src, dst, amount⟩]⟩ }
      | none => .error .token
  | .issuer token ledger =>
    .ok { w with tokens := ⟨update w.tokens.ledger token ledger, w.tokens.log⟩ }
  | .close timestamp sequence =>
    if w.timestamp ≤ timestamp ∧ w.sequence ≤ sequence then
      .ok { w with timestamp := timestamp, sequence := sequence }
    else .error .clock

/-- The system. -/
def machine : Machine World Action Rejected := ⟨D.step⟩

/-- An action that took effect. -/
abbrev Step := Machine.Step D.machine

/-- The contracts are deployed, nothing is initialized, and no contract of the
    system has received a token yet. -/
structure Genesis (w : World) : Prop where
  escrow : ∃ live, w.escrow = .empty live
  pools : ∀ p, ∃ live, w.pools p = .empty live
  log : w.tokens.log = []
  balance : ∀ token c, D.isSystem c = true → w.tokens.balance token c = 0

variable {D}

theorem step_escrow {w : World} {signers : Address → Bool} {foreign : Foreign} {call : EscrowCall}
    {s : EscrowStorage} {pools : Pools} {t : Tokens}
    (h : call.exec (D.env w D.escrow signers foreign) w.escrow w.pools w.tokens = .ok (s, pools, t)) :
    D.step w (.escrow signers foreign call) =
      .ok { w with escrow := s, pools := pools, tokens := t } := by
  simp [step, h, Except.mapError]

theorem step_escrow_error {w : World} {signers : Address → Bool} {foreign : Foreign}
    {call : EscrowCall} {e : Fault EscrowError HostError}
    (h : call.exec (D.env w D.escrow signers foreign) w.escrow w.pools w.tokens = .error e) :
    D.step w (.escrow signers foreign call) = .error (.escrow e) := by
  simp only [step, h]
  rfl

theorem step_pool {w : World} {p : Address} {signers : Address → Bool} {call : PoolCall}
    {s : PoolStorage} {t : Tokens} (hp : D.isPool p = true)
    (h : call.exec (D.env w p signers .silent) (w.pools p) w.tokens = .ok (s, t)) :
    D.step w (.pool p signers call) = .ok { w with pools := update w.pools p s, tokens := t } := by
  simp [step, hp, h, Except.mapError]

theorem step_escrow_ok {w w' : World} {signers : Address → Bool} {foreign : Foreign}
    {call : EscrowCall} (h : D.step w (.escrow signers foreign call) = .ok w') :
    ∃ s pools t, call.exec (D.env w D.escrow signers foreign) w.escrow w.pools w.tokens =
        .ok (s, pools, t) ∧
      w' = { w with escrow := s, pools := pools, tokens := t } := by
  simp only [step, bind_eq_ok, mapError_eq_ok, pure_eq, Except.ok.injEq, Prod.exists] at h
  obtain ⟨s, pools, t, h, rfl⟩ := h
  exact ⟨s, pools, t, h, rfl⟩

theorem step_pool_ok {w w' : World} {p : Address} {signers : Address → Bool} {call : PoolCall}
    (h : D.step w (.pool p signers call) = .ok w') :
    D.isPool p = true ∧ ∃ s t, call.exec (D.env w p signers .silent) (w.pools p) w.tokens =
        .ok (s, t) ∧
      w' = { w with pools := update w.pools p s, tokens := t } := by
  simp only [step] at h
  split at h
  · rename_i hp
    simp only [bind_eq_ok, mapError_eq_ok, pure_eq, Except.ok.injEq, Prod.exists] at h
    obtain ⟨s, t, h, rfl⟩ := h
    exact ⟨hp, s, t, h, rfl⟩
  · cases h

@[simp] theorem env_self (w : World) (self : Address) (signers : Address → Bool) (foreign : Foreign) :
    (D.env w self signers foreign).self = self := rfl

@[simp] theorem env_timestamp (w : World) (self : Address) (signers : Address → Bool)
    (foreign : Foreign) : (D.env w self signers foreign).timestamp = w.timestamp := rfl

theorem isSystem_escrow : D.isSystem D.escrow = true := by simp [isSystem]

theorem isSystem_pool {p : Address} (hp : D.isPool p = true) : D.isSystem p = true := by
  simp [isSystem, hp]

theorem ne_escrow_of_isPool {p : Address} (hp : D.isPool p = true) : p ≠ D.escrow := by
  rintro rfl; rw [D.escrow_not_pool] at hp; cases hp

/-- No contract of the system authorizes an invocation from outside. -/
theorem env_authorized {w : World} {self a : Address} {signers : Address → Bool} {foreign : Foreign}
    (h : (D.env w self signers foreign).authorized a = true) : D.isSystem a = false := by
  simp only [env, Bool.and_eq_true, Bool.not_eq_true'] at h
  exact h.2

theorem ne_escrow_of_authorized {w : World} {self a : Address} {signers : Address → Bool}
    {foreign : Foreign} (h : (D.env w self signers foreign).authorized a = true) : a ≠ D.escrow := by
  rintro rfl
  have hsys := env_authorized h
  rw [isSystem_escrow] at hsys; cases hsys

theorem deployer_unique {c d : Address} {k : BytesN32} (hc : D.isSystem c = true)
    (h : D.deployedAddress d k = c) : d = D.deployer c := by
  have hc : c = D.escrow ∨ D.isPool c = true := by simpa [isSystem] using hc
  exact (D.injective (h.trans (D.created c hc).symm)).1

end Deployment

/-! ## What an action did -/

/-- What an action that took effect did. -/
inductive Effect (D : Deployment) (w w' : World) : Action → Prop
  | escrow {signers foreign call s pools t}
      (h : Escrow.Effect (D.env w D.escrow signers foreign) w.escrow w.pools w.tokens s pools t call)
      (hw : w' = { w with escrow := s, pools := pools, tokens := t }) :
      Effect D w w' (.escrow signers foreign call)
  | pool {p signers call s t} (hp : D.isPool p = true)
      (h : Pool.Effect (D.env w p signers .silent) (w.pools p) w.tokens s t call)
      (hw : w' = { w with pools := update w.pools p s, tokens := t }) :
      Effect D w w' (.pool p signers call)
  | transfer {token src dst amount t} (hsrc : D.isSystem src = false) (h₀ : 0 ≤ amount)
      (h : w.tokens.After [⟨token, src, dst, amount⟩] t) (hw : w' = { w with tokens := t }) :
      Effect D w w' (.transfer token src dst amount)
  | issuer {token ledger t} (log : t.log = w.tokens.log) (hw : w' = { w with tokens := t }) :
      Effect D w w' (.issuer token ledger)
  | close {timestamp sequence} (ht : w.timestamp ≤ timestamp)
      (hw : w' = { w with timestamp := timestamp, sequence := sequence }) :
      Effect D w w' (.close timestamp sequence)

section
variable {D : Deployment} {w w' : World}

/-- **What an action that took effect did.** -/
theorem Deployment.step_effect {a : Action} (h : D.step w a = .ok w') : Effect D w w' a := by
  cases a with
  | escrow signers foreign call =>
    obtain ⟨s, pools, t, hc, rfl⟩ := Deployment.step_escrow_ok h
    exact .escrow (EscrowCall.effect hc) rfl
  | pool p signers call =>
    obtain ⟨hp, s, t, hc, rfl⟩ := Deployment.step_pool_ok h
    exact .pool hp (PoolCall.effect hc) rfl
  | transfer token src dst amount =>
    simp only [Deployment.step] at h
    split at h
    · cases h
    · rename_i hsrc
      split at h
      · rename_i l hl
        -- an outside holder is the contract that makes this transfer
        have htr : w.tokens.transfer (ε := Unit) (D.env w src (fun _ => false) .silent) token src dst
            amount = .ok ⟨update w.tokens.ledger token l,
              w.tokens.log ++ [⟨token, src, dst, amount⟩]⟩ := by
          simp [Tokens.transfer, trapUnless, trapOr, Deployment.env, hl]
        obtain ⟨-, h₀, -, ht⟩ := Tokens.transfer_eq_ok.1 htr
        exact .transfer (by simpa using hsrc) h₀ ht (Except.ok.inj h).symm
      · cases h
  | issuer token ledger =>
    exact .issuer (t := ⟨update w.tokens.ledger token ledger, w.tokens.log⟩) rfl (Except.ok.inj h).symm
  | close timestamp sequence =>
    simp only [Deployment.step] at h
    split at h
    · rename_i hc
      exact .close hc.1 (Except.ok.inj h).symm
    · cases h

theorem Deployment.Step.effect (t : D.Step) : Effect D t.pre t.post t.act :=
  Deployment.step_effect t.ok

theorem Effect.timestamp_le {a : Action} (h : Effect D w w' a) : w.timestamp ≤ w'.timestamp := by
  cases h with
  | close ht hw => subst hw; exact ht
  | escrow _ hw | pool _ _ hw | transfer _ _ _ hw | issuer _ hw => subst hw; exact UInt64.le_refl _

/-- The transfers of an escrow call are of nonnegative amounts, and made by the
    escrow or authorized by their source. -/
theorem Escrow.Effect.transfers {env : Env} {s s' : EscrowStorage} {pools pools' : Pools}
    {t t' : Tokens} {call : EscrowCall} (h : Escrow.Effect env s pools t s' pools' t' call) :
    ∃ ts, t.After ts t' ∧
      ∀ e ∈ ts, 0 ≤ e.amount ∧ (e.src = env.self ∨ env.authorized e.src = true) := by
  cases h with
  | fund h _ =>
    refine ⟨_, h.transfer, fun e he => ?_⟩
    rw [List.mem_singleton.1 he]
    exact ⟨le_trans (by decide) h.minimum, .inr h.sponsorAuth⟩
  | complete h =>
    refine ⟨_, h.payOut.transfers, fun e he => ⟨h.payOut.nonneg e he, .inl ?_⟩⟩
    simp only [payouts, List.mem_cons, List.not_mem_nil, or_false] at he
    rcases he with rfl | rfl | rfl | rfl | rfl <;> rfl
  | refundExpired h _ =>
    refine ⟨_, h.transfer, fun e he => ?_⟩
    rw [List.mem_singleton.1 he]; exact ⟨h.amount, .inl rfl⟩
  | initializeEscrow _ _ ht | activate _ _ ht | other _ _ _ ht =>
    subst ht; exact ⟨[], .refl _, by simp⟩

theorem Pool.Effect.transfers {env : Env} {s s' : PoolStorage} {t t' : Tokens} {call : PoolCall}
    (h : Pool.Effect env s t s' t' call) :
    ∃ ts, t.After ts t' ∧ ∀ e ∈ ts, 0 ≤ e.amount ∧ e.src = env.self := by
  cases h with
  | claim h =>
    refine ⟨_, h.transfer, fun e he => ?_⟩
    rw [List.mem_singleton.1 he]; exact ⟨h.amount, rfl⟩
  | initializePool _ ht | recordCredit _ ht | publishManifest _ ht | expireManifest _ ht
    | other _ _ ht => subst ht; exact ⟨[], .refl _, by simp⟩

/-- **The transfers of an action.**  Unless the issuer intervenes, the tokens
    change by transfers of nonnegative amounts, and among the contracts of the
    system only the one that is called sends. -/
theorem Effect.transfers {a : Action} (h : Effect D w w' a) (ha : a.isIssuer = false) :
    ∃ ts, w.tokens.After ts w'.tokens ∧ ∀ e ∈ ts, 0 ≤ e.amount ∧
      (D.isSystem e.src = true → a.callee D.escrow = some e.src) := by
  cases h with
  | escrow h hw =>
    obtain ⟨ts, hts, hpos⟩ := h.transfers
    subst hw
    refine ⟨ts, hts, fun e he => ⟨(hpos e he).1, fun hsys => ?_⟩⟩
    rcases (hpos e he).2 with hsrc | hauth
    · exact congrArg some hsrc.symm
    · rw [Deployment.env_authorized hauth] at hsys; cases hsys
  | pool _ h hw =>
    obtain ⟨ts, hts, hpos⟩ := h.transfers
    subst hw
    exact ⟨ts, hts, fun e he => ⟨(hpos e he).1, fun _ => congrArg some (hpos e he).2.symm⟩⟩
  | transfer hsrc h₀ h hw =>
    subst hw
    refine ⟨_, h, fun e he => ?_⟩
    rw [List.mem_singleton.1 he]
    exact ⟨h₀, fun hsys => by rw [hsrc] at hsys; cases hsys⟩
  | issuer => cases ha
  | close _ hw => subst hw; exact ⟨[], .refl _, by simp⟩

theorem sent_eq_zero_of_callee {a : Action} {ts : List Transfer}
    (h : ∀ e ∈ ts, 0 ≤ e.amount ∧ (D.isSystem e.src = true → a.callee D.escrow = some e.src))
    {c : Address} (hc : D.isSystem c = true) (ha : a.callee D.escrow ≠ some c) (token : Address) :
    sent ts token c = 0 :=
  sent_eq_zero token fun e he hsrc => ha (hsrc ▸ (h e he).2 (hsrc ▸ hc))

/-- The transfers an action made, in order. -/
def Deployment.Step.transfers (t : D.Step) : List Transfer :=
  t.post.tokens.log.drop t.pre.tokens.log.length

theorem Deployment.Step.transfers_eq {t : D.Step} {ts : List Transfer}
    (h : t.pre.tokens.After ts t.post.tokens) : t.transfers = ts := by
  rw [Deployment.Step.transfers, h.log, List.drop_left]

theorem Deployment.Step.transfers_eq_nil {t : D.Step} (h : t.act.isIssuer = true) :
    t.post.tokens.log = t.pre.tokens.log ∧ t.transfers = [] := by
  have hlog : t.post.tokens.log = t.pre.tokens.log := by
    have he := t.effect
    generalize t.act = a at h he
    cases he with
    | issuer log hw => rw [hw]; exact log
    | escrow | pool | transfer | close => cases h
  exact ⟨hlog, by rw [Deployment.Step.transfers, hlog, List.drop_length]⟩

/-- No action takes a transfer back. -/
theorem Deployment.Step.log_eq (t : D.Step) :
    t.post.tokens.log = t.pre.tokens.log ++ t.transfers := by
  cases h : t.act.isIssuer with
  | false =>
    obtain ⟨ts, hts, -⟩ := t.effect.transfers h
    rw [t.transfers_eq hts, hts.log]
  | true =>
    obtain ⟨hlog, hnil⟩ := Deployment.Step.transfers_eq_nil h
    rw [hlog, hnil, List.append_nil]

/-- The transfers a step made out of the contract `c`. -/
def Deployment.Step.outflow (t : D.Step) (c : Address) : List Transfer :=
  t.transfers.filter (·.src = c)

theorem Deployment.Step.outflow_eq_nil (t : D.Step) {c : Address} (hc : D.isSystem c = true)
    (ha : t.act.callee D.escrow ≠ some c) : t.outflow c = [] := by
  rw [Deployment.Step.outflow, List.filter_eq_nil_iff]
  intro e he hsrc
  obtain rfl : e.src = c := by simpa using hsrc
  cases h : t.act.isIssuer with
  | false =>
    obtain ⟨ts, hts, hpos⟩ := t.effect.transfers h
    rw [t.transfers_eq hts] at he
    exact ha ((hpos e he).2 hc)
  | true =>
    rw [(Deployment.Step.transfers_eq_nil h).2] at he
    cases he

theorem Effect.escrow_preserves {I : EscrowStorage → Prop} {a : Action}
    (hcall : ∀ {env s s' pools pools' t t' call}, env.self = D.escrow →
      Escrow.Effect env s pools t s' pools' t' call → I s → I s')
    (h : Effect D w w' a) (hI : I w.escrow) : I w'.escrow := by
  cases h with
  | escrow h hw => subst hw; exact hcall rfl h hI
  | pool _ _ hw | transfer _ _ _ hw | issuer _ hw | close _ hw => subst hw; exact hI

theorem Effect.pool_preserves {I : PoolStorage → Prop} {a : Action} {p : Address}
    (hcall : ∀ {env s s' t t' call}, env.self = p → Pool.Effect env s t s' t' call → I s → I s')
    (h : Effect D w w' a) (hI : I (w.pools p)) : I (w'.pools p) := by
  cases h with
  | escrow h hw =>
    subst hw
    cases h with
    | complete h =>
      obtain ⟨t₃, t₄, pools₁, -, -, h₁, -, -, h₂⟩ := h.payOut.credits
      have hI₁ := clientRecordCredit_preserves (fun hc => hcall rfl (.recordCredit hc rfl)) h₁ hI
      exact clientRecordCredit_preserves (fun hc => hcall rfl (.recordCredit hc rfl)) h₂ hI₁
    | initializeEscrow _ hp _ | fund _ hp | activate _ hp _ | refundExpired _ hp | other _ _ hp _ =>
      subst hp; exact hI
  | pool _ h hw =>
    rename_i q _ _ _ _ _
    subst hw
    by_cases hq : p = q
    · subst hq
      simpa only [update_self] using hcall rfl h hI
    · simpa only [update_of_ne hq] using hI
  | transfer _ _ _ hw | issuer _ hw | close _ hw => subst hw; exact hI

end

/-! ## Executions -/

/-- A run of the system from genesis: any actions of any parties. -/
structure Execution (D : Deployment) where
  start : World
  genesis : D.Genesis start
  actions : List Action

namespace Execution

variable {D : Deployment}

/-- The state the run reaches. -/
def final (x : Execution D) : World := D.machine.run x.start x.actions

/-- The actions of the run that took effect. -/
def history (x : Execution D) : List D.Step := D.machine.trace x.start x.actions

/-- No issuer intervenes. -/
def NoClawback (x : Execution D) : Prop := ∀ a ∈ x.actions, a.isIssuer = false

/-- **Induction over executions.**  `y` is the run up to the action `t`, so that
    whatever is known of all executions holds of the state `t` starts from. -/
theorem induction {A : Action → Prop} {P : List D.Step → World → Prop}
    (h₀ : ∀ w, D.Genesis w → P [] w)
    (hstep : ∀ (y : Execution D) (t : D.Step), (∀ a ∈ y.actions, A a) → A t.act →
      t.pre = y.final → P y.history t.pre → P (y.history ++ [t]) t.post)
    (x : Execution D) (hx : ∀ a ∈ x.actions, A a) : P x.history x.final :=
  Machine.trace_induction (h₀ x.start x.genesis)
    (fun as t has ht hpre hP => hstep ⟨x.start, x.genesis, as⟩ t has ht hpre hP) x.actions hx

/-- **Invariants of all executions.** -/
theorem invariant {I : World → Prop} (h₀ : ∀ w, D.Genesis w → I w)
    (hstep : ∀ (y : Execution D) (a : Action) (w' : World), Effect D y.final w' a → I y.final → I w')
    (x : Execution D) : I x.final := by
  refine induction (A := fun _ => True) (P := fun _ w => I w) h₀ (fun y t _ _ hpre hI => ?_) x
    (fun _ _ => trivial)
  exact hstep y t.act t.post (hpre ▸ t.effect) (hpre ▸ hI)

/-- Invariants of the executions without clawback. -/
theorem solvent_invariant {I : World → Prop} (h₀ : ∀ w, D.Genesis w → I w)
    (hstep : ∀ (y : Execution D) (a : Action) (w' : World), y.NoClawback → a.isIssuer = false →
      Effect D y.final w' a → I y.final → I w') (x : Execution D) (hx : x.NoClawback) : I x.final := by
  refine induction (A := fun a => a.isIssuer = false) (P := fun _ w => I w) h₀
    (fun y t hy ht hpre hI => ?_) x hx
  exact hstep y t.act t.post hy ht (hpre ▸ t.effect) (hpre ▸ hI)

/-- One more action. -/
theorem exists_extend (x : Execution D) {a : Action} {w' : World}
    (h : D.step x.final a = .ok w') :
    ∃ y : Execution D, y.final = w' ∧ y.actions = x.actions ++ [a] := by
  refine ⟨⟨x.start, x.genesis, x.actions ++ [a]⟩, ?_, rfl⟩
  rw [final, Machine.run_append, Machine.run_cons, Machine.run_nil]
  exact Machine.next_ok h

/-- What holds of the escrow before `initialize` and is kept by its calls. -/
theorem escrow_invariant {I : EscrowStorage → Prop} (h₀ : ∀ live, I (.empty live))
    (hcall : ∀ {env s s' pools pools' t t' call}, env.self = D.escrow →
      Escrow.Effect env s pools t s' pools' t' call → I s → I s')
    (x : Execution D) : I x.final.escrow := by
  refine invariant (I := fun w => I w.escrow) (fun w hw => ?_)
    (fun y a w' h hI => h.escrow_preserves hcall hI) x
  obtain ⟨live, he⟩ := hw.escrow
  rw [he]; exact h₀ live

/-- What holds of a pool before `initialize` and is kept by its calls. -/
theorem pool_invariant {I : PoolStorage → Prop} {p : Address} (h₀ : ∀ live, I (.empty live))
    (hcall : ∀ {env s s' t t' call}, env.self = p → Pool.Effect env s t s' t' call → I s → I s')
    (x : Execution D) : I (x.final.pools p) := by
  refine invariant (I := fun w => I (w.pools p)) (fun w hw => ?_)
    (fun y a w' h hI => h.pool_preserves hcall hI) x
  obtain ⟨live, he⟩ := hw.pools p
  rw [he]; exact h₀ live

/-- The run up to any of its steps. -/
theorem exists_prefix {x : Execution D} {t : D.Step} (ht : t ∈ x.history) :
    ∃ y : Execution D, y.final = t.pre ∧ y.history <+: x.history ∧
      (∀ a ∈ y.actions, a ∈ x.actions) ∧ t.act ∈ x.actions := by
  obtain ⟨bs, cs, hact, hpre, htr⟩ := Machine.mem_trace ht
  refine ⟨⟨x.start, x.genesis, bs⟩, hpre.symm, ⟨_, htr⟩, fun a ha => ?_, ?_⟩ <;> rw [hact] <;> simp
  exact .inl ha

/-- **The log of a run**: the transfers of its steps, in order. -/
theorem log_eq (x : Execution D) : x.final.tokens.log = x.history.flatMap (·.transfers) := by
  refine induction (A := fun _ => True) (P := fun h w => w.tokens.log = h.flatMap (·.transfers))
    (fun w hw => hw.log) (fun y t _ _ _ hP => ?_) x (fun _ _ => trivial)
  rw [t.log_eq, hP, List.flatMap_append, List.flatMap_singleton]

theorem outflow_eq (x : Execution D) (c : Address) :
    x.final.tokens.log.filter (·.src = c) = x.history.flatMap (·.outflow c) := by
  rw [log_eq, List.filter_flatMap]
  rfl

/-- The run that goes on with further actions. -/
def after (x : Execution D) (as : List Action) : Execution D := ⟨x.start, x.genesis, x.actions ++ as⟩

theorem after_final (x : Execution D) (as : List Action) :
    (x.after as).final = D.machine.run x.final as :=
  Machine.run_append ..

/-- **What a run keeps of the states before it.** -/
theorem after_relation {R : World → World → Prop} (hrefl : ∀ w, R w w)
    (htrans : ∀ w₁ w₂ w₃, R w₁ w₂ → R w₂ w₃ → R w₁ w₃)
    (hstep : ∀ {w w' : World} {a : Action}, Effect D w w' a → R w w') (x : Execution D)
    (as : List Action) : R x.final (x.after as).final := by
  rw [after_final]
  exact Machine.run_relation hrefl htrans (fun t => hstep (Deployment.Step.effect t)) x.final as

theorem timestamp_le (x : Execution D) (as : List Action) :
    x.final.timestamp ≤ (x.after as).final.timestamp :=
  after_relation (R := fun w w' => w.timestamp ≤ w'.timestamp) (fun _ => UInt64.le_refl _)
    (fun _ _ _ => UInt64.le_trans) Effect.timestamp_le x as

end Execution

/-! ## A small deployment -/

namespace Sample

/-- Addresses made of the deployer and the salt. -/
def addressOf (deployer : Address) (salt : BytesN32) : Address :=
  .contract (Nat.pair (match deployer with | .account n => 2 * n | .contract n => 2 * n + 1)
    salt.toNat)

theorem addressOf_injective {d d' : Address} {k k' : BytesN32} (h : addressOf d k = addressOf d' k') :
    d = d' ∧ k = k' := by
  simp only [addressOf, Address.contract.injEq, Nat.pair_eq_pair] at h
  refine ⟨?_, BitVec.eq_of_toNat_eq h.2⟩
  cases d <;> cases d' <;> simp at h ⊢ <;> omega

def deployer : Address := .account 0
def escrow : Address := addressOf deployer 0
def nftPool : Address := addressOf deployer 1
def revenuePool : Address := addressOf deployer 2

/-- The escrow and two pools. -/
def deployment : Deployment where
  escrow := escrow
  isPool := fun p => p = nftPool ∨ p = revenuePool
  escrow_not_pool := by decide
  deployedAddress := addressOf
  deployer := fun _ => deployer
  salt := fun c => if c = escrow then 0 else if c = nftPool then 1 else 2
  created := by simpa using (by decide : addressOf _ _ = _ ∧ addressOf _ _ = _ ∧ addressOf _ _ = _)
  injective := addressOf_injective

def asset : Address := .contract 0
def sponsor : Address := .account 1
def creator : Address := .account 2
def referrer : Address := .account 3
def treasury : Address := .account 4
def settlement : Address := .account 5
def eligibility : Address := .account 6

/-- The sponsor holds all there is of every token. -/
def start : World where
  timestamp := 1000
  sequence := 1
  escrow := .empty fun _ => 0
  pools := fun _ => .empty fun _ => 0
  tokens := ⟨fun _ => .single sponsor (n := i128Max) (by decide) le_rfl, []⟩

theorem genesis : deployment.Genesis start := by
  refine ⟨⟨_, rfl⟩, fun _ => ⟨_, rfl⟩, rfl, fun token c hc => if_neg ?_⟩
  rintro rfl
  exact absurd hc (by decide)

/-- The escrow and both pools are initialized. -/
def setup (treasury : Address) : List Action :=
  [.pool nftPool (fun _ => true) (.initializePool deployer eligibility asset escrow deployer 1),
   .pool revenuePool (fun _ => true) (.initializePool deployer eligibility asset escrow deployer 2),
   .escrow (fun _ => true) .silent (.initializeEscrow deployer settlement asset treasury nftPool
     revenuePool deployer 0)]

/-- Fund and activate a campaign. -/
def launch (id : UInt64) (amount : ℤ) : List Action :=
  [.escrow (fun _ => true) .silent (.fund id sponsor amount),
   .escrow (fun _ => true) .silent (.activate id creator (some referrer) [1])]

/-- Two campaigns are launched and the first is completed; its credit to the NFT
    pool is published and partly claimed, and a third campaign is funded. -/
def actions : List Action :=
  setup treasury ++ launch 1 10000 ++ launch 2 5000 ++
    [.escrow (fun _ => true) .silent (.complete 1 1),
     .transfer asset sponsor nftPool 77,
     .pool nftPool (fun _ => true) (.publishManifest 1 0 0 2000 [creator, referrer] [300, 150]),
     .pool nftPool (fun _ => true) (.claim 1 0),
     .escrow (fun _ => true) .silent (.fund 3 sponsor 700)]

/-- The run of these actions. -/
def execution : Execution deployment := ⟨start, genesis, actions⟩

theorem execution_noClawback : execution.NoClawback :=
  (by decide : ∀ a ∈ actions, a.isIssuer = false)

end Sample

end TogetherFi
