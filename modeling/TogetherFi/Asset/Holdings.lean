/-
  What becomes of a holding of the asset.

  * `holdings_accounted`: after any run the holdings are what the movements of
    the run make of them, and their sum changes by what was issued and retired.
  * `asset_is_token`: the movements are the transfers of a plain token, with the
    issuer holding what is not issued.
  * `frozen_holding`: a deauthorized contract loses what is clawed back.
  * `funds_available`: contracts no issuer can freeze or claw back from can always
    pay each other what they hold.
-/
import TogetherFi.Asset.Calls

namespace TogetherFi

open Outcome Function

namespace Asset

variable {w w' : Chain} {s : Storage} {id : ℕ} {v : BalanceValue}

/-! ## All holdings -/

theorem step_valid (t : machine.Step) (h : t.pre.storage.Valid) : t.post.storage.Valid := by
  obtain ⟨_, -, hv, -⟩ := explained.step t ⟨h, rfl⟩
  exact hv

/-- The movements of a run. -/
def log (w : Chain) (acts : List Action) : List (Movement Address) := (machine.trace w acts).flatMap movements

theorem run_accepts (hv : w.storage.Valid) (acts : List Action) :
    (machine.run w acts).storage.Valid ∧
      Movement.machine.Accepts w.storage.holding (log w acts) (machine.run w acts).storage.holding := by
  obtain ⟨f, hacc, hv', rfl⟩ := explained.run ⟨hv, rfl⟩ acts
  exact ⟨hv', hacc⟩

/-- **The books of the asset.**  After any run nobody owes; every holding is what
    it was, less what the run debited, plus what it credited; and over holders that
    include all parties the sum changes by what was issued and retired. -/
theorem holdings_accounted (w : Chain) (hv : w.storage.Valid) (acts : List Action) :
    (∀ a, 0 ≤ (machine.run w acts).storage.holding a ∧
      (machine.run w acts).storage.holding a =
        w.storage.holding a - Movement.debits a (log w acts) + Movement.credits a (log w acts)) ∧
    ∀ holders : Finset Address, (∀ m ∈ log w acts, ∀ a ∈ m.parties, a ∈ holders) →
      ∑ a ∈ holders, (machine.run w acts).storage.holding a =
        ∑ a ∈ holders, w.storage.holding a + Movement.netIssued (log w acts) := by
  obtain ⟨hv', hacc⟩ := run_accepts hv acts
  refine ⟨fun a => ⟨hv'.holding_nonneg a, Movement.Accepts.eq hacc a⟩, fun holders hin => ?_⟩
  exact Movement.Accepts.sum_eq hacc hin

/-! ### A sample -/

/-- Contract 1 holds 500 of the asset account 0 issues, and contract 2 may hold it. -/
def sampleChain : Chain where
  ledger := ⟨10, 100, 16, 1000⟩
  storage :=
    { assetInfo := .credit 0
      admin := some (.account 0)
      balance := fun id => if id = 1 then some ⟨500, true, false⟩ else
        if id = 2 then some ⟨0, true, false⟩ else none
      allowance := fun _ _ => none
      account := fun key => if key = 0 then some ⟨0, 0, 0, none⟩ else none
      trustline := fun _ => none }

theorem sampleChain_valid : sampleChain.storage.Valid where
  account key ae h := by
    simp only [sampleChain, Option.mem_def, Option.ite_none_right_eq_some, Option.some.injEq] at h
    obtain ⟨-, rfl⟩ := h
    exact ⟨by decide, fun x hx => (by cases hx), fun x hx => (by cases hx)⟩
  trustline key tl h := by cases h
  balance id v h := by
    simp only [sampleChain, Option.mem_def] at h
    split at h
    · cases h; decide
    · split at h
      · cases h; decide
      · cases h
  allowance holder spender e h := by cases h

/-- Contract 1 pays contract 2 what it holds. -/
def samplePay : Action := .call (fun a => a = .contract 1) (.transfer (.contract 1) (.contract 2) 500)

theorem holdings_accounted_sample :
    (machine.run sampleChain [samplePay]).storage.holding (.contract 2) = 500 ∧
      0 ≤ (machine.run sampleChain [samplePay]).storage.holding (.contract 1) :=
  ⟨by decide +kernel, ((holdings_accounted sampleChain sampleChain_valid [samplePay]).1 (.contract 1)).1⟩

/-! ## The asset as a plain token -/

theorem run_assetInfo (hv : w.storage.Valid) (acts : List Action) :
    (machine.run w acts).storage.assetInfo = w.storage.assetInfo := by
  have hrun := machine.trace_induction (A := fun _ => True)
    (P := fun _ w' => w'.storage.Valid ∧ w'.storage.assetInfo = w.storage.assetInfo)
    ⟨hv, rfl⟩ (fun _ t _ _ _ ih => ⟨step_valid t ih.1, ?_⟩) acts fun _ _ => trivial
  · exact hrun.2
  · obtain ⟨p, act, q, h⟩ := t
    cases act with
    | call authorized c => exact (Call.issuerFlag ih.1 (machine_call.1 h).2 0).1.trans ih.2
    | close | setAccount | setTrustline =>
      obtain rfl := Except.ok.inj h
      exact ih.2

theorem log_parties (hv : w.storage.Valid) {issuer : ℕ} (hi : w.storage.assetInfo = .credit issuer)
    (acts : List Action) : ∀ m ∈ log w acts, .account issuer ∉ m.parties := by
  refine machine.trace_induction (A := fun _ => True)
    (P := fun tr _ => ∀ m ∈ tr.flatMap movements, Address.account issuer ∉ m.parties)
    (by simp) (fun as t _ _ hpre ih => ?_) acts fun _ _ => trivial
  intro m hm hp
  rw [List.flatMap_append, List.flatMap_singleton, List.mem_append] at hm
  rcases hm with hm | hm
  · exact ih m hm hp
  have hpi : t.pre.storage.assetInfo = .credit issuer := by rw [hpre, run_assetInfo hv, hi]
  have hiss : t.pre.storage.isIssuer (.account issuer) := ⟨issuer, hpi, rfl⟩
  obtain ⟨p, act, q, h⟩ := t
  cases act with
  | call authorized c =>
    rcases Movement.mem_between hm hp with hf | hf
    · exact (mem_filter_holder.1 hf).2 hiss
    · exact (mem_filter_holder.1 hf).2 hiss
  | close => cases hm
  | setAccount key | setTrustline key =>
    have hqi : q.storage.assetInfo = .credit issuer := by
      obtain rfl := Except.ok.inj h
      exact hpi
    have hiss' : q.storage.isIssuer (.account issuer) := ⟨issuer, hqi, rfl⟩
    obtain ⟨heq, hne⟩ := Movement.mem_adjust hm hp
    cases heq
    exact hne ((Storage.holding_issuer hiss).trans (Storage.holding_issuer hiss').symm)

/-- A movement as a transfer of `token`: the issuer holds what is not issued. -/
def asTransfer (token issuer : Address) : Movement Address → Transfer
  | .move src dst n => ⟨token, src, dst, n⟩
  | .issue dst n => ⟨token, issuer, dst, n⟩
  | .retire src n => ⟨token, src, issuer, n⟩

/-- The tokens, moved by transfers that their sources make. -/
def tokenMachine (env : Env) : Machine Tokens Transfer (Fault Unit HostError) where
  step t e := t.transfer { env with self := e.src } e.token e.src e.dst e.amount

variable {env : Env} {t : Tokens} {token issuer : Address} {f f' : Address → ℤ} {m : Movement Address}

theorem transfer_of_movement (env : Env) (h : Movement.machine.step f m = .ok f')
    (ht : ∀ a, a ≠ issuer → t.balance token a = f a) (hres : m.issued ≤ t.balance token issuer)
    (hout : issuer ∉ m.parties) :
    ∃ t', (tokenMachine env).step t (asTransfer token issuer m) = .ok t' ∧
      (∀ a, a ≠ issuer → t'.balance token a = f' a) ∧
        t.balance token issuer - m.issued ≤ t'.balance token issuer := by
  obtain ⟨⟨hn, hc⟩, rfl⟩ := Movement.step_eq_ok.1 h
  have hgo : ∀ src dst : Address, m.amount ≤ t.balance token src →
      asTransfer token issuer m = ⟨token, src, dst, m.amount⟩ →
      ∃ t', (tokenMachine env).step t (asTransfer token issuer m) = .ok t' ∧
        ∀ a, t'.balance token a = t.balance token a + (if dst = a then m.amount else 0)
          - if src = a then m.amount else 0 := by
    intro src dst hle hm
    obtain ⟨t', htr, hafter⟩ : ∃ t', (tokenMachine env).step t ⟨token, src, dst, m.amount⟩ = .ok t' ∧
        t.After [⟨token, src, dst, m.amount⟩] t' :=
      Tokens.transfer_succeeds { env with self := src } t token src dst (.inl rfl) hn hle
    refine ⟨t', by rw [hm]; exact htr, fun a => ?_⟩
    rw [hafter.balance]
    simp
  cases m with
  | move src dst n =>
    have hs : src ≠ issuer := fun h => hout (by simp [Movement.parties, h])
    have hd : dst ≠ issuer := fun h => hout (by simp [Movement.parties, h])
    obtain ⟨t', hstep, hbal⟩ := hgo src dst (by rw [ht src hs]; exact hc src rfl) rfl
    refine ⟨t', hstep, fun a ha => ?_, ?_⟩
    · rw [hbal, ht a ha]
      simp only [Movement.after, Movement.debit, Movement.credit, Movement.amount, eq_comm (a := a)]
      omega
    · rw [hbal, if_neg hd, if_neg hs]
      simp [Movement.issued]
  | issue dst n =>
    have hd : dst ≠ issuer := fun h => hout (by simp [Movement.parties, h])
    obtain ⟨t', hstep, hbal⟩ := hgo issuer dst hres rfl
    refine ⟨t', hstep, fun a ha => ?_, ?_⟩
    · rw [hbal, ht a ha, if_neg (Ne.symm ha)]
      simp only [Movement.after, Movement.debit, Movement.credit, Movement.amount, eq_comm (a := a)]
      omega
    · rw [hbal, if_neg hd, if_pos rfl]
      simp [Movement.issued, Movement.amount]
  | retire src n =>
    have hs : src ≠ issuer := fun h => hout (by simp [Movement.parties, h])
    obtain ⟨t', hstep, hbal⟩ := hgo src issuer (by rw [ht src hs]; exact hc src rfl) rfl
    refine ⟨t', hstep, fun a ha => ?_, ?_⟩
    · rw [hbal, ht a ha, if_neg (Ne.symm ha)]
      simp only [Movement.after, Movement.debit, Movement.credit, Movement.amount, eq_comm (a := a)]
      omega
    · have hn : 0 ≤ n := hn
      rw [hbal, if_pos rfl, if_neg hs]
      simp only [Movement.issued, Movement.amount]
      omega

/-- **The asset is a plain token.**  Take any tokens in which the holders hold what
    they hold of the asset, and the issuer at least what a run issues.  Then these
    tokens accept the movements of the run as transfers, one after another, and the
    holders end with what they hold of the asset. -/
theorem asset_is_token (env : Env) (w : Chain) (hv : w.storage.Valid) {issuer : ℕ}
    (hi : w.storage.assetInfo = .credit issuer) (acts : List Action) (t : Tokens) (token : Address)
    (ht : ∀ a, a ≠ .account issuer → t.balance token a = w.storage.holding a)
    (hres : ((log w acts).map Movement.issued).sum ≤ t.balance token (.account issuer)) :
    ∃ t', (tokenMachine env).Accepts t ((log w acts).map (asTransfer token (.account issuer))) t' ∧
      ∀ a, a ≠ .account issuer → t'.balance token a = (machine.run w acts).storage.holding a := by
  obtain ⟨-, hacc⟩ := run_accepts hv acts
  have hkey := hacc.induction (P := fun ms g => (∀ m ∈ ms, Address.account issuer ∉ m.parties) →
    (∀ m ∈ ms, 0 ≤ m.issued) ∧ ∀ rest : ℤ, 0 ≤ rest →
      (ms.map Movement.issued).sum + rest ≤ t.balance token (.account issuer) →
      ∃ t', (tokenMachine env).Accepts t (ms.map (asTransfer token (.account issuer))) t' ∧
        (∀ a, a ≠ .account issuer → t'.balance token a = g a) ∧ rest ≤ t'.balance token (.account issuer))
    (fun _ => ⟨by simp, fun rest _ hle => ⟨t, Machine.accepts_nil.2 rfl, ht, by simpa using hle⟩⟩)
    (fun {ms g m g'} _ ih hstep hout => ?_)
  · obtain ⟨-, hend⟩ := hkey (log_parties hv hi acts)
    obtain ⟨t', ht', hbal, -⟩ := hend 0 le_rfl (by simpa using hres)
    exact ⟨t', ht', hbal⟩
  · obtain ⟨hpos, ih⟩ := ih fun m' hm' => hout m' (List.mem_append_left _ hm')
    have hm : 0 ≤ m.issued := by
      have hn := (Movement.step_eq_ok.1 hstep).1.1
      cases m <;> simp_all [Movement.issued, Movement.amount]
    refine ⟨fun m' hm' => ?_, fun rest hrest hle => ?_⟩
    · rcases List.mem_append.1 hm' with h | h
      · exact hpos m' h
      · rw [List.mem_singleton.1 h]; exact hm
    · rw [List.map_append, List.sum_append, List.map_singleton, List.sum_singleton] at hle
      obtain ⟨t₁, hlog, hbal, hleft⟩ := ih (m.issued + rest) (by omega) (by omega)
      obtain ⟨t₂, htr, hbal', hleft'⟩ := transfer_of_movement env hstep hbal (by omega)
        (hout m (by simp))
      refine ⟨t₂, ?_, hbal', by omega⟩
      rw [List.map_append, List.map_singleton]
      exact Machine.accepts_append.2 ⟨t₁, hlog, Machine.accepts_singleton.2 htr⟩

/-- The same holdings as plain tokens. -/
def sampleTokens : Tokens := ⟨fun _ => Ledger.single (.contract 1) (n := 500) (by decide) (by decide), []⟩

/-- Everyone signs. -/
def sampleEnv : Env :=
  ⟨.contract 1, 0, 0, fun _ => true, fun _ _ => .contract 1, fun _ => false,
    ⟨fun _ => none, fun _ => none, fun _ _ _ => false⟩⟩

theorem asset_is_token_sample :
    ∃ t', (tokenMachine sampleEnv).Accepts sampleTokens
        [⟨.contract 9, .contract 1, .contract 2, 500⟩] t' ∧ t'.balance (.contract 9) (.contract 2) = 500 := by
  have ht : ∀ a, a ≠ .account 0 → sampleTokens.balance (.contract 9) a = sampleChain.storage.holding a := by
    intro a _
    cases a with
    | account key => simp [sampleTokens, Tokens.balance, Ledger.single, Storage.holding, sampleChain]
    | contract id =>
      by_cases h₁ : id = 1
      · subst h₁; rfl
      · by_cases h₂ : id = 2
        · subst h₂; rfl
        · simp [sampleTokens, Tokens.balance, Ledger.single, sampleChain, h₁, h₂]
  obtain ⟨t', hacc, hbal⟩ := asset_is_token sampleEnv sampleChain sampleChain_valid rfl [samplePay]
    sampleTokens (.contract 9) ht (by decide +kernel)
  exact ⟨t', hacc, (hbal (.contract 2) (by decide)).trans (by decide +kernel)⟩

/-! ## The entry of a contract in a run -/

/-- What a step claws back from `a`. -/
def clawedBack (a : Address) (t : machine.Step) : ℤ :=
  match t.act with
  | .call _ c => c.clawedBack a
  | _ => 0

/-- A step leaves the entry of a contract alone, or is a call that does what calls do. -/
theorem step_entry (t : machine.Step) (hv : t.pre.storage.Valid)
    (hb : t.pre.storage.balance id = some v) : ∃ v', t.post.storage.balance id = some v' ∧
      v'.clawback = v.clawback ∧
        (v'.authorized = v.authorized ∨ ∃ authorized,
          t.act = .call authorized (.setAuthorized (.contract id) v'.authorized) ∧
            (v'.authorized = false → isAssetAuthRevocable t.pre.storage = .ok true)) := by
  obtain ⟨w, act, w', h⟩ := t
  cases act with
  | call authorized c =>
    obtain ⟨v', hb', hc, ha⟩ := Call.entry hv hb (machine_call.1 h).2
    exact ⟨v', hb', hc, ha.imp_right fun hact => ⟨authorized, by rw [← hact.1], hact.2⟩⟩
  | close | setAccount | setTrustline =>
    obtain rfl := Except.ok.inj h
    exact ⟨v, hb, rfl, .inl rfl⟩

/-- **A deauthorized contract keeps its holding**, whatever others do, until it is
    authorized again: it loses what is clawed back from it and nothing else, and
    receives nothing. -/
theorem frozen_holding (hv : w.storage.Valid) (hb : w.storage.balance id = some v)
    (ha : v.authorized = false) (acts : List Action)
    (hno : ∀ t ∈ machine.trace w acts, ∀ authorized,
      t.act ≠ .call authorized (.setAuthorized (.contract id) true)) :
    (machine.run w acts).storage.holding (.contract id) =
      w.storage.holding (.contract id) - ((machine.trace w acts).map (clawedBack (.contract id))).sum := by
  have hrun := machine.history_induction
    (A := fun t => ∀ authorized, t.act ≠ .call authorized (.setAuthorized (.contract id) true))
    (P := fun tr w' => w'.storage.Valid ∧ (∃ v', w'.storage.balance id = some v' ∧ v'.authorized = false) ∧
      w'.storage.holding (.contract id) =
        w.storage.holding (.contract id) - (tr.map (clawedBack (.contract id))).sum)
    (s := w) ⟨hv, ⟨v, hb, ha⟩, by simp⟩ (fun as t hact _ ih => ?_) acts hno
  · exact hrun.2.2
  · obtain ⟨hvp, ⟨u, hbu, hau⟩, hold⟩ := ih
    obtain ⟨u', hbu', -, hau'⟩ := step_entry t hvp hbu
    refine ⟨step_valid t hvp, ⟨u', hbu', ?_⟩, ?_⟩
    · rcases hau' with h | ⟨authorized, h, -⟩
      · rw [h, hau]
      · by_contra htrue
        rw [Bool.not_eq_false] at htrue
        exact hact authorized (by rw [h, htrue])
    · rw [List.map_append, List.sum_append, List.map_singleton, List.sum_singleton]
      have hstep : t.post.storage.holding (.contract id) =
          t.pre.storage.holding (.contract id) - clawedBack (.contract id) t := by
        obtain ⟨p, act, q, h⟩ := t
        cases act with
        | call authorized c => exact Call.frozen hvp hbu hau (machine_call.1 h).2
        | close | setAccount | setTrustline =>
          obtain rfl := Except.ok.inj h
          exact (sub_zero _).symm
      omega

/-- The issuer becomes able to revoke, and its administrator deauthorizes contract 1. -/
def sampleFreeze : List Action :=
  [.setAccount 0 (some ⟨0, 0, 2, none⟩) fun x hx => (by
      cases hx; exact ⟨by decide, fun x hx => (by cases hx), fun x hx => (by cases hx)⟩),
    .call (fun a => a = .account 0) (.setAuthorized (.contract 1) false)]

theorem frozen_holding_sample :
    (machine.run (machine.run sampleChain sampleFreeze) [samplePay]).storage.holding (.contract 1) = 500 := by
  have hb : (machine.run sampleChain sampleFreeze).storage.balance 1 = some ⟨500, false, false⟩ := by
    decide +kernel
  have hno : ∀ t ∈ machine.trace (machine.run sampleChain sampleFreeze) [samplePay], ∀ authorized,
      t.act ≠ .call authorized (.setAuthorized (.contract 1) true) := by
    intro t ht authorized hact
    have hmem := List.mem_singleton.1 (Machine.act_mem_of_mem_trace ht)
    rw [hact] at hmem
    cases hmem
  rw [frozen_holding (run_accepts sampleChain_valid sampleFreeze).1 hb rfl [samplePay] hno]
  decide +kernel

/-! ## Funds no issuer can hold back -/

/-- The contract is authorized, and nothing can be clawed back from it. -/
def Secure (s : Storage) (id : ℕ) : Prop :=
  ∃ v, s.balance id = some v ∧ v.authorized = true ∧ v.clawback = false

/-- The asset has no issuer, or one that cannot revoke an authorization. -/
def Irrevocable (s : Storage) : Prop :=
  ∀ issuer, s.assetInfo = .credit issuer → ∀ ae ∈ s.account issuer, hasFlag ae.flags revocableFlag = false

theorem Irrevocable.not_revocable (h : Irrevocable s) : isAssetAuthRevocable s ≠ .ok true := by
  intro hr
  unfold isAssetAuthRevocable isAssetIssuerFlagSet at hr
  split at hr
  · cases hr
  · rename_i issuer hi
    simp only [bind_eq_ok, trapOr_eq_ok, pure_eq, Except.ok.injEq] at hr
    obtain ⟨ae, hae, hflag⟩ := hr
    rw [h issuer hi ae hae] at hflag
    cases hflag

theorem irrevocable_iff : Irrevocable s ↔ isAssetAuthRevocable s ≠ .ok true := by
  refine ⟨Irrevocable.not_revocable, fun h issuer hi ae hae => ?_⟩
  by_contra hflag
  refine h ?_
  rw [Bool.not_eq_false] at hflag
  simp [isAssetAuthRevocable, isAssetIssuerFlagSet, hi, Option.mem_def.1 hae, trapOr, hflag]

theorem Secure.not_clawed {inv : Invocation} {s s' : Storage} {n : ℤ} (h : Secure s id)
    (hc : Call.exec inv (.clawback (.contract id) n) s = .ok s') : False := by
  obtain ⟨v, hb, -, hcl⟩ := h
  simp only [Call.exec, clawback, bind_eq_ok, checkClawbackable, hb, rejectIf_eq_ok, exists_const] at hc
  obtain ⟨_, -, hcl', -⟩ := hc
  exact hcl' hcl

/-- While the issuer cannot revoke, a secure contract stays secure, and is not
    clawed back from. -/
theorem secure_run (hv : w.storage.Valid) (hs : Secure w.storage id) (hirr : Irrevocable w.storage)
    (acts : List Action)
    (hkeep : ∀ key ae valid, Action.setAccount key ae valid ∈ acts → w.storage.assetInfo = .credit key →
      ∀ x ∈ ae, hasFlag x.flags revocableFlag = false) :
    Secure (machine.run w acts).storage id ∧
      ∀ t ∈ machine.trace w acts, ∀ authorized n, t.act ≠ .call authorized (.clawback (.contract id) n) := by
  have hrun := machine.trace_induction
    (A := fun act => ∀ key ae valid, act = Action.setAccount key ae valid →
      w.storage.assetInfo = .credit key → ∀ x ∈ ae, hasFlag x.flags revocableFlag = false)
    (P := fun tr w' => w'.storage.Valid ∧ w'.storage.assetInfo = w.storage.assetInfo ∧
      Irrevocable w'.storage ∧ Secure w'.storage id ∧
        ∀ t ∈ tr, ∀ authorized n, t.act ≠ .call authorized (.clawback (.contract id) n))
    (s := w) ⟨hv, rfl, hirr, hs, by simp⟩ (fun as t _ hact _ ih => ?_) acts
    fun act hmem key ae valid he => hkeep key ae valid (he ▸ hmem)
  · exact hrun.2.2.2
  obtain ⟨hvp, hinfo, hirrp, hsp, hno⟩ := ih
  obtain ⟨v, hb, ha, hc⟩ := hsp
  refine ⟨step_valid t hvp, ?_, ?_, ?_, fun t' ht' authorized n => ?_⟩
  · obtain ⟨p, act, q, h⟩ := t
    cases act with
    | call authorized c => exact (Call.issuerFlag hvp (machine_call.1 h).2 0).1.trans hinfo
    | close | setAccount | setTrustline =>
      obtain rfl := Except.ok.inj h
      exact hinfo
  · obtain ⟨p, act, q, h⟩ := t
    cases act with
    | call authorized c =>
      rw [irrevocable_iff, isAssetAuthRevocable, (Call.issuerFlag hvp (machine_call.1 h).2 _).2]
      exact hirrp.not_revocable
    | close | setTrustline =>
      obtain rfl := Except.ok.inj h
      exact hirrp
    | setAccount key ae valid =>
      obtain rfl := Except.ok.inj h
      intro issuer hi x hx
      by_cases hk : issuer = key
      · subst hk
        exact hact _ ae valid rfl (hinfo ▸ hi) x (by simpa using hx)
      · exact hirrp issuer hi x (by simpa [hk] using hx)
  · obtain ⟨v', hb', hc', ha'⟩ := step_entry t hvp hb
    refine ⟨v', hb', ?_, hc'.trans hc⟩
    rcases ha' with h | ⟨_, -, hrev⟩
    · rw [h, ha]
    · by_contra hf
      exact hirrp.not_revocable (hrev (Bool.not_eq_true _ ▸ hf))
  · rcases List.mem_append.1 ht' with hmem | hmem
    · exact hno t' hmem authorized n
    · rw [List.mem_singleton.1 hmem]
      intro hcall
      obtain ⟨p, act, q, h⟩ := t
      obtain rfl : act = _ := hcall
      exact Secure.not_clawed ⟨v, hb, ha, hc⟩ (machine_call.1 h).2

/-- **A transfer between secure contracts.** -/
theorem transfer_secure {inv : Invocation} {src dst : ℕ} {n : ℤ} (hv : s.Valid) (hs : Secure s src)
    (hd : Secure s dst) (hne : src ≠ dst) :
    (∃ s', Call.exec inv (.transfer (.contract src) (.contract dst) n) s = .ok s') ↔
      0 ≤ n ∧ inv.authorized (.contract src) = true ∧ n ≤ s.holding (.contract src) ∧
        s.holding (.contract dst) + n ≤ i128Max := by
  obtain ⟨v, hb, ha, -⟩ := hs
  obtain ⟨u, hbu, hau, -⟩ := hd
  have hmax := (hv.balance src v hb).2
  have hentry : ∀ amount, (s.setBalance src { v with amount := amount }).entry dst = .ok u := fun amount => by
    simp [Storage.entry, Ne.symm hne, hbu]
  have hu := hv.balance dst u hbu
  simp only [Call.exec, transfer, bind_eq_ok, checkNonnegativeAmount_eq_ok, requireAuth_eq_ok,
    exists_const, Storage.holding_contract, hb, hbu, Option.elim_some]
  constructor
  · rintro ⟨s', hn, hauth, s₁, hspend, hrec⟩
    obtain ⟨-, hle, rfl⟩ := (spendBalance_contract hb hn hmax).1 hspend
    obtain ⟨u', he, -, hr, -⟩ := receiveBalance_contract.1 hrec
    obtain rfl := Except.ok.inj ((hentry _).symm.trans he)
    exact ⟨hn, hauth, hle, hr.2⟩
  · rintro ⟨hn, hauth, hle, hfit⟩
    exact ⟨_, hn, hauth, _, (spendBalance_contract hb hn hmax).2 ⟨ha, hle, rfl⟩,
      receiveBalance_contract.2 ⟨u, hentry _, hau, inI128_of_nonneg (by omega) hfit, rfl⟩⟩

/-- **Funds that cannot be held back.**  Two contracts are authorized, and nothing
    can be clawed back from them.  However the run goes, as long as the issuer does
    not become able to revoke, nothing is ever clawed back from either, and the one
    can pay the other any amount it holds and the other can hold. -/
theorem funds_available (hv : w.storage.Valid) {src dst : ℕ} (hne : src ≠ dst)
    (hs : Secure w.storage src) (hd : Secure w.storage dst) (hirr : Irrevocable w.storage)
    (acts : List Action)
    (hkeep : ∀ key ae valid, Action.setAccount key ae valid ∈ acts → w.storage.assetInfo = .credit key →
      ∀ x ∈ ae, hasFlag x.flags revocableFlag = false) :
    (∀ t ∈ machine.trace w acts, clawedBack (.contract src) t = 0 ∧ clawedBack (.contract dst) t = 0) ∧
      ∀ (inv : Invocation) (n : ℤ),
        (∃ s', Call.exec inv (.transfer (.contract src) (.contract dst) n)
          (machine.run w acts).storage = .ok s') ↔
        0 ≤ n ∧ inv.authorized (.contract src) = true ∧
          n ≤ (machine.run w acts).storage.holding (.contract src) ∧
            (machine.run w acts).storage.holding (.contract dst) + n ≤ i128Max := by
  obtain ⟨hs', hsc⟩ := secure_run hv hs hirr acts hkeep
  obtain ⟨hd', hdc⟩ := secure_run hv hd hirr acts hkeep
  have hzero : ∀ (a : Address) (t : machine.Step),
      (∀ authorized n, t.act ≠ .call authorized (.clawback a n)) → clawedBack a t = 0 := by
    intro a t h
    unfold clawedBack
    split
    · rename_i authorized c hact
      unfold Call.clawedBack
      split
      · rename_i src n
        split
        · rename_i hsrc
          exact absurd (by rw [hact, hsrc]) (h authorized n)
        · rfl
      · rfl
    · rfl
  exact ⟨fun t ht => ⟨hzero _ t (hsc t ht), hzero _ t (hdc t ht)⟩,
    fun inv n => transfer_secure (run_accepts hv acts).1 hs' hd' hne⟩

theorem funds_available_sample : ∃ s', Call.exec ⟨sampleChain.ledger, fun _ => true⟩
    (.transfer (.contract 2) (.contract 1) 500) (machine.run sampleChain [samplePay]).storage = .ok s' :=
  ((funds_available sampleChain_valid (by decide) ⟨_, rfl, rfl, rfl⟩ ⟨_, rfl, rfl, rfl⟩
    (fun issuer hi ae hae => (by cases hi; cases hae; decide)) [samplePay] (by simp [samplePay])).2 _ 500).2
    (by decide +kernel)

end Asset

end TogetherFi
