/-
  The entries a call of the escrow extends.

  `EscrowCall.touched` lists them for each entry point, and a successful call
  extends exactly these (`EscrowCall.exec_live`).  What becomes of a pool during
  a call of the escrow is what `record_credit` makes of it (`exec_pools`).
-/
import TogetherFi.Pool.Lives
import TogetherFi.Escrow.Advance

namespace TogetherFi

open Outcome Function

namespace Escrow

/-- The entries a successful call extends. -/
def EscrowCall.touched : EscrowCall → List EscrowEntry
  | .fund id .. | .activate id .. | .refundExpired id => [.instance_, .campaign id]
  | .complete id version => [.instance_, .campaign id, .consumedOperation id version]
  | .getCampaign id | .extendCampaignTtl id => [.campaign id]
  | .isPaused | .governance => []
  | _ => [.instance_]

variable {env : Env} {s s' : EscrowStorage} {pools pools' : Pools} {t t' : Tokens} {id : UInt64}

theorem initializeEscrow_live {g se tok tr nft rev d : Address} {salt : BytesN32}
    (h : initializeEscrow env g se tok tr nft rev d salt s pools = .ok s') :
    s'.live = [.instance_].foldl (extendTtl env) s.live := by
  simp only [initializeEscrow, bind_eq_ok, pure_eq, Except.ok.injEq] at h
  obtain ⟨_, -, _, -, _, -, _, -, _, -, _, -, _, -, _, -, _, -, _, -, _, -, _, -, _, -, rfl⟩ := h
  rfl

theorem fund_live {sponsor : Address} {amount : ℤ} (h : fund env id sponsor amount s t = .ok (s', t')) :
    s'.live = [.instance_, .campaign id].foldl (extendTtl env) s.live := by
  simp only [fund, bind_eq_ok, init_eq_ok, pure_eq, Except.ok.injEq, Prod.mk.injEq] at h
  obtain ⟨_, ⟨-, rfl⟩, _, -, _, -, _, -, _, -, _, -, _, -, _, -, _, -, rfl, -⟩ := h
  rfl

theorem propose_live {role : ℕ} {account : Address} (h : propose env role account s = .ok s') :
    s'.live = [.instance_].foldl (extendTtl env) s.live := by
  simp only [propose, bind_eq_ok, init_eq_ok, pure_eq, Except.ok.injEq] at h
  obtain ⟨_, ⟨-, rfl⟩, _, -, _, -, rfl⟩ := h
  split <;> rfl

theorem accept_live {role : ℕ} (h : accept env role s = .ok s') :
    s'.live = [.instance_].foldl (extendTtl env) s.live := by
  simp only [accept, bind_eq_ok, init_eq_ok, pure_eq, Except.ok.injEq] at h
  obtain ⟨_, ⟨-, rfl⟩, _, -, _, -, rfl⟩ := h
  split <;> rfl

theorem setPaused_live {b : Bool} (h : setPaused b env s = .ok s') :
    s'.live = [.instance_, .instance_].foldl (extendTtl env) s.live := by
  simp only [setPaused, bind_eq_ok, init_eq_ok, pure_eq, Except.ok.injEq] at h
  obtain ⟨_, ⟨-, rfl⟩, _, -, _, -, rfl⟩ := h
  rfl

theorem readInstance_live {α : Type} {get : EscrowStorage → Result α} {a : α}
    (h : readInstance env get s = .ok (a, s')) :
    s'.live = [.instance_, .instance_].foldl (extendTtl env) s.live := by
  simp only [readInstance, bind_eq_ok, init_eq_ok, pure_eq, Except.ok.injEq, Prod.mk.injEq] at h
  obtain ⟨_, ⟨-, rfl⟩, _, -, -, rfl⟩ := h
  rfl

theorem foldl_instance_twice (env : Env) (live : EscrowEntry → ℕ) :
    [.instance_, .instance_].foldl (extendTtl env) live =
      extendAll env.sequence [.instance_] live := by
  rw [foldl_extendTtl]
  exact extendAll_congr (by simp) ..

/-- **A successful call extends the entries it touches, and no others.** -/
theorem EscrowCall.exec_live {call : EscrowCall}
    (h : call.exec env s pools t = .ok (s', pools', t')) :
    s'.live = extendAll env.sequence call.touched s.live := by
  cases call
  case initializeEscrow =>
    obtain ⟨hc, he⟩ := pair_eq_ok.1 h
    obtain ⟨rfl, rfl⟩ := Prod.mk.inj he
    rw [initializeEscrow_live hc, foldl_extendTtl]
    rfl
  case fund =>
    simp only [exec, bind_eq_ok, pure_eq, Except.ok.injEq, Prod.mk.injEq, Prod.exists] at h
    obtain ⟨_, _, h, rfl, rfl, rfl⟩ := h
    rw [fund_live h, foldl_extendTtl]
    rfl
  case activate =>
    obtain ⟨hc, he⟩ := pair_eq_ok.1 h
    obtain ⟨rfl, rfl⟩ := Prod.mk.inj he
    rw [activate_live hc, foldl_extendTtl]
    rfl
  case complete =>
    rw [complete_live h, foldl_extendTtl]
    rfl
  case refundExpired =>
    simp only [exec, bind_eq_ok, pure_eq, Except.ok.injEq, Prod.mk.injEq, Prod.exists] at h
    obtain ⟨_, _, h, rfl, rfl, rfl⟩ := h
    rw [refundExpired_live h, foldl_extendTtl]
    rfl
  case proposeGovernance | proposeSettlement =>
    obtain ⟨hc, he⟩ := pair_eq_ok.1 h
    obtain ⟨rfl, rfl⟩ := Prod.mk.inj he
    rw [propose_live hc, foldl_extendTtl]
    rfl
  case acceptGovernance | acceptSettlement =>
    obtain ⟨hc, he⟩ := pair_eq_ok.1 h
    obtain ⟨rfl, rfl⟩ := Prod.mk.inj he
    rw [accept_live hc, foldl_extendTtl]
    rfl
  case pause | unpause =>
    obtain ⟨hc, he⟩ := pair_eq_ok.1 h
    obtain ⟨rfl, rfl⟩ := Prod.mk.inj he
    rw [setPaused_live hc, foldl_instance_twice]
    rfl
  case getCampaign =>
    obtain ⟨⟨_, hc⟩, he⟩ := snd_pair_eq_ok.1 h
    obtain ⟨rfl, rfl⟩ := Prod.mk.inj he
    simp only [Escrow.getCampaign, bind_eq_ok, pure_eq, Except.ok.injEq, Prod.mk.injEq] at hc
    obtain ⟨_, -, -, rfl⟩ := hc
    exact foldl_extendTtl env [_] s.live
  case configVersion | poolDestinations | tokenContract | serviceTreasury | settlementAuthority =>
    obtain ⟨⟨_, hc⟩, he⟩ := snd_pair_eq_ok.1 h
    obtain ⟨rfl, rfl⟩ := Prod.mk.inj he
    rw [readInstance_live hc, foldl_instance_twice]
    rfl
  case isPaused =>
    simp only [exec, Except.ok.injEq, Prod.mk.injEq] at h
    obtain ⟨rfl, rfl, rfl⟩ := h
    exact (extendAll_nil ..).symm
  case governance =>
    simp only [exec, bind_eq_ok, pure_eq, Except.ok.injEq, Prod.mk.injEq] at h
    obtain ⟨_, -, rfl, rfl, rfl⟩ := h
    exact (extendAll_nil ..).symm
  case extendInstanceTtl =>
    obtain ⟨hc, he⟩ := pair_eq_ok.1 h
    obtain ⟨rfl, rfl⟩ := Prod.mk.inj he
    simp only [Escrow.extendInstanceTtl, bind_eq_ok, init_eq_ok, pure_eq, Except.ok.injEq] at hc
    obtain ⟨_, ⟨-, rfl⟩, rfl⟩ := hc
    exact foldl_instance_twice env s.live
  case extendCampaignTtl =>
    obtain ⟨hc, he⟩ := pair_eq_ok.1 h
    obtain ⟨rfl, rfl⟩ := Prod.mk.inj he
    simp only [Escrow.extendCampaignTtl, bind_eq_ok, pure_eq, Except.ok.injEq] at hc
    obtain ⟨_, -, rfl⟩ := hc
    exact foldl_extendTtl env [_] s.live

theorem clientRecordCredit_keeps {I : Pool.PoolStorage → Prop} {pool q : Address} {amount : ℤ}
    (hcall : ∀ {p s s'}, (Pool.PoolCall.recordCredit id amount).exec (poolEnv env p) s t = .ok (s', t) →
      I s → I s')
    (h : clientRecordCredit env pool id amount pools t = .ok pools') (hI : I (pools q)) :
    I (pools' q) := by
  cases hp : env.isPool pool with
  | false =>
    rw [clientRecordCredit_foreign hp h]
    exact hI
  | true =>
    rw [clientRecordCredit, if_pos hp] at h
    simp only [bind_eq_ok, ofPool_eq_ok, pure_eq, Except.ok.injEq] at h
    obtain ⟨s, hc, rfl⟩ := h
    by_cases hq : q = pool
    · subst hq
      rw [update_self]
      exact hcall (pair_eq_ok.2 ⟨hc, rfl⟩) hI
    · rw [update_of_ne hq]
      exact hI

/-- **The pools during a call of the escrow.** -/
theorem EscrowCall.exec_pools {call : EscrowCall} {I : Pool.PoolStorage → Prop} {q : Address}
    (hcall : ∀ {p c s s' t t'}, Pool.PoolCall.exec (poolEnv env p) s t c = .ok (s', t') → I s → I s')
    (h : call.exec env s pools t = .ok (s', pools', t')) (hI : I (pools q)) : I (pools' q) := by
  cases EscrowCall.effect h with
  | complete hc =>
    obtain ⟨t₃, t₄, pools₁, -, -, h₁, -, -, h₂⟩ := hc.payOut.credits
    exact clientRecordCredit_keeps hcall h₂ (clientRecordCredit_keeps hcall h₁ hI)
  | initializeEscrow _ hp _ | fund _ hp | activate _ hp _ | refundExpired _ hp | other _ _ hp _ =>
    rw [hp]
    exact hI

end Escrow

end TogetherFi
