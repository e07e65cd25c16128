/-
  The two roles of the escrow: governance and the settlement authority.

  Every call is one event of the two roles (`EscrowCall.rotates`).  Neither
  `initialize` nor `accept` compares the account it installs with the holder of
  the other role, so the guard of the escrow is empty.
-/
import TogetherFi.Pool.Roles
import TogetherFi.Escrow.Effect

namespace TogetherFi

open Outcome Rotation

namespace Escrow

/-- The stored roles. -/
def EscrowStorage.roles (s : EscrowStorage) : Roles Address where
  holder
    | .governance => s.governance
    | .authority => s.settlement
  pending
    | .governance => s.pendingGovernance
    | .authority => s.pendingSettlement

/-- What a call is to the roles. -/
def EscrowCall.roleEvent : EscrowCall → RoleEvent Address
  | .initializeEscrow gov settle .. => .install gov settle
  | .proposeGovernance account => .propose .governance account
  | .proposeSettlement account => .propose .authority account
  | .acceptGovernance => .accept .governance
  | .acceptSettlement => .accept .authority
  | _ => .keep

/-- The role holders and proposed accounts whose `require_auth` the call runs. -/
def EscrowCall.roleChecks (s : EscrowStorage) : EscrowCall → List Address
  | .initializeEscrow gov .. => [gov]
  | .complete .. => s.settlement.toList
  | .proposeGovernance _ | .proposeSettlement _ | .pause | .unpause => s.governance.toList
  | .acceptGovernance => s.pendingGovernance.toList
  | .acceptSettlement => s.pendingSettlement.toList
  | _ => []

variable {env : Env} {s s' : EscrowStorage} {pools pools' : Pools} {t t' : Tokens}

theorem Initialize.roles {g se token treasury nft revenue d : Address} {salt : BytesN32}
    (h : Initialize env g se token treasury nft revenue d salt s pools s') :
    s'.roles = s.roles.installed g se := by
  obtain ⟨_, hs⟩ := h.post
  rw [hs]
  ext role a <;> cases role <;> rfl

theorem propose_ok {role : ℕ} {account : Address} (h : propose env role account s = .ok s') :
    ∃ g, s.governance = some g ∧ env.authorized g = true ∧
      s'.roles = s.roles.proposed (if role = 1 then .governance else .authority) account := by
  simp only [propose, currentGovernance, bind_eq_ok, init_eq_ok, okOr_eq_ok, requireAuth_eq_ok,
    exists_const, pure_eq, Except.ok.injEq] at h
  obtain ⟨_, ⟨-, rfl⟩, g, hg, hauth, rfl⟩ := h
  refine ⟨g, hg, hauth, ?_⟩
  split <;> ext role a <;> cases role <;> rfl

theorem accept_ok {role : ℕ} (h : accept env role s = .ok s') :
    ∃ a, s.governance.isSome ∧
      s.roles.pending (if role = 1 then .governance else .authority) = some a ∧
      env.authorized a = true ∧
      s'.roles = s.roles.accepted (if role = 1 then .governance else .authority) a := by
  simp only [accept, bind_eq_ok, init_eq_ok, okOr_eq_ok, requireAuth_eq_ok, exists_const, pure_eq,
    Except.ok.injEq] at h
  obtain ⟨_, ⟨hg, rfl⟩, a, ha, hauth, rfl⟩ := h
  refine ⟨a, hg, ?_, hauth, ?_⟩
  · split at ha <;> rename_i hr <;> simpa [hr, EscrowStorage.roles] using ha
  · split <;> ext role a <;> cases role <;> rfl

theorem setPaused_ok {b : Bool} (h : setPaused b env s = .ok s') :
    ∃ g, s.governance = some g ∧ env.authorized g = true ∧ s'.roles = s.roles := by
  simp only [setPaused, currentGovernance, bind_eq_ok, init_eq_ok, okOr_eq_ok, requireAuth_eq_ok,
    exists_const, pure_eq, Except.ok.injEq] at h
  obtain ⟨_, ⟨-, rfl⟩, g, hg, hauth, rfl⟩ := h
  exact ⟨g, hg, hauth, rfl⟩

theorem readInstance_roles {β : Type} {get : EscrowStorage → Result β} {b : β}
    (h : readInstance env get s = .ok (b, s')) : s'.roles = s.roles := by
  simp only [readInstance, bind_eq_ok, init_eq_ok, pure_eq, Except.ok.injEq, Prod.mk.injEq] at h
  obtain ⟨_, ⟨-, rfl⟩, _, -, -, rfl⟩ := h
  rfl

theorem Effect.roles {call : EscrowCall} (h : Effect env s pools t s' pools' t' call)
    (hcall : call.isBooking = true) (he : call.roleEvent = .keep) : s'.roles = s.roles := by
  cases h with
  | initializeEscrow => cases he
  | fund h _ => obtain ⟨_, hs⟩ := h.post; rw [hs]; rfl
  | activate h _ _ => obtain ⟨_, hs⟩ := h.post; rw [hs]; rfl
  | complete h => obtain ⟨_, hs⟩ := h.post; rw [hs]; rfl
  | refundExpired h _ => obtain ⟨_, hs⟩ := h.post; rw [hs]; rfl
  | other hno => rw [hno] at hcall; cases hcall

/-- **What a successful call did to the roles, and who it checked.** -/
theorem EscrowCall.rotates {call : EscrowCall} (h : call.exec env s pools t = .ok (s', pools', t')) :
    Rotates (fun _ _ => True) (env.authorized · = true) s.roles call.roleEvent s'.roles ∧
      ∀ a ∈ call.roleChecks s, env.authorized a = true := by
  have heff := EscrowCall.effect h
  cases call
  case initializeEscrow =>
    cases heff with
    | initializeEscrow hi =>
      rw [hi.roles]
      exact ⟨.install hi.fresh trivial, by simpa [roleChecks] using hi.governanceAuth⟩
    | other hno => cases hno
  case fund | activate | refundExpired =>
    refine ⟨?_, by simp [roleChecks]⟩
    rw [heff.roles rfl rfl]
    exact .keep
  case complete =>
    refine ⟨by rw [heff.roles rfl rfl]; exact .keep, ?_⟩
    cases heff with
    | complete hc =>
      obtain ⟨a, ha, hauth⟩ := hc.settlement
      simpa [roleChecks, ha] using hauth
    | other hno => cases hno
  case proposeGovernance | proposeSettlement =>
    obtain ⟨g, hg, hauth, hr⟩ := propose_ok (pair_eq_ok.1 h).1
    rw [hr]
    exact ⟨.propose hg hauth, by simpa [roleChecks, hg] using hauth⟩
  case acceptGovernance =>
    obtain ⟨a, hg, ha, hauth, hr⟩ := accept_ok (pair_eq_ok.1 h).1
    have ha : s.pendingGovernance = some a := ha
    rw [hr]
    exact ⟨.accept hg ha hauth fun _ _ => trivial, by simpa [roleChecks, ha] using hauth⟩
  case acceptSettlement =>
    obtain ⟨a, hg, ha, hauth, hr⟩ := accept_ok (pair_eq_ok.1 h).1
    have ha : s.pendingSettlement = some a := ha
    rw [hr]
    exact ⟨.accept hg ha hauth fun _ _ => trivial, by simpa [roleChecks, ha] using hauth⟩
  case pause | unpause =>
    obtain ⟨g, hg, hauth, hr⟩ := setPaused_ok (pair_eq_ok.1 h).1
    rw [hr]
    exact ⟨.keep, by simpa [roleChecks, hg] using hauth⟩
  case configVersion | poolDestinations | tokenContract | serviceTreasury | settlementAuthority =>
    obtain ⟨⟨_, hc⟩, -⟩ := snd_pair_eq_ok.1 h
    rw [readInstance_roles hc]
    exact ⟨.keep, by simp [roleChecks]⟩
  case getCampaign =>
    obtain ⟨⟨_, hc⟩, -⟩ := snd_pair_eq_ok.1 h
    simp only [Escrow.getCampaign, bind_eq_ok, pure_eq, Except.ok.injEq, Prod.mk.injEq] at hc
    obtain ⟨_, -, -, rfl⟩ := hc
    exact ⟨.keep, by simp [roleChecks]⟩
  case isPaused =>
    obtain ⟨rfl, -⟩ := Prod.mk.inj (Except.ok.inj h)
    exact ⟨.keep, by simp [roleChecks]⟩
  case governance =>
    simp only [exec, bind_eq_ok, pure_eq, Except.ok.injEq, Prod.mk.injEq] at h
    obtain ⟨_, -, rfl, -⟩ := h
    exact ⟨.keep, by simp [roleChecks]⟩
  case extendInstanceTtl =>
    have hc := (pair_eq_ok.1 h).1
    simp only [Escrow.extendInstanceTtl, bind_eq_ok, init_eq_ok, pure_eq, Except.ok.injEq] at hc
    obtain ⟨_, ⟨-, rfl⟩, rfl⟩ := hc
    exact ⟨.keep, by simp [roleChecks]⟩
  case extendCampaignTtl =>
    have hc := (pair_eq_ok.1 h).1
    simp only [Escrow.extendCampaignTtl, bind_eq_ok, pure_eq, Except.ok.injEq] at hc
    obtain ⟨_, -, rfl⟩ := hc
    exact ⟨.keep, by simp [roleChecks]⟩

theorem EscrowCall.governance_of_ok {call : EscrowCall}
    (h : call.exec env s pools t = .ok (s', pools', t')) :
    s'.governance = s.governance ∨ ∃ g ∈ call.roleChecks s, s'.governance = some g := by
  have hrot := (EscrowCall.rotates h).1
  have hroles : s'.governance = s'.roles.holder .governance := rfl
  generalize he : call.roleEvent = e at hrot
  generalize s'.roles = r at hrot hroles
  rw [hroles]
  cases hrot with
  | @install g se _ _ =>
    right
    refine ⟨g, ?_, rfl⟩
    cases call <;> simp_all [roleEvent, roleChecks]
  | propose | keep => exact .inl rfl
  | @accept role a _ hp _ _ =>
    cases role with
    | authority => exact .inl rfl
    | governance =>
      right
      have hp : s.pendingGovernance = some a := hp
      refine ⟨a, ?_, rfl⟩
      cases call <;> simp_all [roleEvent, roleChecks]

theorem Effect.pool_roles {call : EscrowCall} (h : Effect env s pools t s' pools' t' call)
    (p : Address) : (pools' p).roles = (pools p).roles := by
  cases h with
  | complete h =>
    obtain ⟨t₃, t₄, pools₁, -, -, h₁, -, -, h₂⟩ := h.payOut.credits
    have hcall : ∀ {id amount t u u'}, Pool.RecordCredit (poolEnv env p) id amount u t u' →
        u.roles = (pools p).roles → u'.roles = (pools p).roles := by
      intro id amount t u u' hc hu
      obtain ⟨_, hs⟩ := hc.post
      rw [hs]
      exact hu
    exact clientRecordCredit_preserves hcall h₂ (clientRecordCredit_preserves hcall h₁ rfl)
  | initializeEscrow _ hp _ | fund _ hp | activate _ hp _ | refundExpired _ hp | other _ _ hp _ =>
    rw [hp]

end Escrow

end TogetherFi
