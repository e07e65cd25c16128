/-
  The two roles of a pool: governance and the eligibility authority.

  Every call is one event of the two roles (`PoolCall.rotates`), and before a
  role is filled the pool compares the account with the holder of the other.
-/
import TogetherFi.Lib.Rotation
import TogetherFi.Pool.Effect

namespace TogetherFi

open Outcome Rotation

namespace Pool

/-- The stored roles. -/
def PoolStorage.roles (s : PoolStorage) : Roles Address where
  holder
    | .governance => s.governance
    | .authority => s.eligibilityAuthority
  pending
    | .governance => s.pendingGovernance
    | .authority => s.pendingEligibilityAuthority

/-- What a call is to the roles. -/
def PoolCall.roleEvent : PoolCall → RoleEvent Address
  | .initializePool gov elig .. => .install gov elig
  | .proposeGovernance account => .propose .governance account
  | .proposeEligibilityAuthority account => .propose .authority account
  | .acceptGovernance => .accept .governance
  | .acceptEligibilityAuthority => .accept .authority
  | _ => .keep

/-- The role holders and proposed accounts whose `require_auth` the call runs. -/
def PoolCall.roleChecks (s : PoolStorage) : PoolCall → List Address
  | .initializePool gov elig .. => [gov, elig]
  | .publishManifest .. => s.governance.toList ++ s.eligibilityAuthority.toList
  | .proposeGovernance _ | .proposeEligibilityAuthority _ | .pause | .unpause => s.governance.toList
  | .acceptGovernance => s.pendingGovernance.toList
  | .acceptEligibilityAuthority => s.pendingEligibilityAuthority.toList
  | _ => []

variable {env : Env} {s s' : PoolStorage} {t t' : Tokens}

theorem Initialize.roles_eq {g e tok esc d : Address} {salt : BytesN32}
    (h : Initialize env g e tok esc d salt s s') : s'.roles = s.roles.installed g e := by
  obtain ⟨_, hs⟩ := h.post
  rw [hs]
  ext role a <;> cases role <;> rfl

theorem proposeRole_ok {role : ℕ} {account : Address}
    (h : proposeRole env role account s = .ok s') :
    ∃ g, s.governance = some g ∧ env.authorized g = true ∧
      s'.roles = s.roles.proposed (if role = 1 then .governance else .authority) account := by
  simp only [proposeRole, currentGovernance, bind_eq_ok, init_eq_ok, okOr_eq_ok, requireAuth_eq_ok,
    exists_const, pure_eq, Except.ok.injEq] at h
  obtain ⟨_, ⟨-, rfl⟩, g, hg, hauth, rfl⟩ := h
  refine ⟨g, hg, hauth, ?_⟩
  split <;> ext role a <;> cases role <;> rfl

theorem acceptRole_ok {role : ℕ} (h : acceptRole env role s = .ok s') :
    ∃ a o, s.governance.isSome ∧
      s.roles.pending (if role = 1 then .governance else .authority) = some a ∧
      env.authorized a = true ∧
      s.roles.holder (if role = 1 then .authority else .governance) = some o ∧ a ≠ o ∧
      s'.roles = s.roles.accepted (if role = 1 then .governance else .authority) a := by
  simp only [acceptRole, currentEligibilityAuthority, currentGovernance, bind_eq_ok, init_eq_ok,
    okOr_eq_ok, requireAuth_eq_ok, rejectIf_eq_ok, exists_const, pure_eq, Except.ok.injEq] at h
  obtain ⟨_, ⟨hg, rfl⟩, a, ha, hauth, o, ho, hne, rfl⟩ := h
  refine ⟨a, o, hg, ?_, hauth, ?_, hne, ?_⟩
  · split at ha <;> rename_i hr <;> simpa [hr, PoolStorage.roles] using ha
  · split at ho <;> rename_i hr <;> simpa [hr, PoolStorage.roles] using ho
  · split <;> ext role a <;> cases role <;> rfl

theorem setPaused_ok {b : Bool} (h : setPaused b env s = .ok s') :
    ∃ g, s.governance = some g ∧ env.authorized g = true ∧ s'.roles = s.roles := by
  simp only [setPaused, currentGovernance, bind_eq_ok, init_eq_ok, okOr_eq_ok, requireAuth_eq_ok,
    exists_const, pure_eq, Except.ok.injEq] at h
  obtain ⟨_, ⟨-, rfl⟩, g, hg, hauth, rfl⟩ := h
  exact ⟨g, hg, hauth, rfl⟩

theorem extendAllocationTtls_roles {id : UInt64} : ∀ {is : List ℕ} {s : PoolStorage},
    extendAllocationTtls env id is s = .ok s' → s'.roles = s.roles
  | [], s, h => by
    simp only [extendAllocationTtls, Except.ok.injEq] at h
    rw [← h]
  | i :: is, s, h => by
    simp only [extendAllocationTtls, bind_eq_ok, rejectIf_eq_ok, exists_const] at h
    rw [extendAllocationTtls_roles h.2]
    rfl

theorem Effect.roles {call : PoolCall} (h : Effect env s t s' t' call)
    (hcall : call.isBooking = true) (he : call.roleEvent = .keep) : s'.roles = s.roles := by
  cases h with
  | initializePool => cases he
  | recordCredit h _ => obtain ⟨_, hs⟩ := h.post; rw [hs]; rfl
  | publishManifest h _ => obtain ⟨_, hs⟩ := h.post; rw [hs]; rfl
  | claim h => obtain ⟨_, hs⟩ := h.post; rw [hs]; rfl
  | expireManifest h _ => obtain ⟨_, hs⟩ := h.post; rw [hs]; rfl
  | other hno => rw [hno] at hcall; cases hcall

/-- **What a successful call did to the roles, and who it checked.** -/
theorem PoolCall.rotates {call : PoolCall} (h : call.exec env s t = .ok (s', t')) :
    Rotates (· ≠ ·) (env.authorized · = true) s.roles call.roleEvent s'.roles ∧
      ∀ a ∈ call.roleChecks s, env.authorized a = true := by
  have heff := PoolCall.effect h
  cases call
  case initializePool =>
    cases heff with
    | initializePool hi =>
      rw [hi.roles_eq]
      exact ⟨.install hi.fresh hi.roles, by simp [roleChecks, hi.governanceAuth, hi.eligibilityAuth]⟩
    | other hno => cases hno
  case recordCredit | claim | expireManifest =>
    refine ⟨?_, by simp [roleChecks]⟩
    rw [heff.roles rfl rfl]
    exact .keep
  case publishManifest =>
    refine ⟨by rw [heff.roles rfl rfl]; exact .keep, ?_⟩
    cases heff with
    | publishManifest hp =>
      obtain ⟨g, hg, hgauth⟩ := hp.governance
      obtain ⟨e, he, heauth⟩ := hp.eligibility
      simp [roleChecks, hg, he, hgauth, heauth]
    | other hno => cases hno
  case proposeGovernance | proposeEligibilityAuthority =>
    obtain ⟨g, hg, hauth, hr⟩ := proposeRole_ok (pair_eq_ok.1 h).1
    rw [hr]
    exact ⟨.propose hg hauth, by simpa [roleChecks, hg] using hauth⟩
  case acceptGovernance =>
    obtain ⟨a, o, hg, ha, hauth, ho, hne, hr⟩ := acceptRole_ok (pair_eq_ok.1 h).1
    have ha : s.pendingGovernance = some a := ha
    rw [hr]
    refine ⟨.accept hg ha hauth ?_, by simpa [roleChecks, ha] using hauth⟩
    intro o' ho'
    rwa [← Option.some.inj (ho.symm.trans ho')]
  case acceptEligibilityAuthority =>
    obtain ⟨a, o, hg, ha, hauth, ho, hne, hr⟩ := acceptRole_ok (pair_eq_ok.1 h).1
    have ha : s.pendingEligibilityAuthority = some a := ha
    rw [hr]
    refine ⟨.accept hg ha hauth ?_, by simpa [roleChecks, ha] using hauth⟩
    intro o' ho'
    rwa [← Option.some.inj (ho.symm.trans ho')]
  case pause | unpause =>
    obtain ⟨g, hg, hauth, hr⟩ := setPaused_ok (pair_eq_ok.1 h).1
    rw [hr]
    exact ⟨.keep, by simpa [roleChecks, hg] using hauth⟩
  case getManifest =>
    obtain ⟨⟨_, hc⟩, -⟩ := snd_pair_eq_ok.1 h
    simp only [Pool.getManifest, bind_eq_ok, pure_eq, Except.ok.injEq, Prod.mk.injEq] at hc
    obtain ⟨_, -, -, rfl⟩ := hc
    exact ⟨.keep, by simp [roleChecks]⟩
  case getAllocation =>
    obtain ⟨⟨_, hc⟩, -⟩ := snd_pair_eq_ok.1 h
    simp only [Pool.getAllocation, bind_eq_ok, pure_eq, Except.ok.injEq, Prod.mk.injEq] at hc
    obtain ⟨_, -, -, rfl⟩ := hc
    exact ⟨.keep, by simp [roleChecks]⟩
  case totalLiability =>
    obtain ⟨⟨_, hc⟩, -⟩ := snd_pair_eq_ok.1 h
    simp only [Pool.totalLiability, bind_eq_ok, init_eq_ok, pure_eq, Except.ok.injEq,
      Prod.mk.injEq] at hc
    obtain ⟨_, ⟨-, rfl⟩, _, -, -, rfl⟩ := hc
    exact ⟨.keep, by simp [roleChecks]⟩
  case availableBalance =>
    simp only [exec, bind_eq_ok, pure_eq, Except.ok.injEq, Prod.mk.injEq] at h
    obtain ⟨_, -, rfl, -⟩ := h
    exact ⟨.keep, by simp [roleChecks]⟩
  case isPaused =>
    obtain ⟨rfl, -⟩ := Prod.mk.inj (Except.ok.inj h)
    exact ⟨.keep, by simp [roleChecks]⟩
  case extendInstanceTtl =>
    obtain ⟨-, rfl⟩ := init_eq_ok.1 (pair_eq_ok.1 h).1
    exact ⟨.keep, by simp [roleChecks]⟩
  case extendManifestTtl =>
    have hc := (pair_eq_ok.1 h).1
    simp only [Pool.extendManifestTtl, bind_eq_ok] at hc
    obtain ⟨_, -, hc⟩ := hc
    rw [extendAllocationTtls_roles hc]
    exact ⟨.keep, by simp [roleChecks]⟩
  case governance | eligibilityAuthority | escrowContract | tokenContract =>
    simp only [exec, bind_eq_ok, pure_eq, Except.ok.injEq, Prod.mk.injEq] at h
    obtain ⟨_, -, rfl, -⟩ := h
    exact ⟨.keep, by simp [roleChecks]⟩

end Pool

end TogetherFi
