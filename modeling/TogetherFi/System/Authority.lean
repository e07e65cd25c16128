/-
  Who can do what alone.

  The roles of the escrow and of every pool rotate by the same two steps
  (`Deployment.step_rotates`).  A pool compares the two roles before it fills
  one, so they never meet; the escrow does not, so they stay apart exactly in
  the runs whose steps keep them apart.
-/
import TogetherFi.Escrow.Roles
import TogetherFi.System.World

namespace TogetherFi

open Function Rotation Escrow Pool

/-! ## Roles and their checks -/

/-- The addresses that authorize an action. -/
def Action.signs (D : Deployment) : Action → Address → Bool
  | .escrow signers _ _, a | .pool _ signers _, a => signers a && !D.isSystem a
  | _, _ => false

/-- What an action is to the roles of the contract `c`. -/
def Action.roleEvent (D : Deployment) (c : Address) : Action → RoleEvent Address
  | .escrow _ _ call => if c = D.escrow then call.roleEvent else .keep
  | .pool p _ call => if c = p then call.roleEvent else .keep
  | _ => .keep

namespace World

variable (D : Deployment) (c : Address) (w : World)

/-- The roles of the contract `c`: the escrow, or a pool. -/
def roles : Roles Address := if c = D.escrow then w.escrow.roles else (w.pools c).roles

/-- The role holders and proposed accounts of `c` whose `require_auth` an action
    runs. -/
def roleChecks : Action → List Address
  | .escrow _ _ call => if c = D.escrow then call.roleChecks w.escrow else []
  | .pool p _ call => if c = p then call.roleChecks (w.pools p) else []
  | _ => []

@[simp] theorem roles_escrow : w.roles D D.escrow = w.escrow.roles := if_pos rfl

end World

variable {D : Deployment}

theorem World.roles_pool (w : World) {p : Address} (hp : D.isPool p = true) :
    w.roles D p = (w.pools p).roles :=
  if_neg (D.ne_escrow_of_isPool hp)

/-- **What an action that took effect did to the roles of a contract, and who it
    checked.**  Only a pool compares the roles. -/
theorem Deployment.step_rotates {w w' : World} {a : Action} (h : D.step w a = .ok w') (c : Address) :
    Rotates (fun b o => c ≠ D.escrow → b ≠ o) (a.signs D · = true) (w.roles D c) (a.roleEvent D c)
        (w'.roles D c) ∧
      ∀ b ∈ w.roleChecks D c a, a.signs D b = true := by
  cases a with
  | escrow signers foreign call =>
    obtain ⟨s, pools, t, hc, rfl⟩ := Deployment.step_escrow_ok h
    by_cases hce : c = D.escrow
    · obtain ⟨hrot, hchecks⟩ := EscrowCall.rotates hc
      simp only [World.roles, World.roleChecks, Action.roleEvent, if_pos hce]
      exact ⟨hrot.mono fun _ _ _ hne => absurd hce hne, hchecks⟩
    · simp only [World.roles, World.roleChecks, Action.roleEvent, if_neg hce,
        (EscrowCall.effect hc).pool_roles c]
      exact ⟨.keep, by simp⟩
  | pool p signers call =>
    obtain ⟨hp, s, t, hc, rfl⟩ := Deployment.step_pool_ok h
    by_cases hcp : c = p
    · subst hcp
      obtain ⟨hrot, hchecks⟩ := PoolCall.rotates hc
      simp only [World.roles, World.roleChecks, Action.roleEvent, if_neg (D.ne_escrow_of_isPool hp),
        if_true, update_self]
      exact ⟨hrot.mono fun _ _ hne _ => hne, hchecks⟩
    · simp only [World.roles, World.roleChecks, Action.roleEvent, if_neg hcp, update_of_ne hcp]
      exact ⟨.keep, by simp⟩
  | transfer =>
    cases Deployment.step_effect h with
    | transfer _ _ _ hw => rw [hw]; exact ⟨.keep, by simp [World.roleChecks]⟩
  | issuer =>
    cases Deployment.step_effect h with
    | issuer _ hw => rw [hw]; exact ⟨.keep, by simp [World.roleChecks]⟩
  | close =>
    cases Deployment.step_effect h with
    | close _ hw => rw [hw]; exact ⟨.keep, by simp [World.roleChecks]⟩

theorem Deployment.Step.rotates (c : Address) (t : D.Step) :
    Rotates (fun b o => c ≠ D.escrow → b ≠ o) (t.act.signs D · = true) (t.pre.roles D c)
      (t.act.roleEvent D c) (t.post.roles D c) :=
  (Deployment.step_rotates t.ok c).1

theorem Deployment.Step.signed {c : Address} (t : D.Step) :
    ∀ b ∈ t.pre.roleChecks D c t.act, t.act.signs D b = true :=
  (Deployment.step_rotates t.ok c).2

/-- Governance of the escrow changes only to an address the action checked. -/
theorem Deployment.step_governance {w w' : World} {a : Action} (h : D.step w a = .ok w') :
    w'.escrow.governance = w.escrow.governance ∨
      ∃ g ∈ w.roleChecks D D.escrow a, w'.escrow.governance = some g := by
  cases a with
  | escrow signers foreign call =>
    obtain ⟨s, pools, t, hc, rfl⟩ := Deployment.step_escrow_ok h
    simpa only [World.roleChecks, if_true] using EscrowCall.governance_of_ok hc
  | pool =>
    cases Deployment.step_effect h with
    | pool _ _ hw => rw [hw]; exact .inl rfl
  | transfer =>
    cases Deployment.step_effect h with
    | transfer _ _ _ hw => rw [hw]; exact .inl rfl
  | issuer =>
    cases Deployment.step_effect h with
    | issuer _ hw => rw [hw]; exact .inl rfl
  | close =>
    cases Deployment.step_effect h with
    | close _ hw => rw [hw]; exact .inl rfl

/-- Before anything is initialized nobody holds or is proposed for a role. -/
theorem Deployment.Genesis.roles {w : World} (hw : D.Genesis w) (c : Address) (role : Role) :
    (w.roles D c).holder role = none ∧ (w.roles D c).pending role = none := by
  obtain ⟨_, he⟩ := hw.escrow
  obtain ⟨_, hp⟩ := hw.pools c
  unfold World.roles
  rw [he, hp]
  split <;> cases role <;> exact ⟨rfl, rfl⟩

theorem Deployment.Genesis.apart {w : World} (hw : D.Genesis w) (c : Address) :
    (w.roles D c).Apart := by
  intro g hg
  rw [(hw.roles c .governance).1] at hg; cases hg

/-! ## Dual control of a pool -/

theorem Execution.pool_roles_apart (x : Execution D) {p : Address} (hp : D.isPool p = true) :
    (x.final.pools p).roles.Apart := by
  rw [← World.roles_pool _ hp]
  refine apart_run (M := D.machine) (Deployment.Step.rotates p) x.actions (x.genesis.apart p) ?_
  intro t _
  exact (Deployment.Step.rotates p t).separates fun _ _ hne => hne (D.ne_escrow_of_isPool hp)

/-- **No single authority can allocate pool money.**  The governance and the
    eligibility authority of an initialized pool are different addresses, and as
    long as one address satisfies all checks of roles nothing is published. -/
theorem no_single_authority (x : Execution D) {p : Address} (hp : D.isPool p = true) :
    ((x.final.pools p).governance.isSome → ∃ g e, (x.final.pools p).governance = some g ∧
      (x.final.pools p).eligibilityAuthority = some e ∧ g ≠ e) ∧
    ∀ (a : Address) (as : List Action),
      (∀ t ∈ D.machine.trace x.final as, ∀ b ∈ t.pre.roleChecks D p t.act,
        t.act.signs D b = true → b = a) →
      ∀ t ∈ D.machine.trace x.final as, ∀ signers id hash policy expiresAt recipients amounts,
        t.act ≠ .pool p signers (.publishManifest id hash policy expiresAt recipients amounts) := by
  refine ⟨?_, ?_⟩
  · intro hg
    obtain ⟨g, hg⟩ := Option.isSome_iff_exists.1 hg
    obtain ⟨e, he, hne⟩ := x.pool_roles_apart hp g hg
    exact ⟨g, e, hg, he, hne⟩
  · intro a as hone t ht signers id hash policy expiresAt recipients amounts hact
    obtain ⟨bs, -, -, hpre, -⟩ := Machine.mem_trace ht
    have hapart : (t.pre.pools p).roles.Apart := by
      rw [hpre, ← Execution.after_final]
      exact (x.after bs).pool_roles_apart hp
    have heff := Deployment.Step.effect t
    rw [hact] at heff
    cases heff with
    | pool _ h _ =>
      cases h with
      | publishManifest h _ =>
        obtain ⟨g, hg, -⟩ := h.governance
        obtain ⟨e, he, hne⟩ := hapart g hg
        have he : (t.pre.pools p).eligibilityAuthority = some e := he
        have hcheck : ∀ b ∈ [g, e], b = a := by
          intro b hb
          have hb : b ∈ t.pre.roleChecks D p t.act := by
            rw [hact]
            simpa [World.roleChecks, PoolCall.roleChecks, hg, he] using hb
          exact hone t ht b hb (Deployment.Step.signed t b hb)
        exact hne ((hcheck g (by simp)).trans (hcheck e (by simp)).symm)
      | other hno => cases hno

namespace Sample

/-- Governance tries to take the other role of the pool, and to publish. -/
def seizing : List Action :=
  [PoolCall.proposeEligibilityAuthority deployer, .acceptEligibilityAuthority,
    .publishManifest 2 0 0 2000 [deployer] [50], .pause].map (.pool nftPool (fun b => b = deployer))

end Sample

theorem no_single_authority_sample :
    (∃ g e, (Sample.execution.final.pools Sample.nftPool).governance = some g ∧
      (Sample.execution.final.pools Sample.nftPool).eligibilityAuthority = some e ∧ g ≠ e) ∧
    ∀ t ∈ Sample.deployment.machine.trace Sample.execution.final Sample.seizing,
      ∀ signers id hash policy expiresAt recipients amounts,
        t.act ≠ .pool Sample.nftPool signers
          (.publishManifest id hash policy expiresAt recipients amounts) := by
  have hp : Sample.deployment.isPool Sample.nftPool = true := by decide
  obtain ⟨hapart, hnone⟩ := no_single_authority Sample.execution hp
  refine ⟨hapart (by decide +kernel), hnone Sample.deployer Sample.seizing fun t ht b _ hsigns => ?_⟩
  obtain ⟨call, -, hact⟩ := List.mem_map.1 (Machine.act_mem_of_mem_trace ht)
  rw [← hact] at hsigns
  simp only [Action.signs, Bool.and_eq_true, decide_eq_true_eq] at hsigns
  exact hsigns.1

/-! ## Governance and settlement -/

/-- In a run of the escrow whose role checks are all satisfied by `G`, only `G`
    governs. -/
theorem Execution.governance_eq (x : Execution D) {G : Address}
    (hone : ∀ t ∈ x.history, ∀ b ∈ t.pre.roleChecks D D.escrow t.act, t.act.signs D b = true → b = G)
    {g : Address} (hg : x.final.escrow.governance = some g) : g = G := by
  revert hone hg
  refine x.induction (A := fun _ => True) (P := fun hist w =>
    (∀ t ∈ hist, ∀ b ∈ t.pre.roleChecks D D.escrow t.act, t.act.signs D b = true → b = G) →
      w.escrow.governance = some g → g = G) ?_ ?_ fun _ _ => trivial
  · intro w hw _ hg
    have hnone := (hw.roles D.escrow .governance).1
    rw [World.roles_escrow] at hnone
    cases hnone.symm.trans hg
  · intro y t _ _ _ ih hone hg
    have hpre := ih fun u hu => hone u (by simp [hu])
    have ht := hone t (by simp)
    rcases Deployment.step_governance t.ok with hsame | ⟨b, hb, hpost⟩
    · exact hpre (hsame ▸ hg)
    · obtain rfl : b = g := Option.some.inj (hpost.symm.trans hg)
      exact ht b hb (t.signed b hb)

/-- No step of the run installs an account of the escrow in both roles. -/
def Execution.KeepsApart (x : Execution D) : Prop :=
  ∀ t ∈ x.history, (t.pre.roles D D.escrow).Separates (t.act.roleEvent D D.escrow)

/-- **When governance cannot settle alone.**  The two roles of the escrow are with
    different addresses after every step exactly when every step keeps them
    apart; in such a run governance by itself completes no campaign. -/
theorem governance_settles_nothing (x : Execution D) :
    (x.KeepsApart ↔ ∀ t ∈ x.history, t.post.escrow.roles.Apart) ∧
    (x.KeepsApart → x.final.escrow.roles.Apart ∧
      ∀ G : Address,
        (∀ t ∈ x.history, ∀ b ∈ t.pre.roleChecks D D.escrow t.act, t.act.signs D b = true → b = G) →
        ∀ t ∈ x.history, ∀ signers foreign id version,
          t.act ≠ .escrow signers foreign (.complete id version)) := by
  have hiff : x.KeepsApart ↔ ∀ t ∈ x.history, (t.post.roles D D.escrow).Apart :=
    apart_run_iff (Deployment.Step.rotates D.escrow) x.actions (x.genesis.apart D.escrow)
  have hfinal : ∀ y : Execution D, y.KeepsApart → y.final.escrow.roles.Apart := by
    intro y hy
    rw [← World.roles_escrow]
    exact apart_run (M := D.machine) (Deployment.Step.rotates D.escrow) y.actions
      (y.genesis.apart D.escrow) hy
  refine ⟨by simpa only [World.roles_escrow] using hiff, fun hkeep => ⟨hfinal x hkeep, ?_⟩⟩
  intro G hone t ht signers foreign id version hact
  obtain ⟨y, hy, ⟨rest, hrest⟩, -⟩ := Execution.exists_prefix ht
  have hsub : ∀ u ∈ y.history, u ∈ x.history := by
    intro u hu
    rw [← hrest]
    exact List.mem_append_left _ hu
  have hapart := hfinal y fun u hu => hkeep u (hsub u hu)
  have hgov := fun g => y.governance_eq (fun u hu => hone u (hsub u hu)) (g := g)
  rw [hy] at hapart hgov
  have heff := t.effect
  rw [hact] at heff
  cases heff with
  | escrow h _ =>
    cases h with
    | complete h =>
      obtain ⟨g, hg⟩ := Option.isSome_iff_exists.1 h.initialized
      obtain ⟨a, ha, hne⟩ := hapart g hg
      have ha : t.pre.escrow.settlement = some a := ha
      have hcheck : a ∈ t.pre.roleChecks D D.escrow t.act := by
        simp [hact, World.roleChecks, EscrowCall.roleChecks, ha]
      exact hne ((hgov g hg).trans (hone t ht a hcheck (t.signed a hcheck)).symm)
    | other hno => cases hno

/-- Governance takes the settlement role and completes a campaign. -/
def Sample.takeover : Execution Sample.deployment where
  start := Sample.start
  genesis := Sample.genesis
  actions := Sample.setup Sample.treasury ++
    [.escrow (fun a => a = Sample.deployer) .silent (.proposeSettlement Sample.deployer),
     .escrow (fun a => a = Sample.deployer) .silent .acceptSettlement] ++
    Sample.launch 1 10000 ++
    [.escrow (fun a => a = Sample.deployer) .silent (.complete 1 1)]

/-- The escrow lets its governance hold both roles and settle alone. -/
theorem governance_settles_alone : ∃ x : Execution Sample.deployment,
    (∀ t ∈ x.history, ∀ b ∈ t.pre.roleChecks Sample.deployment Sample.escrow t.act,
      b = Sample.deployer) ∧
    x.final.escrow.governance = x.final.escrow.settlement ∧
    ∃ t ∈ x.history, t.act.roleEvent Sample.deployment Sample.escrow = .keep ∧
      (t.pre.escrow.campaign 1).map Campaign.status = some .active ∧
      (t.post.escrow.campaign 1).map Campaign.status = some .completed := by
  refine ⟨Sample.takeover, ?_, ?_, ?_⟩
  · decide +kernel
  · decide +kernel
  · decide +kernel

/-! ## Where an accepted account comes from -/

/-- **A role goes to the account of the latest proposal for it**, authorized by
    who governed when it was made.  The proposer still governs at the acceptance
    unless another account accepted governance in between, which cannot be when
    the role is governance itself. -/
theorem installed_by_proposal (x : Execution D) (c : Address) {t : D.Step} (ht : t ∈ x.history)
    {role : Role} (he : t.act.roleEvent D c = .accept role) :
    ∃ a g u before later rest, x.history = before ++ u :: later ++ t :: rest ∧
      u.act.roleEvent D c = .propose role a ∧ (u.pre.roles D c).holder .governance = some g ∧
      u.act.signs D g = true ∧ (∀ v ∈ later, ¬ (v.act.roleEvent D c).touches role) ∧
      (t.post.roles D c).holder role = some a ∧ t.act.signs D a = true ∧
      ((role = .governance ∨ ∀ v ∈ later, v.act.roleEvent D c ≠ .accept .governance) →
        (t.pre.roles D c).holder .governance = some g) := by
  obtain ⟨a, g, u, before, later, rest, hhist, hu, hpost, hauth, hgov⟩ :=
    accept_proposed (M := D.machine)
      (Deployment.Step.rotates c) (fun role => (x.genesis.roles c role).2) ht he
  exact ⟨a, g, u, before, later, rest, hhist, hu.names, hu.governs, hu.authorizes, hu.latest, hpost,
    hauth, hgov⟩

/-- The deployer proposes a settlement authority, hands governance over to the
    treasury, and only then the settlement role is accepted. -/
def Sample.handover : Execution Sample.deployment where
  start := Sample.start
  genesis := Sample.genesis
  actions := Sample.setup Sample.treasury ++
    [.escrow (fun a => a = Sample.deployer) .silent (.proposeSettlement Sample.creator),
     .escrow (fun a => a = Sample.deployer) .silent (.proposeGovernance Sample.treasury),
     .escrow (fun a => a = Sample.treasury) .silent .acceptGovernance,
     .escrow (fun a => a = Sample.creator) .silent .acceptSettlement]

theorem installed_by_proposal_sample : ∃ t ∈ Sample.handover.history, ∃ a g,
    ∃ u ∈ Sample.handover.history,
      u.act.roleEvent Sample.deployment Sample.escrow = .propose .authority a ∧
      u.act.signs Sample.deployment g = true ∧ t.post.escrow.settlement = some a := by
  have hex : ∃ t ∈ Sample.handover.history,
      t.act.roleEvent Sample.deployment Sample.escrow = .accept .authority := by decide +kernel
  obtain ⟨t, ht, he⟩ := hex
  obtain ⟨a, g, u, before, later, rest, hhist, hprop, -, hauth, -, hpost, -⟩ :=
    installed_by_proposal Sample.handover Sample.escrow ht he
  have hu : u ∈ Sample.handover.history := by rw [hhist]; simp
  have hpost : (t.post.roles Sample.deployment Sample.deployment.escrow).holder .authority = some a :=
    hpost
  rw [World.roles_escrow] at hpost
  exact ⟨t, ht, a, g, u, hu, hprop, hauth, hpost⟩

/-- A proposal outlives the governance that made it. -/
theorem handed_over_governance_installs : ∃ x : Execution Sample.deployment,
    ∃ t ∈ x.history, t.act.roleEvent Sample.deployment Sample.escrow = .accept .authority ∧
      t.pre.escrow.governance = some Sample.treasury ∧
      t.post.escrow.settlement = some Sample.creator ∧
      ∀ u ∈ x.history, (u.act.roleEvent Sample.deployment Sample.escrow).proposes = some .authority →
        u.act.signs Sample.deployment Sample.treasury = false := by
  refine ⟨Sample.handover, ?_⟩
  decide +kernel

end TogetherFi
