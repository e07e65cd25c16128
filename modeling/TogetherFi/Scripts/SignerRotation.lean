/-
  The replacement of a signer (`scripts/prepare-testnet-signer-rotation.mjs`).

  `buildSignerRotation` prepares one transaction for both role accounts: on each
  it adds the replacement and then removes `Ace`.  `Operation.apply` is what the
  ledger makes of an operation.  Every account the transaction passes through is
  flat (`Stage`), with the two retained members among its members.
-/
import TogetherFi.Scripts.TestnetCommon

namespace TogetherFi

open Outcome

namespace Scripts

/-! ## The script -/

/-- `rotation.config` -/
structure RotationConfig where
  previous : List String
  signers : Signers
  next : List String
  roles : List (Option String)

/-- What `buildSignerRotation` returns. -/
structure Rotation where
  transaction : Transaction
  config : RotationConfig
  observedAccounts : List Account

/-- The signers after the rotation. -/
def rotatedSigners (ayoub replacement king : String) : Signers :=
  ⟨[("Ayoub", ayoub), ("Zyad", replacement), ("King", king)], by simp⟩

/-- `rotationConfiguration` -/
def rotationConfiguration (sdk : Sdk) (manifest : Deployed) (replacement : String) :
    Except String RotationConfig := do
  let previous ← validateSigners sdk manifest.toConfig
  let existing := manifest.signers.getD .empty
  throwIf ((existing.get "Ace").getD "" = "" ∨ (existing.get "Zyad").getD "" ≠ "")
    "Expected the existing Ace signer; do not overwrite completed evidence"
  -- a missing name is `undefined`, which the second `validateSigners` rejects
  let ayoub ← orThrow (existing.get "Ayoub")
    "Exactly three distinct Stellar public signer addresses required"
  let king ← orThrow (existing.get "King")
    "Exactly three distinct Stellar public signer addresses required"
  let signers := rotatedSigners ayoub replacement king
  let next ← validateSigners sdk ⟨manifest.network, some signers⟩
  let roles := [manifest.accounts.governance, manifest.accounts.settlement]
  throwIf (roles.dedup.length ≠ 2 ∨
      roles.any fun role => role ∈ previous.map some ∨ role ∈ next.map some)
    "Governance and settlement must remain distinct dedicated role accounts"
  throwIf (replacement ∈ previous) "Replacement must be a new signer"
  return { previous, signers, next, roles }

/-- The operations on one role account. -/
def rotateSigner (source replacement ace : String) : List Operation :=
  [.setSigner source replacement 1, .setSigner source ace 0]

/-- `now` is the time of the preparation, in seconds. -/
def buildSignerRotation (sdk : Sdk) (now : ℕ) (manifest : Deployed) (governance settlement : Account)
    (replacement : String) (timeout : ℚ) : Except String Rotation := do
  let config ← rotationConfiguration sdk manifest replacement
  throwIf (config.roles ≠ [some governance.accountId, some settlement.accountId])
    "Account data does not match the deployed role accounts"
  assertQuorum governance config.previous
  assertQuorum settlement config.previous
  throwIf (timeout.den ≠ 1 ∨ timeout < 60 ∨ timeout > 86400)
    "Signing window must be between one minute and one day"
  let observedAccounts := [governance, settlement]
  let ace := ((manifest.signers.getD .empty).get "Ace").getD ""
  let operations := config.roles.flatMap fun source => rotateSigner (source.getD "") replacement ace
  let transaction : Transaction :=
    { source := governance.accountId
      sequence := governance.sequence + 1
      fee := 10000 * operations.length
      maxTime := now + timeout.num.toNat
      operations
      signatures := [] }
  throwIf (transaction.signatures.length ≠ 0) "Preparation must remain unsigned"
  return { transaction, config, observedAccounts }

/-! ## The ledger -/

/-- Set the weight of a signer; weight zero removes it. -/
def setSigner (signers : List Signer) (key : String) (weight : ℕ) : List Signer :=
  if weight = 0 then signers.filter fun s => s.key ≠ key
  else if key ∈ signers.map Signer.key then
    signers.map fun s => if s.key = key then ⟨key, weight, .ed25519PublicKey⟩ else s
  else signers ++ [⟨key, weight, .ed25519PublicKey⟩]

/-- On the weights this is `Quorum.set`. -/
theorem setSigner_weights (signers : List Signer) (key : String) (weight : ℕ) :
    (setSigner signers key weight).map (fun s => (s.key, s.weight)) =
      Quorum.set (signers.map fun s => (s.key, s.weight)) key weight := by
  have hkeys : (signers.map fun s => (s.key, s.weight)).map Prod.fst = signers.map Signer.key := by
    rw [List.map_map]
    rfl
  unfold setSigner Quorum.set
  rw [hkeys]
  split
  · rw [List.filter_map]
    rfl
  · split
    · rw [List.map_map, List.map_map]
      refine List.map_congr_left fun s _ => ?_
      simp only [Function.comp_apply]
      split <;> rfl
    · rw [List.map_append]
      rfl

theorem setSigner_nodup {signers : List Signer} (h : (signers.map Signer.key).Nodup) (key : String)
    (weight : ℕ) : ((setSigner signers key weight).map Signer.key).Nodup := by
  have hfst : ∀ l : List Signer, l.map Signer.key = (l.map fun s => (s.key, s.weight)).map Prod.fst := by
    intro l
    rw [List.map_map]
    rfl
  rw [hfst, setSigner_weights]
  rw [hfst] at h
  exact Quorum.set_keys h key weight

/-- The account with one signer added, changed or, at weight zero, removed. -/
def Account.setSigner (a : Account) (key : String) (weight : ℕ) : Account :=
  { a with
    signers := Scripts.setSigner a.signers key weight
    nodup := setSigner_nodup a.nodup key weight }

/-- What the ledger makes of an operation on an account. -/
def Operation.apply (a : Account) : Operation → Account
  | .setSigner source key weight => if a.accountId = source then a.setSigner key weight else a
  | .invokeHostFunction => a

/-- The account after the operations, in order. -/
def Account.applyAll (a : Account) (operations : List Operation) : Account :=
  operations.foldl Operation.apply a

/-! ## Accounts with members -/

namespace Account

variable {a : Account} {members : List String} {key : String}

theorem weights_setSigner (a : Account) (key : String) (weight : ℕ) :
    (a.setSigner key weight).weights = Quorum.set a.weights key weight :=
  setSigner_weights a.signers key weight

theorem mem_setSigner {s : Signer} {weight : ℕ} (h : s.key ≠ key) :
    s ∈ (a.setSigner key weight).signers ↔ s ∈ a.signers := by
  show s ∈ Scripts.setSigner a.signers key weight ↔ _
  unfold Scripts.setSigner
  split
  · simp [h]
  · split
    · simp only [List.mem_map]
      constructor
      · rintro ⟨u, hu, he⟩
        split at he
        · subst he
          exact absurd rfl h
        · subst he
          exact hu
      · intro hs
        exact ⟨s, hs, if_neg h⟩
    · simp only [List.mem_append, List.mem_singleton]
      refine or_iff_left ?_
      rintro rfl
      exact h rfl

theorem type_setSigner {s : Signer} {weight : ℕ} (hs : s ∈ (a.setSigner key weight).signers)
    (h : s.key = key) : s.type = .ed25519PublicKey := by
  have hs : s ∈ Scripts.setSigner a.signers key weight := hs
  unfold Scripts.setSigner at hs
  split at hs
  · exact absurd h (by simpa using (List.mem_filter.1 hs).2)
  · split at hs
    · obtain ⟨u, -, he⟩ := List.mem_map.1 hs
      split at he
      · rw [← he]
      · rename_i hne
        rw [he] at hne
        exact absurd h hne
    · rename_i hnew
      rcases List.mem_append.1 hs with hs | hs
      · exact absurd (h ▸ List.mem_map_of_mem hs) hnew
      · rw [List.mem_singleton.1 hs]

theorem Members.of_perm {members' : List String} (h : a.Members members)
    (hp : members.Perm members') : a.Members members' :=
  ⟨h.flat.of_perm hp, h.type⟩

theorem Members.type_set (h : a.Members members) (key : String) (weight : ℕ) :
    ∀ s ∈ (a.setSigner key weight).signers, 0 < s.weight → s.type = .ed25519PublicKey := by
  intro s hs hpos
  by_cases hkey : s.key = key
  · exact type_setSigner hs hkey
  · exact h.type s ((mem_setSigner hkey).1 hs) hpos

theorem Members.add (h : a.Members members) (hkey : key ∉ members) :
    (a.setSigner key 1).Members (key :: members) :=
  ⟨weights_setSigner a key 1 ▸ h.flat.add hkey, h.type_set key 1⟩

theorem Members.remove (h : a.Members members) (key : String) :
    (a.setSigner key 0).Members (members.erase key) :=
  ⟨weights_setSigner a key 0 ▸ h.flat.remove key, h.type_set key 0⟩

end Account

/-! ## What was prepared -/

theorem Signers.mem_of_get {s : Signers} {name value : String} (h : s.get name = some value) :
    (name, value) ∈ s.properties := by
  obtain ⟨l₁, l₂, he, -⟩ := List.lookup_eq_some_iff.1 h
  rw [he]
  simp

theorem Signers.ne_of_get {s : Signers} {n₁ n₂ v₁ v₂ : String} (hn : s.values.Nodup)
    (h₁ : s.get n₁ = some v₁) (h₂ : s.get n₂ = some v₂) (hne : n₁ ≠ n₂) : v₁ ≠ v₂ := by
  rintro rfl
  have he := List.inj_on_of_nodup_map hn (mem_of_get h₁) (mem_of_get h₂) rfl
  exact hne (Prod.mk.inj he).1

theorem Signers.values_perm {s : Signers} {n₁ n₂ n₃ v₁ v₂ v₃ : String} (hn : s.values.Nodup)
    (hlen : s.values.length = 3) (h₁ : s.get n₁ = some v₁) (h₂ : s.get n₂ = some v₂)
    (h₃ : s.get n₃ = some v₃) (h₁₂ : n₁ ≠ n₂) (h₁₃ : n₁ ≠ n₃) (h₂₃ : n₂ ≠ n₃) :
    s.values.Perm [v₁, v₂, v₃] := by
  have hnodup : [v₁, v₂, v₃].Nodup := by
    have hne₁ := ne_of_get hn h₁ h₂ h₁₂
    have hne₂ := ne_of_get hn h₁ h₃ h₁₃
    have hne₃ := ne_of_get hn h₂ h₃ h₂₃
    simp [hne₁, hne₂, hne₃]
  have hsub : [v₁, v₂, v₃] ⊆ s.values := by
    intro v hv
    simp only [List.mem_cons, List.not_mem_nil, or_false] at hv
    rcases hv with rfl | rfl | rfl
    · exact List.mem_map_of_mem (mem_of_get h₁)
    · exact List.mem_map_of_mem (mem_of_get h₂)
    · exact List.mem_map_of_mem (mem_of_get h₃)
  exact ((List.subperm_of_subset hnodup hsub).perm_of_length_le (by rw [hlen]; simp)).symm

/-- What `rotationConfiguration` makes sure of. -/
structure Rotates (manifest : Deployed) (replacement ayoub ace king : String)
    (config : RotationConfig) : Prop where
  getAyoub : (manifest.signers.getD .empty).get "Ayoub" = some ayoub
  getAce : (manifest.signers.getD .empty).get "Ace" = some ace
  getKing : (manifest.signers.getD .empty).get "King" = some king
  length : config.previous.length = 3
  nodup : config.previous.Nodup
  previous : config.previous.Perm [ayoub, ace, king]
  next : config.next = [ayoub, replacement, king]
  next_nodup : config.next.Nodup
  fresh : replacement ∉ config.previous
  apart : config.roles.dedup.length = 2
  dedicated : ∀ role ∈ config.roles, role ∉ config.previous.map some ∧ role ∉ config.next.map some

theorem rotationConfiguration_ok {sdk : Sdk} {manifest : Deployed} {replacement : String}
    {config : RotationConfig} (h : rotationConfiguration sdk manifest replacement = .ok config) :
    ∃ ayoub ace king, Rotates manifest replacement ayoub ace king config := by
  simp only [rotationConfiguration, bind_eq_ok, throwIf_eq_ok, orThrow_eq_ok, validateSigners_eq_ok,
    exists_const, pure_eq, Except.ok.injEq, not_or, not_not] at h
  obtain ⟨previous, ⟨-, hvalues, hlen, hnodup, -⟩, ⟨hace, -⟩, ayoub, hayoub, king, hking, next,
    ⟨-, hnext, -, hnext_nodup, -⟩, ⟨hapart, hroles⟩, hfresh, rfl⟩ := h
  obtain ⟨ace, hace⟩ : ∃ ace, (manifest.signers.getD .empty).get "Ace" = some ace := by
    cases hget : (manifest.signers.getD .empty).get "Ace" with
    | none => exact absurd (by rw [hget]; rfl) hace
    | some ace => exact ⟨ace, rfl⟩
  have hperm := Signers.values_perm (hvalues ▸ hnodup) (hvalues ▸ hlen) hayoub hace hking (by decide)
    (by decide) (by decide)
  refine ⟨ayoub, ace, king, hayoub, hace, hking, hlen, hnodup, hvalues ▸ hperm, hnext.symm,
    hnext_nodup, hfresh, hapart, fun role hrole => ?_⟩
  simp only [List.any_eq_true, decide_eq_true_eq, not_exists, not_and, not_or] at hroles
  exact hroles role hrole

/-- What `buildSignerRotation` makes sure of, and the operations it prepares. -/
structure Prepares (manifest : Deployed) (governance settlement : Account)
    (replacement ayoub ace king : String) (r : Rotation) : Prop where
  rotates : Rotates manifest replacement ayoub ace king r.config
  distinct : governance.accountId ≠ settlement.accountId
  quorum : ∀ a ∈ [governance, settlement], a.Members [ayoub, ace, king] ∧
    a.accountId ∉ [ayoub, ace, king] ∧ a.accountId ∉ r.config.next ∧ ∀ v ∈ a.thresholds.values, v = 2
  operations : r.transaction.operations =
    rotateSigner governance.accountId replacement ace ++
      rotateSigner settlement.accountId replacement ace

theorem buildSignerRotation_ok {sdk : Sdk} {now : ℕ} {manifest : Deployed}
    {governance settlement : Account} {replacement : String} {timeout : ℚ} {r : Rotation}
    (h : buildSignerRotation sdk now manifest governance settlement replacement timeout = .ok r) :
    ∃ ayoub ace king, Prepares manifest governance settlement replacement ayoub ace king r := by
  simp only [buildSignerRotation, bind_eq_ok, throwIf_eq_ok, exists_const, pure_eq, Except.ok.injEq,
    not_not] at h
  obtain ⟨config, hconfig, hroles, _, hgov, _, hset, -, -, rfl⟩ := h
  obtain ⟨ayoub, ace, king, hr⟩ := rotationConfiguration_ok hconfig
  have hdistinct : governance.accountId ≠ settlement.accountId := by
    intro he
    have hapart := hr.apart
    rw [hroles, he] at hapart
    simp at hapart
  refine ⟨ayoub, ace, king, hr, hdistinct, fun a ha => ?_, ?_⟩
  · have hquorum : assertQuorum a config.previous = .ok () := by
      simp only [List.mem_cons, List.not_mem_nil, or_false] at ha
      rcases ha with rfl | rfl
      · exact hgov
      · exact hset
    have hrole : some a.accountId ∈ config.roles := by
      rw [hroles]
      exact List.mem_map_of_mem (f := fun a : Account => some a.accountId) ha
    obtain ⟨hmem, -, hthresholds⟩ := (assertQuorum_eq_ok hr.length hr.nodup).1 hquorum
    have hprev : a.accountId ∉ config.previous := fun hin =>
      (hr.dedicated _ hrole).1 (List.mem_map_of_mem hin)
    refine ⟨hmem.of_perm hr.previous, ?_, fun hin => ?_, hthresholds⟩
    · rw [← hr.previous.mem_iff]
      exact hprev
    · exact (hr.dedicated _ hrole).2 (List.mem_map_of_mem hin)
  · simp [hroles, hr.getAce]

/-! ## The accounts on the way -/

/-- Where the rotation has come on an account: nothing done, the replacement added,
    `Ace` removed. -/
inductive Stage (replacement ace : String) (a : Account) : Account → Prop
  | start : Stage replacement ace a a
  | added : Stage replacement ace a (a.setSigner replacement 1)
  | done : Stage replacement ace a ((a.setSigner replacement 1).setSigner ace 0)

/-- **Every prefix of the operations leaves an account at some stage.** -/
theorem Prepares.stage {manifest : Deployed} {governance settlement : Account}
    {replacement ayoub ace king : String} {r : Rotation}
    (h : Prepares manifest governance settlement replacement ayoub ace king r) :
    ∀ a ∈ [governance, settlement], (∀ n, Stage replacement ace a
        (a.applyAll (r.transaction.operations.take n))) ∧
      a.applyAll r.transaction.operations = (a.setSigner replacement 1).setSigner ace 0 := by
  have hne := h.distinct
  have hset : ∀ (a : Account) (key : String) (weight : ℕ),
      (a.setSigner key weight).accountId = a.accountId := fun _ _ _ => rfl
  intro a ha
  rw [h.operations]
  simp only [List.mem_cons, List.not_mem_nil, or_false] at ha
  constructor
  · intro n
    rcases ha with rfl | rfl <;> rcases n with _ | _ | _ | _ | n <;>
      simp [rotateSigner, Account.applyAll, Operation.apply, hset, hne, hne.symm, Stage.start,
        Stage.added, Stage.done]
  · rcases ha with rfl | rfl <;>
      simp [rotateSigner, Account.applyAll, Operation.apply, hset, hne, hne.symm]

theorem Stage.same {replacement ace : String} {a b : Account} (h : Stage replacement ace a b) :
    b.accountId = a.accountId ∧ b.thresholds = a.thresholds := by
  cases h <;> exact ⟨rfl, rfl⟩

section
variable {manifest : Deployed} {governance settlement a b : Account}
  {replacement ayoub ace king : String} {r : Rotation}

theorem Rotates.keys_nodup {config : RotationConfig}
    (h : Rotates manifest replacement ayoub ace king config) :
    (replacement :: [ayoub, ace, king]).Nodup := by
  refine List.nodup_cons.2 ⟨?_, h.previous.nodup_iff.1 h.nodup⟩
  rw [← h.previous.mem_iff]
  exact h.fresh

/-- **At every stage the retained signers are members.** -/
theorem Prepares.stage_members
    (h : Prepares manifest governance settlement replacement ayoub ace king r)
    (ha : a ∈ [governance, settlement]) (hb : Stage replacement ace a b) :
    ∃ members, b.Members members ∧ ayoub ∈ members ∧ king ∈ members := by
  obtain ⟨hmem, -⟩ := h.quorum a ha
  have hall := h.rotates.keys_nodup
  obtain ⟨hfresh, hnodup⟩ := List.nodup_cons.1 hall
  cases hb with
  | start => exact ⟨_, hmem, by simp, by simp⟩
  | added => exact ⟨_, hmem.add hfresh, by simp, by simp⟩
  | done =>
    simp only [List.nodup_cons, List.mem_cons, List.not_mem_nil, or_false, not_or] at hnodup
    obtain ⟨⟨hayoub, -⟩, hking, -⟩ := hnodup
    refine ⟨_, (hmem.add hfresh).remove ace, ?_, ?_⟩
    · exact hall.mem_erase_iff.2 ⟨hayoub, by simp⟩
    · exact hall.mem_erase_iff.2 ⟨Ne.symm hking, by simp⟩

theorem Prepares.done_members
    (h : Prepares manifest governance settlement replacement ayoub ace king r)
    (ha : a ∈ [governance, settlement]) :
    ((a.setSigner replacement 1).setSigner ace 0).Members r.config.next := by
  obtain ⟨hmem, -⟩ := h.quorum a ha
  have hall := h.rotates.keys_nodup
  refine ((hmem.add (List.nodup_cons.1 hall).1).remove ace).of_perm ?_
  rw [h.rotates.next]
  have hswap : (replacement :: [ayoub, ace, king]).Perm [ace, ayoub, replacement, king] := by
    refine (List.perm_ext_iff_of_nodup hall ?_).2 fun k => ?_
    · simp only [List.nodup_cons, List.mem_cons, List.not_mem_nil, or_false, not_or, not_false_eq_true,
        List.nodup_nil, and_true] at hall ⊢
      tauto
    · simp only [List.mem_cons, List.not_mem_nil, or_false]
      tauto
  have herase := hswap.erase ace
  rw [List.erase_cons_head] at herase
  exact herase

/-- **Signer rotation preserves 2 of 3 at every step.**  After the four operations both
    accounts are accepted for the new keys, and nothing else of them has changed.
    After every proper prefix of the operations the two retained members still reach
    the thresholds of each account together, and no single key does. -/
theorem rotation_preserves_quorum {sdk : Sdk} {now : ℕ} {timeout : ℚ}
    (h : buildSignerRotation sdk now manifest governance settlement replacement timeout = .ok r) :
    ∃ ayoub ace king, Rotates manifest replacement ayoub ace king r.config ∧
      r.transaction.operations.length = 4 ∧ ∀ a ∈ [governance, settlement],
        (∀ b, b = a.applyAll r.transaction.operations →
          assertQuorum b r.config.next = .ok () ∧
          b.accountId = a.accountId ∧ b.thresholds = a.thresholds ∧
          b.weight (· = a.accountId) = a.weight (· = a.accountId) ∧
          ∀ s, s.key ≠ replacement → s.key ≠ ace → (s ∈ b.signers ↔ s ∈ a.signers)) ∧
        ∀ n < 4, ∀ b, b = a.applyAll (r.transaction.operations.take n) →
          (∀ v ∈ b.thresholds.values, v = 2) ∧
          2 ≤ b.weight (fun key => key = ayoub ∨ key = king) ∧
          ∀ key, b.weight (· = key) < 2 := by
  obtain ⟨ayoub, ace, king, hp⟩ := buildSignerRotation_ok h
  refine ⟨ayoub, ace, king, hp.rotates, by rw [hp.operations]; rfl, fun a ha => ⟨?_, ?_⟩⟩
  · rintro b rfl
    obtain ⟨hmem, hown, hnext, hthresholds⟩ := hp.quorum a ha
    have hdone := hp.done_members ha
    rw [(hp.stage a ha).2]
    have hlen : r.config.next.length = 3 := by rw [hp.rotates.next]; rfl
    refine ⟨(assertQuorum_eq_ok hlen hp.rotates.next_nodup).2 ⟨hdone, hnext, hthresholds⟩, rfl, rfl,
      ?_, fun s hs hs' => ?_⟩
    · -- the master key weighs nothing before and after
      have hzero : ∀ {b : Account} {members : List String}, b.Members members →
          a.accountId ∉ members → b.weight (· = a.accountId) = 0 := by
        intro b members hb hnot
        rw [Account.weight, hb.flat.total_eq, List.length_eq_zero_iff, List.filter_eq_nil_iff]
        intro k hk he
        rw [of_decide_eq_true he] at hk
        exact hnot hk
      rw [hzero hdone hnext, hzero hmem hown]
    · rw [Account.mem_setSigner hs', Account.mem_setSigner hs]
  · rintro n - b rfl
    have hstage := (hp.stage a ha).1 n
    obtain ⟨members, hmem, hayoub, hking⟩ := hp.stage_members ha hstage
    refine ⟨?_, ?_, hmem.flat.single_lt_two⟩
    · rw [hstage.same.2]
      exact (hp.quorum a ha).2.2.2
    · have hnodup := hp.rotates.previous.nodup_iff.1 hp.rotates.nodup
      simp only [List.nodup_cons, List.mem_cons, not_or] at hnodup
      exact (hmem.flat.two_le_total _).2
        ⟨ayoub, hayoub, king, hking, hnodup.1.2.1, by simp, by simp⟩

end

/-- A manifest with both role accounts. -/
def Sample.deployed : Deployed :=
  { Sample.config with accounts := ⟨some (Sample.key 'D'), some (Sample.key 'E')⟩ }

theorem rotation_preserves_quorum_sample : ∃ r, buildSignerRotation Sample.sdk 0 Sample.deployed
      Sample.governance Sample.settlement (Sample.key 'F') 86400 = .ok r ∧
    assertQuorum (Sample.governance.applyAll r.transaction.operations) r.config.next = .ok () ∧
    ∀ key, (Sample.settlement.applyAll (r.transaction.operations.take 3)).weight (· = key) < 2 := by
  have hok : (buildSignerRotation Sample.sdk 0 Sample.deployed Sample.governance Sample.settlement
      (Sample.key 'F') 86400).isOk = true := by decide +kernel
  cases hr : buildSignerRotation Sample.sdk 0 Sample.deployed Sample.governance Sample.settlement
      (Sample.key 'F') 86400 with
  | error e =>
    rw [hr] at hok
    cases hok
  | ok r =>
    obtain ⟨_, _, _, -, -, h⟩ := rotation_preserves_quorum hr
    exact ⟨r, rfl, ((h _ (by simp)).1 _ rfl).1,
      ((h Sample.settlement (by simp)).2 3 (by decide) _ rfl).2.2⟩

end Scripts

end TogetherFi
