/-
  The ContributorPool contract (`contracts/contributor_pool/src/lib.rs`).

  Every entry point is a function of the environment, its arguments and the
  pool's storage (and the tokens, where it reads a balance or pays); a call
  that fails leaves everything as it was.  `PoolStorage` has one field for each
  `DataKey`, absent until it is set; `live` is the last ledger each entry is
  alive in.  What a call publishes is `PoolCall.published`.
-/
import TogetherFi.Host

namespace TogetherFi

open Outcome Function

namespace Pool

/-! ## Data -/

/-- How far a manifest is: `expired` and `completed` are final. -/
inductive ManifestStatus where
  | active
  | completed
  | expired
  deriving DecidableEq, Repr

/-- A published manifest: its hashes, its amounts and its claim window. -/
structure Manifest where
  manifestHash : BytesN32
  policyHash : BytesN32
  totalAmount : ℤ
  remainingAmount : ℤ
  allocationCount : ℕ
  expiresAt : UInt64
  status : ManifestStatus
  deriving DecidableEq

/-- What one recipient of a manifest may claim. -/
structure Allocation where
  recipient : Address
  amount : ℤ
  claimed : Bool
  deriving DecidableEq, Repr

/-- `PoolError` -/
inductive PoolError where
  | alreadyInitialized
  | notInitialized
  | manifestAlreadyExists
  | manifestNotFound
  | invalidManifest
  | invalidAllocation
  | invalidState
  | notRecipient
  | alreadyClaimed
  | manifestExpired
  | notExpired
  | insufficientAvailableBalance
  | deficit
  | paused
  | noPendingRole
  | rolesMustDiffer
  | campaignAlreadyCredited
  | invalidDeployment
  deriving DecidableEq, Repr

/-- `PoolError` as `u32` -/
def PoolError.code : PoolError → ℕ
  | alreadyInitialized => 1
  | notInitialized => 2
  | manifestAlreadyExists => 3
  | manifestNotFound => 4
  | invalidManifest => 5
  | invalidAllocation => 6
  | invalidState => 7
  | notRecipient => 8
  | alreadyClaimed => 9
  | manifestExpired => 10
  | notExpired => 11
  | insufficientAvailableBalance => 12
  | deficit => 13
  | paused => 14
  | noPendingRole => 15
  | rolesMustDiffer => 16
  | campaignAlreadyCredited => 17
  | invalidDeployment => 18

/-- The ledger entries of a pool: its instance and the persistent keys. -/
inductive PoolEntry where
  | instance_
  | creditedCampaign (campaignId : UInt64)
  | manifest (manifestId : UInt64)
  | allocation (manifestId : UInt64) (index : ℕ)
  deriving DecidableEq

/-- The storage of a pool: one field for each `DataKey`, and the lives of the entries. -/
structure PoolStorage where
  governance : Option Address
  pendingGovernance : Option Address
  eligibilityAuthority : Option Address
  pendingEligibilityAuthority : Option Address
  token : Option Address
  escrow : Option Address
  paused : Option Bool
  totalLiability : Option ℤ
  totalCredited : Option ℤ
  totalPaid : Option ℤ
  latestManifestId : Option UInt64
  creditedCampaign : UInt64 → Option Bool
  manifest : UInt64 → Option Manifest
  allocation : UInt64 → ℕ → Option Allocation
  live : PoolEntry → ℕ

/-- The storage of a deployed pool before `initialize`. -/
def PoolStorage.empty (live : PoolEntry → ℕ) : PoolStorage where
  governance := none
  pendingGovernance := none
  eligibilityAuthority := none
  pendingEligibilityAuthority := none
  token := none
  escrow := none
  paused := none
  totalLiability := none
  totalCredited := none
  totalPaid := none
  latestManifestId := none
  creditedCampaign := fun _ => none
  manifest := fun _ => none
  allocation := fun _ _ => none
  live := live

/-- `extend_ttl(key, TTL, TTL)` on an entry of the pool -/
@[simps] def PoolStorage.extend (s : PoolStorage) (env : Env) (e : PoolEntry) : PoolStorage :=
  { s with live := extendTtl env s.live e }

/-- Results of pool calls. -/
abbrev Result (α : Type) := Outcome PoolError HostError α

/-! ## Internal functions -/

/-- `MAX_ALLOCATIONS` -/
def maxAllocations : ℕ := 64

/-- `MAX_CLAIM_WINDOW`: 30 days, in seconds. -/
def maxClaimWindow : UInt64 := 2592000

/-- An initialized pool stays alive; another one rejects every call. -/
def init (env : Env) (s : PoolStorage) : Result PoolStorage :=
  if s.governance.isSome then .ok (s.extend env .instance_) else .error (.error .notInitialized)

/-- `DataKey::Token` of an initialized pool. -/
def token (s : PoolStorage) : Result Address := okOr s.token .notInitialized

/-- `DataKey::Escrow` of an initialized pool. -/
def escrow (s : PoolStorage) : Result Address := okOr s.escrow .notInitialized

/-- The stored governance. -/
def currentGovernance (s : PoolStorage) : Result Address := okOr s.governance .notInitialized

/-- The stored eligibility authority. -/
def currentEligibilityAuthority (s : PoolStorage) : Result Address :=
  okOr s.eligibilityAuthority .notInitialized

/-- A manifest that is stored. -/
def manifest (manifestId : UInt64) (s : PoolStorage) : Result Manifest :=
  okOr (s.manifest manifestId) .manifestNotFound

-- The three readers run `init` again; its TTL extension repeats the one of the
-- caller in the same ledger, so only its check is kept.

/-- What published manifests leave unclaimed. -/
def storedTotalLiability (env : Env) (s : PoolStorage) : Result ℤ := do
  let _ ← init env s
  return s.totalLiability.getD 0

/-- What the escrow has credited so far. -/
def totalCredited (env : Env) (s : PoolStorage) : Result ℤ := do
  let _ ← init env s
  return s.totalCredited.getD 0

/-- What has been claimed so far. -/
def totalPaid (env : Env) (s : PoolStorage) : Result ℤ := do
  let _ ← init env s
  return s.totalPaid.getD 0

/-- The token balance of the pool; the token's address is unwrapped. -/
def balance (env : Env) (s : PoolStorage) (t : Tokens) : Result ℤ := do
  let token ← trapOr s.token .missing
  return t.balance token env.self

/-- Whether publications and claims are on hold. -/
def paused (s : PoolStorage) : Bool := s.paused.getD false

/-! ## Entry points -/

/-- Install the roles and the bindings, once: the deployer authorizes, and the two authorities
    differ. -/
def initializePool (env : Env) (governance eligibilityAuthority token escrow deployer : Address)
    (deploymentSalt : BytesN32) (s : PoolStorage) : Result PoolStorage := do
  rejectIf s.governance.isSome .alreadyInitialized
  rejectIf (env.deployedAddress deployer deploymentSalt ≠ env.self) .invalidDeployment
  requireAuth env deployer
  rejectIf (governance = eligibilityAuthority) .rolesMustDiffer
  requireAuthIf (governance ≠ deployer) env governance
  requireAuthIf (eligibilityAuthority ≠ deployer) env eligibilityAuthority
  let s := { s with
    governance := some governance
    eligibilityAuthority := some eligibilityAuthority
    token := some token
    escrow := some escrow
    paused := some false
    totalLiability := some 0
    totalCredited := some 0
    totalPaid := some 0
    latestManifestId := some 0 }
  return s.extend env .instance_

/-- The escrow credits a campaign, once, within the balance of the pool. -/
def recordCredit (env : Env) (campaignId : UInt64) (amount : ℤ) (s : PoolStorage) (t : Tokens) :
    Result PoolStorage := do
  let s ← init env s
  rejectIf (amount ≤ 0) .invalidAllocation
  let escrow ← escrow s
  requireAuth env escrow
  rejectIf (s.creditedCampaign campaignId).isSome .campaignAlreadyCredited
  let credited ← totalCredited env s
  let paid ← totalPaid env s
  let nextCredited ← okOr (checkedI128 (credited + amount)) .invalidAllocation
  let outstanding ← okOr (checkedI128 (nextCredited - paid)) .deficit
  let balance ← balance env s t
  rejectIf (balance < outstanding) .deficit
  let s := { s with creditedCampaign := update s.creditedCampaign campaignId (some true) }
  let s := s.extend env (.creditedCampaign campaignId)
  return { s with totalCredited := some nextCredited }

/-- What is credited and neither paid nor owed. -/
def availableBalance (env : Env) (s : PoolStorage) (t : Tokens) : Result ℤ := do
  let s ← init env s
  let liability ← storedTotalLiability env s
  let credited ← totalCredited env s
  let paid ← totalPaid env s
  let outstanding ← okOr (checkedI128 (credited - paid)) .deficit
  rejectIf (outstanding < liability) .deficit
  let balance ← balance env s t
  rejectIf (balance < outstanding) .deficit
  plainI128 (outstanding - liability)

/-- The first loop of `publish_manifest`: every amount is positive, no recipient
    comes twice, and the amounts add up without overflow.  `prior` are the
    recipients already seen. -/
def checkAllocations : List Address → List (Address × ℤ) → ℤ → Result ℤ
  | _, [], total => .ok total
  | prior, (recipient, amount) :: rest, total => do
    rejectIf (amount ≤ 0) .invalidAllocation
    rejectIf (recipient ∈ prior) .invalidAllocation
    let total ← okOr (checkedI128 (total + amount)) .invalidAllocation
    checkAllocations (prior ++ [recipient]) rest total

/-- Store one entry of `DataKey::Allocation` and extend its life. -/
def setAllocation (env : Env) (manifestId : UInt64) (index : ℕ) (a : Allocation) (s : PoolStorage) :
    PoolStorage :=
  let allocations := update (s.allocation manifestId) index (some a)
  { s with allocation := update s.allocation manifestId allocations }.extend env
    (.allocation manifestId index)

/-- The second loop of `publish_manifest`: store the allocations from `index` on. -/
def storeAllocations (env : Env) (manifestId : UInt64) :
    ℕ → List (Address × ℤ) → PoolStorage → PoolStorage
  | _, [], s => s
  | index, (recipient, amount) :: rest, s =>
    storeAllocations env manifestId (index + 1) rest
      (setAllocation env manifestId index ⟨recipient, amount, false⟩ s)

/-- Store `DataKey::Manifest` and extend its life. -/
def setManifest (env : Env) (manifestId : UInt64) (m : Manifest) (s : PoolStorage) : PoolStorage :=
  { s with manifest := update s.manifest manifestId (some m) }.extend env (.manifest manifestId)

/-- Both authorities publish a manifest under a larger id than before, within what is available.
    -/
def publishManifest (env : Env) (manifestId : UInt64) (manifestHash policyHash : BytesN32)
    (expiresAt : UInt64) (recipients : List Address) (amounts : List ℤ) (s : PoolStorage)
    (t : Tokens) : Result PoolStorage := do
  let s ← init env s
  rejectIf (paused s) .paused
  let governance ← currentGovernance s
  let eligibility ← currentEligibilityAuthority s
  requireAuth env governance
  requireAuth env eligibility
  let count := recipients.length
  rejectIf (count = 0 ∨ count ≠ amounts.length ∨ count > maxAllocations) .invalidManifest
  rejectIf (expiresAt ≤ env.timestamp) .manifestExpired
  rejectIf (expiresAt - env.timestamp > maxClaimWindow) .invalidManifest
  rejectIf (s.manifest manifestId).isSome .manifestAlreadyExists
  rejectIf (manifestId ≤ s.latestManifestId.getD 0) .manifestAlreadyExists
  let total ← checkAllocations [] (recipients.zip amounts) 0
  let available ← availableBalance env s t
  rejectIf (available < total) .insufficientAvailableBalance
  let liability ← storedTotalLiability env s
  let required ← okOr (checkedI128 (liability + total)) .invalidAllocation
  let s := storeAllocations env manifestId 0 (recipients.zip amounts) s
  let s := setManifest env manifestId
    { manifestHash
      policyHash
      totalAmount := total
      remainingAmount := total
      allocationCount := count
      expiresAt
      status := .active } s
  return { s with
    totalLiability := some required
    latestManifestId := some manifestId }

/-- Pay an unclaimed allocation of an active manifest to its recipient, who need not call. -/
def claim (env : Env) (manifestId : UInt64) (allocationIndex : ℕ) (s : PoolStorage) (t : Tokens) :
    Result (PoolStorage × Tokens) := do
  let s ← init env s
  rejectIf (paused s) .paused
  let m ← manifest manifestId s
  rejectIf (m.status ≠ .active) .invalidState
  rejectIf (env.timestamp ≥ m.expiresAt) .manifestExpired
  rejectIf (allocationIndex ≥ m.allocationCount) .invalidAllocation
  let a ← okOr (s.allocation manifestId allocationIndex) .invalidAllocation
  rejectIf a.claimed .alreadyClaimed
  requireAuth env a.recipient
  let liability ← storedTotalLiability env s
  rejectIf (liability < a.amount) .deficit
  let balance ← balance env s t
  rejectIf (balance < liability) .deficit
  let remaining ← okOr (checkedI128 (m.remainingAmount - a.amount)) .deficit
  let m := { m with
    remainingAmount := remaining
    status := if remaining = 0 then .completed else m.status }
  let s := setAllocation env manifestId allocationIndex { a with claimed := true } s
  let s := setManifest env manifestId m s
  let nextLiability ← plainI128 (liability - a.amount)
  let s := { s with totalLiability := some nextLiability }
  let paid ← totalPaid env s
  let nextPaid ← okOr (checkedI128 (paid + a.amount)) .deficit
  let s := { s with totalPaid := some nextPaid }
  let token ← token s
  let t ← t.transfer env token env.self a.recipient a.amount
  return (s, t)

/-- Anyone releases what an active manifest leaves unclaimed, once its window is over. -/
def expireManifest (env : Env) (manifestId : UInt64) (s : PoolStorage) : Result PoolStorage := do
  let s ← init env s
  let m ← manifest manifestId s
  rejectIf (m.status ≠ .active) .invalidState
  rejectIf (env.timestamp < m.expiresAt) .notExpired
  let liability ← storedTotalLiability env s
  rejectIf (liability < m.remainingAmount) .deficit
  let s := setManifest env manifestId { m with remainingAmount := 0, status := .expired } s
  let nextLiability ← plainI128 (liability - m.remainingAmount)
  return { s with totalLiability := some nextLiability }

/-- `propose_role`: role 1 is governance, any other the eligibility authority. -/
def proposeRole (env : Env) (role : ℕ) (account : Address) (s : PoolStorage) :
    Result PoolStorage := do
  let s ← init env s
  let governance ← currentGovernance s
  requireAuth env governance
  return if role = 1 then { s with pendingGovernance := some account }
    else { s with pendingEligibilityAuthority := some account }

/-- The proposed account takes the role, unless it holds the other one. -/
def acceptRole (env : Env) (role : ℕ) (s : PoolStorage) : Result PoolStorage := do
  let s ← init env s
  let account ← okOr (if role = 1 then s.pendingGovernance else s.pendingEligibilityAuthority)
    .noPendingRole
  requireAuth env account
  let otherRole ← (if role = 1 then currentEligibilityAuthority s else currentGovernance s)
  rejectIf (account = otherRole) .rolesMustDiffer
  return if role = 1 then { s with governance := some account, pendingGovernance := none }
    else { s with eligibilityAuthority := some account, pendingEligibilityAuthority := none }

/-- Governance names its successor. -/
def proposeGovernance (env : Env) (account : Address) (s : PoolStorage) : Result PoolStorage :=
  proposeRole env 1 account s

/-- The successor takes over governance. -/
def acceptGovernance (env : Env) (s : PoolStorage) : Result PoolStorage := acceptRole env 1 s

/-- Governance names the next eligibility authority. -/
def proposeEligibilityAuthority (env : Env) (account : Address) (s : PoolStorage) :
    Result PoolStorage := proposeRole env 2 account s

/-- The next eligibility authority takes over. -/
def acceptEligibilityAuthority (env : Env) (s : PoolStorage) : Result PoolStorage :=
  acceptRole env 2 s

/-- `pause` and `unpause` set the flag to `b`. -/
def setPaused (b : Bool) (env : Env) (s : PoolStorage) : Result PoolStorage := do
  let s ← init env s
  let governance ← currentGovernance s
  requireAuth env governance
  return { s with paused := some b }.extend env .instance_

/-- Governance holds publications and claims. -/
def pause (env : Env) (s : PoolStorage) : Result PoolStorage := setPaused true env s

/-- Governance lifts the pause. -/
def unpause (env : Env) (s : PoolStorage) : Result PoolStorage := setPaused false env s

/-- Read a manifest, and extend its life. -/
def getManifest (env : Env) (manifestId : UInt64) (s : PoolStorage) :
    Result (Manifest × PoolStorage) := do
  let m ← manifest manifestId s
  return (m, s.extend env (.manifest manifestId))

/-- Read an allocation, and extend its life. -/
def getAllocation (env : Env) (manifestId : UInt64) (allocationIndex : ℕ) (s : PoolStorage) :
    Result (Allocation × PoolStorage) := do
  let a ← okOr (s.allocation manifestId allocationIndex) .invalidAllocation
  return (a, s.extend env (.allocation manifestId allocationIndex))

/-- Read what published manifests leave unclaimed. -/
def totalLiability (env : Env) (s : PoolStorage) : Result (ℤ × PoolStorage) := do
  let s ← init env s
  let liability ← storedTotalLiability env s
  return (liability, s)

/-- Read the escrow the pool is bound to. -/
def escrowContract (s : PoolStorage) : Result Address := escrow s

/-- Read the token the pool is bound to. -/
def tokenContract (s : PoolStorage) : Result Address := token s

/-- Extend the life of the pool's instance. -/
def extendInstanceTtl (env : Env) (s : PoolStorage) : Result PoolStorage := init env s

/-- The loop of `extend_manifest_ttl`. -/
def extendAllocationTtls (env : Env) (manifestId : UInt64) :
    List ℕ → PoolStorage → Result PoolStorage
  | [], s => .ok s
  | index :: rest, s => do
    rejectIf (s.allocation manifestId index).isNone .invalidAllocation
    extendAllocationTtls env manifestId rest (s.extend env (.allocation manifestId index))

/-- Extend the lives of a manifest and of all its allocations. -/
def extendManifestTtl (env : Env) (manifestId : UInt64) (s : PoolStorage) : Result PoolStorage := do
  let m ← manifest manifestId s
  extendAllocationTtls env manifestId (List.range m.allocationCount)
    (s.extend env (.manifest manifestId))

/-! ## Calls -/

/-- A call of an entry point of the pool. -/
inductive PoolCall where
  | initializePool (governance eligibilityAuthority token escrow deployer : Address)
      (deploymentSalt : BytesN32)
  | recordCredit (campaignId : UInt64) (amount : ℤ)
  | publishManifest (manifestId : UInt64) (manifestHash policyHash : BytesN32) (expiresAt : UInt64)
      (recipients : List Address) (amounts : List ℤ)
  | claim (manifestId : UInt64) (allocationIndex : ℕ)
  | expireManifest (manifestId : UInt64)
  | proposeGovernance (account : Address)
  | acceptGovernance
  | proposeEligibilityAuthority (account : Address)
  | acceptEligibilityAuthority
  | pause
  | unpause
  | getManifest (manifestId : UInt64)
  | getAllocation (manifestId : UInt64) (allocationIndex : ℕ)
  | totalLiability
  | availableBalance
  | isPaused
  | governance
  | eligibilityAuthority
  | escrowContract
  | tokenContract
  | extendInstanceTtl
  | extendManifestTtl (manifestId : UInt64)

/-- What a call does to the pool's storage and the tokens; the value it returns
    is dropped. -/
def PoolCall.exec (env : Env) (s : PoolStorage) (t : Tokens) :
    PoolCall → Result (PoolStorage × Tokens)
  | .initializePool gov elig tok esc deployer salt => do
    return (← Pool.initializePool env gov elig tok esc deployer salt s, t)
  | .recordCredit id amount => do return (← Pool.recordCredit env id amount s t, t)
  | .publishManifest id hash policy expiresAt recipients amounts => do
    return (← Pool.publishManifest env id hash policy expiresAt recipients amounts s t, t)
  | .claim id index => Pool.claim env id index s t
  | .expireManifest id => do return (← Pool.expireManifest env id s, t)
  | .proposeGovernance account => do return (← Pool.proposeGovernance env account s, t)
  | .acceptGovernance => do return (← Pool.acceptGovernance env s, t)
  | .proposeEligibilityAuthority account => do
    return (← Pool.proposeEligibilityAuthority env account s, t)
  | .acceptEligibilityAuthority => do return (← Pool.acceptEligibilityAuthority env s, t)
  | .pause => do return (← Pool.pause env s, t)
  | .unpause => do return (← Pool.unpause env s, t)
  | .getManifest id => do return ((← Pool.getManifest env id s).2, t)
  | .getAllocation id index => do return ((← Pool.getAllocation env id index s).2, t)
  | .totalLiability => do return ((← Pool.totalLiability env s).2, t)
  | .availableBalance => do
    let _ ← Pool.availableBalance env s t
    return (s.extend env .instance_, t)
  | .isPaused => .ok (s, t)
  | .governance => do let _ ← currentGovernance s; return (s, t)
  | .eligibilityAuthority => do let _ ← currentEligibilityAuthority s; return (s, t)
  | .escrowContract => do let _ ← Pool.escrowContract s; return (s, t)
  | .tokenContract => do let _ ← Pool.tokenContract s; return (s, t)
  | .extendInstanceTtl => do return (← Pool.extendInstanceTtl env s, t)
  | .extendManifestTtl id => do return (← Pool.extendManifestTtl env id s, t)

end Pool

end TogetherFi
