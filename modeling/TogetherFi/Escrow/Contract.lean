/-
  The CampaignEscrow contract (`contracts/campaign_escrow/src/lib.rs`).

  Every entry point is a function of the environment, its arguments and the
  state it touches: the escrow's own storage, and for `complete` the storages
  of the pools it calls and the tokens.  `EscrowStorage` has one field for each
  `DataKey`, absent until it is set; `live` is the last ledger each entry is
  alive in.  What a call publishes is `EscrowCall.published`.
-/
import TogetherFi.Pool.Contract

namespace TogetherFi

open Outcome Function

namespace Escrow

/-! ## Data -/

/-- How far a campaign is: `completed` and `refunded` are final. -/
inductive CampaignStatus where
  | funded
  | active
  | completed
  | refunded
  deriving DecidableEq, Repr

/-- A campaign, with what its sponsor and its activation committed. -/
structure Campaign where
  sponsor : Address
  amount : ℤ
  creator : Address
  referrer : Option Address
  termsHash : List UInt8
  fundedAt : UInt64
  expiresAt : UInt64
  operationVersion : ℕ
  status : CampaignStatus
  deriving DecidableEq

/-- `EscrowError` -/
inductive EscrowError where
  | alreadyInitialized
  | notInitialized
  | campaignAlreadyExists
  | campaignNotFound
  | invalidAmount
  | invalidState
  | paused
  | expired
  | notExpired
  | wrongVersion
  | emptyTerms
  | noPendingRole
  | deficit
  | invalidContributorPool
  | referrerRequired
  | invalidDeployment
  deriving DecidableEq, Repr

/-- The ledger entries of the escrow: its instance and the persistent keys. -/
inductive EscrowEntry where
  | instance_
  | campaign (campaignId : UInt64)
  | consumedOperation (campaignId : UInt64) (operationVersion : ℕ)
  deriving DecidableEq

/-- The storage of the escrow: one field for each `DataKey`, and the lives of the entries. -/
structure EscrowStorage where
  governance : Option Address
  pendingGovernance : Option Address
  settlement : Option Address
  pendingSettlement : Option Address
  token : Option Address
  serviceTreasury : Option Address
  nftPool : Option Address
  revenuePool : Option Address
  paused : Option Bool
  configVersion : Option ℕ
  totalLiability : Option ℤ
  campaign : UInt64 → Option Campaign
  consumedOperation : UInt64 → ℕ → Option Bool
  live : EscrowEntry → ℕ

/-- The storage of the deployed escrow before `initialize`. -/
def EscrowStorage.empty (live : EscrowEntry → ℕ) : EscrowStorage where
  governance := none
  pendingGovernance := none
  settlement := none
  pendingSettlement := none
  token := none
  serviceTreasury := none
  nftPool := none
  revenuePool := none
  paused := none
  configVersion := none
  totalLiability := none
  campaign := fun _ => none
  consumedOperation := fun _ _ => none
  live := live

/-- `extend_ttl(key, TTL, TTL)` on an entry of the escrow -/
@[simps] def EscrowStorage.extend (s : EscrowStorage) (env : Env) (e : EscrowEntry) : EscrowStorage :=
  { s with live := extendTtl env s.live e }

/-- Results of escrow calls. -/
abbrev Result (α : Type) := Outcome EscrowError HostError α

/-- The storages of the pools, by address. -/
abbrev Pools := Address → Pool.PoolStorage

/-! ## Constants -/

/-- `EXPIRY`: 30 days, in seconds. -/
def expiry : UInt64 := 2592000

/-- `DENOM`: rates are in basis points. -/
def denom : ℤ := 10000

/-- `SERVICE` -/
def service : ℤ := 1000

/-- `NFT_POOL` -/
def nftPool : ℤ := 500

/-- `REVENUE` -/
def revenue : ℤ := 200

/-- `REFERRER` -/
def referrer : ℤ := 100

/-- `MINIMUM_CAMPAIGN_AMOUNT`: below it a leg of the split may round down to zero. -/
def minimumCampaignAmount : ℤ := 100

/-! ## Calls to the pools -/

/-- A failure of a called pool, as it reaches the escrow. -/
def ofPool {α : Type} : Pool.Result α → Result α
  | .ok a => .ok a
  | .error (.error e) => .error (.host (.callee e.code))
  | .error (.host e) => .error (.host e)

/-- `pool_client.escrow_contract()`; the escrow cannot call itself. -/
def clientEscrowContract (env : Env) (pools : Pools) (pool : Address) : Result Address :=
  if env.isPool pool then ofPool (Pool.escrowContract (pools pool))
  else trapOr (if pool = env.self then none else env.foreign.escrowContract pool) .call

/-- `pool_client.token_contract()` -/
def clientTokenContract (env : Env) (pools : Pools) (pool : Address) : Result Address :=
  if env.isPool pool then ofPool (Pool.tokenContract (pools pool))
  else trapOr (if pool = env.self then none else env.foreign.tokenContract pool) .call

/-- The environment of a pool the escrow calls: besides the addresses that
    authorize the invocation, the escrow authorizes the calls it makes
    (`authorize_pool_credit`). -/
def poolEnv (env : Env) (pool : Address) : Env :=
  { env with
    self := pool
    authorized := fun a => decide (a = env.self) || env.authorized a }

/-- `pool_client.record_credit(campaign_id, amount)` -/
def clientRecordCredit (env : Env) (pool : Address) (campaignId : UInt64) (amount : ℤ)
    (pools : Pools) (t : Tokens) : Result Pools :=
  if env.isPool pool then do
    let s ← ofPool (Pool.recordCredit (poolEnv env pool) campaignId amount (pools pool) t)
    return update pools pool s
  else do
    trapUnless (pool ≠ env.self ∧ env.foreign.recordCredit pool campaignId amount) .call
    return pools

/-! ## Internal functions -/

/-- An initialized escrow stays alive; another one rejects every call. -/
def init (env : Env) (s : EscrowStorage) : Result EscrowStorage :=
  if s.governance.isSome then .ok (s.extend env .instance_) else .error (.error .notInitialized)

/-- The stored governance. -/
def currentGovernance (s : EscrowStorage) : Result Address := okOr s.governance .notInitialized

/-- A campaign that is stored. -/
def campaign (id : UInt64) (s : EscrowStorage) : Result Campaign :=
  okOr (s.campaign id) .campaignNotFound

/-- Whether funding, activation and completion are on hold. -/
def paused (s : EscrowStorage) : Bool := s.paused.getD false

/-- Store `DataKey::Campaign` and extend its life. -/
def setCampaign (env : Env) (campaignId : UInt64) (c : Campaign) (s : EscrowStorage) :
    EscrowStorage :=
  { s with campaign := update s.campaign campaignId (some c) }.extend env (.campaign campaignId)

/-- Store `DataKey::ConsumedOperation` and extend its life. -/
def setConsumed (env : Env) (campaignId : UInt64) (operationVersion : ℕ) (s : EscrowStorage) :
    EscrowStorage :=
  let consumed := update (s.consumedOperation campaignId) operationVersion (some true)
  { s with consumedOperation := update s.consumedOperation campaignId consumed }.extend env
    (.consumedOperation campaignId operationVersion)

/-- One leg of the split: `total.checked_mul(rate).ok_or(InvalidAmount)? / DENOM`. -/
def leg (total rate : ℤ) : Result ℤ := do
  let product ← okOr (checkedI128 (total * rate)) .invalidAmount
  return product.tdiv denom

/-- `total - service - nft - revenue - referrer` -/
def remainder (total service nft revenue referrer : ℤ) : Result ℤ := do
  let rest ← plainI128 (total - service)
  let rest ← plainI128 (rest - nft)
  let rest ← plainI128 (rest - revenue)
  plainI128 (rest - referrer)

/-- The five legs of a completed campaign. -/
structure Split where
  creator : ℤ
  service : ℤ
  nft : ℤ
  revenue : ℤ
  referrer : ℤ

/-- The transfers and pool credits of `complete`, in order. -/
def payOut (env : Env) (campaignId : UInt64) (token creator referrer : Address) (x : Split)
    (s : EscrowStorage) (pools : Pools) (t : Tokens) : Result (Pools × Tokens) := do
  let t ← t.transfer env token env.self creator x.creator
  let treasury ← trapOr s.serviceTreasury .missing
  let t ← t.transfer env token env.self treasury x.service
  let nft ← trapOr s.nftPool .missing
  let t ← t.transfer env token env.self nft x.nft
  let pools ← clientRecordCredit env nft campaignId x.nft pools t
  let revenuePool ← trapOr s.revenuePool .missing
  let t ← t.transfer env token env.self revenuePool x.revenue
  let pools ← clientRecordCredit env revenuePool campaignId x.revenue pools t
  let t ← t.transfer env token env.self referrer x.referrer
  return (pools, t)

/-! ## Entry points -/

/-- Install the roles and the destinations, once: the deployer authorizes, and the two pools are
    bound to this escrow and its token. -/
def initializeEscrow (env : Env)
    (governance settlement token serviceTreasury nftPool revenuePool deployer : Address)
    (deploymentSalt : BytesN32) (s : EscrowStorage) (pools : Pools) : Result EscrowStorage := do
  rejectIf s.governance.isSome .alreadyInitialized
  rejectIf (env.deployedAddress deployer deploymentSalt ≠ env.self) .invalidDeployment
  requireAuth env deployer
  rejectIf (nftPool = revenuePool) .invalidContributorPool
  let nftEscrow ← clientEscrowContract env pools nftPool
  rejectIf (nftEscrow ≠ env.self) .invalidContributorPool
  let revenueEscrow ← clientEscrowContract env pools revenuePool
  rejectIf (revenueEscrow ≠ env.self) .invalidContributorPool
  let nftToken ← clientTokenContract env pools nftPool
  rejectIf (nftToken ≠ token) .invalidContributorPool
  let revenueToken ← clientTokenContract env pools revenuePool
  rejectIf (revenueToken ≠ token) .invalidContributorPool
  requireAuthIf (governance ≠ deployer) env governance
  let s := { s with
    governance := some governance
    settlement := some settlement
    token := some token
    serviceTreasury := some serviceTreasury
    nftPool := some nftPool
    revenuePool := some revenuePool
    configVersion := some 1
    paused := some false
    totalLiability := some 0 }
  return s.extend env .instance_

/-- A sponsor funds a new campaign and pays its amount in. -/
def fund (env : Env) (campaignId : UInt64) (sponsor : Address) (amount : ℤ) (s : EscrowStorage)
    (t : Tokens) : Result (EscrowStorage × Tokens) := do
  let s ← init env s
  rejectIf (amount < minimumCampaignAmount ∨ amount > i128Max / denom) .invalidAmount
  rejectIf (paused s) .paused
  rejectIf (s.campaign campaignId).isSome .campaignAlreadyExists
  requireAuth env sponsor
  let token ← trapOr s.token .missing
  let t ← t.transfer env token sponsor env.self amount
  let liability := s.totalLiability.getD 0
  let nextLiability ← plainI128 (liability + amount)
  let s := { s with totalLiability := some nextLiability }
  let now := env.timestamp
  let expiresAt ← plainAddU64 now expiry
  let s := setCampaign env campaignId
    { sponsor
      amount
      creator := env.self
      referrer := none
      termsHash := []
      fundedAt := now
      expiresAt
      operationVersion := 0
      status := .funded } s
  return (s, t)

/-- The settlement authority commits the creator, the referrer and the terms of a funded
    campaign. -/
def activate (env : Env) (campaignId : UInt64) (creator : Address) (referrer : Option Address)
    (termsHash : List UInt8) (s : EscrowStorage) : Result EscrowStorage := do
  let s ← init env s
  rejectIf (paused s) .paused
  rejectIf termsHash.isEmpty .emptyTerms
  rejectIf referrer.isNone .referrerRequired
  let c ← campaign campaignId s
  rejectIf (c.status ≠ .funded) .invalidState
  requireAuth env c.sponsor
  return setCampaign env campaignId
    { c with
      creator
      referrer
      termsHash
      status := .active
      operationVersion := 1 } s

/-- The settlement authority pays out an active campaign before it expires: its stored split to
    the creator, the treasury, the referrer and the two pools, which are credited. -/
def complete (env : Env) (campaignId : UInt64) (operationVersion : ℕ) (s : EscrowStorage)
    (pools : Pools) (t : Tokens) : Result (EscrowStorage × Pools × Tokens) := do
  let s ← init env s
  rejectIf (paused s) .paused
  let settlement ← trapOr s.settlement .missing
  requireAuth env settlement
  let c ← campaign campaignId s
  rejectIf (c.status ≠ .active) .invalidState
  rejectIf (operationVersion ≠ c.operationVersion) .wrongVersion
  rejectIf (env.timestamp ≥ c.expiresAt) .expired
  rejectIf (s.consumedOperation campaignId operationVersion).isSome .wrongVersion
  let s := setCampaign env campaignId { c with status := .completed } s
  let s := setConsumed env campaignId operationVersion s
  let total := c.amount
  let liability := s.totalLiability.getD 0
  let token ← trapOr s.token .missing
  rejectIf (liability < total ∨ t.balance token env.self < liability) .deficit
  let nextLiability ← plainI128 (liability - total)
  let s := { s with totalLiability := some nextLiability }
  let serviceLeg ← leg total service
  let nftLeg ← leg total nftPool
  let revenueLeg ← leg total revenue
  let referrerLeg ← leg total referrer
  let referrerAddress ← okOr c.referrer .referrerRequired
  let creatorLeg ← remainder total serviceLeg nftLeg revenueLeg referrerLeg
  let legs : Split := ⟨creatorLeg, serviceLeg, nftLeg, revenueLeg, referrerLeg⟩
  let (pools, t) ← payOut env campaignId token c.creator referrerAddress legs s pools t
  return (s, pools, t)

/-- Anyone returns the amount of an expired campaign that was not completed to its sponsor. -/
def refundExpired (env : Env) (campaignId : UInt64) (s : EscrowStorage) (t : Tokens) :
    Result (EscrowStorage × Tokens) := do
  let s ← init env s
  let c ← campaign campaignId s
  rejectIf (c.status ≠ .active ∧ c.status ≠ .funded) .invalidState
  rejectIf (env.timestamp < c.expiresAt) .notExpired
  let liability := s.totalLiability.getD 0
  let token ← trapOr s.token .missing
  rejectIf (liability < c.amount ∨ t.balance token env.self < liability) .deficit
  let nextLiability ← plainI128 (liability - c.amount)
  let s := { s with totalLiability := some nextLiability }
  let s := setCampaign env campaignId { c with status := .refunded } s
  let t ← t.transfer env token env.self c.sponsor c.amount
  return (s, t)

/-- `propose`: role 1 is governance, any other the settlement authority. -/
def propose (env : Env) (role : ℕ) (account : Address) (s : EscrowStorage) :
    Result EscrowStorage := do
  let s ← init env s
  let governance ← currentGovernance s
  requireAuth env governance
  return if role = 1 then { s with pendingGovernance := some account }
    else { s with pendingSettlement := some account }

/-- The proposed account takes the role; it is not compared with the holder of the other one. -/
def accept (env : Env) (role : ℕ) (s : EscrowStorage) : Result EscrowStorage := do
  let s ← init env s
  let next ← okOr (if role = 1 then s.pendingGovernance else s.pendingSettlement) .noPendingRole
  requireAuth env next
  return if role = 1 then { s with governance := some next, pendingGovernance := none }
    else { s with settlement := some next, pendingSettlement := none }

/-- Governance names its successor. -/
def proposeGovernance (env : Env) (account : Address) (s : EscrowStorage) : Result EscrowStorage :=
  propose env 1 account s

/-- The successor takes over governance. -/
def acceptGovernance (env : Env) (s : EscrowStorage) : Result EscrowStorage := accept env 1 s

/-- Governance names the next settlement authority. -/
def proposeSettlement (env : Env) (account : Address) (s : EscrowStorage) : Result EscrowStorage :=
  propose env 2 account s

/-- The next settlement authority takes over. -/
def acceptSettlement (env : Env) (s : EscrowStorage) : Result EscrowStorage := accept env 2 s

/-- `pause` and `unpause` set the flag to `b`. -/
def setPaused (b : Bool) (env : Env) (s : EscrowStorage) : Result EscrowStorage := do
  let s ← init env s
  let governance ← currentGovernance s
  requireAuth env governance
  return { s.extend env .instance_ with paused := some b }

/-- Governance holds funding, activation and completion. -/
def pause (env : Env) (s : EscrowStorage) : Result EscrowStorage := setPaused true env s

/-- Governance lifts the pause. -/
def unpause (env : Env) (s : EscrowStorage) : Result EscrowStorage := setPaused false env s

/-- Read a campaign, and extend its life. -/
def getCampaign (env : Env) (id : UInt64) (s : EscrowStorage) : Result (Campaign × EscrowStorage) := do
  let c ← campaign id s
  return (c, s.extend env (.campaign id))

/-- The readers of the instance: `init`, another TTL extension, and the value. -/
def readInstance {α : Type} (env : Env) (get : EscrowStorage → Result α) (s : EscrowStorage) :
    Result (α × EscrowStorage) := do
  let s ← init env s
  let s := s.extend env .instance_
  let a ← get s
  return (a, s)

/-- Read the version of the configuration. -/
def configVersion (env : Env) : EscrowStorage → Result (ℕ × EscrowStorage) :=
  readInstance env fun s => .ok (s.configVersion.getD 1)

/-- Read the two pools. -/
def poolDestinations (env : Env) : EscrowStorage → Result ((Address × Address) × EscrowStorage) :=
  readInstance env fun s => do
    let nft ← trapOr s.nftPool .missing
    let revenue ← trapOr s.revenuePool .missing
    return (nft, revenue)

/-- Read the token of the escrow. -/
def tokenContract (env : Env) : EscrowStorage → Result (Address × EscrowStorage) :=
  readInstance env fun s => trapOr s.token .missing

/-- Read the treasury. -/
def serviceTreasury (env : Env) : EscrowStorage → Result (Address × EscrowStorage) :=
  readInstance env fun s => trapOr s.serviceTreasury .missing

/-- Read the settlement authority. -/
def settlementAuthority (env : Env) : EscrowStorage → Result (Address × EscrowStorage) :=
  readInstance env fun s => trapOr s.settlement .missing

/-- Extend the life of the escrow's instance. -/
def extendInstanceTtl (env : Env) (s : EscrowStorage) : Result EscrowStorage := do
  let s ← init env s
  return s.extend env .instance_

/-- Extend the life of a campaign. -/
def extendCampaignTtl (env : Env) (id : UInt64) (s : EscrowStorage) : Result EscrowStorage := do
  let _ ← campaign id s
  return s.extend env (.campaign id)

/-! ## Calls -/

/-- A call of an entry point of the escrow. -/
inductive EscrowCall where
  | initializeEscrow
      (governance settlement token serviceTreasury nftPool revenuePool deployer : Address)
      (deploymentSalt : BytesN32)
  | fund (campaignId : UInt64) (sponsor : Address) (amount : ℤ)
  | activate (campaignId : UInt64) (creator : Address) (referrer : Option Address)
      (termsHash : List UInt8)
  | complete (campaignId : UInt64) (operationVersion : ℕ)
  | refundExpired (campaignId : UInt64)
  | proposeGovernance (account : Address)
  | acceptGovernance
  | proposeSettlement (account : Address)
  | acceptSettlement
  | pause
  | unpause
  | getCampaign (id : UInt64)
  | configVersion
  | poolDestinations
  | tokenContract
  | serviceTreasury
  | isPaused
  | governance
  | settlementAuthority
  | extendInstanceTtl
  | extendCampaignTtl (id : UInt64)

/-- What a call does to the escrow's storage, the pools and the tokens; the
    value it returns is dropped. -/
def EscrowCall.exec (env : Env) (s : EscrowStorage) (pools : Pools) (t : Tokens) :
    EscrowCall → Result (EscrowStorage × Pools × Tokens)
  | .initializeEscrow gov settle tok treasury nft rev deployer salt => do
    return (← Escrow.initializeEscrow env gov settle tok treasury nft rev deployer salt s pools,
      pools, t)
  | .fund id sponsor amount => do
    let (s, t) ← Escrow.fund env id sponsor amount s t
    return (s, pools, t)
  | .activate id creator referrer terms => do
    return (← Escrow.activate env id creator referrer terms s, pools, t)
  | .complete id version => Escrow.complete env id version s pools t
  | .refundExpired id => do
    let (s, t) ← Escrow.refundExpired env id s t
    return (s, pools, t)
  | .proposeGovernance account => do return (← Escrow.proposeGovernance env account s, pools, t)
  | .acceptGovernance => do return (← Escrow.acceptGovernance env s, pools, t)
  | .proposeSettlement account => do return (← Escrow.proposeSettlement env account s, pools, t)
  | .acceptSettlement => do return (← Escrow.acceptSettlement env s, pools, t)
  | .pause => do return (← Escrow.pause env s, pools, t)
  | .unpause => do return (← Escrow.unpause env s, pools, t)
  | .getCampaign id => do return ((← Escrow.getCampaign env id s).2, pools, t)
  | .configVersion => do return ((← Escrow.configVersion env s).2, pools, t)
  | .poolDestinations => do return ((← Escrow.poolDestinations env s).2, pools, t)
  | .tokenContract => do return ((← Escrow.tokenContract env s).2, pools, t)
  | .serviceTreasury => do return ((← Escrow.serviceTreasury env s).2, pools, t)
  | .isPaused => .ok (s, pools, t)
  | .governance => do let _ ← currentGovernance s; return (s, pools, t)
  | .settlementAuthority => do return ((← Escrow.settlementAuthority env s).2, pools, t)
  | .extendInstanceTtl => do return (← Escrow.extendInstanceTtl env s, pools, t)
  | .extendCampaignTtl id => do return (← Escrow.extendCampaignTtl env id s, pools, t)

end Escrow

end TogetherFi
