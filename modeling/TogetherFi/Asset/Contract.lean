/-
  The Stellar asset contract
  (`soroban-env-host-patch/src/builtin_contracts/stellar_asset_contract`): the
  token the contracts hold and pay in.

  An account holds a classic asset in a trustline, or lumens in its account
  entry, and the contract keeps to what these entries allow; a contract holds it
  in a `BalanceValue` of the asset contract's own storage.  Every function takes
  and returns the storage, as the sources' functions do through the host, and
  checks in the same order.

  The persistent and instance entries are taken to be alive; an allowance is a
  temporary entry and carries the ledger it lives until.  The two kinds of
  credit asset differ in the length of their code only and are one case here.
-/
import TogetherFi.Host

namespace TogetherFi

open Outcome Function

namespace Asset

/-! ## Data -/

/-- `ContractError` (`contract_error.rs`) -/
inductive ContractError where
  | internal
  | operationNotSupported
  | alreadyInitialized
  | unauthorized
  | authentication
  | accountMissing
  | accountIsNotClassic
  | negativeAmount
  | allowance
  | balance
  | balanceDeauthorized
  | overflow
  | trustlineMissing
  deriving DecidableEq, Repr

/-- `ContractError` as `u32` -/
def ContractError.code : ContractError → ℕ
  | internal => 1
  | operationNotSupported => 2
  | alreadyInitialized => 3
  | unauthorized => 4
  | authentication => 5
  | accountMissing => 6
  | accountIsNotClassic => 7
  | negativeAmount => 8
  | allowance => 9
  | balance => 10
  | balanceDeauthorized => 11
  | overflow => 12
  | trustlineMissing => 13

/-- What the host itself stops a call of the asset contract for. -/
inductive HostFault where
  /-- a `require_auth` that is not satisfied -/
  | auth
  /-- `(Storage, MissingValue)` -/
  | missingValue
  /-- `(Storage, InvalidAction)` -/
  | invalidAction
  /-- `(Context, InternalError)` -/
  | internalError
  /-- an overflow of a plain operator -/
  | arithmetic
  deriving DecidableEq, Repr

/-- `LedgerInfo`: what the contract asks about the current ledger. -/
structure LedgerInfo where
  sequenceNumber : ℕ
  baseReserve : ℕ
  minTempEntryTtl : ℕ
  maxEntryTtl : ℕ
  deriving DecidableEq, Repr

/-- The classic asset a contract stands for. -/
inductive AssetInfo where
  | native
  /-- `AlphaNum4` or `AlphaNum12` -/
  | credit (issuer : ℕ)
  deriving DecidableEq, Repr

/-- What the open offers of an account entry may buy and sell. -/
structure Liabilities where
  buying : ℤ
  selling : ℤ
  deriving DecidableEq, Repr

/-- `AccountEntryExtensionV2` -/
structure Sponsorship where
  numSponsored : ℕ
  numSponsoring : ℕ
  deriving DecidableEq, Repr

/-- The classic entry of an account: its native balance and its flags. -/
structure AccountEntry where
  balance : ℤ
  numSubEntries : ℕ
  flags : BitVec 32
  /-- the `V1` extension: the liabilities, and its `V2` extension -/
  ext : Option (Liabilities × Option Sponsorship)
  deriving DecidableEq, Repr

/-- An account's classic holding of the asset. -/
structure TrustLineEntry where
  balance : ℤ
  limit : ℤ
  flags : BitVec 32
  /-- the `V1` extension -/
  ext : Option Liabilities
  deriving DecidableEq, Repr

/-- The holding of a contract. -/
structure BalanceValue where
  amount : ℤ
  authorized : Bool
  clawback : Bool
  deriving DecidableEq, Repr

/-- An allowance, and the last ledger it may be drawn in. -/
structure AllowanceValue where
  amount : ℤ
  liveUntilLedger : ℕ
  deriving DecidableEq, Repr

/-- A temporary entry, with the ledger it lives until. -/
structure Temporary (α : Type) where
  value : α
  liveUntil : ℕ
  deriving DecidableEq, Repr

/-- What an asset contract reads and writes: its own instance, the balances of
    contracts, the allowances, and the classic entries of accounts. -/
structure Storage where
  assetInfo : AssetInfo
  admin : Option Address
  balance : ℕ → Option BalanceValue
  allowance : Address → Address → Option (Temporary AllowanceValue)
  account : ℕ → Option AccountEntry
  trustline : ℕ → Option TrustLineEntry

namespace Storage

/-- Write the balance of a contract. -/
@[simps] def setBalance (s : Storage) (id : ℕ) (v : BalanceValue) : Storage :=
  { s with balance := update s.balance id (some v) }

/-- Write an allowance. -/
@[simps] def setAllowance (s : Storage) (holder spender : Address) (v : Temporary AllowanceValue) :
    Storage :=
  { s with allowance := update s.allowance holder (update (s.allowance holder) spender (some v)) }

/-- Write the entry of an account, or remove it. -/
@[simps] def setAccount (s : Storage) (key : ℕ) (v : Option AccountEntry) : Storage :=
  { s with account := update s.account key v }

/-- Write the trustline of an account, or remove it. -/
@[simps] def setTrustline (s : Storage) (key : ℕ) (v : Option TrustLineEntry) : Storage :=
  { s with trustline := update s.trustline key v }

end Storage

/-- Results of the asset contract. -/
abbrev Result (α : Type) := Outcome ContractError HostFault α

/-! ## Integers and flags -/

/-- `i64::MAX` -/
def i64Max : ℤ := 2 ^ 63 - 1

/-- The result of checked arithmetic on `i64`. -/
def checkedI64 (x : ℤ) : Option ℤ := if -(2 ^ 63) ≤ x ∧ x ≤ i64Max then some x else none

/-- The result of a plain operator on `i64`. -/
def plainI64 (x : ℤ) : Result ℤ := trapOr (checkedI64 x) .arithmetic

/-- `u32::checked_add` -/
def checkedAddU32 (a b : ℕ) : Option ℕ := if a + b < 2 ^ 32 then some (a + b) else none

/-- `AccountFlags::RequiredFlag` -/
def requiredFlag : BitVec 32 := 0x1

/-- `AccountFlags::RevocableFlag` -/
def revocableFlag : BitVec 32 := 0x2

/-- `AccountFlags::ClawbackEnabledFlag` -/
def clawbackEnabledFlag : BitVec 32 := 0x8

/-- `TrustLineFlags::AuthorizedFlag` -/
def authorizedFlag : BitVec 32 := 0x1

/-- `TrustLineFlags::AuthorizedToMaintainLiabilitiesFlag` -/
def maintainLiabilitiesFlag : BitVec 32 := 0x2

/-- `TrustLineFlags::TrustlineClawbackEnabledFlag` -/
def trustlineClawbackFlag : BitVec 32 := 0x4

/-- `flags & flag != 0` -/
def hasFlag (flags flag : BitVec 32) : Bool := flags &&& flag != 0

/-! ## The ledger -/

/-- `min_live_until_ledger_checked(Temporary)` -/
def LedgerInfo.minLiveUntilLedger (li : LedgerInfo) : Result ℕ :=
  trapOr (checkedAddU32 li.sequenceNumber (li.minTempEntryTtl - 1)) .internalError

/-- `max_live_until_ledger_checked` -/
def LedgerInfo.maxLiveUntilLedger (li : LedgerInfo) : Result ℕ :=
  trapOr (checkedAddU32 li.sequenceNumber (li.maxEntryTtl - 1)) .internalError

/-- `extend_ttl` of a temporary entry that lives until `oldLiveUntil` -/
def extendTtl (li : LedgerInfo) (oldLiveUntil threshold extendTo : ℕ) : Result ℕ := do
  let newLiveUntil ← trapOr (checkedAddU32 li.sequenceNumber extendTo) .internalError
  let max ← li.maxLiveUntilLedger
  trapUnless (newLiveUntil ≤ max) .invalidAction
  return if oldLiveUntil < newLiveUntil ∧ oldLiveUntil - li.sequenceNumber ≤ threshold then newLiveUntil
    else oldLiveUntil

/-! ## The issuer -/

/-- `is_asset_issuer_flag_set` -/
def isAssetIssuerFlagSet (flag : BitVec 32) (s : Storage) : Result Bool :=
  match s.assetInfo with
  | .native => .ok false
  | .credit issuer => do
    let issuerAcc ← trapOr (s.account issuer) .missingValue
    return hasFlag issuerAcc.flags flag

/-- Whether the issuer requires authorization. -/
def isAssetAuthRequired : Storage → Result Bool := isAssetIssuerFlagSet requiredFlag

/-- Whether the issuer may revoke an authorization. -/
def isAssetAuthRevocable : Storage → Result Bool := isAssetIssuerFlagSet revocableFlag

/-- Whether the issuer has enabled clawback. -/
def isAssetClawbackEnabled : Storage → Result Bool := isAssetIssuerFlagSet clawbackEnabledFlag

/-! ## Classic balances -/

/-- `get_min_max_account_balance` -/
def getMinMaxAccountBalance (li : LedgerInfo) (ae : AccountEntry) : Result (ℤ × ℤ) := do
  rejectIf (ae.balance < 0) .internal
  match ae.ext with
  | some (liabilities, ext) =>
    let netEntries : ℤ := match ext with
      | some ext2 => 2 + ae.numSubEntries + ext2.numSponsoring - ext2.numSponsored
      | none => 2 + ae.numSubEntries
    let reserve ← plainI64 (netEntries * li.baseReserve)
    let minBalance ← plainI64 (reserve + liabilities.selling)
    let maxBalance ← plainI64 (i64Max - liabilities.buying)
    return (minBalance, maxBalance)
  | none =>
    let minBalance ← plainI64 ((2 + ae.numSubEntries) * li.baseReserve)
    return (minBalance, i64Max)

/-- `get_min_max_trustline_balance` -/
def getMinMaxTrustlineBalance (tl : TrustLineEntry) : Result (ℤ × ℤ) := do
  rejectIf (tl.balance < 0) .internal
  match tl.ext with
  | some liabilities =>
    rejectIf (tl.limit < liabilities.buying) .internal
    let maxBalance ← plainI64 (tl.limit - liabilities.buying)
    return (liabilities.selling, maxBalance)
  | none => return (0, tl.limit)

/-- The new balance of a classic entry, if it is in range. -/
def addWithin (range : ℤ × ℤ) (balance amount : ℤ) : Result ℤ := do
  let newBalance ← okOr (checkedI64 (balance + amount)) .balance
  rejectIf (¬ (range.1 ≤ newBalance ∧ newBalance ≤ range.2)) .balance
  return newBalance

/-- `transfer_account_balance` -/
def transferAccountBalance (li : LedgerInfo) (key : ℕ) (amount : ℤ) (s : Storage) : Result Storage := do
  let ae ← okOr (s.account key) .accountMissing
  let range ← getMinMaxAccountBalance li ae
  let newBalance ← addWithin range ae.balance amount
  return s.setAccount key (some { ae with balance := newBalance })

/-- `transfer_trustline_balance` -/
def transferTrustlineBalance (key : ℕ) (amount : ℤ) (s : Storage) : Result Storage := do
  let tl ← okOr (s.trustline key) .trustlineMissing
  let range ← getMinMaxTrustlineBalance tl
  let newBalance ← addWithin range tl.balance amount
  return s.setTrustline key (some { tl with balance := newBalance })

/-- `transfer_classic_balance` -/
def transferClassicBalance (li : LedgerInfo) (key : ℕ) (amount : ℤ) (s : Storage) : Result Storage :=
  match s.assetInfo with
  | .native => transferAccountBalance li key amount s
  | .credit issuer => if issuer = key then .ok s else transferTrustlineBalance key amount s

/-- The balance of a classic entry, which has to be in range. -/
def readWithin (range : ℤ × ℤ) (balance : ℤ) : Result ℤ := do
  rejectIf (balance < range.1) .internal
  rejectIf (range.2 < balance) .internal
  return balance

/-- `get_account_balance` -/
def getAccountBalance (li : LedgerInfo) (key : ℕ) (s : Storage) : Result ℤ := do
  let ae ← okOr (s.account key) .accountMissing
  let range ← getMinMaxAccountBalance li ae
  readWithin range ae.balance

/-- `get_trustline_balance` -/
def getTrustlineBalance (key : ℕ) (s : Storage) : Result ℤ := do
  let tl ← okOr (s.trustline key) .trustlineMissing
  let range ← getMinMaxTrustlineBalance tl
  readWithin range tl.balance

/-- `get_classic_balance` -/
def getClassicBalance (li : LedgerInfo) (key : ℕ) (s : Storage) : Result ℤ :=
  match s.assetInfo with
  | .native => getAccountBalance li key s
  | .credit issuer => if issuer = key then .ok i64Max else getTrustlineBalance key s

/-- `get_trustline_flags` -/
def getTrustlineFlags (key : ℕ) (s : Storage) : Result (BitVec 32) := do
  let tl ← okOr (s.trustline key) .trustlineMissing
  return tl.flags

/-- `is_account_authorized` -/
def isAccountAuthorized (key : ℕ) (s : Storage) : Result Bool :=
  match s.assetInfo with
  | .native => .ok true
  | .credit issuer =>
    if issuer = key then .ok true
    else do
      let flags ← getTrustlineFlags key s
      return hasFlag flags authorizedFlag

/-- `set_trustline_authorization` -/
def setTrustlineAuthorization (key : ℕ) (authorize : Bool) (s : Storage) : Result Storage := do
  let tl ← okOr (s.trustline key) .trustlineMissing
  if hasFlag tl.flags authorizedFlag = authorize then return s
  let flags := if authorize then tl.flags &&& ~~~maintainLiabilitiesFlag ||| authorizedFlag
    -- so that offers need not be pulled
    else tl.flags &&& ~~~authorizedFlag ||| maintainLiabilitiesFlag
  return s.setTrustline key (some { tl with flags := flags })

/-- `set_authorization` -/
def setAuthorization (key : ℕ) (authorize : Bool) (s : Storage) : Result Storage :=
  match s.assetInfo with
  | .native => .error (.error .operationNotSupported)
  | .credit issuer =>
    if issuer = key then .error (.error .operationNotSupported)
    else setTrustlineAuthorization key authorize s

/-! ## Balances -/

/-- The balance `balance` answers with. -/
def readBalance (li : LedgerInfo) (a : Address) (s : Storage) : Result ℤ :=
  match a with
  | .account key => getClassicBalance li key s
  | .contract id => .ok ((s.balance id).elim 0 BalanceValue.amount)

/-- Whether `a` may hold and move the asset.  A contract without an entry may, unless the
    issuer requires authorization. -/
def isAuthorized (a : Address) (s : Storage) : Result Bool :=
  match a with
  | .account key => isAccountAuthorized key s
  | .contract id =>
    match s.balance id with
    | some balance => .ok balance.authorized
    | none => do return !(← isAssetAuthRequired s)

/-- Give an amount to `a`, who must be authorized; a contract that had none gets an entry. -/
def receiveBalance (li : LedgerInfo) (a : Address) (amount : ℤ) (s : Storage) : Result Storage := do
  let authorized ← isAuthorized a s
  rejectIf (authorized = false) .balanceDeauthorized
  match a with
  | .account key =>
    let amount ← okOr (checkedI64 amount) .overflow
    transferClassicBalance li key amount s
  | .contract id =>
    let balance ← match s.balance id with
      | some balance => pure balance
      | none => do
        let clawback ← isAssetClawbackEnabled s
        -- the holder passed the authorization check above
        pure (BalanceValue.mk 0 true clawback)
    let newBalance ← okOr (checkedI128 (balance.amount + amount)) .overflow
    return s.setBalance id { balance with amount := newBalance }

/-- Take an amount from `a`, authorized or not. -/
def spendBalanceNoAuthorizationCheck (li : LedgerInfo) (a : Address) (amount : ℤ) (s : Storage) :
    Result Storage :=
  match a with
  | .account key => do
    let amount ← okOr (checkedI64 amount) .overflow
    transferClassicBalance li key (-amount) s
  | .contract id =>
    match s.balance id with
    | some balance => do
      rejectIf (balance.amount < amount) .balance
      let newBalance ← okOr (checkedI128 (balance.amount - amount)) .overflow
      -- the flags stay: this also claws back from the deauthorized
      return s.setBalance id { balance with amount := newBalance }
    | none => do
      rejectIf (0 < amount) .balance
      return s

/-- Take an amount from `a`, who must be authorized. -/
def spendBalance (li : LedgerInfo) (a : Address) (amount : ℤ) (s : Storage) : Result Storage := do
  let authorized ← isAuthorized a s
  rejectIf (authorized = false) .balanceDeauthorized
  spendBalanceNoAuthorizationCheck li a amount s

/-- Authorize or deauthorize `a`; the latter needs a revocable issuer. -/
def writeAuthorization (a : Address) (authorize : Bool) (s : Storage) : Result Storage := do
  if authorize = false then
    let revocable ← isAssetAuthRevocable s
    rejectIf (revocable = false) .operationNotSupported
  match a with
  | .account key => setAuthorization key authorize s
  | .contract id =>
    match s.balance id with
    | some balance => return s.setBalance id { balance with authorized := authorize }
    | none => do
      let clawback ← isAssetClawbackEnabled s
      return s.setBalance id ⟨0, authorize, clawback⟩

/-- Whether the asset may be clawed back from `a`. -/
def checkClawbackable (a : Address) (s : Storage) : Result Unit :=
  match a with
  | .account key =>
    match s.assetInfo with
    | .native => .error (.error .operationNotSupported)
    | .credit issuer => do
      rejectIf (issuer = key) .operationNotSupported
      let flags ← getTrustlineFlags key s
      rejectIf (hasFlag flags trustlineClawbackFlag = false) .balance
  | .contract id =>
    match s.balance id with
    | some balance => rejectIf (balance.clawback = false) .balance
    | none => .error (.error .balance)

/-! ## Allowances -/

/-- The allowance the host finds: an entry that no longer lives is gone. -/
def Storage.liveAllowance (s : Storage) (li : LedgerInfo) (holder spender : Address) :
    Option (Temporary AllowanceValue) :=
  (s.allowance holder spender).filter fun e => li.sequenceNumber ≤ e.liveUntil

/-- What may be drawn of an allowance. -/
def readAllowance (li : LedgerInfo) (holder spender : Address) (s : Storage) : ℤ :=
  match s.liveAllowance li holder spender with
  | some e => if e.value.liveUntilLedger < li.sequenceNumber then 0 else e.value.amount
  | none => 0

/-- How long a written allowance lives: as long as it did, or as a new temporary
    entry does. -/
def putAllowance (li : LedgerInfo) (old : Option (Temporary AllowanceValue)) : Result ℕ :=
  match old with
  | some e => .ok e.liveUntil
  | none => li.minLiveUntilLedger

/-- `previous live_until.unwrap_or(0)` -/
def deadline (old : Option (Temporary AllowanceValue)) : ℕ := old.elim 0 fun e => e.value.liveUntilLedger

/-- An amount allowed for longer than before extends the life of the entry. -/
def extendAllowance (li : LedgerInfo) (old : Option (Temporary AllowanceValue)) (amount : ℤ)
    (liveUntil life : ℕ) : Result ℕ :=
  if 0 < amount ∧ deadline old < liveUntil then
    let liveFor := min (liveUntil - li.sequenceNumber + 1) (2 ^ 32 - 1)
    extendTtl li life liveFor liveFor
  else .ok life

/-- Write an allowance, with a life through the ledger it names. -/
def writeAllowance (li : LedgerInfo) (holder spender : Address) (amount : ℤ) (liveUntil : ℕ)
    (s : Storage) : Result Storage := do
  let max ← li.maxLiveUntilLedger
  rejectIf (max < liveUntil) .allowance
  rejectIf (0 < amount ∧ liveUntil < li.sequenceNumber) .allowance
  let old := s.liveAllowance li holder spender
  -- nothing is written to clear what is not there
  if old = none ∧ amount ≤ 0 then return s
  let life ← putAllowance li old
  let life ← extendAllowance li old amount liveUntil life
  return s.setAllowance holder spender ⟨⟨amount, liveUntil⟩, life⟩

/-- Write the amount of an allowance, for the ledger it has. -/
def writeAllowanceAmount (li : LedgerInfo) (holder spender : Address) (amount : ℤ) (s : Storage) :
    Result Storage := do
  let e ← trapOr (s.liveAllowance li holder spender) .missingValue
  writeAllowance li holder spender amount e.value.liveUntilLedger s

/-- Draw on an allowance. -/
def spendAllowance (li : LedgerInfo) (holder spender : Address) (amount : ℤ) (s : Storage) :
    Result Storage := do
  let allowance := readAllowance li holder spender s
  rejectIf (allowance < amount) .allowance
  if 0 < amount then
    let newAllowance ← okOr (checkedI128 (allowance - amount)) .overflow
    writeAllowanceAmount li holder spender newAllowance s
  else return s

/-! ## Entry points -/

/-- Amounts are not negative. -/
def checkNonnegativeAmount (amount : ℤ) : Result Unit := rejectIf (amount < 0) .negativeAmount

/-- The asset is not the native one. -/
def checkNonNative (s : Storage) : Result Unit := rejectIf (s.assetInfo = .native) .operationNotSupported

/-- Whether `a` is the issuer of the asset. -/
def Storage.isIssuer (s : Storage) (a : Address) : Prop :=
  ∃ issuer, s.assetInfo = .credit issuer ∧ a = .account issuer

instance (s : Storage) (a : Address) : Decidable (s.isIssuer a) :=
  match h : s.assetInfo, a with
  | .native, _ => isFalse fun ⟨_, h', _⟩ => (by rw [h] at h'; cases h')
  | .credit issuer, a => decidable_of_iff (a = .account issuer)
      ⟨fun ha => ⟨issuer, h, ha⟩, fun ⟨_, h', ha⟩ => (by rw [h] at h'; cases h'; exact ha)⟩

/-- The issuer neither burns, nor is minted to or clawed back from. -/
def checkNotIssuer (a : Address) (s : Storage) : Result Unit :=
  rejectIf (s.isIssuer a) .operationNotSupported

/-- What one invocation of the asset contract can ask the host. -/
structure Invocation where
  ledger : LedgerInfo
  authorized : Address → Bool

/-- `a.require_auth()` -/
def requireAuth (inv : Invocation) (a : Address) : Result Unit :=
  trapUnless (inv.authorized a = true) .auth

/-- `read_administrator` -/
def readAdministrator (s : Storage) : Result Address := trapOr s.admin .missingValue

variable (inv : Invocation)

/-- `holder` lets `spender` draw an amount, through a ledger. -/
def approve (holder spender : Address) (amount : ℤ) (liveUntilLedger : ℕ) (s : Storage) :
    Result Storage := do
  checkNonnegativeAmount amount
  requireAuth inv holder
  writeAllowance inv.ledger holder spender amount liveUntilLedger s

/-- `src` pays `dst`. -/
def transfer (src dst : Address) (amount : ℤ) (s : Storage) : Result Storage := do
  checkNonnegativeAmount amount
  requireAuth inv src
  let s ← spendBalance inv.ledger src amount s
  receiveBalance inv.ledger dst amount s

/-- `spender` pays `dst` from what `src` allows. -/
def transferFrom (spender src dst : Address) (amount : ℤ) (s : Storage) : Result Storage := do
  checkNonnegativeAmount amount
  requireAuth inv spender
  let s ← spendAllowance inv.ledger src spender amount s
  let s ← spendBalance inv.ledger src amount s
  receiveBalance inv.ledger dst amount s

/-- `src` gives up an amount. -/
def burn (src : Address) (amount : ℤ) (s : Storage) : Result Storage := do
  checkNonnegativeAmount amount
  checkNonNative s
  checkNotIssuer src s
  requireAuth inv src
  spendBalance inv.ledger src amount s

/-- `spender` gives up an amount of what `src` allows. -/
def burnFrom (spender src : Address) (amount : ℤ) (s : Storage) : Result Storage := do
  checkNonnegativeAmount amount
  checkNonNative s
  checkNotIssuer src s
  requireAuth inv spender
  let s ← spendAllowance inv.ledger src spender amount s
  spendBalance inv.ledger src amount s

/-- The administrator takes an amount back from `src`. -/
def clawback (src : Address) (amount : ℤ) (s : Storage) : Result Storage := do
  checkNonnegativeAmount amount
  checkClawbackable src s
  checkNotIssuer src s
  let admin ← readAdministrator s
  requireAuth inv admin
  spendBalanceNoAuthorizationCheck inv.ledger src amount s

/-- The administrator authorizes or deauthorizes `a`. -/
def setAuthorized (a : Address) (authorize : Bool) (s : Storage) : Result Storage := do
  let admin ← readAdministrator s
  requireAuth inv admin
  writeAuthorization a authorize s

/-- The administrator issues an amount to `dst`. -/
def mint (dst : Address) (amount : ℤ) (s : Storage) : Result Storage := do
  checkNonnegativeAmount amount
  checkNotIssuer dst s
  let admin ← readAdministrator s
  requireAuth inv admin
  receiveBalance inv.ledger dst amount s

/-- The administrator names the next one. -/
def setAdmin (newAdmin : Address) (s : Storage) : Result Storage := do
  let admin ← readAdministrator s
  requireAuth inv admin
  return { s with admin := some newAdmin }

/-- The entry points that write. -/
inductive Call where
  | approve (holder spender : Address) (amount : ℤ) (liveUntilLedger : ℕ)
  | transfer (src dst : Address) (amount : ℤ)
  | transferFrom (spender src dst : Address) (amount : ℤ)
  | burn (src : Address) (amount : ℤ)
  | burnFrom (spender src : Address) (amount : ℤ)
  | clawback (src : Address) (amount : ℤ)
  | setAuthorized (a : Address) (authorize : Bool)
  | mint (dst : Address) (amount : ℤ)
  | setAdmin (newAdmin : Address)
  deriving DecidableEq, Repr

/-- A call of the contract. -/
def Call.exec : Call → Storage → Result Storage
  | .approve holder spender amount live => Asset.approve inv holder spender amount live
  | .transfer src dst amount => Asset.transfer inv src dst amount
  | .transferFrom spender src dst amount => Asset.transferFrom inv spender src dst amount
  | .burn src amount => Asset.burn inv src amount
  | .burnFrom spender src amount => Asset.burnFrom inv spender src amount
  | .clawback src amount => Asset.clawback inv src amount
  | .setAuthorized a authorize => Asset.setAuthorized inv a authorize
  | .mint dst amount => Asset.mint inv dst amount
  | .setAdmin newAdmin => Asset.setAdmin inv newAdmin

end Asset

end TogetherFi
