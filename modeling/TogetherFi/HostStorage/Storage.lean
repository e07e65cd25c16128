/-
  The storage of the host (`soroban-env-host-patch/src/storage.rs`): every
  access to a ledger entry goes through a footprint, which is recorded in a
  preflight and enforced in a real invocation.

  What a function did before it failed stays done, as `&mut self` leaves it:
  the functions are in `EStateM`, whose errors carry the state.  Keys and
  entries are those of the ledger, of which the storage looks at the kind, the
  durability and the size only.  The liveness checks of the test utilities and
  the texts of the errors are left out.
-/
import TogetherFi.Lib.Session
import TogetherFi.HostStorage.MeteredMap

namespace TogetherFi

open Function Session

namespace HostStorage

/-! ## Ledger keys and entries -/

/-- Whether an entry is gone or archived when its life ends. -/
inductive ContractDataDurability where
  | temporary
  | persistent
  deriving DecidableEq, Repr

/-- The variants of `LedgerKey` and `LedgerEntryData`; the rest are not supported. -/
inductive LedgerKind where
  | account
  | trustline
  | contractData (durability : ContractDataDurability)
  | contractCode
  | unsupported
  deriving DecidableEq, Repr

/-- A type of ledger keys, in the order of their encoding. -/
class LedgerKey (K : Type) extends LinearOrder K where
  kind : K → LedgerKind

/-- A type of ledger entries: the key of each and the length of its encoding. -/
class LedgerEntry (K E : Type) where
  key : E → K
  size : E → ℕ

/-- `EntryWithLiveUntil` -/
abbrev EntryWithLiveUntil (E : Type) := E × Option ℕ

/-- The entries of a ledger, as `SnapshotSource` reads them. -/
abbrev Ledger (K E : Type) := K → Option (EntryWithLiveUntil E)

/-- `get_key_durability` -/
def getKeyDurability {K : Type} [LedgerKey K] (key : K) : Option ContractDataDurability :=
  match LedgerKey.kind key with
  | .contractData d => some d
  | .contractCode => some .persistent
  | _ => none

/-! ## Ledger info -/

/-- What the host is told of the ledger. -/
structure LedgerInfo where
  sequenceNumber : ℕ
  minTempEntryTtl : ℕ
  minPersistentEntryTtl : ℕ
  maxEntryTtl : ℕ
  deriving DecidableEq, Repr

/-- `u32::checked_add`, of which an overflow is a misconfiguration of the network -/
def checkedAdd (a b : ℕ) : Except Error ℕ :=
  if a + b ≤ u32Max then .ok (a + b) else .error (.host .context .internalError)

namespace LedgerInfo

/-- The entry type's minimal life, counting the current ledger. -/
def minLiveUntilLedger (li : LedgerInfo) : ContractDataDurability → Except Error ℕ
  | .temporary => checkedAdd li.sequenceNumber (li.minTempEntryTtl - 1)
  | .persistent => checkedAdd li.sequenceNumber (li.minPersistentEntryTtl - 1)

/-- `max_live_until_ledger_checked` -/
def maxLiveUntilLedger (li : LedgerInfo) : Except Error ℕ :=
  checkedAdd li.sequenceNumber (li.maxEntryTtl - 1)

end LedgerInfo

/-! ## Footprints -/

/-- `AccessType` -/
inductive AccessType where
  | readOnly
  | readWrite
  deriving DecidableEq, Repr

/-- An access of one type is among those another type allows. -/
def AccessType.allows : AccessType → AccessType → Bool
  | .readOnly, .readWrite => false
  | _, _ => true

/-- `FootprintMap`: the keys a transaction touches. -/
abbrev Footprint (K : Type) [LedgerKey K] := MeteredOrdMap K AccessType

namespace Footprint

variable {K : Type} [LedgerKey K]

/-- `Footprint::record_access`: a write makes a key read-write. -/
def recordAccess (footprint : Footprint K) (key : K) (ty : AccessType) : Except Error (Footprint K) := do
  match ← footprint.get key with
  | some existing =>
    match existing, ty with
    -- the only upgrade: a key only read so far is written
    | .readOnly, .readWrite => footprint.insert key ty
    | _, _ => .ok footprint
  | none => footprint.insert key ty

/-- `Footprint::enforce_access`: what the footprint does not allow exceeds the limits. -/
def enforceAccess (footprint : Footprint K) (key : K) (ty : AccessType) : Except Error Unit := do
  match ← footprint.get key with
  | some existing => if existing.allows ty then .ok () else .error (.host .storage .exceededLimit)
  | none => .error (.host .storage .exceededLimit)

end Footprint

/-! ## Storage -/

/-- `SnapshotSource::get` -/
abbrev SnapshotSource (K E : Type) := K → Except Error (Option (EntryWithLiveUntil E))

/-- `FootprintMode` -/
inductive FootprintMode (K E : Type) where
  | recording (src : SnapshotSource K E)
  | enforcing

/-- `StorageMap`: the entries known so far; `none` for one known to be absent. -/
abbrev StorageMap (K E : Type) [LedgerKey K] := MeteredOrdMap K (Option (EntryWithLiveUntil E))

/-- `Storage` -/
structure Storage (K E : Type) [LedgerKey K] where
  footprint : Footprint K
  mode : FootprintMode K E
  map : StorageMap K E

/-- A function on `&mut self`. -/
abbrev StorageM (K E : Type) [LedgerKey K] (α : Type) := EStateM Error (Storage K E) α

section

variable {K E : Type} [LedgerKey K]

/-- `check_supported_ledger_key_type` -/
def checkSupportedLedgerKeyType (key : K) : Except Error Unit :=
  match LedgerKey.kind key with
  | .unsupported => .error .internal
  | _ => .ok ()

/-- `check_supported_ledger_entry_type` -/
def checkSupportedLedgerEntryType [LedgerEntry K E] (le : E) : Except Error Unit :=
  checkSupportedLedgerKeyType (LedgerEntry.key le : K)

namespace Storage

/-- `with_enforcing_footprint_and_map` -/
def withEnforcingFootprintAndMap (footprint : Footprint K) (map : StorageMap K E) : Storage K E :=
  ⟨footprint, .enforcing, map⟩

/-- `with_recording_footprint` -/
def withRecordingFootprint (src : SnapshotSource K E) : Storage K E :=
  ⟨MeteredOrdMap.new, .recording src, MeteredOrdMap.new⟩

/-- The access is recorded or enforced, as the mode has it. -/
def access (key : K) (ty : AccessType) : StorageM K E Unit :=
  amend fun s => match s.mode with
    | .recording _ => do
      let footprint ← s.footprint.recordAccess key ty
      return { s with footprint }
    | .enforcing => do
      s.footprint.enforceAccess key ty
      return s

/-- In a recording the map is a cache whose misses read through to the source. -/
def load (key : K) : StorageM K E Unit :=
  amend fun s => match s.mode with
    | .recording src =>
      if s.map.containsKey key then .ok s
      else do
        let value ← src key
        let map ← s.map.insert key value
        return { s with map }
    | .enforcing => .ok s

/-- `prepare_read_only_access` -/
def prepareReadOnlyAccess (key : K) : StorageM K E Unit := do
  access key .readOnly
  load key

/-- The key has to be in the map at this point. -/
def lookup (key : K) : StorageM K E (Option (EntryWithLiveUntil E)) :=
  query fun s => do
    let found ← s.map.get key
    found.elim (.error .internal) .ok

/-- `try_get_full` -/
def tryGetFull (key : K) : StorageM K E (Option (EntryWithLiveUntil E)) := do
  attempt (checkSupportedLedgerKeyType key)
  prepareReadOnlyAccess key
  lookup key

/-- `try_get` -/
def tryGet (key : K) : StorageM K E (Option E) := do
  return (← tryGetFull key).map Prod.fst

/-- `get_with_live_until_ledger` -/
def getWithLiveUntilLedger (key : K) : StorageM K E (EntryWithLiveUntil E) := do
  let pair ← tryGetFull key
  attempt (pair.elim (.error (.host .storage .missingValue)) .ok)

/-- `has` -/
def has (key : K) : StorageM K E Bool := do
  attempt (checkSupportedLedgerKeyType key)
  prepareReadOnlyAccess key
  return (← lookup key).isSome

/-- Write into the storage map. -/
def insert (key : K) (val : Option (EntryWithLiveUntil E)) : StorageM K E Unit :=
  amend fun s => do
    let map ← s.map.insert key val
    return { s with map }

/-- The types of a key and of what is stored under it are supported. -/
def checkSupported [LedgerEntry K E] (key : K) (val : Option (EntryWithLiveUntil E)) :
    Except Error Unit := do
  checkSupportedLedgerKeyType key
  match val with
  | some le => checkSupportedLedgerEntryType (K := K) le.1
  | none => .ok ()

/-- What `put` and `del` funnel into. -/
def putOpt [LedgerEntry K E] (key : K) (val : Option (EntryWithLiveUntil E)) : StorageM K E Unit := do
  attempt (checkSupported key val)
  access key .readWrite
  insert key val

/-- `put` -/
def put [LedgerEntry K E] (key : K) (val : E) (liveUntilLedger : Option ℕ) : StorageM K E Unit :=
  putOpt key (some (val, liveUntilLedger))

/-- `del` -/
def del [LedgerEntry K E] (key : K) : StorageM K E Unit := putOpt key none

/-- The ledger an extension by `extend_to` ledgers reaches: clamped to the maximum for a
    persistent entry, exact for a temporary one. -/
def newLiveUntil (li : LedgerInfo) (key : K) (extendTo : ℕ) : Except Error ℕ := do
  let newLiveUntil ← checkedAdd li.sequenceNumber extendTo
  let maxLiveUntil ← li.maxLiveUntilLedger
  if maxLiveUntil < newLiveUntil then
    match getKeyDurability key with
    | some .persistent => .ok maxLiveUntil
    | some .temporary => .error (.host .storage .invalidAction)
    | none => .error .internal
  else .ok newLiveUntil

/-- The entry is alive, and has a life at all. -/
def checkLive (li : LedgerInfo) : Option ℕ → Except Error ℕ
  | none => .error .internal
  | some oldLiveUntil => if oldLiveUntil < li.sequenceNumber then .error .internal else .ok oldLiveUntil

/-- Whether an extension changes the life of an entry. -/
def renews (li : LedgerInfo) (oldLiveUntil newLiveUntil threshold : ℕ) : Bool :=
  oldLiveUntil < newLiveUntil && oldLiveUntil - li.sequenceNumber ≤ threshold

/-- The types and the bounds an extension is asked with. -/
def checkExtension (key : K) (threshold extendTo : ℕ) : Except Error Unit := do
  checkSupportedLedgerKeyType key
  if extendTo < threshold then .error (.host .storage .invalidInput) else .ok ()

/-- `extend_ttl` -/
def extendTtl (li : LedgerInfo) (key : K) (threshold extendTo : ℕ) : StorageM K E Unit := do
  attempt (checkExtension key threshold extendTo)
  let pair ← getWithLiveUntilLedger key
  let oldLiveUntil ← attempt (checkLive li pair.2)
  let liveUntil ← attempt (newLiveUntil li key extendTo)
  if renews li oldLiveUntil liveUntil threshold then insert key (some (pair.1, some liveUntil))
  else pure ()

/-- `put_contract_data_into_ledger` and `store_contract_instance`
    (`host/data_helper.rs`): an entry that is there is changed and keeps its life, a new
    one gets the minimal life of its durability.  `change` makes the entry stored of the
    one that is there. -/
def store [LedgerEntry K E] (li : LedgerInfo) (key : K) (durability : ContractDataDurability)
    (change : Option E → Except Error E) : StorageM K E Unit := do
  if ← has key then
    let current ← getWithLiveUntilLedger key
    let entry ← attempt (change (some current.1))
    put key entry current.2
  else
    let entry ← attempt (change none)
    let liveUntilLedger ← attempt (li.minLiveUntilLedger durability)
    put key entry (some liveUntilLedger)

end Storage

end

end HostStorage

end TogetherFi
