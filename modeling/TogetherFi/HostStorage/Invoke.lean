/-
  Whole invocations (`soroban-env-host-patch/src/e2e_invoke.rs`): a footprint
  and ledger entries come in, the changes of the ledger go out; in recording
  mode only the ledger comes in, and the footprint goes out too.

  What is encoded in the source is kept decoded here: keys and entries stand for
  their encodings, and a size is the length of one.  The hash of a key, the
  instructions and the authorization are left out.
-/
import TogetherFi.HostStorage.Calls

namespace TogetherFi

open Function Session

namespace HostStorage

variable {K E X V : Type} [LedgerKey K] [LedgerEntry K E]

/-! ## Footprints -/

/-- `LedgerFootprint` -/
structure LedgerFootprint (K : Type) where
  readOnly : List K
  readWrite : List K
  deriving DecidableEq, Repr

/-- One key of a ledger footprint. -/
def addKey (ty : AccessType) (footprint : Footprint K) (key : K) : Except Error (Footprint K) := do
  checkSupportedLedgerKeyType key
  footprint.insert key ty

/-- `build_storage_footprint_from_xdr` -/
def buildStorageFootprint (footprint : LedgerFootprint K) : Except Error (Footprint K) := do
  let footprintMap ← footprint.readWrite.foldlM (addKey .readWrite) MeteredOrdMap.new
  footprint.readOnly.foldlM (addKey .readOnly) footprintMap

/-! ## Ledger entries -/

/-- `ledger_entry_to_ledger_key` -/
def ledgerEntryToLedgerKey (le : E) : Except Error K := do
  checkSupportedLedgerEntryType (K := K) le
  return LedgerEntry.key le

/-- A life is given for every kind of entry that has one, and is not over. -/
def checkTtl (ledgerNum : ℕ) (key : K) : Option ℕ → Except Error Unit
  | some liveUntilLedger => if liveUntilLedger < ledgerNum then .error .internal else .ok ()
  | none => if (getKeyDurability key).isSome then .error .internal else .ok ()

/-- One entry given with the footprint. -/
def addEntry (footprint : Footprint K) (ledgerNum : ℕ) (map : StorageMap K E) (le : EntryWithLiveUntil E) :
    Except Error (StorageMap K E) := do
  let key ← ledgerEntryToLedgerKey le.1
  checkTtl ledgerNum key le.2
  if footprint.containsKey key then map.insert key (some le) else .error .internal

/-- A key of the footprint without an entry. -/
def addMissing (map : StorageMap K E) (key : K) : Except Error (StorageMap K E) :=
  if map.containsKey key then .ok map else map.insert key none

/-- `build_storage_map_from_xdr_ledger_entries` -/
def buildStorageMap (footprint : Footprint K) (entries : List E) (ttls : List (Option ℕ))
    (ledgerNum : ℕ) : Except Error (StorageMap K E) := do
  if entries.length = ttls.length then
    let map ← (entries.zip ttls).foldlM (addEntry footprint ledgerNum) MeteredOrdMap.new
    footprint.keys.foldlM addMissing map
  else .error .internal

/-! ## Ledger changes -/

/-- `LedgerEntryLiveUntilChange` -/
structure LedgerEntryLiveUntilChange where
  durability : ContractDataDurability
  oldLiveUntilLedger : ℕ
  newLiveUntilLedger : ℕ
  deriving DecidableEq, Repr

/-- `LedgerEntryChange` -/
structure LedgerEntryChange (K E : Type) where
  readOnly : Bool
  key : K
  oldEntrySizeBytes : ℕ
  newValue : Option E
  ttlChange : Option LedgerEntryLiveUntilChange
  deriving DecidableEq, Repr

/-- The life of an entry of a kind that has one; 0 where there is no entry. -/
def lifeOf : Option (EntryWithLiveUntil E) → Except Error ℕ
  | none => .ok 0
  | some (_, some liveUntilLedger) => .ok liveUntilLedger
  | some (_, none) => .error .internal

/-- The change of the life of an entry, which is never reduced. -/
def lifeChange (key : K) (old new : Option (EntryWithLiveUntil E)) :
    Except Error (Option LedgerEntryLiveUntilChange) :=
  match getKeyDurability key with
  | none => .ok none
  | some durability => do
    let oldLiveUntilLedger ← lifeOf old
    let newLiveUntilLedger ← lifeOf new
    return some {
      durability
      oldLiveUntilLedger
      newLiveUntilLedger := if new.isSome then max newLiveUntilLedger oldLiveUntilLedger else 0 }

/-- The change of one entry of the storage map. -/
def entryChange (footprint : Footprint K) (init : Ledger K E) (key : K)
    (new : Option (EntryWithLiveUntil E)) : Except Error (LedgerEntryChange K E) := do
  let ttlChange ← lifeChange key (init key) new
  let ty ← footprint.get key
  match ty with
  | none => .error .internal
  | some ty => .ok {
      readOnly := ty = .readOnly
      key
      oldEntrySizeBytes := ((init key).map fun e => LedgerEntry.size K e.1).getD 0
      newValue := if ty = .readWrite then new.map Prod.fst else none
      ttlChange }

/-- `get_ledger_changes`: one change for every key of the storage map. -/
def getLedgerChanges (storage : Storage K E) (init : Ledger K E) :
    Except Error (List (LedgerEntryChange K E)) :=
  storage.map.map.mapM fun e => entryChange storage.footprint init e.1 e.2

/-! ## Invocations -/

/-- `InvokeHostFunctionResult` -/
structure InvokeHostFunctionResult (K E X V : Type) where
  invokeResult : Except Error V
  ledgerChanges : List (LedgerEntryChange K E)
  contractEvents : List X

/-- `StorageMapSnapshotSource` -/
def snapshotOf (map : StorageMap K E) : Ledger K E := fun key => (map.entry key).join

/-- `Host::invoke_function`: the bottom frame, and what it leaves behind. -/
def invokeFunction (li : LedgerInfo) (hostFunction : Invocation K E X V) :
    EStateM Error (HostState K E X) V :=
  (Program.frame hostFunction .done).run (hostHandler li) 0

/-- The changes and events of an invocation; none of one that failed. -/
def finish (init : Ledger K E) :
    EStateM.Result Error (HostState K E X) V → Except Error (InvokeHostFunctionResult K E X V)
  | .ok v (storage, events) => do
    let ledgerChanges ← getLedgerChanges storage init
    return ⟨.ok v, ledgerChanges, events.published⟩
  | .error e _ => .ok ⟨.error e, [], []⟩

/-- `invoke_host_function`: on the entries given for a footprint. -/
def invokeHostFunction (li : LedgerInfo) (footprint : LedgerFootprint K) (entries : List E)
    (ttls : List (Option ℕ)) (hostFunction : Invocation K E X V) :
    Except Error (InvokeHostFunctionResult K E X V) := do
  let footprint ← buildStorageFootprint footprint
  let map ← buildStorageMap footprint entries ttls li.sequenceNumber
  let storage := Storage.withEnforcingFootprintAndMap footprint map
  finish (snapshotOf map) (invokeFunction li hostFunction (storage, []))

/-- The entries of some keys, as they are given with a footprint. -/
def entriesAt (ledger : Ledger K E) (keys : List K) : List (EntryWithLiveUntil E) :=
  keys.filterMap ledger

/-- `InvokeHostFunctionRecordingModeResult` -/
structure RecordingModeResult (K E X V : Type) extends InvokeHostFunctionResult K E X V where
  footprint : LedgerFootprint K
  readBytes : ℕ
  writeBytes : ℕ

end HostStorage

end TogetherFi
