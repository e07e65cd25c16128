/-
  What an invocation asks of the storage and the events of the host, as programs
  of calls in nested frames (`soroban-env-host-patch/src/host/frame.rs`,
  `src/host.rs`, `src/events/internal.rs`).

  `Op` lists the calls, `hostHandler` runs them on a host: a frame that fails
  puts the storage map back and marks the events since as those of a failed
  call, while the footprint stays.  `Plain` says the same of a bare ledger and a
  policy that allows or denies every access: what an invocation does, with
  neither a map nor a footprint to look things up in.
-/
import TogetherFi.HostStorage.Storage

namespace TogetherFi

open Function Session

namespace HostStorage

/-! ## Calls -/

/-- What a contract, or the host for it, asks; `X` are the events it emits. -/
inductive Op (K E X : Type) where
  | has (key : K)
  | get (key : K)
  | put (key : K) (val : E) (liveUntilLedger : Option ℕ)
  | store (key : K) (durability : ContractDataDurability) (change : Option E → Except Error E)
  | del (key : K)
  | extendTtl (key : K) (threshold extendTo : ℕ)
  | contractEvent (event : X)

/-- What a call answers. -/
inductive Reply (E : Type) where
  | unit
  | present (b : Bool)
  | entry (e : Option E)
  deriving DecidableEq, Repr

/-- An invocation: it ends with a value of `V` or an error. -/
abbrev Invocation (K E X V : Type) := Program (Op K E X) (Reply E) Error V

/-! ## Contract calls -/

/-- The error a contract is shown: its callee's own, or one for all errors of the host. -/
def Error.shown : Error → Error
  | .contract code => .contract code
  | .host _ _ => .host .context .invalidAction

section

variable {K E X V : Type}

/-- `call`: the caller fails with its callee. -/
def call (body : Invocation K E X V) (k : V → Invocation K E X V) : Invocation K E X V :=
  .frame body fun r => match r with
    | .ok v => k v
    | .error e => .done (.error e)

/-- `try_call`: the caller goes on with the errors that can be recovered from. -/
def tryCall (body : Invocation K E X V) (k : Except Error V → Invocation K E X V) : Invocation K E X V :=
  .frame body fun r => match r with
    | .ok v => k (.ok v)
    | .error e => if e.isRecoverable then k (.error e.shown) else .done (.error e)

end

/-! ## Events -/

/-- Whether the call that emitted an event, or one around it, has failed. -/
inductive EventError where
  | fromFailedCall
  | fromSuccessfulCall
  deriving DecidableEq, Repr

/-- `InternalEventsBuffer` -/
abbrev Events (X : Type) := List (X × EventError)

namespace Events

variable {X : Type}

/-- `rollback`: the events from a position on are those of a failed call. -/
def rollback (events : Events X) (n : ℕ) : Events X :=
  events.take n ++ (events.drop n).map fun e => (e.1, .fromFailedCall)

/-- `encode_contract_events`: those of failed calls are left out. -/
def published (events : Events X) : List X :=
  (events.filter fun e => e.2 = .fromSuccessfulCall).map Prod.fst

end Events

/-! ## On the host -/

/-- `DEFAULT_HOST_DEPTH_LIMIT` -/
def hostDepthLimit : ℕ := 100

section

variable {K E X : Type} [LedgerKey K] [LedgerEntry K E]

/-- The storage and the events of a host. -/
abbrev HostState (K E X : Type) [LedgerKey K] := Storage K E × Events X

/-- A call on the storage. -/
def Op.onStorage (li : LedgerInfo) : Op K E X → StorageM K E (Reply E)
  | .has key => do return .present (← Storage.has key)
  | .get key => do return .entry (← Storage.tryGet key)
  | .put key val live => do
    Storage.put key val live
    return .unit
  | .store key durability change => do
    Storage.store li key durability change
    return .unit
  | .del key => do
    Storage.del key
    return .unit
  | .extendTtl key threshold extendTo => do
    Storage.extendTtl li key threshold extendTo
    return .unit
  | .contractEvent _ => return .unit

/-- The event a call emits. -/
def Op.emitted : Op K E X → Events X
  | .contractEvent event => [(event, .fromSuccessfulCall)]
  | _ => []

/-- A call on a part of the state, next to the events. -/
def withEvents {σ : Type} (x : EStateM Error σ (Reply E)) (emitted : Events X) :
    EStateM Error (σ × Events X) (Reply E) := fun s =>
  onFirst x (s.1, s.2 ++ emitted)

/-- `push_context` and `pop_context`: what is rolled back is the storage map and the events. -/
def hostHandler (li : LedgerInfo) : Handler (Op K E X) (Reply E) Error (HostState K E X) where
  exec o := withEvents (o.onStorage li) o.emitted
  rollback s s' := ({ s'.1 with map := s.1.map }, s'.2.rollback s.2.length)
  limit := hostDepthLimit
  tooDeep := .host .context .exceededLimit

/-! ## On a bare ledger -/

/-- Which accesses are allowed. -/
abbrev Policy (K : Type) := K → Option AccessType

/-- A function on a bare ledger. -/
abbrev LedgerM (K E : Type) (α : Type) := EStateM Error (Ledger K E) α

namespace Plain

variable (policy : Policy K) {key : K} {ty : AccessType}

/-- The access is allowed, or exceeds the limits. -/
def access (key : K) (ty : AccessType) : LedgerM K E Unit :=
  attempt (if (policy key).any (·.allows ty) then .ok () else .error (.host .storage .exceededLimit))

/-- The entry of a key. -/
def read (key : K) : LedgerM K E (Option (EntryWithLiveUntil E)) := fun l => .ok (l key) l

/-- Write or remove the entry of a key. -/
def write (key : K) (val : Option (EntryWithLiveUntil E)) : LedgerM K E Unit :=
  fun l => .ok () (update l key val)

/-- The entry under a key that may be read, with its life. -/
def tryGetFull (key : K) : LedgerM K E (Option (EntryWithLiveUntil E)) := do
  attempt (checkSupportedLedgerKeyType key)
  access policy key .readOnly
  read key

/-- The entry under a key that may be read. -/
def tryGet (key : K) : LedgerM K E (Option E) := do
  return (← tryGetFull policy key).map Prod.fst

/-- Whether there is an entry. -/
def has (key : K) : LedgerM K E Bool := do
  return (← tryGetFull policy key).isSome

/-- The entry under a key, which must be there. -/
def getWithLiveUntilLedger (key : K) : LedgerM K E (EntryWithLiveUntil E) := do
  let pair ← tryGetFull policy key
  attempt (pair.elim (.error (.host .storage .missingValue)) .ok)

/-- Write or remove the entry under a key that may be written. -/
def putOpt (key : K) (val : Option (EntryWithLiveUntil E)) : LedgerM K E Unit := do
  attempt (Storage.checkSupported key val)
  access policy key .readWrite
  write key val

/-- Extend the life of an entry. -/
def extendTtl (li : LedgerInfo) (key : K) (threshold extendTo : ℕ) : LedgerM K E Unit := do
  attempt (Storage.checkExtension key threshold extendTo)
  let pair ← getWithLiveUntilLedger policy key
  let oldLiveUntil ← attempt (Storage.checkLive li pair.2)
  let liveUntil ← attempt (Storage.newLiveUntil li key extendTo)
  if Storage.renews li oldLiveUntil liveUntil threshold then
    write key (some (pair.1, some liveUntil))
  else pure ()

/-- Store an entry, with the life of the one that is there or the minimal one. -/
def store (li : LedgerInfo) (key : K) (durability : ContractDataDurability)
    (change : Option E → Except Error E) : LedgerM K E Unit := do
  if ← has policy key then
    let current ← getWithLiveUntilLedger policy key
    let entry ← attempt (change (some current.1))
    putOpt policy key (some (entry, current.2))
  else
    let entry ← attempt (change none)
    let liveUntilLedger ← attempt (li.minLiveUntilLedger durability)
    putOpt policy key (some (entry, some liveUntilLedger))

omit [LedgerKey K] [LedgerEntry K E] in
theorem access_ok {policy : Policy K} {l : Ledger K E} (h : ∃ ty', policy key = some ty' ∧ ty'.allows ty) :
    access policy key ty l = .ok () l := by
  obtain ⟨ty', hk, ha⟩ := h
  unfold access
  rw [hk, Option.any_some, if_pos ha]
  rfl

omit [LedgerKey K] [LedgerEntry K E] in
theorem access_denied {policy : Policy K} {l : Ledger K E} (h : ∀ ty', policy key = some ty' → ty'.allows ty = false) :
    access policy key ty l = .error (.host .storage .exceededLimit) l := by
  have hn : ¬ (policy key).any (·.allows ty) := by
    rw [Option.any_eq_true]
    rintro ⟨ty', hk, ha⟩
    rw [h ty' hk] at ha
    cases ha
  unfold access
  rw [if_neg hn]
  rfl

omit [LedgerEntry K E] in
theorem tryGetFull_ok {policy : Policy K} (hs : checkSupportedLedgerKeyType key = .ok ())
    (hp : (policy key).isSome) (l : Ledger K E) : tryGetFull policy key l = .ok (l key) l := by
  obtain ⟨ty, hty⟩ := Option.isSome_iff_exists.1 hp
  have ha : access policy key .readOnly l = .ok () l := access_ok ⟨ty, hty, by cases ty <;> rfl⟩
  unfold tryGetFull
  rw [hs, attempt_ok_bind]
  exact bind_ok ha

/-- A call on a bare ledger. -/
def exec (li : LedgerInfo) : Op K E X → LedgerM K E (Reply E)
  | .has key => do return .present (← has policy key)
  | .get key => do return .entry (← tryGet policy key)
  | .put key val live => do
    putOpt policy key (some (val, live))
    return .unit
  | .store key durability change => do
    store policy li key durability change
    return .unit
  | .del key => do
    putOpt policy key none
    return .unit
  | .extendTtl key threshold extendTo => do
    extendTtl policy li key threshold extendTo
    return .unit
  | .contractEvent _ => return .unit

end Plain

/-- The calls on a bare ledger: a failing frame puts the ledger back. -/
def plainHandler (policy : Policy K) (li : LedgerInfo) :
    Handler (Op K E X) (Reply E) Error (Ledger K E × Events X) where
  exec o := withEvents (Plain.exec policy li o) o.emitted
  rollback s s' := (s.1, s'.2.rollback s.2.length)
  limit := hostDepthLimit
  tooDeep := .host .context .exceededLimit

/-- An invocation on a bare ledger. -/
def plainFunction {V : Type} (policy : Policy K) (li : LedgerInfo) (p : Invocation K E X V) :
    EStateM Error (Ledger K E × Events X) V :=
  (Program.frame p .done).run (plainHandler policy li) 0

end

end HostStorage

end TogetherFi
