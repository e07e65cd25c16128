/-
  The storage of the host does to its ledger what the calls say.

  A coupling that `Implements` a policy relates storages to bare ledgers so that
  an access succeeds where the policy allows it and a key accessed is read and
  written as on the ledger.  From these three every call follows its plain form
  (`Implements.onStorage`), and so does a whole invocation, whose failing frames
  are rolled back (`Implements.run`).
-/
import TogetherFi.HostStorage.Calls

namespace TogetherFi

open Function Session

namespace HostStorage

/-! ## What a policy covers -/

section

variable {K : Type} {policy policy' : Policy K} {key : K}

/-- Everything the second policy allows, the first one does. -/
def Policy.Covers (policy policy' : Policy K) : Prop :=
  ∀ key ty, policy' key = some ty → ∃ ty', policy key = some ty' ∧ ty'.allows ty

theorem AccessType.allows_self (ty : AccessType) : ty.allows ty := by
  cases ty <;> rfl

theorem AccessType.allows_trans {ty ty' ty'' : AccessType} (h : ty.allows ty') (h' : ty'.allows ty'') :
    ty.allows ty'' := by
  cases ty <;> cases ty' <;> cases ty'' <;> simp_all [AccessType.allows]

namespace Policy.Covers

theorem refl (policy : Policy K) : policy.Covers policy :=
  fun _ ty h => ⟨ty, h, ty.allows_self⟩

theorem trans {policy'' : Policy K} (h : policy.Covers policy') (h' : policy'.Covers policy'') :
    policy.Covers policy'' := by
  intro key ty hty
  obtain ⟨ty', hty', ha'⟩ := h' key ty hty
  obtain ⟨ty'', hty'', ha''⟩ := h key ty' hty'
  exact ⟨ty'', hty'', AccessType.allows_trans ha'' ha'⟩

theorem isSome (h : policy.Covers policy') (hk : (policy' key).isSome) : (policy key).isSome := by
  obtain ⟨ty, hty⟩ := Option.isSome_iff_exists.1 hk
  obtain ⟨ty', hty', -⟩ := h key ty hty
  rw [hty']
  rfl

end Policy.Covers

end

/-! ## Calls from accesses -/

section

variable {K E X : Type} [LedgerKey K] {policy : Policy K}

/-- The states are related, and the key has been accessed. -/
def Held (C : Coupling (Storage K E) (Ledger K E)) (held : K → Storage K E → Prop) (key : K)
    (s : Storage K E) (l : Ledger K E) : Prop := C.rel s l ∧ held key s

/-- The accesses of a storage are those of the ledger, where `policy` allows them, and
    putting the map back puts the ledger back. -/
structure Implements (C : Coupling (Storage K E) (Ledger K E)) (policy : Policy K)
    (held : K → Storage K E → Prop) : Prop where
  access : ∀ key ty, Triple C C.rel (Storage.access key ty) (Plain.access policy key ty)
    fun _ => Held C held key
  read : ∀ key, Triple C (Held C held key) (do Storage.load key; Storage.lookup key)
    (Plain.read key) fun _ => Held C held key
  write : ∀ key val, Triple C (Held C held key) (Storage.insert key val) (Plain.write key val)
    fun _ => C.rel
  rollback_grows : ∀ {s s'}, C.grows s s' → C.grows s' { s' with map := s.map }
  rollback_rel : ∀ {s s' l l'}, C.grows s s' → C.good s' → C.rel s l → C.rel s' l' →
    C.rel { s' with map := s.map } l

namespace Implements

variable {C : Coupling (Storage K E) (Ledger K E)} {held : K → Storage K E → Prop}

theorem tryGetFull (h : Implements C policy held) (key : K) :
    Triple C C.rel (Storage.tryGetFull key) (Plain.tryGetFull policy key)
      fun _ => Held C held key := by
  unfold Storage.tryGetFull Storage.prepareReadOnlyAccess Plain.tryGetFull
  refine Triple.bind (Triple.attempt _ id id) fun _ => ?_
  rw [bind_assoc]
  exact Triple.bind (h.access key .readOnly) fun _ => h.read key

theorem tryGet (h : Implements C policy held) (key : K) :
    Follows C (Storage.tryGet key) (Plain.tryGet policy key) :=
  Triple.bind (h.tryGetFull key) fun _ => Triple.pure _ And.left

theorem has (h : Implements C policy held) (key : K) :
    Follows C (Storage.has key) (Plain.has policy key) := by
  have he : Storage.has (E := E) key = do return (← Storage.tryGetFull key).isSome := by
    unfold Storage.has Storage.tryGetFull
    simp only [bind_assoc]
  rw [he]
  exact Triple.bind (h.tryGetFull key) fun _ => Triple.pure _ And.left

theorem getWithLiveUntilLedger (h : Implements C policy held) (key : K) :
    Triple C C.rel (Storage.getWithLiveUntilLedger key) (Plain.getWithLiveUntilLedger policy key)
      fun _ => Held C held key :=
  Triple.bind (h.tryGetFull key) fun _ => Triple.attempt _ And.left id

variable [LedgerEntry K E]

theorem putOpt (h : Implements C policy held) (key : K) (val : Option (EntryWithLiveUntil E)) :
    Follows C (Storage.putOpt key val) (Plain.putOpt policy key val) := by
  refine Triple.bind (Triple.attempt _ id id) fun _ => ?_
  exact Triple.bind (h.access key .readWrite) fun _ => h.write key val

omit [LedgerEntry K E] in
theorem extendTtl (h : Implements C policy held) (li : LedgerInfo) (key : K)
    (threshold extendTo : ℕ) :
    Follows C (Storage.extendTtl li key threshold extendTo)
      (Plain.extendTtl policy li key threshold extendTo) := by
  refine Triple.bind (Triple.attempt _ id id) fun _ => ?_
  refine Triple.bind (h.getWithLiveUntilLedger key) fun pair => ?_
  refine Triple.bind (Triple.attempt _ And.left id) fun oldLiveUntil => ?_
  refine Triple.bind (Triple.attempt _ And.left id) fun liveUntil => ?_
  exact Triple.ite (h.write key _) (Triple.pure _ And.left)

theorem store (h : Implements C policy held) (li : LedgerInfo) (key : K)
    (durability : ContractDataDurability) (change : Option E → Except Error E) :
    Follows C (Storage.store li key durability change)
      (Plain.store policy li key durability change) := by
  refine Triple.bind (h.has key) fun _ => Triple.ite ?_ ?_
  · refine Triple.bind (h.getWithLiveUntilLedger key) fun current => ?_
    exact Triple.bind (Triple.attempt _ And.left And.left) fun entry => h.putOpt key _
  · refine Triple.bind (Triple.attempt _ id id) fun entry => ?_
    exact Triple.bind (Triple.attempt _ id id) fun liveUntilLedger => h.putOpt key _

/-- **Every call follows its plain form.** -/
theorem onStorage (h : Implements C policy held) (li : LedgerInfo) (o : Op K E X) :
    Follows C (o.onStorage li) (Plain.exec policy li o) := by
  cases o with
  | has key => exact Triple.bind (h.has key) fun _ => Triple.pure _ id
  | get key => exact Triple.bind (h.tryGet key) fun _ => Triple.pure _ id
  | put key val live => exact Triple.bind (h.putOpt key _) fun _ => Triple.pure _ id
  | store key durability change =>
    exact Triple.bind (h.store li key durability change) fun _ => Triple.pure _ id
  | del key => exact Triple.bind (h.putOpt key _) fun _ => Triple.pure _ id
  | extendTtl key threshold extendTo =>
    exact Triple.bind (h.extendTtl li key threshold extendTo) fun _ => Triple.pure _ id
  | contractEvent event => exact Triple.pure _ id

/-- **Every invocation does on the storage what it does on the ledger.** -/
theorem run {V : Type} (h : Implements C policy held) (li : LedgerInfo) (p : Invocation K E X V)
    (depth : ℕ) :
    Follows (C.beside (Events X)) (p.run (hostHandler li) depth) (p.run (plainHandler policy li) depth) := by
  have hlimit : (hostHandler li : Handler (Op K E X) (Reply E) Error (HostState K E X)).limit =
      (plainHandler policy li : Handler (Op K E X) (Reply E) Error (Ledger K E × Events X)).limit := rfl
  refine Program.run_follows (fun o => ?_) hlimit rfl ?_ ?_ p depth
  · have ho := (h.onStorage li o).onFirst (Events X)
    refine ⟨fun s => ho.grows (s.1, s.2 ++ o.emitted), fun {s t} hst hgood => ?_⟩
    exact ho.agrees (s := (s.1, s.2 ++ o.emitted)) ⟨hst.1, by rw [hst.2]⟩ hgood
  · intro s s' hg
    exact h.rollback_grows hg
  · intro s s' t t' hg hgood hst hst'
    refine ⟨h.rollback_rel hg hgood hst.1 hst'.1, ?_⟩
    show s'.2.rollback s.2.length = t'.2.rollback t.2.length
    rw [hst.2, hst'.2]

end Implements

end

end HostStorage

end TogetherFi
