/-
  Transactions on a ledger, one after another.

  An invocation whose storage was built answers what the bare ledger does under
  its footprint, and its changes are those of the footprint's keys in their order
  (`invokeHostFunction_eq_ok`).  With the changes applied, a transaction stays within
  its footprint (`Transaction.apply_isolated`) and does not tell ledgers apart that
  are alike there (`Transaction.apply_near`), and so the order of transactions that
  do not conflict does not matter (`transactions_any_order`).
-/
import TogetherFi.Lib.Serial
import TogetherFi.HostStorage.Isolation
import TogetherFi.HostStorage.Preflight

namespace TogetherFi

open Function Session

namespace HostStorage

variable {K E X V : Type} [LedgerKey K] [LedgerEntry K E] {key : K} {li : LedgerInfo}
  {footprint : Footprint K} {ledger ledger' l l' m m' : Ledger K E} {map : StorageMap K E}
  {listed : LedgerFootprint K} {p : Invocation K E X V} {v w v' w' : Option (EntryWithLiveUntil E)}

/-! ## What an invocation returns -/

/-- The changes of the footprint's keys and the events of a run on a bare ledger. -/
def finishPlain (footprint : Footprint K) (init : Ledger K E) :
    EStateM.Result Error (Ledger K E × Events X) V → Except Error (InvokeHostFunctionResult K E X V)
  | .ok v (l, events) => do
    let ledgerChanges ← footprint.keys.mapM fun key => entryChange footprint init key (l key)
    return ⟨.ok v, ledgerChanges, events.published⟩
  | .error e _ => .ok ⟨.error e, [], []⟩

theorem finishPlain_ok {events : Events X} {v : V} {res : InvokeHostFunctionResult K E X V} :
    finishPlain footprint ledger (.ok v (l, events)) = .ok res ↔
      ∃ changes, footprint.keys.mapM (fun key => entryChange footprint ledger key (l key)) = .ok changes ∧
        res = ⟨.ok v, changes, events.published⟩ := by
  rw [finishPlain, Outcome.bind_eq_ok]
  simp only [Outcome.pure_eq, Except.ok.injEq, eq_comm]

omit [LedgerEntry K E] in
/-- An enforced storage lists what the ledger holds of the footprint's keys. -/
theorem Enforcing.map_eq {s : Storage K E} (h : Enforcing footprint s l) :
    s.map.map = footprint.keys.map fun key => (key, l key) := by
  have hs : Increasing (footprint.keys.map fun key => (key, l key)) :=
    List.pairwise_map.2 (List.pairwise_map.2 footprint.sorted)
  refine s.map.sorted.ext hs fun key => ?_
  have he : s.map.map.lookup key = footprint.restrict l key := congrFun h.entry_eq key
  ext v
  rw [he, Footprint.restrict, hs.lookup_eq_some]
  simp only [List.mem_map, Prod.mk.injEq, MeteredOrdMap.mem_keys]
  constructor
  · intro hv
    split at hv
    · next hk => exact ⟨key, hk, rfl, Option.some.inj hv⟩
    · cases hv
  · rintro ⟨k, hk, rfl, rfl⟩
    rw [if_pos hk]

/-- **An invocation on a storage that was built returns what the bare ledger does.** -/
theorem finish_invokeFunction (hmap : map.entry = footprint.restrict ledger) (p : Invocation K E X V) :
    finish (snapshotOf map) (invokeFunction li p (Storage.withEnforcingFootprintAndMap footprint map, [])) =
      finishPlain footprint ledger (plainFunction footprint.entry li p (ledger, [])) := by
  have hagree := invokeFunction_agrees li hmap p
  generalize invokeFunction li p (Storage.withEnforcingFootprintAndMap footprint map, []) = x at hagree
  generalize plainFunction footprint.entry li p (ledger, []) = y at hagree
  cases hagree with
  | error e h => rfl
  | @ok a s t h =>
    rcases s with ⟨s, events⟩
    rcases t with ⟨l, events'⟩
    obtain ⟨he, rfl⟩ := h
    have hchanges : getLedgerChanges s (snapshotOf map) =
        footprint.keys.mapM fun key => entryChange footprint ledger key (l key) := by
      rw [getLedgerChanges, Enforcing.map_eq he, List.mapM_map]
      refine mapM_congr fun k hk => ?_
      rw [MeteredOrdMap.mem_keys] at hk
      rw [he.footprint_eq]
      exact entryChange_congr (snapshotOf_restrict hmap hk) _
    rw [finish, hchanges]
    rfl

/-- An invocation returns what the bare ledger of what it was given does. -/
theorem invokeHostFunction_eq_ok {entries : List E} {ttls : List (Option ℕ)}
    {res : InvokeHostFunctionResult K E X V} (h : invokeHostFunction li listed entries ttls p = .ok res) :
    ∃ (footprint : Footprint K) (map : StorageMap K E), footprint.entry = listed.policy ∧
      buildStorageMap footprint entries ttls li.sequenceNumber = .ok map ∧
      finishPlain footprint (snapshotOf map) (plainFunction listed.policy li p (snapshotOf map, [])) =
        .ok res := by
  obtain ⟨footprint, hfp, h⟩ := Outcome.bind_eq_ok.1 h
  obtain ⟨map, hm, h⟩ := Outcome.bind_eq_ok.1 h
  have he := buildStorageFootprint_eq_ok hfp
  refine ⟨footprint, map, he, hm, ?_⟩
  rw [← he, ← finish_invokeFunction (buildStorageMap_eq_ok hm)]
  exact h

/-! ## Changes -/

section

variable {c : LedgerEntryChange K E} {ty : AccessType} {life : Option LedgerEntryLiveUntilChange}

theorem entryChange_eq_ok : entryChange footprint ledger key v = .ok c ↔
    ∃ life ty, lifeChange key (ledger key) v = .ok life ∧ footprint.entry key = some ty ∧ c = {
      readOnly := ty = .readOnly
      key
      oldEntrySizeBytes := ((ledger key).map fun e => LedgerEntry.size K e.1).getD 0
      newValue := if ty = .readWrite then v.map Prod.fst else none
      ttlChange := life } := by
  unfold entryChange
  rw [Outcome.bind_eq_ok, MeteredOrdMap.get_eq]
  simp only [Outcome.ok_bind]
  cases footprint.entry key with
  | none => simp
  | some ty => simp [eq_comm]

omit [LedgerEntry K E] in
/-- A life is never reduced but by a removal. -/
theorem lifeChange_le (h : lifeChange key v w = .ok life) (hw : v.isSome → w.isSome) :
    ∀ t ∈ life, t.oldLiveUntilLedger ≤ t.newLiveUntilLedger := by
  unfold lifeChange at h
  split at h
  · cases h
    simp
  · obtain ⟨a, ha, h⟩ := Outcome.bind_eq_ok.1 h
    obtain ⟨b, hb, h⟩ := Outcome.bind_eq_ok.1 h
    cases h
    rintro t ⟨⟩
    cases v with
    | none =>
      cases ha
      exact Nat.zero_le _
    | some e =>
      rw [if_pos (hw rfl)]
      exact le_max_right ..

end

/-- **The changes an invocation returns** are one for every key of its footprint, in the
    order of the keys, and none of a failed one.  Those of the keys it may only read have
    no value, and no life is reduced but by a removal. -/
theorem invokeHostFunction_changes {entries : List E} {ttls : List (Option ℕ)}
    {res : InvokeHostFunctionResult K E X V} (h : invokeHostFunction li listed entries ttls p = .ok res) :
    (∀ e, res.invokeResult = .error e → res.ledgerChanges = [] ∧ res.contractEvents = []) ∧
      ∀ v, res.invokeResult = .ok v →
        (res.ledgerChanges.map (·.key)).Pairwise (· < ·) ∧
        (∀ key, key ∈ res.ledgerChanges.map (·.key) ↔ key ∈ listed.readOnly ∨ key ∈ listed.readWrite) ∧
        ∀ c ∈ res.ledgerChanges, (c.readOnly = true ↔ c.key ∈ listed.readOnly) ∧
          (c.readOnly = true → c.newValue = none) ∧
          ∀ t ∈ c.ttlChange, c.readOnly = true ∨ c.newValue.isSome →
            t.oldLiveUntilLedger ≤ t.newLiveUntilLedger := by
  obtain ⟨footprint, map, he, -, h⟩ := invokeHostFunction_eq_ok h
  have hiso := plainFunction_isolated (X := X) listed.policy li p (snapshotOf map, [])
  generalize plainFunction listed.policy li p (snapshotOf map, []) = x at h hiso
  rcases x with ⟨v, l, events⟩ | ⟨e, l, events⟩
  · obtain ⟨cs, hcs, rfl⟩ := finishPlain_ok.1 h
    refine ⟨fun e herr => by simp at herr, fun v' _ => ?_⟩
    have hkeys : cs.map (·.key) = footprint.keys := by
      rw [map_mapM hcs (k := id) fun key c hc => entryChange_key hc, List.map_id]
    refine ⟨?_, fun key => ?_, fun c hc => ?_⟩
    · show (cs.map (·.key)).Pairwise (· < ·)
      rw [hkeys]
      exact List.pairwise_map.2 footprint.sorted
    · show key ∈ cs.map (·.key) ↔ _
      rw [hkeys, MeteredOrdMap.mem_keys, he, LedgerFootprint.isSome_policy]
    · obtain ⟨key, hk, hc⟩ := (mem_mapM hcs).1 hc
      obtain ⟨life, ty, hlife, hty, rfl⟩ := entryChange_eq_ok.1 hc
      rw [he] at hty
      have hro : ty = .readOnly ↔ key ∈ listed.readOnly := by
        unfold LedgerFootprint.policy at hty
        split at hty
        · next hmem =>
          cases hty
          simp [hmem]
        · next hmem =>
          split at hty
          · cases hty
            simp [hmem]
          · cases hty
      refine ⟨by simpa using hro, fun hr => ?_, fun t ht hor => ?_⟩
      · simp only [decide_eq_true_eq] at hr
        rw [hr]
        rfl
      · refine lifeChange_le hlife (fun hold => ?_) t ht
        cases ty with
        | readOnly =>
          have hfst : (snapshotOf map key).map Prod.fst = (l key).map Prod.fst :=
            (hiso.read key hty).alike.fst_eq
          rw [← Option.isSome_map (f := Prod.fst), ← hfst, Option.isSome_map]
          exact hold
        | readWrite =>
          rcases hor with hr | hn
          · cases hr
          · simpa using hn
  · cases h
    exact ⟨fun _ _ => ⟨rfl, rfl⟩, fun v hv => by simp at hv⟩

theorem invokeHostFunction_changes_sample :
    let res : InvokeHostFunctionResult DataKey DataEntry ℕ ℕ :=
      ⟨.ok 5, [⟨false, ⟨0⟩, 0, some ⟨⟨0⟩, 8⟩, some ⟨.persistent, 0, 109⟩⟩,
        ⟨false, ⟨3⟩, 0, none, some ⟨.temporary, 0, 0⟩⟩,
        ⟨true, ⟨4⟩, 40, none, some ⟨.persistent, 50, 110⟩⟩], [1]⟩
    (∀ e, res.invokeResult = .error e → res.ledgerChanges = [] ∧ res.contractEvents = []) ∧
      ∀ v, res.invokeResult = .ok v →
        (res.ledgerChanges.map (·.key)).Pairwise (· < ·) ∧
        (∀ key, key ∈ res.ledgerChanges.map (·.key) ↔
          key ∈ Sample.recorded.footprint.readOnly ∨ key ∈ Sample.recorded.footprint.readWrite) ∧
        ∀ c ∈ res.ledgerChanges, (c.readOnly = true ↔ c.key ∈ Sample.recorded.footprint.readOnly) ∧
          (c.readOnly = true → c.newValue = none) ∧
          ∀ t ∈ c.ttlChange, c.readOnly = true ∨ c.newValue.isSome →
            t.oldLiveUntilLedger ≤ t.newLiveUntilLedger := by
  intro res
  have h : invokeHostFunction Sample.info Sample.recorded.footprint [⟨⟨4⟩, 40⟩] [some 50] Sample.program =
      .ok res := rfl
  exact invokeHostFunction_changes h

/-! ## Applying them -/

/-- What is left of an entry after its change. -/
def LedgerEntryChange.result (c : LedgerEntryChange K E) (old : Option (EntryWithLiveUntil E)) :
    Option (EntryWithLiveUntil E) :=
  if c.readOnly then old.map fun e => (e.1, (c.ttlChange.map (·.newLiveUntilLedger)).or e.2)
  else c.newValue.map fun e => (e, c.ttlChange.map (·.newLiveUntilLedger))

/-- The ledger after the changes of a transaction. -/
def Ledger.applyChanges (ledger : Ledger K E) (changes : List (LedgerEntryChange K E)) : Ledger K E :=
  changes.foldl (fun l c => update l c.key (c.result (l c.key))) ledger

/-- A footprint and what is to be invoked under it. -/
structure Transaction (K E X V : Type) where
  footprint : LedgerFootprint K
  hostFunction : Invocation K E X V

/-- The keys of a transaction's footprint. -/
def Transaction.keys (t : Transaction K E X V) : List K := t.footprint.readWrite ++ t.footprint.readOnly

/-- The footprint of a transaction lists a key. -/
def Transaction.Lists (t : Transaction K E X V) (key : K) : Prop := (t.footprint.policy key).isSome

/-- A transaction may write a key. -/
def Transaction.Writes (t : Transaction K E X V) (key : K) : Prop := t.footprint.policy key = some .readWrite

omit [LedgerEntry K E] in
theorem Transaction.mem_keys {t : Transaction K E X V} : key ∈ t.keys ↔ t.Lists key := by
  rw [Transaction.Lists, LedgerFootprint.isSome_policy, Transaction.keys, List.mem_append, or_comm]

/-- A transaction on a ledger: it is given the entries of its footprint, and its changes
    are applied. -/
def Transaction.apply (li : LedgerInfo) (t : Transaction K E X V) (ledger : Ledger K E) :
    Except Error (InvokeHostFunctionResult K E X V × Ledger K E) := do
  let entries := entriesAt ledger t.keys
  let res ← invokeHostFunction li t.footprint (entries.map Prod.fst) (entries.map Prod.snd) t.hostFunction
  return (res, ledger.applyChanges res.ledgerChanges)

omit [LedgerEntry K E] in
theorem applyChanges_of_notMem {changes : List (LedgerEntryChange K E)}
    (h : key ∉ changes.map (·.key)) : ledger.applyChanges changes key = ledger key := by
  induction changes generalizing ledger with
  | nil => rfl
  | cons c changes ih =>
    rw [List.map_cons, List.mem_cons, not_or] at h
    exact (ih h.2).trans (update_of_ne h.1 ..)

omit [LedgerEntry K E] in
theorem applyChanges_of_mem (ledger : Ledger K E) {changes : List (LedgerEntryChange K E)}
    {c : LedgerEntryChange K E} (hn : (changes.map (·.key)).Nodup) (hc : c ∈ changes) :
    ledger.applyChanges changes c.key = c.result (ledger c.key) := by
  induction changes generalizing ledger with
  | nil => cases hc
  | cons d changes ih =>
    rw [List.map_cons, List.nodup_cons] at hn
    rcases List.mem_cons.1 hc with rfl | hc
    · exact (applyChanges_of_notMem hn.1).trans (update_self ..)
    · have hne : c.key ≠ d.key := by
        intro heq
        exact hn.1 (heq ▸ List.mem_map_of_mem hc)
      exact (ih _ hn.2 hc).trans (congrArg c.result (update_of_ne hne ..))

section

variable {t : Transaction K E X V} {res : InvokeHostFunctionResult K E X V}

theorem Transaction.apply_eq_ok (hk : ∀ key ∈ t.keys, ledger.KeyedAt key) :
    t.apply li ledger = .ok (res, l) ↔ ∃ footprint, buildStorageFootprint t.footprint = .ok footprint ∧
      (∀ key ∈ t.keys, ∀ e live, ledger key = some (e, live) →
        Admissible footprint li.sequenceNumber key live) ∧
      finishPlain footprint ledger (plainFunction t.footprint.policy li t.hostFunction (ledger, [])) =
        .ok res ∧ l = ledger.applyChanges res.ledgerChanges := by
  have hkeys {footprint : Footprint K} (he : footprint.entry = t.footprint.policy) (key : K) :
      key ∈ t.keys ↔ (footprint.entry key).isSome := by
    rw [he]
    exact Transaction.mem_keys
  have hfin {footprint : Footprint K} (hfp : buildStorageFootprint t.footprint = .ok footprint)
      (hadm : ∀ key ∈ t.keys, ∀ e live, ledger key = some (e, live) →
        Admissible footprint li.sequenceNumber key live) :
      invokeHostFunction li t.footprint ((entriesAt ledger t.keys).map Prod.fst)
          ((entriesAt ledger t.keys).map Prod.snd) t.hostFunction =
        finishPlain footprint ledger (plainFunction t.footprint.policy li t.hostFunction (ledger, [])) := by
    have he := buildStorageFootprint_eq_ok hfp
    obtain ⟨map, hm, hmap⟩ := buildStorageMap_ok hk (hkeys he) hadm
    unfold invokeHostFunction
    rw [hfp, Outcome.ok_bind, hm, Outcome.ok_bind, ← he]
    exact finish_invokeFunction hmap t.hostFunction
  constructor
  · intro h
    obtain ⟨res', hres, h⟩ := Outcome.bind_eq_ok.1 h
    cases h
    obtain ⟨footprint, hfp, hbuild⟩ := Outcome.bind_eq_ok.1 hres
    obtain ⟨map, hm, -⟩ := Outcome.bind_eq_ok.1 hbuild
    have hadm := buildStorageMap_admissible hk hm
    exact ⟨footprint, hfp, hadm, (hfin hfp hadm).symm.trans hres, rfl⟩
  · rintro ⟨footprint, hfp, hadm, hres, rfl⟩
    refine Outcome.bind_eq_ok.2 ⟨res, ?_, rfl⟩
    rw [hfin hfp hadm]
    exact hres

/-- What a run that ends leaves of the ledger: the changes of the footprint's keys. -/
theorem applyChanges_finishPlain {v : V} {events : Events X}
    (h : finishPlain footprint ledger (.ok v (l', events)) = .ok res) (key : K) :
    (footprint.entry key = none → ledger.applyChanges res.ledgerChanges key = ledger key) ∧
      ((footprint.entry key).isSome → ∃ c, entryChange footprint ledger key (l' key) = .ok c ∧
        ledger.applyChanges res.ledgerChanges key = c.result (ledger key)) := by
  obtain ⟨cs, hcs, rfl⟩ := finishPlain_ok.1 h
  have hkeys : cs.map (·.key) = footprint.keys := by
    rw [map_mapM hcs (k := id) fun key c hc => entryChange_key hc, List.map_id]
  constructor
  · intro hnone
    refine applyChanges_of_notMem ?_
    show key ∉ cs.map (·.key)
    rw [hkeys, MeteredOrdMap.mem_keys, hnone]
    exact Bool.false_ne_true
  · intro hsome
    obtain ⟨c, hmem, hc⟩ := mapM_ok_mem hcs (MeteredOrdMap.mem_keys.2 hsome)
    refine ⟨c, hc, ?_⟩
    have hn : (cs.map (·.key)).Nodup := by
      rw [hkeys]
      exact footprint.sorted.nodup
    have ha := applyChanges_of_mem ledger hn hmem
    rwa [entryChange_key hc] at ha

omit [LedgerEntry K E] in
theorem result_prolongs {c : LedgerEntryChange K E} (hr : c.readOnly = true)
    (hlife : lifeChange key v w = .ok c.ttlChange) (h : Prolongs li v w) :
    Prolongs li v (c.result v) := by
  rw [LedgerEntryChange.result, if_pos hr]
  unfold lifeChange at hlife
  split at hlife
  · rw [← Except.ok.inj hlife]
    refine Or.inl ?_
    cases v with
    | none => rfl
    | some e => rfl
  · obtain ⟨a, ha, hlife⟩ := Outcome.bind_eq_ok.1 hlife
    obtain ⟨b, hb, hlife⟩ := Outcome.bind_eq_ok.1 hlife
    rw [← Except.ok.inj hlife]
    rcases h with heq | ⟨e, a', b', rfl, rfl, hseq, hle⟩
    · rw [heq, ha] at hb
      cases hb
      rcases v with _ | ⟨e, _ | live⟩
      · exact Or.inl rfl
      · cases ha
      · cases ha
        exact Or.inl (by simp [heq])
    · cases ha
      cases hb
      exact Or.inr ⟨e, a, b, rfl, by simp [hle], hseq, hle⟩

omit [LedgerEntry K E] in
theorem Alike.symm (h : Alike li v w) : Alike li w v := by
  rcases h with h | ⟨e, a, b, hv, hw, ha, hb⟩
  · exact Or.inl h.symm
  · exact Or.inr ⟨e, b, a, hw, hv, hb, ha⟩

theorem entryChange_alike (h : Alike li (ledger key) (ledger' key)) (h' : Alike li v w)
    {c : LedgerEntryChange K E} (hc : entryChange footprint ledger key v = .ok c) :
    ∃ c', entryChange footprint ledger' key w = .ok c' := by
  have hlife {v w : Option (EntryWithLiveUntil E)} (h : Alike li v w) {n : ℕ} (hn : lifeOf v = .ok n) :
      ∃ n', lifeOf w = .ok n' := by
    rcases h with rfl | ⟨e, a, b, rfl, rfl, -, -⟩
    · exact ⟨n, hn⟩
    · exact ⟨b, rfl⟩
  obtain ⟨life, ty, hl, hty, -⟩ := entryChange_eq_ok.1 hc
  have hl' : ∃ life', lifeChange key (ledger' key) w = .ok life' := by
    unfold lifeChange at hl ⊢
    split at hl
    · exact ⟨none, rfl⟩
    · obtain ⟨a, ha, hl⟩ := Outcome.bind_eq_ok.1 hl
      obtain ⟨b, hb, -⟩ := Outcome.bind_eq_ok.1 hl
      obtain ⟨a', ha'⟩ := hlife h ha
      obtain ⟨b', hb'⟩ := hlife h' hb
      rw [ha', hb']
      exact ⟨_, rfl⟩
  obtain ⟨life', hl'⟩ := hl'
  exact ⟨_, entryChange_eq_ok.2 ⟨life', ty, hl', hty, rfl⟩⟩

/-- **What a transaction may change.** -/
theorem Transaction.apply_isolated (hk : ∀ key ∈ t.keys, ledger.KeyedAt key)
    (h : t.apply li ledger = .ok (res, l)) : Isolated li t.footprint.policy ledger l := by
  obtain ⟨footprint, hfp, -, hfin, rfl⟩ := (Transaction.apply_eq_ok hk).1 h
  have he := buildStorageFootprint_eq_ok hfp
  have hiso := plainFunction_isolated (X := X) t.footprint.policy li t.hostFunction (ledger, [])
  generalize plainFunction t.footprint.policy li t.hostFunction (ledger, []) = x at hfin hiso
  rcases x with ⟨v, l', events⟩ | ⟨e, l', events⟩
  · have happ := applyChanges_finishPlain hfin
    refine ⟨fun key hkey => (happ key).1 (by rw [he, hkey]), fun key hkey => ?_⟩
    rw [← he] at hkey
    obtain ⟨c, hc, hres⟩ := (happ key).2 (by rw [hkey]; rfl)
    rw [hres]
    obtain ⟨life, ty, hlife, hty, rfl⟩ := entryChange_eq_ok.1 hc
    rw [hkey] at hty
    cases hty
    exact result_prolongs rfl hlife (hiso.read key (he ▸ hkey))
  · cases hfin
    exact Isolated.refl ..

omit [LedgerEntry K E] in
/-- What is given of ledgers that are alike is given of both, or of neither. -/
theorem Near.admissible (hnear : Near li t.footprint.policy ledger ledger')
    (hadm : ∀ key ∈ t.keys, ∀ e live, ledger key = some (e, live) →
      Admissible footprint li.sequenceNumber key live) :
    ∀ key ∈ t.keys, ∀ e live, ledger' key = some (e, live) →
      Admissible footprint li.sequenceNumber key live := by
  intro key hmem e live he
  obtain ⟨ty, hty⟩ := Option.isSome_iff_exists.1 (Transaction.mem_keys.1 hmem)
  rcases hnear.read key ty hty with heq | ⟨e', a, b, hl, hl', -, hb⟩
  · exact hadm key hmem e live (heq.trans he)
  · have ha := hadm key hmem e' (some a) hl
    rw [he] at hl'
    cases hl'
    refine ⟨ha.supported, ?_, ha.listed⟩
    rw [checkTtl, if_neg (not_lt.2 hb)]

/-- **What a transaction answers and does depends on what it lists.** -/
theorem Transaction.apply_near (hk : ∀ key ∈ t.keys, ledger.KeyedAt key)
    (hk' : ∀ key ∈ t.keys, ledger'.KeyedAt key) (hnear : Near li t.footprint.policy ledger ledger')
    (h : t.apply li ledger = .ok (res, l)) :
    ∃ res' l', t.apply li ledger' = .ok (res', l') ∧ res'.invokeResult = res.invokeResult ∧
      res'.contractEvents = res.contractEvents ∧
      ∀ key, t.footprint.policy key = some .readWrite → l' key = l key := by
  obtain ⟨footprint, hfp, hadm, hfin, rfl⟩ := (Transaction.apply_eq_ok hk).1 h
  have he := buildStorageFootprint_eq_ok hfp
  have hadm' := hnear.admissible hadm
  have hagree := (plainFunction_near t.footprint.policy li t.hostFunction).agrees
    (show ((near li t.footprint.policy).beside (Events X)).rel (ledger, []) (ledger', []) from ⟨hnear, rfl⟩)
    trivial
  have happly {res' : InvokeHostFunctionResult K E X V} (hfin' : finishPlain footprint ledger'
      (plainFunction t.footprint.policy li t.hostFunction (ledger', [])) = .ok res') :
      t.apply li ledger' = .ok (res', ledger'.applyChanges res'.ledgerChanges) :=
    (Transaction.apply_eq_ok hk').2 ⟨footprint, hfp, hadm', hfin', rfl⟩
  generalize plainFunction t.footprint.policy li t.hostFunction (ledger, []) = x at hfin hagree
  generalize plainFunction t.footprint.policy li t.hostFunction (ledger', []) = y at happly hagree
  cases hagree with
  | error e hrel =>
    cases hfin
    exact ⟨_, _, happly rfl, rfl, rfl, fun key hkey => (hnear.write key hkey).symm⟩
  | @ok v s s' hrel =>
    rcases s with ⟨l₁, events⟩
    rcases s' with ⟨l₂, events'⟩
    obtain ⟨hl, rfl⟩ := hrel
    have hl : Near li t.footprint.policy l₁ l₂ := hl
    have hchange : ∀ key ∈ footprint.keys, ∃ c, entryChange footprint ledger' key (l₂ key) = .ok c := by
      intro key hkey
      rw [MeteredOrdMap.mem_keys] at hkey
      obtain ⟨c, hc, -⟩ := (applyChanges_finishPlain hfin key).2 hkey
      obtain ⟨ty, hty⟩ := Option.isSome_iff_exists.1 hkey
      rw [he] at hty
      exact entryChange_alike (hnear.read key ty hty) (hl.read key ty hty) hc
    obtain ⟨cs', hcs'⟩ := exists_mapM hchange
    have hfin' : finishPlain footprint ledger' (.ok v (l₂, events)) =
        .ok ⟨.ok v, cs', events.published⟩ := finishPlain_ok.2 ⟨cs', hcs', rfl⟩
    obtain ⟨cs, hcs, rfl⟩ := finishPlain_ok.1 hfin
    refine ⟨_, _, happly hfin', rfl, rfl, fun key hkey => ?_⟩
    have hsome : (footprint.entry key).isSome := by
      rw [he, hkey]
      rfl
    obtain ⟨c, hc, hres⟩ := (applyChanges_finishPlain hfin key).2 hsome
    obtain ⟨c', hc', hres'⟩ := (applyChanges_finishPlain hfin' key).2 hsome
    have hsame : entryChange footprint ledger' key (l₂ key) = entryChange footprint ledger key (l₁ key) := by
      rw [hl.write key hkey]
      exact entryChange_congr (hnear.write key hkey).symm _
    rw [hsame, hc] at hc'
    cases hc'
    rw [hres, hres', hnear.write key hkey]

end

/-! ## Their order -/

omit [LedgerKey K] [LedgerEntry K E] in
theorem Alike.trans (h : Alike li v w) (h' : Alike li w v') : Alike li v v' := by
  rcases h with rfl | ⟨e, a, b, rfl, rfl, ha, hb⟩
  · exact h'
  · rcases h' with rfl | ⟨e', b', c, h₁, rfl, hb', hc⟩
    · exact Or.inr ⟨e, a, b, rfl, rfl, ha, hb⟩
    · cases h₁
      exact Or.inr ⟨e, a, c, rfl, rfl, ha, hc⟩

namespace Transaction

/-- Neither of two transactions may write what the other lists. -/
abbrev Compatible : Transaction K E X V → Transaction K E X V → Prop :=
  Serial.Compatible Lists Writes

/-- What a transaction answers, its result and its events, and the ledger after it. -/
def answer (li : LedgerInfo) (t : Transaction K E X V) (ledger : Ledger K E) :
    Except Error ((Except Error V × List X) × Ledger K E) := do
  let q ← t.apply li ledger
  return ((q.1.invokeResult, q.1.contractEvents), q.2)

/-- Transactions one after another, in one ledger. -/
abbrev applyAll (li : LedgerInfo) : List (Transaction K E X V) → Ledger K E →
    Except Error (List (Except Error V × List X) × Ledger K E) :=
  Serial.applyAll (answer li)

theorem answer_eq_ok {t : Transaction K E X V} {r : Except Error V × List X} :
    t.answer li ledger = .ok (r, l) ↔
      ∃ res, t.apply li ledger = .ok (res, l) ∧ r = (res.invokeResult, res.contractEvents) := by
  rw [answer, Outcome.bind_eq_ok]
  constructor
  · rintro ⟨⟨res, l'⟩, h, ⟨⟩⟩
    exact ⟨res, h, rfl⟩
  · rintro ⟨res, h, rfl⟩
    exact ⟨(res, l), h, rfl⟩

theorem keyed_congr {t : Transaction K E X V} (hk : ∀ key ∈ t.keys, ledger.KeyedAt key)
    (hl : ∀ key, t.Lists key → Alike li (ledger key) (ledger' key)) :
    ∀ key ∈ t.keys, ledger'.KeyedAt key := by
  intro key hmem e live he
  rcases hl key (mem_keys.1 hmem) with heq | ⟨e', a, b, hs, hu, -, -⟩
  · exact hk key hmem e live (heq.trans he)
  · rw [he] at hu
    cases hu
    exact hk key hmem e (some a) hs

/-- Transactions stay within their footprints. -/
theorem footed (li : LedgerInfo) :
    Serial.Footed (answer li)
      (fun (t : Transaction K E X V) (ledger : Ledger K E) => ∀ key ∈ t.keys, ledger.KeyedAt key)
      Lists Writes (Alike li) where
  equiv := ⟨fun _ => Or.inl rfl, Alike.symm, Alike.trans⟩
  fit_congr := keyed_congr
  frame := by
    intro t s r s' k hk h hl
    obtain ⟨res, h, -⟩ := answer_eq_ok.1 h
    exact (apply_isolated hk h).other k (Option.not_isSome_iff_eq_none.1 hl)
  keep := by
    intro t s r s' k hk h hw
    obtain ⟨res, h, -⟩ := answer_eq_ok.1 h
    have hiso := apply_isolated hk h
    cases hp : t.footprint.policy k with
    | none => exact Or.inl (hiso.other k hp).symm
    | some ty =>
      cases ty with
      | readOnly => exact (hiso.read k hp).alike
      | readWrite => exact absurd hp hw
  congr := by
    intro t s r s' u hk h hl hw
    obtain ⟨res, ha, rfl⟩ := answer_eq_ok.1 h
    have hnear : Near li t.footprint.policy s u :=
      ⟨fun key ty hty => hl key (by rw [Lists, hty]; rfl), fun key hkey => (hw key hkey).symm⟩
    obtain ⟨res', l', h', hres, hev, hsame⟩ := apply_near hk (keyed_congr hk hl) hnear ha
    exact ⟨l', answer_eq_ok.2 ⟨res', h', by rw [hres, hev]⟩, hsame⟩

end Transaction

/-- **Transactions that do not conflict may be run in any order.**  Each answers what it
    does alone, and the ledgers they end in agree, up to how long the entries live that
    several of them only read. -/
theorem transactions_any_order {ts ts' : List (Transaction K E X V)}
    {rs : List (Except Error V × List X)} (hkeyed : ledger.Keyed) (hperm : ts.Perm ts')
    (hcompat : ts.Pairwise Transaction.Compatible) (h : Transaction.applyAll li ts ledger = .ok (rs, l)) :
    List.Forall₂ (fun t r => ∃ l, t.answer li ledger = .ok (r, l)) ts rs ∧
      ∃ rs' l', Transaction.applyAll li ts' ledger = .ok (rs', l') ∧ (ts.zip rs).Perm (ts'.zip rs') ∧
        (∀ key, Alike li (l key) (l' key)) ∧
        ∀ key, ((∃ t ∈ ts, t.Writes key) ∨ ∀ t ∈ ts, ¬ t.Lists key) → l' key = l key := by
  have hfit : ∀ t ∈ ts, ∀ key ∈ t.keys, ledger.KeyedAt key := fun _ _ key _ => hkeyed key
  have hfooted := Transaction.footed (E := E) (X := X) (V := V) (K := K) li
  exact ⟨(Serial.applyAll_alone hfooted hcompat hfit h).1,
    Serial.applyAll_perm hfooted hperm hcompat hfit h⟩

namespace Sample

/-- Two transactions that read one entry, and extend its life to different ledgers. -/
def transactions : List (Transaction DataKey DataEntry ℕ ℕ) :=
  [⟨recorded.footprint, program⟩,
    ⟨⟨[⟨4⟩], [⟨2⟩]⟩, .call (.store ⟨2⟩ .persistent fun _ => .ok ⟨⟨2⟩, 8⟩) fun _ =>
      .call (.extendTtl ⟨4⟩ 60 60) fun r => .done (r.map fun _ => 6)⟩]

theorem transactions_compatible : transactions.Pairwise Transaction.Compatible := by
  refine List.pairwise_pair.2 fun key => ?_
  simp only [Transaction.Writes, Transaction.Lists, LedgerFootprint.policy, recorded]
  rcases eq_or_ne key ⟨4⟩ with rfl | h4
  · simp
  · rcases eq_or_ne key ⟨2⟩ with rfl | h2
    · simp
    · simp [h4, h2]

theorem transactions_answer : (Transaction.applyAll info transactions (Sample.ledger true)).map Prod.fst =
    .ok [(.ok 5, [1]), (.ok 6, [])] := by decide +kernel

end Sample

theorem transactions_any_order_sample : ∃ l, Transaction.applyAll Sample.info Sample.transactions
    (Sample.ledger true) = .ok ([(.ok 5, [1]), (.ok 6, [])], l) ∧
      List.Forall₂ (fun t r => ∃ l, t.answer Sample.info (Sample.ledger true) = .ok (r, l))
        Sample.transactions [(.ok 5, [1]), (.ok 6, [])] ∧
      ∃ rs' l', Transaction.applyAll Sample.info Sample.transactions.reverse (Sample.ledger true) =
          .ok (rs', l') ∧
        (Sample.transactions.zip [(.ok 5, [1]), (.ok 6, [])]).Perm (Sample.transactions.reverse.zip rs') ∧
        (∀ key, Alike Sample.info (l key) (l' key)) ∧
        ∀ key, ((∃ t ∈ Sample.transactions, t.Writes key) ∨ ∀ t ∈ Sample.transactions, ¬ t.Lists key) →
          l' key = l key := by
  have ha := Sample.transactions_answer
  cases h : Transaction.applyAll Sample.info Sample.transactions (Sample.ledger true) with
  | error e =>
    rw [h] at ha
    cases ha
  | ok q =>
    rcases q with ⟨rs, l⟩
    rw [h] at ha
    cases ha
    exact ⟨l, rfl, transactions_any_order (Sample.ledger_keyed true) (List.reverse_perm _).symm
      Sample.transactions_compatible h⟩

end HostStorage

end TogetherFi
