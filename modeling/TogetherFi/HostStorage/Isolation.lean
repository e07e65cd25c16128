/-
  What an invocation can see and change of a ledger, by the accesses it is
  allowed.

  On a bare ledger every call reads and writes at one key (`Plain.putOpt_cases`,
  `Plain.extendTtl_cases`, `Plain.store_cases`).  A key that may only be read
  keeps its entry, and lives no shorter (`exec_isolated`); what a call answers
  and does depends on the keys it is allowed alone, and of those it only reads,
  not on how long they live (`exec_near`).  Both carry over to whole invocations.
-/
import TogetherFi.HostStorage.Refinement

namespace TogetherFi

open Function Session

namespace HostStorage

variable {K E X V : Type} [LedgerKey K] {policy : Policy K} {li : LedgerInfo} {key : K}
  {l l' m m' : Ledger K E} {v v' w w' : Option (EntryWithLiveUntil E)}

/-! ## One call, one key -/

namespace Plain

theorem tryGetFull_cases (policy : Policy K) (key : K) :
    (∃ e, ∀ l : Ledger K E, tryGetFull policy key l = .error e l) ∨
      ∃ ty, policy key = some ty ∧ ∀ l : Ledger K E, tryGetFull policy key l = .ok (l key) l := by
  cases hc : checkSupportedLedgerKeyType key with
  | error e =>
    unfold tryGetFull
    rw [hc]
    exact Or.inl ⟨e, fun _ => rfl⟩
  | ok u =>
    cases hp : policy key with
    | none =>
      have hd (l : Ledger K E) : access policy key .readOnly l = .error (.host .storage .exceededLimit) l :=
        access_denied fun ty h => by rw [hp] at h; cases h
      unfold tryGetFull
      rw [hc, attempt_ok_bind]
      exact Or.inl ⟨_, fun l => bind_error (hd l)⟩
    | some ty => exact Or.inr ⟨ty, rfl, tryGetFull_ok hc (by rw [hp]; rfl)⟩

theorem getWithLiveUntilLedger_bind {α : Type} (h : ∀ l : Ledger K E, tryGetFull policy key l = .ok (l key) l)
    (f : EntryWithLiveUntil E → LedgerM K E α) (l : Ledger K E) :
    (getWithLiveUntilLedger policy key >>= f) l =
      (attempt ((l key).elim (.error (.host .storage .missingValue)) .ok) >>= f) l := by
  rw [getWithLiveUntilLedger, bind_assoc]
  exact bind_ok (h l)

/-- What an extension makes of an entry. -/
def extension (li : LedgerInfo) (key : K) (threshold extendTo : ℕ)
    (v : Option (EntryWithLiveUntil E)) : Except Error (Option (EntryWithLiveUntil E)) := do
  let pair ← v.elim (.error (.host .storage .missingValue)) .ok
  let oldLiveUntil ← Storage.checkLive li pair.2
  let liveUntil ← Storage.newLiveUntil li key extendTo
  return some (pair.1, if Storage.renews li oldLiveUntil liveUntil threshold then some liveUntil
    else pair.2)

theorem extendTtl_cases (policy : Policy K) (li : LedgerInfo) (key : K) (threshold extendTo : ℕ) :
    (∃ e, ∀ l : Ledger K E, extendTtl policy li key threshold extendTo l = .error e l) ∨
      ∃ ty, policy key = some ty ∧ ∀ l : Ledger K E, extendTtl policy li key threshold extendTo l =
        (attempt (extension li key threshold extendTo (l key)) >>= write key) l := by
  unfold extendTtl
  cases hc : Storage.checkExtension key threshold extendTo with
  | error e => exact Or.inl ⟨e, fun _ => rfl⟩
  | ok u =>
    rw [attempt_ok_bind]
    rcases tryGetFull_cases (E := E) policy key with ⟨e, he⟩ | ⟨ty, hty, hget⟩
    · exact Or.inl ⟨e, fun l => bind_error (bind_error (he l))⟩
    · refine Or.inr ⟨ty, hty, fun l => ?_⟩
      rw [getWithLiveUntilLedger_bind hget]
      unfold extension
      cases hl : l key with
      | none => rfl
      | some pair =>
        rw [Option.elim_some, attempt_ok_bind, Outcome.ok_bind]
        cases Storage.checkLive li pair.2 with
        | error e => rfl
        | ok oldLiveUntil =>
          rw [attempt_ok_bind, Outcome.ok_bind]
          cases Storage.newLiveUntil li key extendTo with
          | error e => rfl
          | ok liveUntil =>
            rw [attempt_ok_bind, Outcome.ok_bind, Outcome.pure_eq, attempt_ok_bind]
            split
            · rfl
            · -- an entry that is not renewed is written back as it is
              rw [Prod.mk.eta, ← hl]
              exact congrArg (EStateM.Result.ok ()) (update_eq_self key l).symm

variable [LedgerEntry K E]

/-- A write is denied, whatever the life of what is written, or done on every ledger. -/
theorem putOpt_cases (policy : Policy K) (key : K) (e : Option E) :
    (∃ err, ∀ v, v.map Prod.fst = e → ∀ l : Ledger K E, putOpt policy key v l = .error err l) ∨
      policy key = some .readWrite ∧
        ∀ v, v.map Prod.fst = e → ∀ l : Ledger K E, putOpt policy key v l = .ok () (update l key v) := by
  have hcheck (v : Option (EntryWithLiveUntil E)) (hv : v.map Prod.fst = e) :
      Storage.checkSupported key v = Storage.checkSupported key (e.map fun e => (e, none)) := by
    rw [← hv]
    cases v <;> rfl
  unfold putOpt
  cases hc : Storage.checkSupported key (e.map fun e => (e, none)) with
  | error err =>
    refine Or.inl ⟨err, fun v hv l => ?_⟩
    rw [hcheck v hv, hc]
    rfl
  | ok u =>
    by_cases hp : policy key = some .readWrite
    · refine Or.inr ⟨hp, fun v hv l => ?_⟩
      have ha : access policy key .readWrite l = .ok () l := access_ok ⟨_, hp, rfl⟩
      rw [hcheck v hv, hc, attempt_ok_bind]
      exact bind_ok ha
    · refine Or.inl ⟨.host .storage .exceededLimit, fun v hv l => ?_⟩
      have hd : access policy key .readWrite l = .error (.host .storage .exceededLimit) l := by
        refine access_denied fun ty hty => ?_
        cases ty with
        | readOnly => rfl
        | readWrite => exact absurd hty hp
      rw [hcheck v hv, hc, attempt_ok_bind]
      exact bind_error hd

/-- What is stored over an entry, and where there is none. -/
def storeOver (policy : Policy K) (li : LedgerInfo) (key : K) (durability : ContractDataDurability)
    (change : Option E → Except Error E) : Option (EntryWithLiveUntil E) → LedgerM K E Unit
  | some (e, live) => do
    let entry ← attempt (change (some e))
    putOpt policy key (some (entry, live))
  | none => do
    let entry ← attempt (change none)
    let live ← attempt (li.minLiveUntilLedger durability)
    putOpt policy key (some (entry, some live))

theorem storeOver_cases (policy : Policy K) (li : LedgerInfo) (key : K)
    (durability : ContractDataDurability) (change : Option E → Except Error E) (e : Option E) :
    (∃ err, ∀ v, v.map Prod.fst = e → ∀ l : Ledger K E,
        storeOver policy li key durability change v l = .error err l) ∨
      policy key = some .readWrite ∧ ∀ v, v.map Prod.fst = e → ∃ v', ∀ l : Ledger K E,
        storeOver policy li key durability change v l = .ok () (update l key v') := by
  cases e with
  | none =>
    cases hc : change none with
    | error err =>
      refine Or.inl ⟨err, fun v hv l => ?_⟩
      rw [Option.map_eq_none_iff.1 hv, storeOver, hc]
      rfl
    | ok entry =>
      cases hm : li.minLiveUntilLedger durability with
      | error err =>
        refine Or.inl ⟨err, fun v hv l => ?_⟩
        rw [Option.map_eq_none_iff.1 hv, storeOver, hc, hm]
        rfl
      | ok live =>
        have hs : storeOver policy li key durability change none =
            putOpt policy key (some (entry, some live)) := by
          rw [storeOver, hc, hm]
          rfl
        rcases putOpt_cases policy key (some entry) with ⟨err, he⟩ | ⟨hp, hput⟩
        · refine Or.inl ⟨err, fun v hv l => ?_⟩
          rw [Option.map_eq_none_iff.1 hv, hs]
          exact he _ rfl l
        · refine Or.inr ⟨hp, fun v hv => ⟨some (entry, some live), fun l => ?_⟩⟩
          rw [Option.map_eq_none_iff.1 hv, hs]
          exact hput _ rfl l
  | some e =>
    cases hc : change (some e) with
    | error err =>
      refine Or.inl ⟨err, fun v hv l => ?_⟩
      obtain ⟨⟨_, live⟩, rfl, rfl⟩ := Option.map_eq_some_iff.1 hv
      rw [storeOver, hc]
      rfl
    | ok entry =>
      have hs (live : Option ℕ) : storeOver policy li key durability change (some (e, live)) =
          putOpt policy key (some (entry, live)) := by
        rw [storeOver, hc]
        rfl
      rcases putOpt_cases policy key (some entry) with ⟨err, he⟩ | ⟨hp, hput⟩
      · refine Or.inl ⟨err, fun v hv l => ?_⟩
        obtain ⟨⟨_, live⟩, rfl, rfl⟩ := Option.map_eq_some_iff.1 hv
        rw [hs]
        exact he _ rfl l
      · refine Or.inr ⟨hp, fun v hv => ?_⟩
        obtain ⟨⟨_, live⟩, rfl, rfl⟩ := Option.map_eq_some_iff.1 hv
        refine ⟨some (entry, live), fun l => ?_⟩
        rw [hs]
        exact hput _ rfl l

theorem store_eq {policy : Policy K} (hget : ∀ l : Ledger K E, tryGetFull policy key l = .ok (l key) l)
    (li : LedgerInfo) (durability : ContractDataDurability) (change : Option E → Except Error E)
    (l : Ledger K E) :
    store policy li key durability change l = storeOver policy li key durability change (l key) l := by
  have hhas : has policy key l = .ok (l key).isSome l := (bind_ok (hget l)).trans rfl
  refine (bind_ok hhas).trans ?_
  cases hl : l key with
  | none => rfl
  | some pair =>
    rw [Option.isSome_some, if_pos rfl, getWithLiveUntilLedger_bind hget, hl]
    rfl

theorem store_cases (policy : Policy K) (li : LedgerInfo) (key : K)
    (durability : ContractDataDurability) (change : Option E → Except Error E) :
    (∃ e, ∀ l : Ledger K E, store policy li key durability change l = .error e l) ∨
      ∃ ty, policy key = some ty ∧ ∀ l : Ledger K E, store policy li key durability change l =
        storeOver policy li key durability change (l key) l := by
  rcases tryGetFull_cases (E := E) policy key with ⟨e, he⟩ | ⟨ty, hty, hget⟩
  · exact Or.inl ⟨e, fun l => bind_error (bind_error (he l))⟩
  · exact Or.inr ⟨ty, hty, store_eq hget li durability change⟩

end Plain

/-! ## Isolation -/

/-- The same entry, alive no shorter. -/
def Prolongs (li : LedgerInfo) (v v' : Option (EntryWithLiveUntil E)) : Prop :=
  v' = v ∨ ∃ e a b, v = some (e, some a) ∧ v' = some (e, some b) ∧ li.sequenceNumber ≤ a ∧ a ≤ b

/-- The same entry, alive in both, or in neither. -/
def Alike (li : LedgerInfo) (v w : Option (EntryWithLiveUntil E)) : Prop :=
  v = w ∨ ∃ e a b, v = some (e, some a) ∧ w = some (e, some b) ∧ li.sequenceNumber ≤ a ∧
    li.sequenceNumber ≤ b

theorem Prolongs.trans (h : Prolongs li v v') (h' : Prolongs li v' w) : Prolongs li v w := by
  rcases h with rfl | ⟨e, a, b, rfl, rfl, ha, hab⟩
  · exact h'
  · rcases h' with rfl | ⟨e', a', b', h₁, rfl, ha', hab'⟩
    · exact Or.inr ⟨e, a, b, rfl, rfl, ha, hab⟩
    · cases h₁
      exact Or.inr ⟨e, a, b', rfl, rfl, ha, hab.trans hab'⟩

theorem Prolongs.alike (h : Prolongs li v v') : Alike li v v' := by
  rcases h with rfl | ⟨e, a, b, rfl, rfl, ha, hab⟩
  · exact Or.inl rfl
  · exact Or.inr ⟨e, a, b, rfl, rfl, ha, ha.trans hab⟩

theorem Alike.fst_eq (h : Alike li v w) : v.map Prod.fst = w.map Prod.fst := by
  rcases h with rfl | ⟨e, a, b, rfl, rfl, -, -⟩ <;> rfl

/-- What an invocation under a policy may make of a ledger. -/
structure Isolated (li : LedgerInfo) (policy : Policy K) (l l' : Ledger K E) : Prop where
  other : ∀ key, policy key = none → l' key = l key
  read : ∀ key, policy key = some .readOnly → Prolongs li (l key) (l' key)

omit [LedgerKey K] in
theorem Isolated.refl (li : LedgerInfo) (policy : Policy K) (l : Ledger K E) : Isolated li policy l l where
  other _ _ := rfl
  read _ _ := Or.inl rfl

omit [LedgerKey K] in
theorem Isolated.trans {l'' : Ledger K E} (h : Isolated li policy l l') (h' : Isolated li policy l' l'') :
    Isolated li policy l l'' where
  other key hk := (h'.other key hk).trans (h.other key hk)
  read key hk := (h.read key hk).trans (h'.read key hk)

theorem Isolated.write (hnone : policy key ≠ none)
    (hread : policy key = some .readOnly → Prolongs li (l key) v) :
    Isolated li policy l (update l key v) where
  other k hk := by
    have hne : k ≠ key := by
      rintro rfl
      exact hnone hk
    rw [update_of_ne hne]
  read k hk := by
    rcases eq_or_ne k key with rfl | hne
    · rw [update_self]
      exact hread hk
    · rw [update_of_ne hne]
      exact Or.inl rfl

/-- Two ledgers an invocation under a policy does not tell apart. -/
structure Near (li : LedgerInfo) (policy : Policy K) (l m : Ledger K E) : Prop where
  read : ∀ key ty, policy key = some ty → Alike li (l key) (m key)
  write : ∀ key, policy key = some .readWrite → l key = m key

theorem Near.update (h : Near li policy l m) (hv : Alike li v w)
    (hw : policy key = some .readWrite → v = w) :
    Near li policy (update l key v) (update m key w) where
  read k ty hk := by
    rcases eq_or_ne k key with rfl | hne
    · rw [update_self, update_self]
      exact hv
    · rw [update_of_ne hne, update_of_ne hne]
      exact h.read k ty hk
  write k hk := by
    rcases eq_or_ne k key with rfl | hne
    · rw [update_self, update_self]
      exact hw hk
    · rw [update_of_ne hne, update_of_ne hne]
      exact h.write k hk

/-! ### Extensions -/

theorem checkLive_eq_ok {live : Option ℕ} {a : ℕ} :
    Storage.checkLive li live = .ok a ↔ live = some a ∧ li.sequenceNumber ≤ a := by
  cases live with
  | none => simp [Storage.checkLive]
  | some b =>
    rw [Storage.checkLive]
    split
    · next hlt =>
      simp only [Option.some.injEq, reduceCtorEq, false_iff]
      rintro ⟨rfl, hle⟩
      exact absurd hlt (not_lt.2 hle)
    · next hge =>
      simp only [Option.some.injEq, Except.ok.injEq]
      exact ⟨fun h => ⟨h, h ▸ not_lt.1 hge⟩, And.left⟩

theorem extension_eq_ok {threshold extendTo : ℕ}
    (h : Plain.extension li key threshold extendTo v = .ok v') : Prolongs li v v' := by
  cases v with
  | none => cases h
  | some pair =>
    obtain ⟨p, hp, h⟩ := Outcome.bind_eq_ok.1 h
    cases hp
    obtain ⟨a, ha, h⟩ := Outcome.bind_eq_ok.1 h
    obtain ⟨b, hb, h⟩ := Outcome.bind_eq_ok.1 h
    obtain ⟨hlive, hseq⟩ := checkLive_eq_ok.1 ha
    cases h
    split
    · next hr =>
      have hab : a < b := by
        simp only [Storage.renews, Bool.and_eq_true, decide_eq_true_eq] at hr
        exact hr.1
      exact Or.inr ⟨pair.1, a, b, by rw [← hlive], rfl, hseq, hab.le⟩
    · exact Or.inl rfl

theorem extension_alike (h : Alike li v w) (key : K) (threshold extendTo : ℕ) :
    (∃ e, Plain.extension li key threshold extendTo v = .error e ∧
        Plain.extension li key threshold extendTo w = .error e) ∨
      ∃ v' w', Plain.extension li key threshold extendTo v = .ok v' ∧
        Plain.extension li key threshold extendTo w = .ok w' ∧ Alike li v' w' ∧ (v = w → v' = w') := by
  rcases h with rfl | ⟨e, a, b, rfl, rfl, ha, hb⟩
  · cases hv : Plain.extension li key threshold extendTo v with
    | error e => exact Or.inl ⟨e, rfl, rfl⟩
    | ok v' => exact Or.inr ⟨v', v', rfl, rfl, Or.inl rfl, fun _ => rfl⟩
  · have hext (c : ℕ) (hc : li.sequenceNumber ≤ c) : Plain.extension li key threshold extendTo (some (e, some c)) =
        (Storage.newLiveUntil li key extendTo).map fun n =>
          some (e, some (if Storage.renews li c n threshold then n else c)) := by
      have hlive : Storage.checkLive li (e, some c).2 = .ok c := checkLive_eq_ok.2 ⟨rfl, hc⟩
      unfold Plain.extension
      rw [Option.elim_some, Outcome.ok_bind, hlive, Outcome.ok_bind]
      cases Storage.newLiveUntil li key extendTo with
      | error err => rfl
      | ok n =>
        rw [Outcome.ok_bind, Outcome.pure_eq, Except.map]
        split <;> rfl
    rw [hext a ha, hext b hb]
    cases Storage.newLiveUntil li key extendTo with
    | error err => exact Or.inl ⟨err, rfl, rfl⟩
    | ok n =>
      refine Or.inr ⟨_, _, rfl, rfl, ?_, ?_⟩
      · refine Or.inr ⟨e, _, _, rfl, rfl, ?_, ?_⟩
        · split
          · next hr =>
            simp only [Storage.renews, Bool.and_eq_true, decide_eq_true_eq] at hr
            exact ha.trans hr.1.le
          · exact ha
        · split
          · next hr =>
            simp only [Storage.renews, Bool.and_eq_true, decide_eq_true_eq] at hr
            exact hb.trans hr.1.le
          · exact hb
      · intro heq
        cases heq
        rfl

/-! ### Calls -/

variable [LedgerEntry K E] {o : Op K E X}

theorem putOpt_isolated (policy : Policy K) (li : LedgerInfo) (key : K)
    (v : Option (EntryWithLiveUntil E)) (l : Ledger K E) :
    Isolated li policy l (state (Plain.putOpt policy key v l)) := by
  rcases Plain.putOpt_cases policy key (v.map Prod.fst) with ⟨err, he⟩ | ⟨hp, hput⟩
  · rw [he v rfl l]
    exact Isolated.refl ..
  · rw [hput v rfl l]
    exact Isolated.write (by simp [hp]) (by simp [hp])

theorem store_isolated (policy : Policy K) (li : LedgerInfo) (key : K)
    (durability : ContractDataDurability) (change : Option E → Except Error E) (l : Ledger K E) :
    Isolated li policy l (state (Plain.store policy li key durability change l)) := by
  rcases Plain.store_cases policy li key durability change with ⟨err, he⟩ | ⟨ty, -, hst⟩
  · rw [he l]
    exact Isolated.refl ..
  · rw [hst l]
    rcases Plain.storeOver_cases policy li key durability change ((l key).map Prod.fst)
      with ⟨err, he⟩ | ⟨hp, hput⟩
    · rw [he _ rfl l]
      exact Isolated.refl ..
    · obtain ⟨v', hv'⟩ := hput _ rfl
      rw [hv' l]
      exact Isolated.write (by simp [hp]) (by simp [hp])

omit [LedgerEntry K E] in
theorem extendTtl_isolated (policy : Policy K) (li : LedgerInfo) (key : K) (threshold extendTo : ℕ)
    (l : Ledger K E) : Isolated li policy l (state (Plain.extendTtl policy li key threshold extendTo l)) := by
  rcases Plain.extendTtl_cases (E := E) policy li key threshold extendTo with ⟨err, he⟩ | ⟨ty, hty, hext⟩
  · rw [he l]
    exact Isolated.refl ..
  · rw [hext l]
    cases hx : Plain.extension li key threshold extendTo (l key) with
    | error e => exact Isolated.refl ..
    | ok v' => exact Isolated.write (by simp [hty]) fun _ => extension_eq_ok hx

omit [LedgerEntry K E] in
theorem tryGetFull_state (policy : Policy K) (key : K) (l : Ledger K E) :
    state (Plain.tryGetFull policy key l) = l := by
  rcases Plain.tryGetFull_cases (E := E) policy key with ⟨e, he⟩ | ⟨ty, -, hget⟩
  · rw [he l]
    rfl
  · rw [hget l]
    rfl

/-- **What one call may change.** -/
theorem exec_isolated (policy : Policy K) (li : LedgerInfo) (o : Op K E X) (l : Ledger K E) :
    Isolated li policy l (state (Plain.exec policy li o l)) := by
  have hread (key : K) : Isolated li policy l (state (Plain.tryGetFull policy key l)) := by
    rw [tryGetFull_state]
    exact Isolated.refl ..
  cases o with
  | has key =>
    refine bind_state Isolated.trans (bind_state Isolated.trans (hread key) fun _ _ => ?_) fun _ _ => ?_
    · exact Isolated.refl ..
    · exact Isolated.refl ..
  | get key =>
    refine bind_state Isolated.trans (bind_state Isolated.trans (hread key) fun _ _ => ?_) fun _ _ => ?_
    · exact Isolated.refl ..
    · exact Isolated.refl ..
  | put key val live =>
    exact bind_state Isolated.trans (putOpt_isolated ..) fun _ _ => Isolated.refl ..
  | store key durability change =>
    exact bind_state Isolated.trans (store_isolated ..) fun _ _ => Isolated.refl ..
  | del key => exact bind_state Isolated.trans (putOpt_isolated ..) fun _ _ => Isolated.refl ..
  | extendTtl key threshold extendTo =>
    exact bind_state Isolated.trans (extendTtl_isolated ..) fun _ _ => Isolated.refl ..
  | contractEvent event => exact Isolated.refl ..

/-- Ledgers an invocation under a policy does not tell apart. -/
def near (li : LedgerInfo) (policy : Policy K) : Coupling (Ledger K E) (Ledger K E) where
  grows _ _ := True
  good _ := True
  rel := Near li policy
  refl _ := trivial
  trans _ _ := trivial
  good_of _ _ := trivial

omit [LedgerEntry K E] in
theorem tryGetFull_near {α : Type} {f : Option (EntryWithLiveUntil E) → α} (policy : Policy K) (key : K)
    (hf : ∀ v w, Alike li v w → f v = f w) :
    Follows (near li policy) (f <$> Plain.tryGetFull policy key) (f <$> Plain.tryGetFull policy key) := by
  refine ⟨fun _ => trivial, fun {l m} h _ => ?_⟩
  rcases Plain.tryGetFull_cases (E := E) policy key with ⟨e, he⟩ | ⟨ty, hty, hget⟩
  · have hmap (l : Ledger K E) : (f <$> Plain.tryGetFull policy key) l = .error e l := by
      rw [map_eq_pure_bind]
      exact bind_error (he l)
    rw [hmap, hmap]
    exact .error e h
  · have hmap (l : Ledger K E) : (f <$> Plain.tryGetFull policy key) l = .ok (f (l key)) l := by
      rw [map_eq_pure_bind]
      exact bind_ok (hget l)
    rw [hmap, hmap, hf _ _ (h.read key ty hty)]
    exact .ok _ h

theorem putOpt_near (policy : Policy K) (key : K) (v : Option (EntryWithLiveUntil E)) :
    Follows (near li policy) (Plain.putOpt policy key v) (Plain.putOpt policy key v) := by
  refine ⟨fun _ => trivial, fun {l m} h _ => ?_⟩
  rcases Plain.putOpt_cases policy key (v.map Prod.fst) with ⟨err, he⟩ | ⟨hp, hput⟩
  · rw [he v rfl l, he v rfl m]
    exact .error err h
  · rw [hput v rfl l, hput v rfl m]
    exact .ok () (Near.update h (Or.inl rfl) fun _ => rfl)

theorem store_near (policy : Policy K) (key : K) (durability : ContractDataDurability)
    (change : Option E → Except Error E) :
    Follows (near li policy) (Plain.store policy li key durability change)
      (Plain.store policy li key durability change) := by
  refine ⟨fun _ => trivial, fun {l m} h _ => ?_⟩
  rcases Plain.store_cases policy li key durability change with ⟨err, he⟩ | ⟨ty, hty, hst⟩
  · rw [he l, he m]
    exact .error err h
  · rw [hst l, hst m]
    have hfst := (h.read key ty hty).fst_eq
    rcases Plain.storeOver_cases policy li key durability change ((m key).map Prod.fst)
      with ⟨err, he⟩ | ⟨hp, hput⟩
    · rw [he _ hfst l, he _ rfl m]
      exact .error err h
    · obtain ⟨v', hv'⟩ := hput _ rfl
      rw [h.write key hp, hv' l, hv' m]
      exact .ok () (Near.update h (Or.inl rfl) fun _ => rfl)

omit [LedgerEntry K E] in
theorem extendTtl_near (policy : Policy K) (key : K) (threshold extendTo : ℕ) :
    Follows (near li policy) (Plain.extendTtl (E := E) policy li key threshold extendTo)
      (Plain.extendTtl policy li key threshold extendTo) := by
  refine ⟨fun _ => trivial, fun {l m} h _ => ?_⟩
  rcases Plain.extendTtl_cases (E := E) policy li key threshold extendTo with ⟨err, he⟩ | ⟨ty, hty, hext⟩
  · rw [he l, he m]
    exact .error err h
  · rw [hext l, hext m]
    rcases extension_alike (h.read key ty hty) key threshold extendTo
      with ⟨e, hl, hm⟩ | ⟨v', w', hl, hm, halike, heq⟩
    · rw [hl, hm]
      exact .error e h
    · rw [hl, hm]
      exact .ok () (Near.update h halike fun hp => heq (h.write key hp))

/-- **What one call answers and does depends on what it may access.** -/
theorem exec_near (policy : Policy K) (li : LedgerInfo) (o : Op K E X) :
    Follows (near li policy) (Plain.exec policy li o) (Plain.exec policy li o) := by
  have hfst (v w : Option (EntryWithLiveUntil E)) (h : Alike li v w) :
      v.map Prod.fst = w.map Prod.fst := h.fst_eq
  have hsome (v w : Option (EntryWithLiveUntil E)) (h : Alike li v w) : v.isSome = w.isSome := by
    rw [← Option.isSome_map (f := Prod.fst), hfst v w h, Option.isSome_map]
  cases o with
  | has key =>
    have hh := tryGetFull_near policy key hsome
    rw [map_eq_pure_bind] at hh
    exact Triple.bind hh fun _ => Triple.pure _ id
  | get key =>
    have hh := tryGetFull_near policy key hfst
    rw [map_eq_pure_bind] at hh
    exact Triple.bind hh fun _ => Triple.pure _ id
  | put key val live => exact Triple.bind (putOpt_near policy key _) fun _ => Triple.pure _ id
  | store key durability change =>
    exact Triple.bind (store_near policy key durability change) fun _ => Triple.pure _ id
  | del key => exact Triple.bind (putOpt_near policy key _) fun _ => Triple.pure _ id
  | extendTtl key threshold extendTo =>
    exact Triple.bind (extendTtl_near policy key threshold extendTo) fun _ => Triple.pure _ id
  | contractEvent event => exact Triple.pure _ id

/-! ### Invocations -/

/-- **What an invocation may change.** -/
theorem plainFunction_isolated (policy : Policy K) (li : LedgerInfo) (p : Invocation K E X V)
    (s : Ledger K E × Events X) : Isolated li policy s.1 (state (plainFunction policy li p s)).1 := by
  refine Program.run_grows (H := plainHandler policy li) (G := fun s s' => Isolated li policy s.1 s'.1)
    (fun s => Isolated.refl ..)
    Isolated.trans (fun o s => ?_) (fun _ => Isolated.refl ..) _ 0 s
  show Isolated li policy s.1 (state (onFirst (Plain.exec policy li o) (s.1, s.2 ++ o.emitted))).1
  rw [state_onFirst]
  exact exec_isolated policy li o s.1

/-- **What an invocation answers and does depends on what it may access.** -/
theorem plainFunction_near (policy : Policy K) (li : LedgerInfo) (p : Invocation K E X V) :
    Follows ((near li policy).beside (Events X)) (plainFunction policy li p) (plainFunction policy li p) := by
  refine Program.run_follows (fun o => ?_) rfl rfl (fun _ => trivial) (fun _ _ hst hst' => ?_) _ 0
  · have ho := (exec_near policy li o).onFirst (Events X)
    refine ⟨fun s => trivial, fun {s t} hst _ => ?_⟩
    exact ho.agrees (s := (s.1, s.2 ++ o.emitted)) ⟨hst.1, by rw [hst.2]⟩ trivial
  · refine ⟨hst.1, ?_⟩
    show Events.rollback _ _ = Events.rollback _ _
    rw [hst.2, hst'.2]

end HostStorage

end TogetherFi
