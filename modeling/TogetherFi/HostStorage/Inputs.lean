/-
  What an invocation is given.

  A recorded footprint comes back as it was recorded
  (`buildStorageFootprint_recorded`), and the storage map built of the entries at
  its keys holds the ledger on it (`buildStorageMap_ok`).
-/
import TogetherFi.HostStorage.Modes
import TogetherFi.HostStorage.Invoke

namespace TogetherFi

open Function Session

namespace HostStorage

variable {K E X V : Type} [LedgerKey K] [LedgerEntry K E] {key : K}

/-! ## The footprint -/

section

variable {footprint footprint' : Footprint K} {ty : AccessType}

/-- What a footprint allows. -/
def LedgerFootprint.policy (footprint : LedgerFootprint K) : Policy K := fun key =>
  if key ∈ footprint.readOnly then some .readOnly
  else if key ∈ footprint.readWrite then some .readWrite
  else none

theorem LedgerFootprint.isSome_policy {footprint : LedgerFootprint K} :
    (footprint.policy key).isSome ↔ key ∈ footprint.readOnly ∨ key ∈ footprint.readWrite := by
  unfold LedgerFootprint.policy
  split
  · simp [*]
  · split <;> simp [*]

omit [LedgerEntry K E] in
theorem foldlM_addKey {keys : List K} (h : keys.foldlM (addKey ty) footprint = .ok footprint') (key : K) :
    footprint'.entry key = if key ∈ keys then some ty else footprint.entry key := by
  induction keys generalizing footprint with
  | nil =>
    cases h
    simp
  | cons k keys ih =>
    rw [List.foldlM_cons] at h
    obtain ⟨fp, hk, h⟩ := Outcome.bind_eq_ok.1 h
    obtain ⟨-, -, hk⟩ := Outcome.bind_eq_ok.1 hk
    rw [ih h, MeteredOrdMap.insert_eq_ok hk, update_apply]
    by_cases hmem : key ∈ keys
    · rw [if_pos hmem, if_pos (by simp [hmem])]
    · rw [if_neg hmem]
      rcases eq_or_ne key k with rfl | hne
      · rw [if_pos rfl, if_pos (by simp)]
      · rw [if_neg hne, if_neg (by simp [hmem, hne])]

omit [LedgerEntry K E] in
/-- **A footprint that is built allows what was listed**, and a key listed twice to be
    read only. -/
theorem buildStorageFootprint_eq_ok {listed : LedgerFootprint K}
    (h : buildStorageFootprint listed = .ok footprint) : footprint.entry = listed.policy := by
  obtain ⟨fp, hw, hr⟩ := Outcome.bind_eq_ok.1 h
  ext1 key
  rw [foldlM_addKey hr, foldlM_addKey hw, MeteredOrdMap.entry_new, LedgerFootprint.policy]

end

/-! ## The storage map -/

/-- The entry of a key is under its own key. -/
def Ledger.KeyedAt (ledger : Ledger K E) (key : K) : Prop :=
  ∀ e live, ledger key = some (e, live) → LedgerEntry.key e = key

/-- The entries of a ledger are under their own keys. -/
def Ledger.Keyed (ledger : Ledger K E) : Prop := ∀ key, ledger.KeyedAt key

/-- An entry that may be given with a footprint. -/
structure Admissible (footprint : Footprint K) (ledgerNum : ℕ) (key : K) (live : Option ℕ) : Prop where
  supported : checkSupportedLedgerKeyType key = .ok ()
  ttl : checkTtl ledgerNum key live = .ok ()
  listed : (footprint.entry key).isSome

section

variable {footprint : Footprint K} {ledgerNum : ℕ} {map map' : StorageMap K E} {ledger : Ledger K E}
  {keys : List K}

theorem addEntry_eq_ok {e : E} {live : Option ℕ} (hkey : LedgerEntry.key e = key) :
    addEntry footprint ledgerNum map (e, live) = .ok map' ↔
      Admissible footprint ledgerNum key live ∧ map.insert key (some (e, live)) = .ok map' := by
  unfold addEntry ledgerEntryToLedgerKey checkSupportedLedgerEntryType
  simp only [Outcome.bind_eq_ok, hkey, Outcome.pure_eq, MeteredOrdMap.containsKey_eq]
  constructor
  · rintro ⟨k, ⟨⟨⟩, hs, hk⟩, ⟨⟩, ht, h⟩
    cases hk
    split at h
    · next hl => exact ⟨⟨hs, ht, hl⟩, h⟩
    · cases h
  · rintro ⟨⟨hs, ht, hl⟩, h⟩
    refine ⟨_, ⟨(), hs, rfl⟩, (), ht, ?_⟩
    rw [if_pos hl]
    exact h

omit [LedgerKey K] [LedgerEntry K E] in
theorem entriesAt_cons_none (h : ledger key = none) (keys : List K) :
    entriesAt ledger (key :: keys) = entriesAt ledger keys := List.filterMap_cons_none h

omit [LedgerKey K] [LedgerEntry K E] in
theorem entriesAt_cons_some {le : EntryWithLiveUntil E} (h : ledger key = some le) (keys : List K) :
    entriesAt ledger (key :: keys) = le :: entriesAt ledger keys := List.filterMap_cons_some h

theorem foldlM_addEntry (hk : ∀ key ∈ keys, ledger.KeyedAt key)
    (h : (entriesAt ledger keys).foldlM (addEntry footprint ledgerNum) map = .ok map') :
    (∀ key ∈ keys, ∀ e live, ledger key = some (e, live) → Admissible footprint ledgerNum key live) ∧
      ∀ key, map'.entry key =
        if key ∈ keys ∧ (ledger key).isSome then some (ledger key) else map.entry key := by
  induction keys generalizing map with
  | nil =>
    cases h
    simp
  | cons k keys ih =>
    have hks := fun key hmem => hk key (List.mem_cons_of_mem k hmem)
    cases hl : ledger k with
    | none =>
      rw [entriesAt_cons_none hl] at h
      obtain ⟨hadm, hentry⟩ := ih hks h
      constructor
      · intro key hmem e live he
        rcases List.mem_cons.1 hmem with rfl | hmem
        · rw [hl] at he
          cases he
        · exact hadm key hmem e live he
      · intro key
        rw [hentry]
        refine if_congr (and_congr_left fun hsome => ?_) rfl rfl
        have hne : key ≠ k := by
          rintro rfl
          rw [hl] at hsome
          cases hsome
        simp [hne]
    | some le =>
      rcases le with ⟨e, live⟩
      rw [entriesAt_cons_some hl, List.foldlM_cons] at h
      obtain ⟨m, hm, h⟩ := Outcome.bind_eq_ok.1 h
      obtain ⟨ha, hm⟩ := (addEntry_eq_ok (hk k (by simp) e live hl)).1 hm
      obtain ⟨hadm, hentry⟩ := ih hks h
      constructor
      · intro key hmem e' live' he
        rcases List.mem_cons.1 hmem with rfl | hmem
        · rw [hl] at he
          cases he
          exact ha
        · exact hadm key hmem e' live' he
      · intro key
        rw [hentry, MeteredOrdMap.insert_eq_ok hm, update_apply]
        by_cases hkk : key = k
        · subst hkk
          rw [hl]
          simp
        · rw [if_neg hkk]
          simp [hkk]

theorem foldlM_addEntry_ok (map : StorageMap K E) (hk : ∀ key ∈ keys, ledger.KeyedAt key)
    (hmap : ∀ key, (map.entry key).isSome → (footprint.entry key).isSome)
    (h : ∀ key ∈ keys, ∀ e live, ledger key = some (e, live) → Admissible footprint ledgerNum key live) :
    ∃ map', (entriesAt ledger keys).foldlM (addEntry footprint ledgerNum) map = .ok map' := by
  induction keys generalizing map with
  | nil => exact ⟨map, rfl⟩
  | cons k keys ih =>
    have hks := fun key hmem => hk key (List.mem_cons_of_mem k hmem)
    have hrest := fun key hmem => h key (List.mem_cons_of_mem k hmem)
    cases hl : ledger k with
    | none =>
      rw [entriesAt_cons_none hl]
      exact ih map hks hmap hrest
    | some le =>
      rcases le with ⟨e, live⟩
      have ha := h k (by simp) e live hl
      obtain ⟨m, hm, hu⟩ := MeteredOrdMap.insert_within hmap ha.listed (some (e, live))
      have hmap' : ∀ key, (m.entry key).isSome → (footprint.entry key).isSome := by
        intro key hkey
        rw [hu, update_apply] at hkey
        split at hkey
        · next heq =>
          rw [heq]
          exact ha.listed
        · exact hmap key hkey
      obtain ⟨map', hm'⟩ := ih m hks hmap' hrest
      refine ⟨map', ?_⟩
      rw [entriesAt_cons_some hl, List.foldlM_cons, (addEntry_eq_ok (hk k (by simp) e live hl)).2 ⟨ha, hm⟩]
      exact hm'

omit [LedgerEntry K E] in
theorem foldlM_addMissing (hmap : ∀ key, (map.entry key).isSome → (footprint.entry key).isSome)
    (hkeys : ∀ key ∈ keys, (footprint.entry key).isSome) :
    ∃ map', keys.foldlM addMissing map = .ok map' ∧ ∀ key, map'.entry key =
      if key ∈ keys ∧ map.entry key = none then some none else map.entry key := by
  induction keys generalizing map with
  | nil => exact ⟨map, rfl, by simp⟩
  | cons k keys ih =>
    have hrest := fun key hmem => hkeys key (List.mem_cons_of_mem k hmem)
    rw [List.foldlM_cons]
    unfold addMissing
    rw [MeteredOrdMap.containsKey_eq]
    cases he : map.entry k with
    | some v =>
      obtain ⟨map', hm', hentry⟩ := ih hmap hrest
      refine ⟨map', hm', fun key => ?_⟩
      rw [hentry]
      refine if_congr (and_congr_left fun hnone => ?_) rfl rfl
      have hne : key ≠ k := by
        rintro rfl
        rw [he] at hnone
        cases hnone
      simp [hne]
    | none =>
      obtain ⟨m, hm, hu⟩ := MeteredOrdMap.insert_within hmap (hkeys k (by simp)) none
      have hmap' : ∀ key, (m.entry key).isSome → (footprint.entry key).isSome := by
        intro key hkey
        rw [hu, update_apply] at hkey
        split at hkey
        · next heq =>
          rw [heq]
          exact hkeys k (by simp)
        · exact hmap key hkey
      obtain ⟨map', hm', hentry⟩ := ih hmap' hrest
      refine ⟨map', by rw [if_neg (by simp), hm]; exact hm', fun key => ?_⟩
      rw [hentry, hu, update_apply]
      by_cases hkk : key = k
      · subst hkk
        simp [he]
      · rw [if_neg hkk]
        simp [hkk]

theorem buildStorageMap_eq (ledger : Ledger K E) (keys : List K) :
    buildStorageMap footprint ((entriesAt ledger keys).map Prod.fst) ((entriesAt ledger keys).map Prod.snd)
        ledgerNum = (do
      let map ← (entriesAt ledger keys).foldlM (addEntry footprint ledgerNum) MeteredOrdMap.new
      footprint.keys.foldlM addMissing map) := by
  have hz : ((entriesAt ledger keys).map Prod.fst).zip ((entriesAt ledger keys).map Prod.snd) =
      entriesAt ledger keys := by
    rw [List.zip_map', List.map_id']
  rw [buildStorageMap, List.length_map, List.length_map, if_pos rfl, hz]

theorem foldlM_addEntry_within {les : List (EntryWithLiveUntil E)}
    (h : les.foldlM (addEntry footprint ledgerNum) map = .ok map')
    (hmap : ∀ key, (map.entry key).isSome → (footprint.entry key).isSome) :
    ∀ key, (map'.entry key).isSome → (footprint.entry key).isSome := by
  induction les generalizing map with
  | nil =>
    cases h
    exact hmap
  | cons le les ih =>
    rcases le with ⟨e, live⟩
    rw [List.foldlM_cons] at h
    obtain ⟨m, hm, h⟩ := Outcome.bind_eq_ok.1 h
    obtain ⟨ha, hm⟩ := (addEntry_eq_ok rfl).1 hm
    refine ih h fun key hkey => ?_
    rw [MeteredOrdMap.insert_eq_ok hm, update_apply] at hkey
    split at hkey
    · next heq =>
      rw [heq]
      exact ha.listed
    · exact hmap key hkey

/-- **A storage map that is built** holds the footprint's keys, whatever it is built of. -/
theorem buildStorageMap_eq_ok {entries : List E} {ttls : List (Option ℕ)}
    (h : buildStorageMap footprint entries ttls ledgerNum = .ok map) :
    map.entry = footprint.restrict (snapshotOf map) := by
  unfold buildStorageMap at h
  split at h
  · obtain ⟨m, hm, h⟩ := Outcome.bind_eq_ok.1 h
    have hsub := foldlM_addEntry_within hm fun key hkey => by cases hkey
    obtain ⟨map', hmiss, hentry⟩ := foldlM_addMissing hsub fun key hkey => MeteredOrdMap.mem_keys.1 hkey
    rw [h] at hmiss
    cases hmiss
    ext1 key
    have hiff : (map.entry key).isSome ↔ (footprint.entry key).isSome := by
      rw [hentry]
      constructor
      · intro hkey
        split at hkey
        · next hk => exact MeteredOrdMap.mem_keys.1 hk.1
        · exact hsub key hkey
      · intro hk
        split
        · rfl
        · next hn =>
          exact Option.isSome_iff_ne_none.2 fun hnone => hn ⟨MeteredOrdMap.mem_keys.2 hk, hnone⟩
    rw [Footprint.restrict, snapshotOf]
    split
    · next hk =>
      obtain ⟨v, hv⟩ := Option.isSome_iff_exists.1 (hiff.2 hk)
      rw [hv, Option.join_some]
    · next hk => exact Option.not_isSome_iff_eq_none.1 fun hsome => hk (hiff.1 hsome)
  · cases h

theorem buildStorageMap_admissible (hk : ∀ key ∈ keys, ledger.KeyedAt key)
    (h : buildStorageMap footprint ((entriesAt ledger keys).map Prod.fst)
      ((entriesAt ledger keys).map Prod.snd) ledgerNum = .ok map) :
    ∀ key ∈ keys, ∀ e live, ledger key = some (e, live) → Admissible footprint ledgerNum key live := by
  rw [buildStorageMap_eq] at h
  obtain ⟨m, hm, -⟩ := Outcome.bind_eq_ok.1 h
  exact (foldlM_addEntry hk hm).1

/-- **The storage map is built as the ledger on the footprint**, from the entries at its
    keys in any order. -/
theorem buildStorageMap_ok (hk : ∀ key ∈ keys, ledger.KeyedAt key)
    (hkeys : ∀ key, key ∈ keys ↔ (footprint.entry key).isSome)
    (hadm : ∀ key ∈ keys, ∀ e live, ledger key = some (e, live) → Admissible footprint ledgerNum key live) :
    ∃ map, buildStorageMap footprint ((entriesAt ledger keys).map Prod.fst)
      ((entriesAt ledger keys).map Prod.snd) ledgerNum = .ok map ∧ map.entry = footprint.restrict ledger := by
  obtain ⟨m, hm⟩ := foldlM_addEntry_ok MeteredOrdMap.new hk (fun key h => by cases h) hadm
  have hentry := (foldlM_addEntry hk hm).2
  have hmap : ∀ key, (m.entry key).isSome → (footprint.entry key).isSome := by
    intro key h
    rw [hentry] at h
    split at h
    · next hmem => exact (hkeys key).1 hmem.1
    · cases h
  obtain ⟨map, hmiss, hmap'⟩ := foldlM_addMissing hmap fun key h => MeteredOrdMap.mem_keys.1 h
  refine ⟨map, ?_, ?_⟩
  · rw [buildStorageMap_eq, hm]
    exact hmiss
  · ext1 key
    rw [hmap', Footprint.restrict]
    simp only [MeteredOrdMap.mem_keys, hentry, hkeys, MeteredOrdMap.entry_new]
    cases footprint.entry key with
    | none => simp
    | some ty => cases ledger key <;> simp

end

end HostStorage

end TogetherFi
