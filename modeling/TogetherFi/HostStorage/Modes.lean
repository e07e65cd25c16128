/-
  The two modes of a storage: footprints that are recorded, and footprints that
  are enforced.

  A recording over a ledger does what any policy does that covers the footprint
  it ends with (`recording_implements`): its map is a cache of the ledger, and
  its footprint only grows, also when a frame is rolled back.  An enforced
  footprint is its own policy (`enforcing_implements`).
-/
import TogetherFi.HostStorage.Refinement

namespace TogetherFi

open Function Session

namespace HostStorage

/-! ## Recording -/

variable {K E X V : Type} [LedgerKey K] {policy policy' : Policy K} {key : K} {ty : AccessType}

section Recording

variable {footprint footprint' : Footprint K}

/-- **Recording an access** makes the footprint cover it, and what it covered before. -/
theorem Footprint.recordAccess_eq_ok (h : footprint.recordAccess key ty = .ok footprint') :
    Policy.Covers footprint'.entry footprint.entry ∧
      ∃ ty', footprint'.entry key = some ty' ∧ ty'.allows ty := by
  unfold Footprint.recordAccess at h
  rw [MeteredOrdMap.get_eq, Outcome.ok_bind] at h
  cases he : footprint.entry key with
  | none =>
    rw [he] at h
    have hi := MeteredOrdMap.insert_eq_ok h
    refine ⟨fun k t ht => ⟨t, ?_, t.allows_self⟩, ty, by rw [hi, update_self], ty.allows_self⟩
    have hne : k ≠ key := by
      rintro rfl
      rw [he] at ht
      cases ht
    rw [hi, update_of_ne hne, ht]
  | some existing =>
    rw [he] at h
    cases existing with
    | readWrite =>
      cases h
      exact ⟨Policy.Covers.refl _, _, he, rfl⟩
    | readOnly =>
      cases ty with
      | readOnly =>
        cases h
        exact ⟨Policy.Covers.refl _, _, he, rfl⟩
      | readWrite =>
        have hi := MeteredOrdMap.insert_eq_ok h
        refine ⟨fun k t ht => ?_, _, by rw [hi, update_self], rfl⟩
        rw [hi]
        rcases eq_or_ne k key with rfl | hne
        · exact ⟨_, update_self .., rfl⟩
        · exact ⟨t, by rw [update_of_ne hne, ht], t.allows_self⟩

theorem Footprint.len_le (h : Policy.Covers footprint'.entry footprint.entry) :
    footprint.len ≤ footprint'.len :=
  MeteredOrdMap.len_le fun _ => h.isSome

/-- The ledger a map of loaded entries stands for. -/
def view (ledger : Ledger K E) (map : StorageMap K E) : Ledger K E :=
  fun key => (map.entry key).getD (ledger key)

/-- The storage records over a ledger, whose entries are now those of `l`. -/
structure Recording (ledger : Ledger K E) (s : Storage K E) (l : Ledger K E) : Prop where
  mode : s.mode = .recording fun key => .ok (ledger key)
  tracked : ∀ key, (s.map.entry key).isSome → (s.footprint.entry key).isSome
  view_eq : view ledger s.map = l

/-- A recording, with any policy that covers the footprint it ends with. -/
def recording (ledger : Ledger K E) (policy : Policy K) : Coupling (Storage K E) (Ledger K E) where
  grows s s' := Policy.Covers s'.footprint.entry s.footprint.entry
  good s := policy.Covers s.footprint.entry ∧ s.footprint.len < u32Max
  rel := Recording ledger
  refl _ := Policy.Covers.refl _
  trans h h' := h'.trans h
  good_of h h' := ⟨h'.1.trans h, (Footprint.len_le h).trans_lt h'.2⟩

/-! ### The accesses of a recording -/

theorem view_update (ledger : Ledger K E) {map map' : StorageMap K E} {v : Option (EntryWithLiveUntil E)}
    (h : map'.entry = update map.entry key (some v)) :
    view ledger map' = update (view ledger map) key v := by
  ext1 k
  rw [view, h, update_apply, update_apply]
  split <;> rfl

namespace Recording

variable {ledger l : Ledger K E} {s : Storage K E}

theorem access (h : Recording ledger s l) (hf : s.footprint.recordAccess key ty = .ok footprint) :
    Recording ledger { s with footprint := footprint } l where
  mode := h.mode
  tracked k hk := (Footprint.recordAccess_eq_ok hf).1.isSome (h.tracked k hk)
  view_eq := h.view_eq

theorem put {v : Option (EntryWithLiveUntil E)} {map : StorageMap K E} (h : Recording ledger s l)
    (hk : (s.footprint.entry key).isSome) (hi : s.map.insert key v = .ok map) :
    Recording ledger { s with map := map } (update l key v) where
  mode := h.mode
  tracked k hm := by
    rcases eq_or_ne k key with rfl | hne
    · exact hk
    · refine h.tracked k ?_
      rw [MeteredOrdMap.insert_eq_ok hi, update_of_ne hne] at hm
      exact hm
  view_eq := by rw [view_update ledger (MeteredOrdMap.insert_eq_ok hi), h.view_eq]

theorem insert_ok (h : Recording ledger s l) (hk : (s.footprint.entry key).isSome)
    (v : Option (EntryWithLiveUntil E)) : ∃ map, s.map.insert key v = .ok map := by
  obtain ⟨map, hm, -⟩ := MeteredOrdMap.insert_within h.tracked hk v
  exact ⟨map, hm⟩

/-- Loading and looking up a key reads the ledger. -/
theorem read (h : Recording ledger s l) (hk : (s.footprint.entry key).isSome) :
    ∃ s', (do Storage.load key; Storage.lookup key) s = .ok (l key) s' ∧ Recording ledger s' l ∧
      s'.footprint = s.footprint := by
  cases he : s.map.entry key with
  | some v =>
    have hload : Storage.load key s = .ok () s := by
      refine amend_ok ?_
      rw [h.mode]
      simp only [MeteredOrdMap.containsKey_eq, he, Option.isSome_some, if_true]
    have hv : v = l key := by rw [← h.view_eq, view, he, Option.getD_some]
    refine ⟨s, ?_, h, rfl⟩
    rw [bind_ok hload]
    refine query_ok ?_
    rw [MeteredOrdMap.get_eq, he, Outcome.ok_bind, Option.elim_some, hv]
  | none =>
    have hv : ledger key = l key := by rw [← h.view_eq, view, he, Option.getD_none]
    obtain ⟨map, hm⟩ := h.insert_ok hk (ledger key)
    have hload : Storage.load key s = .ok () { s with map := map } := by
      refine amend_ok ?_
      rw [h.mode]
      simp only [MeteredOrdMap.containsKey_eq, he, Option.isSome_none, Bool.false_eq_true, if_false,
        Outcome.ok_bind, hm]
      rfl
    have h' := h.put hk hm
    rw [hv, update_eq_self] at h'
    refine ⟨_, ?_, h', rfl⟩
    rw [bind_ok hload]
    refine query_ok ?_
    rw [MeteredOrdMap.get_eq, MeteredOrdMap.insert_eq_ok hm, update_self, Outcome.ok_bind,
      Option.elim_some, hv]

end Recording

end Recording

/-! ## Enforcing -/

section Enforcing

variable {footprint : Footprint K}

theorem Footprint.enforceAccess_eq (footprint : Footprint K) (key : K) (ty : AccessType) :
    footprint.enforceAccess key ty =
    if (footprint.entry key).any (·.allows ty) then .ok () else .error (.host .storage .exceededLimit) := by
  unfold Footprint.enforceAccess
  rw [MeteredOrdMap.get_eq, Outcome.ok_bind]
  cases footprint.entry key with
  | none => rfl
  | some existing => rfl

/-- The entries of a ledger that a footprint lists. -/
def Footprint.restrict (footprint : Footprint K) (l : Ledger K E) (key : K) :
    Option (Option (EntryWithLiveUntil E)) :=
  if (footprint.entry key).isSome then some (l key) else none

theorem Footprint.restrict_update {l : Ledger K E} (hk : (footprint.entry key).isSome)
    (v : Option (EntryWithLiveUntil E)) :
    footprint.restrict (update l key v) = update (footprint.restrict l) key (some v) := by
  ext1 k
  rw [update_apply]
  unfold restrict
  rw [update_apply]
  rcases eq_or_ne k key with rfl | hne
  · rw [if_pos hk, if_pos rfl, if_pos rfl]
  · rw [if_neg hne, if_neg hne]

/-- The storage enforces a footprint, and holds the entries of `l` it lists. -/
structure Enforcing (footprint : Footprint K) (s : Storage K E) (l : Ledger K E) : Prop where
  mode : s.mode = .enforcing
  footprint_eq : s.footprint = footprint
  entry_eq : s.map.entry = footprint.restrict l

/-- An enforced footprint: nothing grows, and every state is good. -/
def enforcing (footprint : Footprint K) : Coupling (Storage K E) (Ledger K E) where
  grows _ _ := True
  good _ := True
  rel := Enforcing footprint
  refl _ := trivial
  trans _ _ := trivial
  good_of _ _ := trivial

/-- **An enforced footprint is its own policy.** -/
theorem enforcing_implements (footprint : Footprint K) :
    Implements (E := E) (enforcing footprint) footprint.entry fun key _ => (footprint.entry key).isSome where
  access key ty := by
    refine ⟨fun _ => trivial, fun {s l} hr _ => ?_⟩
    have he := Footprint.enforceAccess_eq footprint key ty
    by_cases ha : (footprint.entry key).any (·.allows ty)
    · rw [if_pos ha] at he
      have hs : Storage.access key ty s = .ok () s := by
        refine amend_ok ?_
        rw [hr.mode, hr.footprint_eq, he]
        rfl
      obtain ⟨ty', hk, hty⟩ := (Option.any_eq_true _ _).1 ha
      rw [hs, Plain.access_ok ⟨ty', hk, hty⟩]
      exact .ok () ⟨hr, Option.isSome_iff_exists.2 ⟨ty', hk⟩⟩
    · rw [if_neg ha] at he
      have hs : Storage.access key ty s = .error (.host .storage .exceededLimit) s := by
        refine amend_error ?_
        rw [hr.mode, hr.footprint_eq, he]
        rfl
      have hd : ∀ ty', footprint.entry key = some ty' → ty'.allows ty = false := by
        intro ty' hk
        rw [hk, Option.any_some] at ha
        exact eq_false_of_ne_true ha
      rw [hs, Plain.access_denied hd]
      exact .error _ hr
  read key := by
    refine ⟨fun _ => trivial, fun {s l} hr _ => ?_⟩
    have he : s.map.entry key = some (l key) := by
      rw [hr.1.entry_eq, Footprint.restrict, if_pos hr.2]
    have hload : Storage.load key s = .ok () s := by
      refine amend_ok ?_
      rw [hr.1.mode]
    have hlook : Storage.lookup key s = .ok (l key) s := by
      refine query_ok ?_
      rw [MeteredOrdMap.get_eq, he]
      rfl
    rw [bind_ok hload, hlook]
    exact .ok _ hr
  write key val := by
    refine ⟨fun _ => trivial, fun {s l} hr _ => ?_⟩
    have he : (s.map.entry key).isSome := by
      rw [hr.1.entry_eq, Footprint.restrict, if_pos hr.2]
      rfl
    obtain ⟨map, hm, hu⟩ := MeteredOrdMap.insert_ok s.map key val (Or.inl he)
    have hi : Storage.insert key val s = .ok () { s with map := map } := by
      refine amend_ok ?_
      rw [hm]
      rfl
    rw [hi]
    refine .ok () ⟨hr.1.mode, hr.1.footprint_eq, ?_⟩
    rw [hu, hr.1.entry_eq, Footprint.restrict_update hr.2]
  rollback_grows _ := trivial
  rollback_rel _ _ hr hr' := ⟨hr'.mode, hr'.footprint_eq, hr.entry_eq⟩

end Enforcing

end HostStorage

end TogetherFi
