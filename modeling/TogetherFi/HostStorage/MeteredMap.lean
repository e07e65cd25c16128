/-
  The ordered map of the host (`soroban-env-host-patch/src/host/metered_map.rs`).

  A `MeteredOrdMap` is a vector of entries in the strict order of their keys;
  `from_map` checks the order and the size of every vector a map is made of, and
  here both are fields.  `find` is a binary search, `insert` and `remove` rebuild
  the vector around the position found.  The map they make up is `entry`:
  `get`, `insert` and `remove` are its lookup, update and erasure.

  What the budget charges is left out, and with it the one way in which
  comparing two keys fails.
-/
import TogetherFi.Lib.SortedMap
import TogetherFi.Lib.Outcome

namespace TogetherFi

open Outcome Function

namespace HostStorage

/-! ## Errors -/

/-- `ScErrorType` -/
inductive ScErrorType where
  | wasmVm
  | context
  | storage
  | object
  | crypto
  | events
  | budget
  | value
  | auth
  deriving DecidableEq, Repr

/-- `ScErrorCode` -/
inductive ScErrorCode where
  | arithDomain
  | indexBounds
  | invalidInput
  | missingValue
  | existingValue
  | exceededLimit
  | invalidAction
  | internalError
  | unexpectedType
  | unexpectedSize
  deriving DecidableEq, Repr

/-- An error of a contract (`ScErrorType::Contract`) carries the contract's own code. -/
inductive Error where
  | contract (code : ℕ)
  | host (type : ScErrorType) (code : ScErrorCode)
  deriving DecidableEq, Repr

/-- `(ScErrorType::Storage, ScErrorCode::InternalError)` -/
def Error.internal : Error := .host .storage .internalError

/-- `is_recoverable`: neither an internal error of the host nor an exceeded budget or
    footprint. -/
def Error.isRecoverable : Error → Bool
  | .contract _ => true
  | .host type code =>
    !(code = .internalError) && !(code = .exceededLimit && (type = .storage || type = .budget))

/-! ## The map -/

/-- `u32::MAX` -/
def u32Max : ℕ := 2 ^ 32 - 1

/-- `MAP_OOB` -/
def mapOob : Error := .host .object .indexBounds

/-- `MeteredOrdMap`: a vector of pairs whose keys increase and fit a `u32`. -/
structure MeteredOrdMap (K V : Type) [LinearOrder K] where
  map : List (K × V)
  sorted : Increasing map
  bounded : map.length ≤ u32Max

namespace MeteredOrdMap

variable {K V : Type} [LinearOrder K]

/-- `from_map`: the size, and that every window of two entries is increasing. -/
def fromMap (map : List (K × V)) : Except Error (MeteredOrdMap K V) :=
  if hlen : map.length ≤ u32Max then
    if hchain : (map.map Prod.fst).IsChain (· < ·) then
      .ok ⟨map, List.pairwise_map.1 (List.isChain_iff_pairwise.1 hchain), hlen⟩
    else .error (.host .object .invalidInput)
  else .error mapOob

/-- `Default::default()` -/
def new : MeteredOrdMap K V := ⟨[], Increasing.nil, Nat.zero_le _⟩

/-- `find`: the position of a key, or where it would be. -/
def find (m : MeteredOrdMap K V) (key : K) : Except ℕ ℕ := position m.map key

/-- `insert` -/
def insert (m : MeteredOrdMap K V) (key : K) (value : V) : Except Error (MeteredOrdMap K V) :=
  match m.find key with
  | .ok replacePos => fromMap (m.map.take replacePos ++ (key, value) :: m.map.drop (replacePos + 1))
  | .error insertPos =>
    if m.map.length = u32Max then .error mapOob
    else fromMap (m.map.take insertPos ++ (key, value) :: m.map.drop insertPos)

/-- `get` -/
def get (m : MeteredOrdMap K V) (key : K) : Except Error (Option V) :=
  match m.find key with
  | .ok found =>
    match m.map[found]? with
    | some (_, v) => .ok (some v)
    | none => .error (.host .object .internalError)
  | .error _ => .ok none

/-- `remove`: the rest of the map and the value removed, if the key is there. -/
def remove (m : MeteredOrdMap K V) (key : K) : Except Error (Option (MeteredOrdMap K V × V)) :=
  match m.find key with
  | .ok found => do
    let rest ← fromMap (m.map.take found ++ m.map.drop (found + 1))
    match m.map[found]? with
    | some (_, v) => .ok (some (rest, v))
    | none => .error (.host .object .internalError)
  | .error _ => .ok none

/-- `len` -/
def len (m : MeteredOrdMap K V) : ℕ := m.map.length

/-- `contains_key` -/
def containsKey (m : MeteredOrdMap K V) (key : K) : Bool := (m.find key).toBool

/-- `keys` -/
def keys (m : MeteredOrdMap K V) : List K := m.map.map Prod.fst

/-! ## The map it stands for -/

/-- What the map holds of a key. -/
def entry (m : MeteredOrdMap K V) (key : K) : Option V := m.map.lookup key

variable {m m' : MeteredOrdMap K V} {key k : K} {v v' : V}

theorem fromMap_ok {map : List (K × V)} (hs : Increasing map) (hb : map.length ≤ u32Max) :
    fromMap map = .ok ⟨map, hs, hb⟩ := by
  unfold fromMap
  rw [dif_pos hb, dif_pos (List.isChain_iff_pairwise.2 (List.pairwise_map.2 hs))]

/-- **A map is determined by what it holds.** -/
theorem ext (h : ∀ k, m.entry k = m'.entry k) : m = m' := by
  have he : m.map = m'.map := m.sorted.ext m'.sorted h
  cases m
  cases m'
  cases he
  rfl

@[simp] theorem entry_new : (new : MeteredOrdMap K V).entry k = none := rfl

/-- The position found holds what the map holds of the key. -/
theorem find_ok {i : ℕ} (h : m.find key = .ok i) :
    ∃ v, m.entry key = some v ∧ m.map[i]? = some (key, v) ∧
      m.map.take i ++ (key, v) :: m.map.drop (i + 1) = m.map ∧
      Increasing (m.map.take i ++ m.map.drop (i + 1)) ∧
      Around (m.map.take i) (m.map.drop (i + 1)) key := by
  obtain ⟨v, hi, hl⟩ := position_ok m.sorted h
  have hs := m.sorted
  rw [← hl] at hs
  obtain ⟨hs, ha⟩ := increasing_middle.1 hs
  refine ⟨v, ?_, hi, hl, hs, ha⟩
  rw [entry, ← hl, lookup_put ha, if_pos rfl]

/-- At the place found the map holds nothing of the key. -/
theorem find_error {i : ℕ} (h : m.find key = .error i) :
    m.entry key = none ∧ Around (m.map.take i) (m.map.drop i) key := by
  have ha := position_error m.sorted h
  refine ⟨?_, ha⟩
  have hn := ha.lookup_eq_none
  rwa [List.take_append_drop] at hn

/-- **`get` is the lookup.** -/
@[simp] theorem get_eq : m.get key = .ok (m.entry key) := by
  unfold get
  cases hf : m.find key with
  | ok i =>
    obtain ⟨v, hv, hi, -⟩ := find_ok hf
    simp only [hi, hv]
  | error i =>
    rw [(find_error hf).1]

@[simp] theorem containsKey_eq : m.containsKey key = (m.entry key).isSome := by
  unfold containsKey
  cases hf : m.find key with
  | ok i =>
    obtain ⟨v, hv, -⟩ := find_ok hf
    rw [hv]
    rfl
  | error i =>
    rw [(find_error hf).1]
    rfl

/-- **`insert` is the update of one key**, if there is room for the key. -/
theorem insert_ok (m : MeteredOrdMap K V) (key : K) (v : V)
    (hroom : (m.entry key).isSome ∨ m.len < u32Max) :
    ∃ m', m.insert key v = .ok m' ∧ m'.entry = update m.entry key (some v) := by
  unfold insert
  cases hf : m.find key with
  | ok i =>
    obtain ⟨w, -, -, hl, hs, ha⟩ := find_ok hf
    have hb := m.bounded
    rw [← hl] at hb
    refine ⟨_, fromMap_ok (increasing_middle.2 ⟨hs, ha⟩) (by simpa using hb), ?_⟩
    ext1 k
    rw [update_apply, entry, lookup_put ha, entry]
    split
    · rfl
    · next hne => rw [← hl, lookup_put ha, if_neg hne, hl]
  | error i =>
    obtain ⟨hn, ha⟩ := find_error hf
    have hlen : m.map.length < u32Max := by
      rcases hroom with h | h
      · rw [hn] at h
        cases h
      · exact h
    have hs : Increasing (m.map.take i ++ m.map.drop i) := by
      rw [List.take_append_drop]
      exact m.sorted
    have hb : (m.map.take i ++ (key, v) :: m.map.drop i).length ≤ u32Max := by
      rw [List.length_append, List.length_cons, ← add_assoc, ← List.length_append,
        List.take_append_drop]
      exact hlen
    simp only [hlen.ne, if_false]
    refine ⟨_, fromMap_ok (increasing_middle.2 ⟨hs, ha⟩) hb, ?_⟩
    ext1 k
    rw [update_apply, entry, lookup_put ha, List.take_append_drop, entry]

theorem insert_eq_ok (h : m.insert key v = .ok m') : m'.entry = update m.entry key (some v) := by
  have hroom : (m.entry key).isSome ∨ m.len < u32Max := by
    unfold insert at h
    cases hf : m.find key with
    | ok i =>
      obtain ⟨w, hw, -⟩ := find_ok hf
      rw [hw]
      exact Or.inl rfl
    | error i =>
      rw [hf] at h
      simp only at h
      split at h
      · cases h
      · next hne => exact Or.inr (lt_of_le_of_ne m.bounded hne)
  obtain ⟨m'', h', he⟩ := insert_ok m key v hroom
  rw [h] at h'
  cases h'
  exact he

/-- **`remove` is the erasure of one key.** -/
theorem remove_eq_ok (m : MeteredOrdMap K V) (key : K) : ∃ r, m.remove key = .ok r ∧ r.map Prod.snd = m.entry key ∧
    ∀ m' v, r = some (m', v) → m'.entry = update m.entry key none := by
  unfold remove
  cases hf : m.find key with
  | ok i =>
    obtain ⟨v, hv, hi, hl, hs, ha⟩ := find_ok hf
    have hb : (m.map.take i ++ m.map.drop (i + 1)).length ≤ u32Max := by
      have hb := m.bounded
      rw [← hl, List.length_append, List.length_cons] at hb
      rw [List.length_append]
      omega
    refine ⟨some (⟨_, hs, hb⟩, v), ?_, hv.symm, ?_⟩
    · simp only [fromMap_ok hs hb, ok_bind, hi]
    · rintro m' v' ⟨⟩
      ext1 k
      rw [update_apply, entry, lookup_drop (v := v) ha, hl, entry]
  | error i =>
    refine ⟨none, rfl, ?_, fun _ _ h => absurd h (by simp)⟩
    rw [(find_error hf).1]
    rfl

theorem len_le {W : Type} {n : MeteredOrdMap K W}
    (h : ∀ k, (m.entry k).isSome → (n.entry k).isSome) : m.len ≤ n.len :=
  m.sorted.length_le h

theorem insert_within {W : Type} {n : MeteredOrdMap K W}
    (h : ∀ k, (m.entry k).isSome → (n.entry k).isSome) (hk : (n.entry key).isSome) (v : V) :
    ∃ m', m.insert key v = .ok m' ∧ m'.entry = update m.entry key (some v) := by
  refine insert_ok m key v ?_
  by_cases hnew : (m.entry key).isSome
  · exact Or.inl hnew
  · exact Or.inr ((m.sorted.length_lt h hk hnew).trans_le n.bounded)

theorem mem_keys : k ∈ m.keys ↔ (m.entry k).isSome := isSome_lookup.symm

/-! ## Histories -/

/-- An edit of a map. -/
inductive Edit (K V : Type) where
  | insert (key : K) (value : V)
  | remove (key : K)

/-- What an edit does to the map that is stood for. -/
def Edit.apply (f : K → Option V) : Edit K V → K → Option V
  | .insert key value => update f key (some value)
  | .remove key => update f key none

/-- The map after an edit; a key that is not there is not removed. -/
def edit (m : MeteredOrdMap K V) : Edit K V → Except Error (MeteredOrdMap K V)
  | .insert key value => m.insert key value
  | .remove key => do
    let r ← m.remove key
    return r.elim m Prod.fst

/-- The map after a history of edits. -/
def edits (m : MeteredOrdMap K V) (es : List (Edit K V)) : Except Error (MeteredOrdMap K V) :=
  es.foldlM edit m

variable {e : Edit K V} {es : List (Edit K V)}

theorem edit_eq_ok (h : m.edit e = .ok m') : m'.entry = e.apply m.entry := by
  cases e with
  | insert key value => exact insert_eq_ok h
  | remove key =>
    obtain ⟨r, hr, hv, hrest⟩ := remove_eq_ok m key
    obtain ⟨r', hr', h⟩ := bind_eq_ok.1 h
    rw [hr] at hr'
    cases hr'
    cases h
    rcases r with _ | ⟨rest, v⟩
    · have hnone : m.entry key = none := hv.symm
      rw [Edit.apply, ← hnone, update_eq_self]
      rfl
    · exact hrest rest v rfl

theorem edits_eq_ok (h : m.edits es = .ok m') : m'.entry = es.foldl Edit.apply m.entry := by
  induction es generalizing m with
  | nil =>
    cases h
    rfl
  | cons e es ih =>
    unfold edits at h
    rw [List.foldlM_cons] at h
    obtain ⟨m₁, h₁, h⟩ := bind_eq_ok.1 h
    rw [List.foldl_cons, ← edit_eq_ok h₁]
    exact ih h

theorem edit_len_le (h : m.edit e = .ok m') : m'.len ≤ m.len + 1 := by
  have hadds : ∃ key, ∀ k, k ≠ key → (m'.entry k).isSome → (m.entry k).isSome := by
    rw [edit_eq_ok h]
    cases e with
    | insert key value =>
      refine ⟨key, fun k hne hk => ?_⟩
      rwa [Edit.apply, update_of_ne hne] at hk
    | remove key =>
      refine ⟨key, fun k hne hk => ?_⟩
      rwa [Edit.apply, update_of_ne hne] at hk
  obtain ⟨key, hadds⟩ := hadds
  have hsub : m'.keys ⊆ key :: m.keys := by
    intro k hk
    rcases eq_or_ne k key with rfl | hne
    · exact List.mem_cons_self
    · exact List.mem_cons_of_mem _ (mem_keys.2 (hadds k hne (mem_keys.1 hk)))
  have hle := (m'.sorted.nodup.subperm hsub).length_le
  rwa [List.length_map, List.length_cons, keys, List.length_map] at hle

theorem edit_ok (hroom : m.len < u32Max) (e : Edit K V) : ∃ m', m.edit e = .ok m' := by
  cases e with
  | insert key value =>
    obtain ⟨m', h, -⟩ := insert_ok m key value (Or.inr hroom)
    exact ⟨m', h⟩
  | remove key =>
    obtain ⟨r, hr, -⟩ := remove_eq_ok m key
    exact ⟨r.elim m Prod.fst, by rw [edit, hr]; rfl⟩

theorem edits_ok (hroom : m.len + es.length ≤ u32Max) : ∃ m', m.edits es = .ok m' := by
  induction es generalizing m with
  | nil => exact ⟨m, rfl⟩
  | cons e es ih =>
    rw [List.length_cons] at hroom
    obtain ⟨m₁, h₁⟩ := edit_ok (m := m) (by omega) e
    have hlen := edit_len_le h₁
    obtain ⟨m', h⟩ := ih (m := m₁) (by omega)
    refine ⟨m', ?_⟩
    rw [edits, List.foldlM_cons, h₁]
    exact h

/-- **A map is what its history makes of it.**  A history of at most `u32::MAX` edits of an
    empty map succeeds; the map then holds what the last edit of each key left of it, with
    its keys in their strict order, and any other history that leaves the same ends with
    the very same map. -/
theorem histories (es : List (Edit K V)) (hlen : es.length ≤ u32Max) :
    ∃ m, edits new es = .ok m ∧
      (∀ k, m.get k = .ok (es.foldl Edit.apply (fun _ => none) k)) ∧
      (∀ k, m.containsKey k = (es.foldl Edit.apply (fun _ => none) k).isSome) ∧
      m.keys.Pairwise (· < ·) ∧
      (∀ k, k ∈ m.keys ↔ (es.foldl Edit.apply (fun _ => none) k).isSome) ∧
      ∀ es' m', edits new es' = .ok m' →
        es'.foldl Edit.apply (fun _ => none) = es.foldl Edit.apply (fun _ => none) → m' = m := by
  have hroom : (new : MeteredOrdMap K V).len + es.length ≤ u32Max := by
    rw [len, new, List.length_nil, zero_add]
    exact hlen
  obtain ⟨m, h⟩ := edits_ok hroom
  have he : m.entry = es.foldl Edit.apply fun _ => none := edits_eq_ok h
  refine ⟨m, h, fun k => ?_, fun k => ?_, List.pairwise_map.2 m.sorted, fun k => ?_, ?_⟩
  · rw [get_eq, he]
  · rw [containsKey_eq, he]
  · rw [mem_keys, he]
  · intro es' m' h' hsame
    have he' : m'.entry = es'.foldl Edit.apply fun _ => none := edits_eq_ok h'
    exact ext fun k => by rw [he', he, hsame]

theorem histories_sample :
    let es : List (Edit ℕ ℕ) := [.insert 5 1, .insert 2 7, .remove 5, .insert 9 3, .insert 2 8]
    ∃ m, edits new es = .ok m ∧
      (∀ k, m.get k = .ok (es.foldl Edit.apply (fun _ => none) k)) ∧
      (∀ k, m.containsKey k = (es.foldl Edit.apply (fun _ => none) k).isSome) ∧
      m.keys.Pairwise (· < ·) ∧
      (∀ k, k ∈ m.keys ↔ (es.foldl Edit.apply (fun _ => none) k).isSome) ∧
      ∀ es' m', edits new es' = .ok m' →
        es'.foldl Edit.apply (fun _ => none) = es.foldl Edit.apply (fun _ => none) → m' = m :=
  histories _ (by decide)

end MeteredOrdMap

end HostStorage

end TogetherFi
