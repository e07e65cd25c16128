/-
  Maps kept as lists of entries in the strict order of their keys.

  `binarySearch` halves an interval of positions; on positions in the order of
  what is searched it finds the one position that compares equal, or the place
  where such a position would go (`binarySearch_spec`).  `Increasing` lists of
  entries are looked up with `List.lookup`: replacing, adding or dropping the
  entry at the place found changes the one key (`lookup_put`, `lookup_drop`),
  and a list is determined by its lookups (`Increasing.ext`).
-/
import Mathlib

/-! ## Binary search -/

section Search

variable {cmp : ℕ → Ordering} {n fuel left right : ℕ}

/-- Halve the interval from `left` to `right`: the position that compares equal,
    or the place where it would go.  `fuel` bounds the number of rounds. -/
def binarySearch (cmp : ℕ → Ordering) : ℕ → ℕ → ℕ → Except ℕ ℕ
  | 0, left, _ => .error left
  | fuel + 1, left, right =>
    if left < right then
      match cmp (left + (right - left) / 2) with
      | .lt => binarySearch cmp fuel (left + (right - left) / 2 + 1) right
      | .gt => binarySearch cmp fuel left (left + (right - left) / 2)
      | .eq => .ok (left + (right - left) / 2)
    else .error left

/-- The positions below `n` are in the order of what is searched. -/
def InOrder (cmp : ℕ → Ordering) (n : ℕ) : Prop :=
  ∀ i j, i < j → j < n → cmp i = .lt ∨ cmp j = .gt

/-- The search has narrowed down to the positions from `left` to `right`. -/
structure Narrowed (cmp : ℕ → Ordering) (n left right : ℕ) : Prop where
  le : left ≤ right
  bound : right ≤ n
  before : ∀ i < left, cmp i = .lt
  after : ∀ i, right ≤ i → i < n → cmp i = .gt

/-- What a search answers. -/
def Located (cmp : ℕ → Ordering) (n : ℕ) : Except ℕ ℕ → Prop
  | .ok i => i < n ∧ cmp i = .eq
  | .error i => Narrowed cmp n i i

theorem Narrowed.whole (cmp : ℕ → Ordering) (n : ℕ) : Narrowed cmp n 0 n where
  le := Nat.zero_le n
  bound := le_rfl
  before _ h := absurd h (Nat.not_lt_zero _)
  after _ h h' := absurd h' (not_lt.2 h)

theorem Narrowed.lower {m : ℕ} (ho : InOrder cmp n) (h : Narrowed cmp n left right)
    (hm : m < right) (hlt : cmp m = .lt) : Narrowed cmp n (m + 1) right where
  le := hm
  bound := h.bound
  before i hi := by
    rcases Nat.lt_succ_iff_lt_or_eq.1 hi with hi | rfl
    · rcases ho i m hi (hm.trans_le h.bound) with hi | hgt
      · exact hi
      · rw [hlt] at hgt; cases hgt
    · exact hlt
  after := h.after

theorem Narrowed.upper {m : ℕ} (ho : InOrder cmp n) (h : Narrowed cmp n left right)
    (hl : left ≤ m) (hm : m < right) (hgt : cmp m = .gt) : Narrowed cmp n left m where
  le := hl
  bound := hm.le.trans h.bound
  before := h.before
  after i hi hn := by
    rcases hi.eq_or_lt with rfl | hi
    · exact hgt
    · rcases ho m i hi hn with hlt | hi
      · rw [hgt] at hlt; cases hlt
      · exact hi

/-- **A binary search finds the position or its place.** -/
theorem binarySearch_spec (ho : InOrder cmp n) (h : Narrowed cmp n left right)
    (hf : right - left ≤ fuel) : Located cmp n (binarySearch cmp fuel left right) := by
  induction fuel generalizing left right with
  | zero =>
    have he : left = right := by have := h.le; omega
    subst he
    exact h
  | succ fuel ih =>
    unfold binarySearch
    split
    · next hlt =>
      have hl : left ≤ left + (right - left) / 2 := Nat.le_add_right ..
      have hm : left + (right - left) / 2 < right := by omega
      split
      · next hc => exact ih (h.lower ho hm hc) (by omega)
      · next hc => exact ih (h.upper ho hl hm hc) (by omega)
      · next hc => exact ⟨hm.trans_le h.bound, hc⟩
    · next hge =>
      have he : left = right := by have := h.le; omega
      subst he
      exact h

end Search

/-! ## Lists of entries -/

section Entries

variable {K V : Type*} [LinearOrder K] {l l' pre post : List (K × V)} {k k' : K} {v v' : V}

/-- The keys are strictly increasing. -/
def Increasing (l : List (K × V)) : Prop := l.Pairwise fun a b => a.1 < b.1

/-- Every key of `pre` is below `k`, every key of `post` above. -/
def Around (pre post : List (K × V)) (k : K) : Prop :=
  (∀ e ∈ pre, e.1 < k) ∧ ∀ e ∈ post, k < e.1

theorem Increasing.nil : Increasing ([] : List (K × V)) := List.Pairwise.nil

theorem lookup_of_lt (h : ∀ e ∈ l, e.1 < k) : l.lookup k = none := by
  rw [List.lookup_eq_none_iff]
  intro e he
  simpa using (h e he).ne'

theorem lookup_of_gt (h : ∀ e ∈ l, k < e.1) : l.lookup k = none := by
  rw [List.lookup_eq_none_iff]
  intro e he
  simpa using (h e he).ne

theorem increasing_middle :
    Increasing (pre ++ (k, v) :: post) ↔ Increasing (pre ++ post) ∧ Around pre post k := by
  unfold Increasing Around
  rw [List.pairwise_append, List.pairwise_append, List.pairwise_cons]
  constructor
  · rintro ⟨hpre, ⟨hk, hpost⟩, hx⟩
    exact ⟨⟨hpre, hpost, fun a ha b hb => hx a ha b (by simp [hb])⟩,
      fun a ha => hx a ha (k, v) (by simp), hk⟩
  · rintro ⟨⟨hpre, hpost, hx⟩, hlt, hgt⟩
    refine ⟨hpre, ⟨hgt, hpost⟩, fun a ha b hb => ?_⟩
    rcases List.mem_cons.1 hb with rfl | hb
    · exact hlt a ha
    · exact hx a ha b hb

/-- **An entry put between the smaller and the larger keys is found there, and
    no other lookup changes.** -/
theorem lookup_put (h : Around pre post k) :
    (pre ++ (k, v) :: post).lookup k' = if k' = k then some v else (pre ++ post).lookup k' := by
  rw [List.lookup_append, List.lookup_append]
  split
  · next he =>
    subst he
    rw [lookup_of_lt h.1, List.lookup_cons_self, Option.none_or]
  · next hne =>
    rw [List.lookup_cons, beq_eq_false_iff_ne.2 hne]

theorem Around.lookup_eq_none (h : Around pre post k) : (pre ++ post).lookup k = none := by
  rw [List.lookup_append, lookup_of_lt h.1, lookup_of_gt h.2, Option.none_or]

theorem lookup_drop (h : Around pre post k) :
    (pre ++ post).lookup k' = if k' = k then none else (pre ++ (k, v) :: post).lookup k' := by
  rw [lookup_put h]
  split
  · next he => rw [he, h.lookup_eq_none]
  · rfl

theorem Increasing.nodup (h : Increasing l) : (l.map Prod.fst).Nodup := by
  rw [List.Nodup, List.pairwise_map]
  exact h.imp fun hab => hab.ne

theorem Increasing.lookup_eq_some (h : Increasing l) : l.lookup k = some v ↔ (k, v) ∈ l := by
  constructor
  · intro hk
    obtain ⟨pre, post, rfl, -⟩ := List.lookup_eq_some_iff.1 hk
    simp
  · intro hk
    obtain ⟨pre, post, rfl⟩ := List.append_of_mem hk
    rw [lookup_put (increasing_middle.1 h).2, if_pos rfl]

theorem isSome_lookup : (l.lookup k).isSome ↔ k ∈ l.map Prod.fst := by
  rw [List.lookup_isSome_iff, List.mem_map]
  constructor
  · rintro ⟨e, he, hk⟩
    exact ⟨e, he, (beq_iff_eq.1 hk).symm⟩
  · rintro ⟨e, he, rfl⟩
    exact ⟨e, he, beq_self_eq_true _⟩

/-- **Increasing entries are determined by their lookups.** -/
theorem Increasing.ext (h : Increasing l) (h' : Increasing l')
    (he : ∀ k, l.lookup k = l'.lookup k) : l = l' := by
  refine List.Perm.eq_of_pairwise (fun a b _ _ hab hba => absurd hba hab.not_gt) h h' ?_
  rw [List.perm_ext_iff_of_nodup h.nodup.of_map h'.nodup.of_map]
  rintro ⟨k, v⟩
  rw [← h.lookup_eq_some, ← h'.lookup_eq_some, he]

/-- Entries whose keys all occur in another map are no more than its entries. -/
theorem Increasing.length_le {W : Type*} {m : List (K × W)} (h : Increasing l)
    (hsub : ∀ k, (l.lookup k).isSome → (m.lookup k).isSome) : l.length ≤ m.length := by
  have hs : l.map Prod.fst ⊆ m.map Prod.fst := by
    intro k hk
    exact isSome_lookup.1 (hsub k (isSome_lookup.2 hk))
  have hle := (h.nodup.subperm hs).length_le
  rwa [List.length_map, List.length_map] at hle

theorem Increasing.length_lt {W : Type*} {m : List (K × W)} (h : Increasing l)
    (hsub : ∀ k, (l.lookup k).isSome → (m.lookup k).isSome) (hk : (m.lookup k).isSome)
    (hnew : ¬ (l.lookup k).isSome) : l.length < m.length := by
  have hs : k :: l.map Prod.fst ⊆ m.map Prod.fst := by
    intro j hj
    rcases List.mem_cons.1 hj with rfl | hj
    · exact isSome_lookup.1 hk
    · exact isSome_lookup.1 (hsub j (isSome_lookup.2 hj))
  have hn : (k :: l.map Prod.fst).Nodup :=
    List.nodup_cons.2 ⟨fun hmem => hnew (isSome_lookup.2 hmem), h.nodup⟩
  have hle := (hn.subperm hs).length_le
  rwa [List.length_cons, List.length_map, List.length_map] at hle

/-! ## Finding an entry -/

/-- `binary_search_by`: the position of the entry of a key, or its place. -/
def position (l : List (K × V)) (k : K) : Except ℕ ℕ :=
  binarySearch (fun i => (l[i]?).elim .gt fun e => compare e.1 k) l.length 0 l.length

theorem position_located (h : Increasing l) (k : K) :
    Located (fun i => (l[i]?).elim .gt fun e => compare e.1 k) l.length (position l k) := by
  refine binarySearch_spec (fun i j hij hj => ?_) (Narrowed.whole ..) (by omega)
  have hi : i < l.length := hij.trans hj
  have hlt : l[i].1 < l[j].1 := List.pairwise_iff_getElem.1 h i j hi hj hij
  rw [List.getElem?_eq_getElem hi, List.getElem?_eq_getElem hj]
  rcases lt_or_ge l[i].1 k with hk | hk
  · exact Or.inl (compare_lt_iff_lt.2 hk)
  · exact Or.inr (compare_gt_iff_gt.2 (hk.trans_lt hlt))

theorem position_ok (h : Increasing l) {i : ℕ} (hp : position l k = .ok i) :
    ∃ v, l[i]? = some (k, v) ∧ l.take i ++ (k, v) :: l.drop (i + 1) = l := by
  have hl := position_located h k
  rw [hp] at hl
  obtain ⟨hi, hc⟩ := hl
  simp only [List.getElem?_eq_getElem hi, Option.elim_some] at hc
  have hk : l[i].1 = k := compare_eq_iff_eq.1 hc
  refine ⟨l[i].2, ?_, ?_⟩
  · rw [List.getElem?_eq_getElem hi, ← hk]
  · rw [← hk, Prod.mk.eta, List.getElem_cons_drop hi, List.take_append_drop]

theorem position_error (h : Increasing l) {i : ℕ} (hp : position l k = .error i) :
    Around (l.take i) (l.drop i) k := by
  have hl := position_located h k
  rw [hp] at hl
  constructor
  · intro e he
    obtain ⟨j, hj, rfl⟩ := List.mem_take_iff_getElem.1 he
    have hb := hl.before j (hj.trans_le (min_le_left ..))
    simp only [List.getElem?_eq_getElem (hj.trans_le (min_le_right ..)), Option.elim_some] at hb
    exact compare_lt_iff_lt.1 hb
  · intro e he
    obtain ⟨j, hj, rfl⟩ := List.mem_drop_iff_getElem.1 he
    have ha := hl.after (i + j) (Nat.le_add_right ..) (by omega)
    simp only [List.getElem?_eq_getElem (show i + j < l.length by omega), Option.elim_some] at ha
    exact compare_gt_iff_gt.1 ha

end Entries
