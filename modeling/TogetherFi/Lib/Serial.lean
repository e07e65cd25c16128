/-
  Transactions that may be run in any order.

  A transaction acts on a state of locations and answers.  It `lists` some
  locations and `writes` some of those; of a location it only lists it may read
  the class of the value, and change the value within its class; the states it
  is `fit` for are told by what it lists.  Transactions are compatible if none
  writes what another lists.  Compatible transactions answer one after another as
  each does alone (`applyAll_alone`), so that their order does not matter
  (`applyAll_perm`).
-/
import Mathlib.Data.List.Perm.Basic
import Mathlib.Data.List.Forall2
import Mathlib.Data.Prod.Basic
import TogetherFi.Lib.Outcome

namespace Serial

variable {T K V R ε : Type}

/-- Transactions whose effects stay within what they list. -/
structure Footed (apply : T → (K → V) → Except ε (R × (K → V))) (fit : T → (K → V) → Prop)
    (lists writes : T → K → Prop) (sim : V → V → Prop) : Prop where
  equiv : Equivalence sim
  fit_congr : ∀ {t s u}, fit t s → (∀ k, lists t k → sim (s k) (u k)) → fit t u
  frame : ∀ {t s r s' k}, fit t s → apply t s = .ok (r, s') → ¬ lists t k → s' k = s k
  keep : ∀ {t s r s' k}, fit t s → apply t s = .ok (r, s') → ¬ writes t k → sim (s k) (s' k)
  congr : ∀ {t s r s' u}, fit t s → apply t s = .ok (r, s') → (∀ k, lists t k → sim (s k) (u k)) →
    (∀ k, writes t k → u k = s k) → ∃ u', apply t u = .ok (r, u') ∧ ∀ k, writes t k → u' k = s' k

/-- Neither of two transactions writes what the other lists. -/
def Compatible (lists writes : T → K → Prop) (t t' : T) : Prop :=
  ∀ k, (writes t k → ¬ lists t' k) ∧ (writes t' k → ¬ lists t k)

theorem Compatible.symm {lists writes : T → K → Prop} {t t' : T} (h : Compatible lists writes t t') :
    Compatible lists writes t' t := fun k => ⟨(h k).2, (h k).1⟩

/-- The transactions of a list, one after another. -/
def applyAll (apply : T → (K → V) → Except ε (R × (K → V))) :
    List T → (K → V) → Except ε (List R × (K → V))
  | [], s => .ok ([], s)
  | t :: ts, s => do
    let p ← apply t s
    let q ← applyAll apply ts p.2
    return (p.1 :: q.1, q.2)

variable {apply : T → (K → V) → Except ε (R × (K → V))} {fit : T → (K → V) → Prop} {lists writes : T → K → Prop}
  {sim : V → V → Prop} {t t' : T} {ts ts' : List T} {s s' u u' : K → V} {r : R} {rs : List R} {k : K}

theorem applyAll_cons :
    applyAll apply (t :: ts) s = .ok (rs, u) ↔
      ∃ r s' rs', apply t s = .ok (r, s') ∧ applyAll apply ts s' = .ok (rs', u) ∧ rs = r :: rs' := by
  rw [applyAll, Outcome.bind_eq_ok]
  constructor
  · rintro ⟨⟨r, s'⟩, ht, h⟩
    obtain ⟨⟨rs', u'⟩, hts, h⟩ := Outcome.bind_eq_ok.1 h
    cases h
    exact ⟨r, s', rs', ht, hts, rfl⟩
  · rintro ⟨r, s', rs', ht, hts, rfl⟩
    refine ⟨(r, s'), ht, ?_⟩
    rw [hts]
    rfl

/-- What compatible transactions make of a state, each of them told from the state
    they all start from. -/
structure Settled (apply : T → (K → V) → Except ε (R × (K → V))) (lists writes : T → K → Prop)
    (sim : V → V → Prop) (ts : List T) (s u : K → V) : Prop where
  free : ∀ k, (∀ t ∈ ts, ¬ lists t k) → u k = s k
  kept : ∀ k, (∀ t ∈ ts, ¬ writes t k) → sim (s k) (u k)
  written : ∀ t ∈ ts, ∀ k, writes t k → ∀ r s', apply t s = .ok (r, s') → u k = s' k

theorem forall₂_left {P : T → R → Prop} (h : List.Forall₂ P ts rs) (ht : t ∈ ts) : ∃ r ∈ rs, P t r := by
  induction h with
  | nil => cases ht
  | cons hp _ ih =>
    rcases List.mem_cons.1 ht with rfl | ht
    · exact ⟨_, by simp, hp⟩
    · obtain ⟨r, hr, hp⟩ := ih ht
      exact ⟨r, by simp [hr], hp⟩

theorem zip_alone (h : List.Forall₂ (fun t r => ∃ s', apply t s = .ok (r, s')) ts rs) :
    (ts.zip rs).map (Prod.map id Except.ok) = ts.map fun t => (t, Prod.fst <$> apply t s) := by
  induction h with
  | nil => rfl
  | cons ht _ ih =>
    obtain ⟨s', ht⟩ := ht
    rw [List.zip_cons_cons, List.map_cons, List.map_cons, ih, ht]
    rfl

variable (H : Footed apply fit lists writes sim)
include H

/-- What a compatible transaction lists, another one leaves as it was, up to `sim`. -/
theorem Footed.listed (hc : Compatible lists writes t t') (hf : fit t s) (ht : apply t s = .ok (r, s')) :
    ∀ k, lists t' k → sim (s k) (s' k) :=
  fun k hk => H.keep hf ht fun hw => (hc k).1 hw hk

/-- A compatible transaction does before another one what it does after it. -/
theorem Footed.after (hc : Compatible lists writes t t') (hf : fit t s) (hf' : fit t' s)
    (ht : apply t s = .ok (r, s')) {r' : R} (ht' : apply t' s = .ok (r', u)) :
    ∃ u', apply t' s' = .ok (r', u') ∧ ∀ k, writes t' k → u' k = u k :=
  H.congr hf' ht' (H.listed hc hf ht) fun _ hk => H.frame hf ht ((hc _).2 hk)

/-- A compatible transaction does after another one what it does before it. -/
theorem Footed.before (hc : Compatible lists writes t t') (hf : fit t s) (hf' : fit t' s)
    (ht : apply t s = .ok (r, s')) {r' : R} (ht' : apply t' s' = .ok (r', u)) :
    ∃ u', apply t' s = .ok (r', u') ∧ ∀ k, writes t' k → u' k = u k := by
  refine H.congr (H.fit_congr hf' (H.listed hc hf ht)) ht' (fun k hk => ?_) fun k hk => ?_
  · exact H.equiv.symm (H.listed hc hf ht k hk)
  · exact (H.frame hf ht ((hc k).2 hk)).symm

/-- **Compatible transactions answer as each does alone.** -/
theorem applyAll_alone (hc : ts.Pairwise (Compatible lists writes)) (hf : ∀ t ∈ ts, fit t s)
    (h : applyAll apply ts s = .ok (rs, u)) :
    List.Forall₂ (fun t r => ∃ s', apply t s = .ok (r, s')) ts rs ∧
      Settled apply lists writes sim ts s u := by
  induction ts generalizing s rs with
  | nil =>
    cases h
    refine ⟨.nil, fun k _ => rfl, fun k _ => H.equiv.refl _, fun t ht => ?_⟩
    cases ht
  | cons t ts ih =>
    obtain ⟨hc, hcs⟩ := List.pairwise_cons.1 hc
    have hft := hf t (by simp)
    have hfs : ∀ t' ∈ ts, fit t' s := fun t' ht' => hf t' (by simp [ht'])
    obtain ⟨r, s', rs', ht, hts, rfl⟩ := applyAll_cons.1 h
    obtain ⟨hall, hset⟩ := ih hcs (fun t' ht' => H.fit_congr (hfs t' ht') (H.listed (hc t' ht') hft ht)) hts
    constructor
    · refine .cons ⟨s', ht⟩ ?_
      refine List.forall₂_iff_zip.2 ⟨hall.length_eq, fun {t' r'} hmem => ?_⟩
      obtain ⟨u', ht'⟩ := (List.forall₂_iff_zip.1 hall).2 hmem
      have hmem' := (List.of_mem_zip hmem).1
      obtain ⟨u'', ht'', -⟩ := H.before (hc t' hmem') hft (hfs t' hmem') ht ht'
      exact ⟨u'', ht''⟩
    · refine ⟨fun k hk => ?_, fun k hk => ?_, fun t' hmem k hw r' v hv => ?_⟩
      · rw [hset.free k fun t' ht' => hk t' (by simp [ht'])]
        exact H.frame hft ht (hk t (by simp))
      · refine H.equiv.trans (H.keep hft ht (hk t (by simp))) ?_
        exact hset.kept k fun t' ht' => hk t' (by simp [ht'])
      · rcases List.mem_cons.1 hmem with rfl | hmem
        · rw [ht] at hv
          cases hv
          exact hset.free k fun t'' ht'' => (hc t'' ht'' k).1 hw
        · obtain ⟨v', hv', heq⟩ := H.after (hc t' hmem) hft (hfs t' hmem) ht hv
          rw [hset.written t' hmem k hw r' v' hv', heq k hw]

/-- Compatible transactions that succeed alone succeed one after another. -/
theorem exists_applyAll (hc : ts.Pairwise (Compatible lists writes)) (hf : ∀ t ∈ ts, fit t s)
    (h : ∀ t ∈ ts, ∃ r s', apply t s = .ok (r, s')) : ∃ rs u, applyAll apply ts s = .ok (rs, u) := by
  induction ts generalizing s with
  | nil => exact ⟨[], s, rfl⟩
  | cons t ts ih =>
    obtain ⟨hc, hcs⟩ := List.pairwise_cons.1 hc
    have hft := hf t (by simp)
    have hfs : ∀ t' ∈ ts, fit t' s := fun t' ht' => hf t' (by simp [ht'])
    obtain ⟨r, s', ht⟩ := h t (by simp)
    have hrest : ∀ t' ∈ ts, ∃ r' u', apply t' s' = .ok (r', u') := by
      intro t' ht'
      obtain ⟨r', u, hu⟩ := h t' (by simp [ht'])
      obtain ⟨u', hu', -⟩ := H.after (hc t' ht') hft (hfs t' ht') ht hu
      exact ⟨r', u', hu'⟩
    obtain ⟨rs, u, hu⟩ :=
      ih hcs (fun t' ht' => H.fit_congr (hfs t' ht') (H.listed (hc t' ht') hft ht)) hrest
    exact ⟨r :: rs, u, applyAll_cons.2 ⟨r, s', rs, ht, hu, rfl⟩⟩

/-- **The order of compatible transactions does not matter**: each answers the same, and
    the states they end in agree, up to `sim` where several of them only read. -/
theorem applyAll_perm (hp : ts.Perm ts') (hc : ts.Pairwise (Compatible lists writes))
    (hf : ∀ t ∈ ts, fit t s)
    (h : applyAll apply ts s = .ok (rs, u)) :
    ∃ rs' u', applyAll apply ts' s = .ok (rs', u') ∧ (ts.zip rs).Perm (ts'.zip rs') ∧
      (∀ k, sim (u k) (u' k)) ∧
      ∀ k, ((∃ t ∈ ts, writes t k) ∨ ∀ t ∈ ts, ¬ lists t k) → u' k = u k := by
  obtain ⟨hall, hset⟩ := applyAll_alone H hc hf h
  have hf' : ∀ t ∈ ts', fit t s := fun t ht => hf t (hp.mem_iff.2 ht)
  have hc' : ts'.Pairwise (Compatible lists writes) := hp.pairwise hc fun h => h.symm
  obtain ⟨rs', u', h'⟩ := exists_applyAll H hc' hf' fun t ht => by
    obtain ⟨r, -, s', ht'⟩ := forall₂_left hall (hp.mem_iff.2 ht)
    exact ⟨r, s', ht'⟩
  obtain ⟨hall', hset'⟩ := applyAll_alone H hc' hf' h'
  have hexact (k : K) (hk : (∃ t ∈ ts, writes t k) ∨ ∀ t ∈ ts, ¬ lists t k) : u' k = u k := by
    rcases hk with ⟨t, ht, hw⟩ | hf
    · obtain ⟨r, -, v, hv⟩ := forall₂_left hall ht
      rw [hset.written t ht k hw r v hv, hset'.written t (hp.mem_iff.1 ht) k hw r v hv]
    · rw [hset.free k hf, hset'.free k fun t ht => hf t (hp.mem_iff.2 ht)]
  refine ⟨rs', u', h', ?_, fun k => ?_, hexact⟩
  · have hinj : Function.Injective (Prod.map id Except.ok : T × R → T × Except ε R) :=
      Function.injective_id.prodMap fun _ _ => Except.ok.inj
    rw [← List.map_perm_map_iff hinj, zip_alone hall, zip_alone hall']
    exact hp.map _
  · by_cases hw : ∃ t ∈ ts, writes t k
    · rw [hexact k (Or.inl hw)]
      exact H.equiv.refl _
    · have hn : ∀ t ∈ ts, ¬ writes t k := fun t ht hk => hw ⟨t, ht, hk⟩
      exact H.equiv.trans (H.equiv.symm (hset.kept k hn)) (hset'.kept k fun t ht => hn t (hp.mem_iff.2 ht))

end Serial
