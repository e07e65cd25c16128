/-
  Weighted signers with members of equal weight.

  The entries of an account are its signers with their weights, each key once.
  In a `Flat` account the signers of positive weight are its members, at weight
  one each: whatever a set of keys weighs is then the number of members in it
  (`Flat.total_eq`).  `set` is the change of one signer; it adds a member or
  removes one.
-/
import Mathlib

namespace Quorum

variable {K : Type*} {ws : List (K × ℕ)} {members : List K} {k j : K} {n m : ℕ}

/-- The total weight of the signers in `S`. -/
def total (ws : List (K × ℕ)) (S : K → Bool) : ℕ := ((ws.filter fun w => S w.1).map Prod.snd).sum

/-- The signers of positive weight are the members, at weight one each. -/
structure Flat (ws : List (K × ℕ)) (members : List K) : Prop where
  keys : (ws.map Prod.fst).Nodup
  nodup : members.Nodup
  mem_iff : ∀ k n, 0 < n → ((k, n) ∈ ws ↔ k ∈ members ∧ n = 1)

/-- The order of the members does not matter. -/
theorem Flat.of_perm {members' : List K} (h : Flat ws members) (hp : members.Perm members') :
    Flat ws members' :=
  ⟨h.keys, hp.nodup_iff.1 h.nodup, fun k n hn => by rw [h.mem_iff k n hn, hp.mem_iff]⟩

/-! ## Weights -/

/-- Signers of no weight do not count. -/
theorem total_active (ws : List (K × ℕ)) (S : K → Bool) :
    total (ws.filter (0 < ·.2)) S = total ws S := by
  unfold total
  induction ws with
  | nil => rfl
  | cons w ws ih =>
    obtain ⟨k, n⟩ := w
    rcases Nat.eq_zero_or_pos n with rfl | hn
    · rw [List.filter_cons_of_neg (by simp), ih]
      by_cases hS : S k = true
      · rw [List.filter_cons_of_pos (by simpa using hS)]
        simp
      · rw [List.filter_cons_of_neg (by simpa using hS)]
    · rw [List.filter_cons_of_pos (by simpa using hn)]
      by_cases hS : S k = true
      · rw [List.filter_cons_of_pos (by simpa using hS), List.filter_cons_of_pos (by simpa using hS),
          List.map_cons, List.map_cons, List.sum_cons, List.sum_cons, ih]
      · rw [List.filter_cons_of_neg (by simpa using hS), List.filter_cons_of_neg (by simpa using hS),
          ih]

theorem Flat.perm (h : Flat ws members) : (ws.filter (0 < ·.2)).Perm (members.map (·, 1)) := by
  have hws : (ws.filter (0 < ·.2)).Nodup := h.keys.of_map.filter _
  have hmembers : (members.map fun k => (k, 1)).Nodup :=
    h.nodup.map fun a b hab => (Prod.mk.inj hab).1
  refine (List.perm_ext_iff_of_nodup hws hmembers).2 ?_
  rintro ⟨k, n⟩
  simp only [List.mem_filter, decide_eq_true_eq, List.mem_map, Prod.mk.injEq]
  constructor
  · rintro ⟨hmem, hn⟩
    obtain ⟨hk, rfl⟩ := (h.mem_iff k n hn).1 hmem
    exact ⟨k, hk, rfl, rfl⟩
  · rintro ⟨_, hk, rfl, rfl⟩
    exact ⟨(h.mem_iff _ 1 Nat.one_pos).2 ⟨hk, rfl⟩, Nat.one_pos⟩

/-- **The weight of a set of keys is the number of members in it.** -/
theorem Flat.total_eq (h : Flat ws members) (S : K → Bool) :
    total ws S = (members.filter S).length := by
  have hperm := ((h.perm.filter fun w => S w.1).map Prod.snd).sum_eq
  rw [← total_active, total, hperm]
  clear hperm h
  induction members with
  | nil => rfl
  | cons k members ih =>
    by_cases hS : S k = true
    · rw [List.map_cons, List.filter_cons_of_pos (by simpa using hS), List.filter_cons_of_pos hS,
        List.map_cons, List.sum_cons, ih, List.length_cons, add_comm]
    · rw [List.map_cons, List.filter_cons_of_neg (by simpa using hS), List.filter_cons_of_neg hS, ih]

theorem two_le_length_filter (h : members.Nodup) (S : K → Bool) :
    2 ≤ (members.filter S).length ↔
      ∃ a ∈ members, ∃ b ∈ members, a ≠ b ∧ S a = true ∧ S b = true := by
  have hnodup : (members.filter S).Nodup := h.filter S
  constructor
  · intro hlen
    rcases hl : members.filter S with _ | ⟨a, _ | ⟨b, l⟩⟩
    · rw [hl] at hlen
      simp at hlen
    · rw [hl] at hlen
      simp at hlen
    · rw [hl] at hnodup
      obtain ⟨ha, hSa⟩ := List.mem_filter.1 (hl ▸ List.mem_cons_self : a ∈ members.filter S)
      obtain ⟨hb, hSb⟩ := List.mem_filter.1
        (hl ▸ List.mem_cons_of_mem a List.mem_cons_self : b ∈ members.filter S)
      refine ⟨a, ha, b, hb, ?_, hSa, hSb⟩
      rintro rfl
      exact (List.nodup_cons.1 hnodup).1 List.mem_cons_self
  · rintro ⟨a, ha, b, hb, hab, hSa, hSb⟩
    have hsub : [a, b] ⊆ members.filter S := by
      intro c hc
      rcases List.mem_cons.1 hc with rfl | hc
      · exact List.mem_filter.2 ⟨ha, hSa⟩
      · rw [List.mem_singleton.1 hc]
        exact List.mem_filter.2 ⟨hb, hSb⟩
    have hpair : [a, b].Nodup := by simpa using hab
    exact (List.subperm_of_subset hpair hsub).length_le

/-- **Two members make the quorum.** -/
theorem Flat.two_le_total (h : Flat ws members) (S : K → Bool) : 2 ≤ total ws S ↔
    ∃ a ∈ members, ∃ b ∈ members, a ≠ b ∧ S a = true ∧ S b = true := by
  rw [h.total_eq, two_le_length_filter h.nodup]

/-- **No single key does.** -/
theorem Flat.single_lt_two [DecidableEq K] (h : Flat ws members) (k : K) :
    total ws (· = k) < 2 := by
  by_contra hlt
  obtain ⟨a, -, b, -, hab, ha, hb⟩ := (h.two_le_total (· = k)).1 (by omega)
  exact hab ((of_decide_eq_true ha).trans (of_decide_eq_true hb).symm)

/-! ## Setting one signer -/

variable [DecidableEq K]

/-- Set the weight of a signer; weight zero removes it. -/
def set (ws : List (K × ℕ)) (k : K) (n : ℕ) : List (K × ℕ) :=
  if n = 0 then ws.filter (·.1 ≠ k)
  else if k ∈ ws.map Prod.fst then ws.map fun w => if w.1 = k then (k, n) else w
  else ws ++ [(k, n)]

theorem mem_set : (j, m) ∈ set ws k n ↔ (j ≠ k ∧ (j, m) ∈ ws) ∨ (j = k ∧ m = n ∧ n ≠ 0) := by
  unfold set
  split
  · rename_i hn
    simp [hn, and_comm]
  · rename_i hn
    split
    · rename_i hk
      simp only [List.mem_map]
      constructor
      · rintro ⟨w, hw, he⟩
        split at he
        · obtain ⟨rfl, rfl⟩ := Prod.mk.inj he
          exact .inr ⟨rfl, rfl, hn⟩
        · rename_i hne
          subst he
          exact .inl ⟨hne, hw⟩
      · rintro (⟨hne, hw⟩ | ⟨rfl, rfl, -⟩)
        · exact ⟨_, hw, if_neg hne⟩
        · obtain ⟨w, hw, rfl⟩ := List.mem_map.1 hk
          exact ⟨w, hw, if_pos rfl⟩
    · rename_i hk
      simp only [List.mem_append, List.mem_singleton, Prod.mk.injEq]
      constructor
      · rintro (hw | ⟨rfl, rfl⟩)
        · refine .inl ⟨?_, hw⟩
          rintro rfl
          exact hk (List.mem_map_of_mem hw)
        · exact .inr ⟨rfl, rfl, hn⟩
      · rintro (⟨-, hw⟩ | ⟨rfl, rfl, -⟩)
        · exact .inl hw
        · exact .inr ⟨rfl, rfl⟩

theorem set_keys (h : (ws.map Prod.fst).Nodup) (k : K) (n : ℕ) : ((set ws k n).map Prod.fst).Nodup := by
  unfold set
  split
  · exact h.sublist (List.filter_sublist.map Prod.fst)
  · split
    · have hfst : (ws.map fun w => if w.1 = k then (k, n) else w).map Prod.fst = ws.map Prod.fst := by
        rw [List.map_map]
        refine List.map_congr_left fun w _ => ?_
        simp only [Function.comp_apply]
        split
        · rename_i hw
          exact hw.symm
        · rfl
      rw [hfst]
      exact h
    · rename_i hk
      rw [List.map_append, List.map_singleton]
      refine List.nodup_append.2 ⟨h, List.nodup_singleton k, fun a ha b hb => ?_⟩
      rintro rfl
      rw [List.mem_singleton.1 hb] at ha
      exact hk ha

/-- **A new member.** -/
theorem Flat.add (h : Flat ws members) (hk : k ∉ members) : Flat (set ws k 1) (k :: members) := by
  refine ⟨set_keys h.keys k 1, List.nodup_cons.2 ⟨hk, h.nodup⟩, fun j n hn => ?_⟩
  rw [mem_set, h.mem_iff j n hn, List.mem_cons]
  constructor
  · rintro (⟨-, hj, rfl⟩ | ⟨rfl, rfl, -⟩)
    · exact ⟨.inr hj, rfl⟩
    · exact ⟨.inl rfl, rfl⟩
  · rintro ⟨rfl | hj, rfl⟩
    · exact .inr ⟨rfl, rfl, Nat.one_ne_zero⟩
    · refine .inl ⟨?_, hj, rfl⟩
      rintro rfl
      exact hk hj

/-- **A member less.** -/
theorem Flat.remove (h : Flat ws members) (k : K) : Flat (set ws k 0) (members.erase k) := by
  refine ⟨set_keys h.keys k 0, h.nodup.erase k, fun j n hn => ?_⟩
  rw [mem_set, h.mem_iff j n hn, h.nodup.mem_erase_iff]
  constructor
  · rintro (⟨hne, hj, rfl⟩ | ⟨-, -, hne⟩)
    · exact ⟨⟨hne, hj⟩, rfl⟩
    · exact absurd rfl hne
  · rintro ⟨⟨hne, hj⟩, rfl⟩
    exact .inl ⟨hne, hj, rfl⟩

end Quorum
