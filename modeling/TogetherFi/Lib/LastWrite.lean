/-
  Maps that keep the last write at every key.

  `latest` reads a list of writes backwards.  It is what a map holds that starts
  empty and is updated by one write after another (`latest_append`), and it is
  decided by the writes at the key alone (`latest_eq_some`, `latest_eq_none`).
-/
import Mathlib.Data.List.Induction
import Mathlib.Logic.Function.Basic

namespace LastWrite

open Function

variable {K V : Type*} [DecidableEq K] {ws : List (K × V)} {k : K} {v : V}

/-- The value last written at `k`. -/
def latest (ws : List (K × V)) (k : K) : Option V := ws.reverse.lookup k

@[simp] theorem latest_nil : latest ([] : List (K × V)) = fun _ => none := rfl

/-- **One more write updates the map.** -/
@[simp] theorem latest_append (ws : List (K × V)) (w : K × V) :
    latest (ws ++ [w]) = update (latest ws) w.1 (some w.2) := by
  funext k
  rw [latest, List.reverse_append, List.reverse_singleton, List.singleton_append]
  rw [← Prod.eta w, List.lookup_cons]
  by_cases h : k = w.1
  · rw [h, beq_self_eq_true, update_self]
  · rw [beq_false_of_ne h, update_of_ne h, latest]

theorem latest_eq_none : latest ws k = none ↔ ∀ w ∈ ws, w.1 ≠ k := by
  induction ws using List.reverseRecOn with
  | nil => simp
  | append_singleton ws w ih =>
    rw [latest_append]
    by_cases h : k = w.1
    · subst h
      rw [update_self]
      exact iff_of_false (by simp) fun hall => hall w (by simp) rfl
    · rw [update_of_ne h, ih]
      constructor
      · intro hall u hu
        rcases List.mem_append.1 hu with hu | hu
        · exact hall u hu
        · rw [List.mem_singleton.1 hu]
          exact Ne.symm h
      · intro hall u hu
        exact hall u (List.mem_append_left _ hu)

/-- **What is held at a key** is what was written there and not written over. -/
theorem latest_eq_some :
    latest ws k = some v ↔ ∃ l r, ws = l ++ (k, v) :: r ∧ ∀ w ∈ r, w.1 ≠ k := by
  constructor
  · induction ws using List.reverseRecOn with
    | nil => simp
    | append_singleton ws w ih =>
      intro h
      rw [latest_append] at h
      by_cases hk : k = w.1
      · subst hk
        rw [update_self, Option.some.injEq] at h
        subst h
        exact ⟨ws, [], rfl, by simp⟩
      · rw [update_of_ne hk] at h
        obtain ⟨l, r, rfl, hr⟩ := ih h
        refine ⟨l, r ++ [w], by simp, ?_⟩
        intro u hu
        rcases List.mem_append.1 hu with hu | hu
        · exact hr u hu
        · rw [List.mem_singleton.1 hu]
          exact Ne.symm hk
  · rintro ⟨l, r, rfl, hr⟩
    induction r using List.reverseRecOn with
    | nil => simp
    | append_singleton r w ih =>
      have hw : k ≠ w.1 := (hr w (by simp)).symm
      rw [← List.cons_append, ← List.append_assoc, latest_append, update_of_ne hw]
      exact ih fun u hu => hr u (List.mem_append_left _ hu)

end LastWrite
