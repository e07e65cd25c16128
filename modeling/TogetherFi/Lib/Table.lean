/-
  Totals over a table of optional entries.

  A table is a function `ι → Option α`; its total for a weight `g` adds the
  weights of the entries present.  Writing one entry changes the total by the
  weight of the new entry minus that of the entry it replaces.
-/
import Mathlib

namespace Table

open Function

variable {ι κ α β : Type*} [Fintype ι]

/-- The weight of an entry: nothing weighs zero. -/
def weight (g : α → ℤ) (o : Option α) : ℤ := o.elim 0 g

@[simp] theorem weight_none (g : α → ℤ) : weight g none = 0 := rfl

@[simp] theorem weight_some (g : α → ℤ) (a : α) : weight g (some a) = g a := rfl

/-- The weight of the entries at the keys `s`. -/
def partialTotal (s : Finset κ) (g : α → ℤ) (f : κ → Option α) : ℤ := ∑ i ∈ s, weight g (f i)

/-- The total weight of a table. -/
def total (g : α → ℤ) (f : ι → Option α) : ℤ := ∑ i, weight g (f i)

theorem partialTotal_congr {s : Finset κ} {g : α → ℤ} {k : β → ℤ} {f : κ → Option α}
    {f' : κ → Option β} (h : ∀ i ∈ s, weight g (f i) = weight k (f' i)) :
    partialTotal s g f = partialTotal s k f' :=
  Finset.sum_congr rfl h

theorem partialTotal_update [DecidableEq κ] {s : Finset κ} (g : α → ℤ) (f : κ → Option α) {k : κ}
    (hk : k ∈ s) (o : Option α) :
    partialTotal s g (update f k o) = partialTotal s g f - weight g (f k) + weight g o := by
  have h : ∀ i, weight g (update f k o i) = update (fun i => weight g (f i)) k (weight g o) i := by
    intro i
    by_cases hi : i = k
    · subst hi; simp
    · simp [hi]
  rw [partialTotal, Finset.sum_congr rfl fun i _ => h i, Finset.sum_update_of_mem hk, partialTotal,
    Finset.sum_eq_add_sum_sdiff_singleton_of_mem hk fun i => weight g (f i)]
  omega

@[simp] theorem total_empty (g : α → ℤ) : total g (fun _ : ι => none) = 0 := by
  simp [total]

theorem total_sub (g k : α → ℤ) (f : ι → Option α) :
    total (fun a => g a - k a) f = total g f - total k f := by
  rw [total, total, total, ← Finset.sum_sub_distrib]
  refine Finset.sum_congr rfl fun i _ => ?_
  cases f i <;> simp

/-- **Writing one entry.** -/
theorem total_update [DecidableEq ι] (g : α → ℤ) (f : ι → Option α) (k : ι) (o : Option α) :
    total g (update f k o) = total g f - weight g (f k) + weight g o :=
  partialTotal_update g f (Finset.mem_univ k) o

theorem partialTotal_list (g : α → ℤ) (l : List α) :
    partialTotal (Finset.range l.length) g (fun i => l[i]?) = (l.map g).sum := by
  induction l with
  | nil => simp [partialTotal]
  | cons a l ih =>
    rw [partialTotal, List.length_cons, Finset.sum_range_succ', List.map_cons, List.sum_cons, ← ih,
      partialTotal, add_comm]
    simp

theorem partialTotal_nonneg {s : Finset κ} {g : α → ℤ} {f : κ → Option α}
    (h : ∀ i ∈ s, ∀ a, f i = some a → 0 ≤ g a) : 0 ≤ partialTotal s g f := by
  refine Finset.sum_nonneg fun i hi => ?_
  cases hf : f i with
  | none => simp
  | some a => simpa using h i hi a hf

theorem weight_le_partialTotal {s : Finset κ} {g : α → ℤ} {f : κ → Option α}
    (h : ∀ i ∈ s, ∀ a, f i = some a → 0 ≤ g a) {k : κ} (hk : k ∈ s) :
    weight g (f k) ≤ partialTotal s g f := by
  refine Finset.single_le_sum (f := fun i => weight g (f i)) (fun i hi => ?_) hk
  cases hf : f i with
  | none => simp
  | some a => simpa using h i hi a hf

theorem total_nonneg {g : α → ℤ} {f : ι → Option α} (h : ∀ i a, f i = some a → 0 ≤ g a) :
    0 ≤ total g f :=
  partialTotal_nonneg fun i _ => h i

theorem weight_le_total {g : α → ℤ} {f : ι → Option α} (h : ∀ i a, f i = some a → 0 ≤ g a) (k : ι) :
    weight g (f k) ≤ total g f :=
  weight_le_partialTotal (fun i _ => h i) (Finset.mem_univ k)

end Table
