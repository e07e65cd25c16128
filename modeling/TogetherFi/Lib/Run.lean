/-
  Machines whose calls take effect or are rolled back, and their runs.

  `run` folds a list of calls over a state; a rejected call leaves the state
  as it was.  `trace` keeps the calls that took effect, each with the states
  around it (`Step`).  Invariants and relations are proved of one step and
  carried to whole runs by the rules of this file; `trace_induction` is the
  rule for statements about the history of a run.
-/
import Mathlib.Data.List.Induction

/-- A machine: what one call does to a state, or why it is rejected. -/
structure Machine (σ α ε : Type*) where
  step : σ → α → Except ε σ

namespace Machine

variable {σ α ε : Type*} (M : Machine σ α ε)

/-- The state after a call: a rejected call is rolled back. -/
def next (s : σ) (a : α) : σ :=
  match M.step s a with
  | .ok s' => s'
  | .error _ => s

/-- Why a call is rejected, or nothing if it takes effect. -/
def rejection (s : σ) (a : α) : Option ε :=
  match M.step s a with
  | .ok _ => none
  | .error e => some e

/-- The state after a list of calls. -/
def run (s : σ) (as : List α) : σ := as.foldl M.next s

/-- The state after calls that all take effect, or why one is rejected. -/
def runAll (s : σ) (as : List α) : Except ε σ := as.foldlM M.step s

/-- A call that took effect, with the states around it. -/
structure Step where
  pre : σ
  act : α
  post : σ
  ok : M.step pre act = .ok post

/-- The calls of a run that took effect, in order. -/
def trace (s : σ) : List α → List M.Step
  | [] => []
  | a :: as =>
    match h : M.step s a with
    | .ok s' => ⟨s, a, s', h⟩ :: trace s' as
    | .error _ => trace s as

variable {M}

theorem next_ok {s s' : σ} {a : α} (h : M.step s a = .ok s') : M.next s a = s' := by
  simp [next, h]

theorem next_error {s : σ} {a : α} {e : ε} (h : M.step s a = .error e) : M.next s a = s := by
  simp [next, h]

theorem rejection_ok {s s' : σ} {a : α} (h : M.step s a = .ok s') : M.rejection s a = none := by
  simp [rejection, h]

theorem rejection_error {s : σ} {a : α} {e : ε} (h : M.step s a = .error e) :
    M.rejection s a = some e := by
  simp [rejection, h]

@[simp] theorem run_nil (s : σ) : M.run s [] = s := rfl

@[simp] theorem run_cons (s : σ) (a : α) (as : List α) :
    M.run s (a :: as) = M.run (M.next s a) as := rfl

theorem run_append (s : σ) (as bs : List α) : M.run s (as ++ bs) = M.run (M.run s as) bs := by
  simp [run]

@[simp] theorem trace_nil (s : σ) : M.trace s [] = [] := rfl

theorem runAll_cons_ok {s s' : σ} {a : α} (h : M.step s a = .ok s') (as : List α) :
    M.runAll s (a :: as) = M.runAll s' as := by
  rw [runAll, List.foldlM_cons, h]
  rfl

theorem run_of_runAll {s s' : σ} {as : List α} (h : M.runAll s as = .ok s') : M.run s as = s' := by
  induction as generalizing s with
  | nil => exact Except.ok.inj h
  | cons a as ih =>
    cases ha : M.step s a with
    | ok s₁ =>
      rw [runAll_cons_ok ha] at h
      rw [run_cons, next_ok ha]
      exact ih h
    | error e =>
      rw [runAll, List.foldlM_cons, ha] at h
      cases h

theorem trace_cons_ok {s s' : σ} {a : α} (h : M.step s a = .ok s') (as : List α) :
    M.trace s (a :: as) = ⟨s, a, s', h⟩ :: M.trace s' as := by
  rw [trace]
  split
  · rename_i s'' h'
    obtain rfl : s' = s'' := Except.ok.inj (h.symm.trans h')
    rfl
  · rename_i h'; rw [h] at h'; cases h'

theorem trace_cons_error {s : σ} {a : α} {e : ε} (h : M.step s a = .error e) (as : List α) :
    M.trace s (a :: as) = M.trace s as := by
  rw [trace]
  split
  · rename_i h'; rw [h] at h'; cases h'
  · rfl

theorem trace_append (s : σ) (as bs : List α) :
    M.trace s (as ++ bs) = M.trace s as ++ M.trace (M.run s as) bs := by
  induction as generalizing s with
  | nil => rfl
  | cons a as ih =>
    rw [List.cons_append, run_cons]
    cases h : M.step s a with
    | ok s' => rw [trace_cons_ok h, trace_cons_ok h, next_ok h, ih, List.cons_append]
    | error e => rw [trace_cons_error h, trace_cons_error h, next_error h, ih]

/-- **Induction over the history of a run.**  What holds of the empty history
    and is kept by every call that takes effect, after whatever calls `as`,
    holds of every run.  `A` restricts the calls considered. -/
theorem trace_induction {A : α → Prop} {P : List M.Step → σ → Prop} {s : σ} (h₀ : P [] s)
    (hstep : ∀ as (t : M.Step), (∀ a ∈ as, A a) → A t.act → t.pre = M.run s as →
      P (M.trace s as) t.pre → P (M.trace s as ++ [t]) t.post) :
    ∀ as, (∀ a ∈ as, A a) → P (M.trace s as) (M.run s as) := by
  intro as
  induction as using List.reverseRecOn with
  | nil => exact fun _ => h₀
  | append_singleton as a ih =>
    intro hok
    have has : ∀ b ∈ as, A b := fun b hb => hok b (by simp [hb])
    rw [trace_append, run_append, run_cons, run_nil]
    cases h : M.step (M.run s as) a with
    | ok s' =>
      rw [trace_cons_ok h, next_ok h]
      exact hstep as ⟨_, _, _, h⟩ has (hok a (by simp)) rfl (ih has)
    | error e => rw [trace_cons_error h, next_error h]; simpa using ih has

/-- **Induction over a restricted history.**  Here `A` restricts the calls that take
    effect, each with the states around it; what was tried and rejected does not
    matter. -/
theorem history_induction {A : M.Step → Prop} {P : List M.Step → σ → Prop} {s : σ} (h₀ : P [] s)
    (hstep : ∀ as (t : M.Step), A t → t.pre = M.run s as → P (M.trace s as) t.pre →
      P (M.trace s as ++ [t]) t.post) (as : List α) (has : ∀ t ∈ M.trace s as, A t) :
    P (M.trace s as) (M.run s as) := by
  refine trace_induction (A := fun _ => True) (P := fun tr s' => (∀ t ∈ tr, A t) → P tr s')
    (fun _ => h₀) (fun as t _ _ hpre ih hall => ?_) as (fun _ _ => trivial) has
  have hbefore := ih fun u hu => hall u (List.mem_append_left _ hu)
  exact hstep as t (hall t (by simp)) hpre hbefore

/-- **Invariants of runs.** -/
theorem run_invariant {A : α → Prop} {I : σ → Prop}
    (hstep : ∀ t : M.Step, A t.act → I t.pre → I t.post) {s : σ} (h₀ : I s) {as : List α}
    (has : ∀ a ∈ as, A a) : I (M.run s as) :=
  trace_induction (P := fun _ s => I s) h₀ (fun _ t _ ht _ hI => hstep t ht hI) as has

/-- **Relations between the ends of a run.** -/
theorem run_relation {R : σ → σ → Prop} (hrefl : ∀ s, R s s)
    (htrans : ∀ s₁ s₂ s₃, R s₁ s₂ → R s₂ s₃ → R s₁ s₃)
    (hstep : ∀ t : M.Step, R t.pre t.post) (s : σ) (as : List α) : R s (M.run s as) :=
  run_invariant (A := fun _ => True) (I := R s) (fun t _ h => htrans _ _ _ h (hstep t)) (hrefl s)
    (by simp)

/-- A relation that holds across the calls of a run that took effect holds across
    the run. -/
theorem trace_relation {R : σ → σ → Prop} (hrefl : ∀ s, R s s)
    (htrans : ∀ s₁ s₂ s₃, R s₁ s₂ → R s₂ s₃ → R s₁ s₃) {s : σ} {as : List α}
    (h : ∀ t ∈ M.trace s as, R t.pre t.post) : R s (M.run s as) := by
  induction as generalizing s with
  | nil => exact hrefl s
  | cons a as ih =>
    rw [run_cons]
    cases ha : M.step s a with
    | ok s' =>
      rw [trace_cons_ok ha] at h
      rw [next_ok ha]
      have hrest : R s' (M.run s' as) := ih fun t ht => h t (List.mem_cons_of_mem _ ht)
      exact htrans _ _ _ (h _ List.mem_cons_self) hrest
    | error e =>
      rw [trace_cons_error ha] at h
      rw [next_error ha]
      exact ih h

/-- A call of the trace was made in a state of the run. -/
theorem mem_trace {s : σ} {t : M.Step} : ∀ {as : List α}, t ∈ M.trace s as →
    ∃ bs cs, as = bs ++ t.act :: cs ∧ t.pre = M.run s bs ∧ M.trace s bs ++ t :: M.trace t.post cs =
      M.trace s as := by
  intro as
  induction as generalizing s with
  | nil => simp
  | cons a as ih =>
    intro ht
    cases h : M.step s a with
    | ok s' =>
      rw [trace_cons_ok h] at ht ⊢
      rcases List.mem_cons.1 ht with rfl | ht
      · exact ⟨[], as, rfl, rfl, rfl⟩
      · obtain ⟨bs, cs, rfl, hpre, htr⟩ := ih ht
        exact ⟨a :: bs, cs, rfl, by rw [run_cons, next_ok h, hpre],
          by rw [trace_cons_ok h, List.cons_append, htr]⟩
    | error e =>
      rw [trace_cons_error h] at ht ⊢
      obtain ⟨bs, cs, rfl, hpre, htr⟩ := ih ht
      exact ⟨a :: bs, cs, rfl, by rw [run_cons, next_error h, hpre],
        by rw [trace_cons_error h, htr]⟩

theorem act_mem_of_mem_trace {s : σ} {t : M.Step} {as : List α} (h : t ∈ M.trace s as) : t.act ∈ as := by
  obtain ⟨bs, cs, rfl, -⟩ := mem_trace h
  simp

end Machine
