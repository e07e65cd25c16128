/-
  A token in the abstract: who holds how much.

  A `Movement` moves an amount from one holder to another, issues it to a
  holder, or retires it from one; nobody parts with more than they hold.  The
  rules of this file say what a log of movements does to the holdings: nothing
  is created or lost but what was issued and retired (`Accepts.sum_eq`).
-/
import Mathlib
import TogetherFi.Lib.Replay

/-- One movement of a token. -/
inductive Movement (α : Type*) where
  | move (src dst : α) (n : ℤ)
  | issue (dst : α) (n : ℤ)
  | retire (src : α) (n : ℤ)
  deriving DecidableEq

namespace Movement

variable {α : Type*} [DecidableEq α]

/-- What a movement takes from a holder. -/
def debit (a : α) : Movement α → ℤ
  | .move src _ n | .retire src n => if a = src then n else 0
  | .issue .. => 0

/-- What a movement gives to a holder. -/
def credit (a : α) : Movement α → ℤ
  | .move _ dst n | .issue dst n => if a = dst then n else 0
  | .retire .. => 0

/-- What a movement issues. -/
def issued : Movement α → ℤ
  | .issue _ n => n
  | _ => 0

/-- What a movement retires. -/
def retired : Movement α → ℤ
  | .retire _ n => n
  | _ => 0

/-- How much is moved. -/
def amount : Movement α → ℤ
  | .move _ _ n | .issue _ n | .retire _ n => n

/-- Whose holding must cover the amount. -/
def payer : Movement α → Option α
  | .move src _ _ | .retire src _ => some src
  | .issue .. => none

/-- The holders a movement is about. -/
def parties : Movement α → List α
  | .move src dst _ => [src, dst]
  | .issue a _ | .retire a _ => [a]

/-- What moves from `src` to `dst`, where either may be outside the holders. -/
def between : Option α → Option α → ℤ → List (Movement α)
  | some src, some dst, n => [.move src dst n]
  | none, some dst, n => [.issue dst n]
  | some src, none, n => [.retire src n]
  | none, none, _ => []

/-- A holding of `x` that becomes `y` by what happens outside. -/
def adjust (a : α) (x y : ℤ) : List (Movement α) :=
  if x < y then [.issue a (y - x)] else if y < x then [.retire a (x - y)] else []

/-- The holdings after a movement. -/
def after (f : α → ℤ) (m : Movement α) (a : α) : ℤ := f a - m.debit a + m.credit a

/-- The movement can be made: the amount is not negative, and held by its payer. -/
def Covered (f : α → ℤ) (m : Movement α) : Prop := 0 ≤ m.amount ∧ ∀ a ∈ m.payer, m.amount ≤ f a

instance (f : α → ℤ) (m : Movement α) : Decidable (m.Covered f) :=
  inferInstanceAs (Decidable (_ ∧ ∀ a ∈ m.payer, _))

/-- The token, moved by its movements. -/
def machine : Machine (α → ℤ) (Movement α) Unit :=
  ⟨fun f m => if m.Covered f then .ok (m.after f) else .error ()⟩

variable {f f' : α → ℤ} {m : Movement α} {log : List (Movement α)}

theorem step_eq_ok : machine.step f m = .ok f' ↔ m.Covered f ∧ f' = m.after f := by
  show (if m.Covered f then Except.ok (m.after f) else .error ()) = .ok f' ↔ _
  split
  · rename_i h
    rw [Except.ok.injEq]
    exact ⟨fun h' => ⟨h, h'.symm⟩, fun h' => h'.2.symm⟩
  · rename_i h
    exact ⟨fun h' => (by cases h'), fun h' => absurd h'.1 h⟩

/-- What moves between two ends is taken from one and given to the other. -/
theorem accepts_between {src dst : Option α} {n : ℤ} (hn : 0 ≤ n) (hle : ∀ a ∈ src, n ≤ f a)
    (hf : ∀ x, f' x = f x - (if src = some x then n else 0) + if dst = some x then n else 0) :
    machine.Accepts f (between src dst n) f' := by
  have hone : ∀ m : Movement α, m.Covered f → (∀ x, f' x = m.after f x) → machine.Accepts f [m] f' :=
    fun m hc hm => Machine.accepts_singleton.2 (step_eq_ok.2 ⟨hc, funext hm⟩)
  cases src with
  | none =>
    cases dst with
    | none => exact Machine.accepts_nil.2 (funext fun x => by simp [hf x])
    | some d =>
      refine hone _ ⟨hn, fun a ha => by cases ha⟩ fun x => ?_
      simp [hf x, after, debit, credit, eq_comm]
  | some a =>
    have hc : n ≤ f a := hle a rfl
    cases dst with
    | none =>
      refine hone _ ⟨hn, fun b hb => by cases hb; exact hc⟩ fun x => ?_
      simp [hf x, after, debit, credit, eq_comm]
    | some d =>
      refine hone _ ⟨hn, fun b hb => by cases hb; exact hc⟩ fun x => ?_
      simp [hf x, after, debit, credit, eq_comm]

/-- One holding is adjusted, the others stay. -/
theorem accepts_adjust {a : α} (hpos : 0 ≤ f' a) (hf : ∀ x, x ≠ a → f' x = f x) :
    machine.Accepts f (adjust a (f a) (f' a)) f' := by
  rcases lt_trichotomy (f a) (f' a) with h | h | h
  · rw [adjust, if_pos h]
    show machine.Accepts f (between none (some a) (f' a - f a)) f'
    refine accepts_between (by omega) (fun b hb => by cases hb) fun x => ?_
    by_cases hx : x = a
    · subst hx; simp
    · simp [hf x hx, Ne.symm hx]
  · rw [adjust, h, if_neg (lt_irrefl _), if_neg (lt_irrefl _)]
    refine Machine.accepts_nil.2 (funext fun x => ?_)
    by_cases hx : x = a
    · rw [hx, h]
    · exact (hf x hx).symm
  · rw [adjust, if_neg h.asymm, if_pos h]
    show machine.Accepts f (between (some a) none (f a - f' a)) f'
    refine accepts_between (by omega) (fun b hb => ?_) fun x => ?_
    · cases hb; omega
    · by_cases hx : x = a
      · subst hx; simp
      · simp [hf x hx, Ne.symm hx]

omit [DecidableEq α] in
/-- Only those inside are parties to what moves between two ends. -/
theorem mem_between {src dst : Option α} {n : ℤ} {m : Movement α} (h : m ∈ between src dst n) {a : α}
    (ha : a ∈ m.parties) : src = some a ∨ dst = some a := by
  cases src <;> cases dst <;> simp only [between, List.mem_cons, List.not_mem_nil, or_false] at h <;>
    subst h <;> simp only [parties, List.mem_cons, List.not_mem_nil, or_false] at ha
  · exact .inr (congrArg some ha.symm)
  · exact .inl (congrArg some ha.symm)
  · exact ha.imp (fun ha => congrArg some ha.symm) fun ha => congrArg some ha.symm

omit [DecidableEq α] in
theorem mem_adjust {a b : α} {x y : ℤ} {m : Movement α} (h : m ∈ adjust a x y) (hb : b ∈ m.parties) :
    b = a ∧ x ≠ y := by
  unfold adjust at h
  split at h
  · obtain rfl := List.mem_singleton.1 h
    exact ⟨List.mem_singleton.1 hb, by omega⟩
  · split at h
    · obtain rfl := List.mem_singleton.1 h
      exact ⟨List.mem_singleton.1 hb, by omega⟩
    · cases h

theorem sum_after {s : Finset α} (h : ∀ a ∈ m.parties, a ∈ s) :
    ∑ a ∈ s, m.after f a = ∑ a ∈ s, f a + m.issued - m.retired := by
  simp only [after, Finset.sum_add_distrib, Finset.sum_sub_distrib]
  cases m with
  | move src dst n =>
    have hs := h src (by simp [parties])
    have hd := h dst (by simp [parties])
    simp only [debit, credit, issued, retired, Finset.sum_ite_eq', hs, hd, if_true]
    omega
  | issue dst n =>
    have hd := h dst (by simp [parties])
    simp only [debit, credit, issued, retired, Finset.sum_ite_eq', hd, if_true, Finset.sum_const_zero]
    omega
  | retire src n =>
    have hs := h src (by simp [parties])
    simp only [debit, credit, issued, retired, Finset.sum_ite_eq', hs, if_true, Finset.sum_const_zero]
    omega

/-- What a log takes from a holder. -/
def debits (a : α) (log : List (Movement α)) : ℤ := (log.map (debit a)).sum

/-- What a log gives to a holder. -/
def credits (a : α) (log : List (Movement α)) : ℤ := (log.map (credit a)).sum

/-- What a log issues, less what it retires. -/
def netIssued (log : List (Movement α)) : ℤ := (log.map fun m => m.issued - m.retired).sum

/-- **A holding is what the log debits and credits.** -/
theorem Accepts.eq (h : machine.Accepts f log f') (a : α) : f' a = f a - debits a log + credits a log := by
  refine h.induction (P := fun log g => g a = f a - debits a log + credits a log)
    (by simp [debits, credits]) fun {log g m g'} _ ih hstep => ?_
  obtain ⟨-, rfl⟩ := step_eq_ok.1 hstep
  simp only [debits, credits, List.map_append, List.sum_append, List.map_cons, List.map_nil,
    List.sum_cons, List.sum_nil, after] at ih ⊢
  omega

/-- **Conservation.**  Over holders that include all parties of a log, the sum
    changes by what was issued and retired. -/
theorem Accepts.sum_eq (h : machine.Accepts f log f') {s : Finset α}
    (hs : ∀ m ∈ log, ∀ a ∈ m.parties, a ∈ s) : ∑ a ∈ s, f' a = ∑ a ∈ s, f a + netIssued log := by
  refine h.induction (P := fun log g => (∀ m ∈ log, ∀ a ∈ m.parties, a ∈ s) →
    ∑ a ∈ s, g a = ∑ a ∈ s, f a + netIssued log) (fun _ => by simp [netIssued])
    (fun {log g m g'} _ ih hstep hs => ?_) hs
  obtain ⟨-, rfl⟩ := step_eq_ok.1 hstep
  rw [sum_after (hs m (by simp)), ih fun m' hm' => hs m' (List.mem_append_left _ hm')]
  simp only [netIssued, List.map_append, List.sum_append, List.map_cons, List.map_nil, List.sum_cons,
    List.sum_nil]
  omega

end Movement
