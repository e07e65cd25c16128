/-
  Interactive programs whose failing frames are rolled back.

  A stateful call fails with what it has done so far (`EStateM`).  A `Program`
  is anything that issues such calls one after another, each chosen by the
  replies so far, errors included, and that runs parts of itself in frames: a
  frame that fails is rolled back to the mark taken when it was entered.

  Two implementations of the calls are compared through a `Coupling`: a relation
  between their states, and what only grows in the first one, with the states
  that are `good`.  A `Triple` says that one computation does what another does
  wherever it ends well; triples are composed by `Triple.bind` and carried to
  whole programs by `Program.run_follows`.
-/
import Mathlib.Tactic.Basic
import Mathlib.Data.Nat.Notation

namespace Session

variable {ε σ τ χ α β : Type}

/-! ## Computations -/

/-- The state a computation ends in, whether or not it fails. -/
def state : EStateM.Result ε σ α → σ
  | .ok _ s => s
  | .error _ s => s

/-- The value or the error. -/
def outcome : EStateM.Result ε σ α → Except ε α
  | .ok a _ => .ok a
  | .error e _ => .error e

@[simp] theorem state_ok (a : α) (s : σ) : state (.ok a s : EStateM.Result ε σ α) = s := rfl

@[simp] theorem state_error (e : ε) (s : σ) : state (.error e s : EStateM.Result ε σ α) = s := rfl

@[simp] theorem outcome_ok (a : α) (s : σ) :
    outcome (.ok a s : EStateM.Result ε σ α) = .ok a := rfl

@[simp] theorem outcome_error (e : ε) (s : σ) :
    outcome (.error e s : EStateM.Result ε σ α) = .error e := rfl

/-- `?` on a result that does not touch the state -/
def attempt (r : Except ε α) : EStateM ε σ α :=
  fun s => match r with
    | .ok a => .ok a s
    | .error e => .error e s

/-- An update of the state that fails without effect. -/
def amend (f : σ → Except ε σ) : EStateM ε σ Unit :=
  fun s => match f s with
    | .ok s' => .ok () s'
    | .error e => .error e s

/-- A look at the state. -/
def query (f : σ → Except ε α) : EStateM ε σ α :=
  fun s => match f s with
    | .ok a => .ok a s
    | .error e => .error e s

/-- A computation on the first of two parts of the state. -/
def onFirst (x : EStateM ε σ α) : EStateM ε (σ × χ) α :=
  fun s => match x s.1 with
    | .ok a s' => .ok a (s', s.2)
    | .error e s' => .error e (s', s.2)

@[simp] theorem state_onFirst (x : EStateM ε σ α) (s : σ × χ) :
    state (onFirst x s) = (state (x s.1), s.2) := by
  unfold onFirst
  cases x s.1 <;> rfl

theorem amend_ok {f : σ → Except ε σ} {s s' : σ} (h : f s = .ok s') : amend f s = .ok () s' := by
  rw [amend, h]

theorem amend_error {f : σ → Except ε σ} {s : σ} {e : ε} (h : f s = .error e) :
    amend f s = .error e s := by
  rw [amend, h]

theorem query_ok {f : σ → Except ε α} {s : σ} {a : α} (h : f s = .ok a) : query f s = .ok a s := by
  rw [query, h]

theorem bind_ok {x : EStateM ε σ α} {f : α → EStateM ε σ β} {s s' : σ} {a : α} (h : x s = .ok a s') :
    (x >>= f) s = f a s' := by
  change EStateM.bind x f s = f a s'
  rw [EStateM.bind, h]

theorem bind_error {x : EStateM ε σ α} {f : α → EStateM ε σ β} {s s' : σ} {e : ε}
    (h : x s = .error e s') : (x >>= f) s = .error e s' := by
  change EStateM.bind x f s = .error e s'
  rw [EStateM.bind, h]

@[simp] theorem attempt_ok_bind (a : α) (f : α → EStateM ε σ β) : (attempt (.ok a) >>= f) = f a := rfl

theorem bind_state {x : EStateM ε σ α} {f : α → EStateM ε σ β} {s : σ} {G : σ → σ → Prop}
    (trans : ∀ {s₁ s₂ s₃}, G s₁ s₂ → G s₂ s₃ → G s₁ s₃) (h : G s (state (x s)))
    (hf : ∀ a s', G s' (state (f a s'))) : G s (state ((x >>= f) s)) := by
  cases hs : x s with
  | ok a s' =>
    rw [hs] at h
    rw [bind_ok hs]
    exact trans h (hf a s')
  | error e s' =>
    rw [hs] at h
    rw [bind_error hs]
    exact h

/-- The same value, in states related by `Q`, or the same error, in states related by `R`. -/
inductive Agree (R : σ → τ → Prop) (Q : α → σ → τ → Prop) :
    EStateM.Result ε σ α → EStateM.Result ε τ α → Prop where
  | ok (a : α) {s : σ} {t : τ} (h : Q a s t) : Agree R Q (.ok a s) (.ok a t)
  | error (e : ε) {s : σ} {t : τ} (h : R s t) : Agree R Q (.error e s) (.error e t)

namespace Agree

variable {R : σ → τ → Prop} {Q : α → σ → τ → Prop} {x : EStateM.Result ε σ α}
  {y : EStateM.Result ε τ α}

theorem outcome_eq (h : Agree R Q x y) : outcome x = outcome y := by
  cases h <;> rfl

theorem rel (h : Agree R (fun _ => R) x y) : R (state x) (state y) := by
  cases h <;> assumption

end Agree

/-! ## Couplings -/

/-- How the states of two implementations are compared, and what only grows in
    the first one: what ends `good` was good all along. -/
structure Coupling (σ τ : Type) where
  grows : σ → σ → Prop
  good : σ → Prop
  rel : σ → τ → Prop
  refl : ∀ s, grows s s
  trans : ∀ {s₁ s₂ s₃}, grows s₁ s₂ → grows s₂ s₃ → grows s₁ s₃
  good_of : ∀ {s s'}, grows s s' → good s' → good s

/-- Next to a part of the state that is the same on both sides. -/
def Coupling.beside (C : Coupling σ τ) (χ : Type) : Coupling (σ × χ) (τ × χ) where
  grows s s' := C.grows s.1 s'.1
  good s := C.good s.1
  rel s t := C.rel s.1 t.1 ∧ s.2 = t.2
  refl s := C.refl s.1
  trans h h' := C.trans h h'
  good_of h h' := C.good_of h h'

/-- From states related by `P` the computation `x` does what `y` does, wherever it ends
    well: `Q` relates the states after a value, the coupling those after an error. -/
structure Triple (C : Coupling σ τ) (P : σ → τ → Prop) (x : EStateM ε σ α) (y : EStateM ε τ α)
    (Q : α → σ → τ → Prop) : Prop where
  grows : ∀ s, C.grows s (state (x s))
  agrees : ∀ {s t}, P s t → C.good (state (x s)) → Agree C.rel Q (x s) (y t)

/-- `x` does what `y` does, from related states to related states. -/
abbrev Follows (C : Coupling σ τ) (x : EStateM ε σ α) (y : EStateM ε τ α) : Prop :=
  Triple C C.rel x y fun _ => C.rel

namespace Triple

variable {C : Coupling σ τ} {P : σ → τ → Prop}

theorem pure {Q : α → σ → τ → Prop} (a : α) (h : ∀ {s t}, P s t → Q a s t) :
    Triple C P (Pure.pure a : EStateM ε σ α) (Pure.pure a) Q where
  grows s := C.refl s
  agrees hst _ := .ok a (h hst)

theorem attempt {Q : α → σ → τ → Prop} (r : Except ε α) (hr : ∀ {s t}, P s t → C.rel s t)
    (h : ∀ {a s t}, P s t → Q a s t) : Triple C P (attempt r) (attempt r) Q where
  grows s := by cases r <;> exact C.refl s
  agrees hst _ := by
    cases r with
    | ok a => exact .ok a (h hst)
    | error e => exact .error e (hr hst)

/-- **Computations that agree step by step agree as a whole.** -/
theorem bind {x : EStateM ε σ α} {y : EStateM ε τ α} {f : α → EStateM ε σ β} {g : α → EStateM ε τ β}
    {Q : α → σ → τ → Prop} {Q' : β → σ → τ → Prop} (h : Triple C P x y Q)
    (hf : ∀ a, Triple C (Q a) (f a) (g a) Q') : Triple C P (x >>= f) (y >>= g) Q' where
  grows s := bind_state C.trans (h.grows s) fun a s' => (hf a).grows s'
  agrees {s t} hst hgood := by
    cases hs : x s with
    | ok a s' =>
      rw [bind_ok hs] at hgood ⊢
      have hagree := h.agrees hst (by rw [hs]; exact C.good_of ((hf a).grows s') hgood)
      rw [hs] at hagree
      generalize ht : y t = yt at hagree
      cases hagree with
      | ok _ h' =>
        rw [bind_ok ht]
        exact (hf a).agrees h' hgood
    | error e s' =>
      rw [bind_error hs] at hgood ⊢
      have hagree := h.agrees hst (by rw [hs]; exact hgood)
      rw [hs] at hagree
      generalize ht : y t = yt at hagree
      cases hagree with
      | error _ h' =>
        rw [bind_error ht]
        exact .error e h'

theorem ite {p : Prop} [Decidable p] {x x' : EStateM ε σ α} {y y' : EStateM ε τ α}
    {Q : α → σ → τ → Prop} (h : Triple C P x y Q) (h' : Triple C P x' y' Q) :
    Triple C P (if p then x else x') (if p then y else y') Q := by
  split
  · exact h
  · exact h'

/-- A part of the state that neither of the two touches stays the same. -/
theorem onFirst {x : EStateM ε σ α} {y : EStateM ε τ α} (h : Follows C x y) (χ : Type) :
    Follows (C.beside χ) (onFirst x) (onFirst y) where
  grows s := by
    have hx := h.grows s.1
    rw [state_onFirst]
    exact hx
  agrees {s t} hst hgood := by
    rw [state_onFirst] at hgood
    have hagree := h.agrees hst.1 hgood
    unfold Session.onFirst
    cases hs : x s.1 with
    | ok a s' =>
      rw [hs] at hagree
      generalize y t.1 = yt at hagree
      cases hagree with
      | ok _ h' => exact .ok a ⟨h', hst.2⟩
    | error e s' =>
      rw [hs] at hagree
      generalize y t.1 = yt at hagree
      cases hagree with
      | error _ h' => exact .error e ⟨h', hst.2⟩

end Triple

/-! ## Programs -/

/-- A program: it ends, issues a call and goes on with the reply or the error, or
    runs a part of itself in a frame. -/
inductive Program (ω ρ ε α : Type) where
  | done (r : Except ε α)
  | call (o : ω) (k : Except ε ρ → Program ω ρ ε α)
  | frame (body : Program ω ρ ε α) (k : Except ε α → Program ω ρ ε α)

/-- An implementation of the calls, what a frame is rolled back to, and how deep
    frames may be nested. -/
structure Handler (ω ρ ε σ : Type) where
  exec : ω → EStateM ε σ ρ
  /-- the state after a frame, entered in the first one, failed in the second -/
  rollback : σ → σ → σ
  limit : ℕ
  tooDeep : ε

namespace Program

variable {ω ρ : Type}

/-- What a frame leaves behind. -/
def leave (H : Handler ω ρ ε σ) (s : σ) : EStateM.Result ε σ α → σ
  | .ok _ s' => s'
  | .error _ s' => H.rollback s s'

/-- A program under an implementation, in a frame of the given depth. -/
def run (H : Handler ω ρ ε σ) : ℕ → Program ω ρ ε α → EStateM ε σ α
  | _, .done (.ok a) => fun s => .ok a s
  | _, .done (.error e) => fun s => .error e s
  | depth, .call o k => fun s =>
    (k (outcome (H.exec o s))).run H depth (state (H.exec o s))
  | depth, .frame body k => fun s =>
    if H.limit ≤ depth then (k (.error H.tooDeep)).run H depth s
    else
      (k (outcome (body.run H (depth + 1) s))).run H depth (leave H s (body.run H (depth + 1) s))

variable {H : Handler ω ρ ε σ} {H' : Handler ω ρ ε τ}

theorem run_call (o : ω) (k : Except ε ρ → Program ω ρ ε α) (depth : ℕ) (s : σ) :
    (call o k).run H depth s = (k (outcome (H.exec o s))).run H depth (state (H.exec o s)) := rfl

theorem run_frame (body : Program ω ρ ε α) (k : Except ε α → Program ω ρ ε α) (depth : ℕ) (s : σ) :
    (frame body k).run H depth s =
      if H.limit ≤ depth then (k (.error H.tooDeep)).run H depth s
      else (k (outcome (body.run H (depth + 1) s))).run H depth
        (leave H s (body.run H (depth + 1) s)) := rfl

/-- **What calls and rollbacks keep, programs keep.** -/
theorem run_grows {G : σ → σ → Prop} (refl : ∀ s, G s s)
    (trans : ∀ {s₁ s₂ s₃}, G s₁ s₂ → G s₂ s₃ → G s₁ s₃) (hexec : ∀ o s, G s (state (H.exec o s)))
    (hroll : ∀ {s s'}, G s s' → G s (H.rollback s s')) (p : Program ω ρ ε α) (depth : ℕ) (s : σ) :
    G s (state (p.run H depth s)) := by
  induction p generalizing depth s with
  | done r => cases r <;> exact refl s
  | call o k ih =>
    rw [run_call]
    exact trans (hexec o s) (ih _ depth _)
  | frame body k ihb ihk =>
    rw [run_frame]
    split
    · exact ihk _ depth s
    · refine trans ?_ (ihk _ depth _)
      have hb := ihb (depth + 1) s
      cases hr : body.run H (depth + 1) s with
      | ok a s' => rw [hr] at hb; exact hb
      | error e s' => rw [hr] at hb; exact hroll hb

/-- **An implementation follows another on whole programs** if it does so on
    every call and the rollbacks keep the states related. -/
theorem run_follows {C : Coupling σ τ} (hexec : ∀ o, Follows C (H.exec o) (H'.exec o))
    (hlimit : H.limit = H'.limit) (hdeep : H.tooDeep = H'.tooDeep)
    (hgrows : ∀ {s s'}, C.grows s s' → C.grows s' (H.rollback s s'))
    (hroll : ∀ {s s' t t'}, C.grows s s' → C.good s' → C.rel s t → C.rel s' t' →
      C.rel (H.rollback s s') (H'.rollback t t'))
    (p : Program ω ρ ε α) (depth : ℕ) : Follows C (p.run H depth) (p.run H' depth) := by
  have grows (q : Program ω ρ ε α) (depth : ℕ) (s : σ) : C.grows s (state (q.run H depth s)) :=
    run_grows C.refl C.trans (fun o => (hexec o).grows) (fun h => C.trans h (hgrows h)) q depth s
  refine ⟨grows p depth, fun {s t} hst hgood => ?_⟩
  induction p generalizing depth s t with
  | done r =>
    cases r with
    | ok a => exact .ok a hst
    | error e => exact .error e hst
  | call o k ih =>
    rw [run_call] at hgood
    have hg := C.good_of (grows _ depth _) hgood
    have hagree := (hexec o).agrees hst hg
    rw [run_call, run_call, ← hagree.outcome_eq]
    exact ih _ depth hagree.rel hgood
  | frame body k ihb ihk =>
    rw [run_frame] at hgood
    rw [run_frame, run_frame, ← hlimit]
    split
    · next hd =>
      rw [if_pos hd] at hgood
      rw [← hdeep]
      exact ihk _ depth hst hgood
    · next hd =>
      rw [if_neg hd] at hgood
      have hg := C.good_of (grows _ depth _) hgood
      have hb := grows body (depth + 1) s
      cases hr : body.run H (depth + 1) s with
      | ok a s' =>
        rw [hr] at hg hgood
        have hagree := ihb (depth + 1) hst (by rw [hr]; exact hg)
        rw [hr] at hagree
        generalize ht : body.run H' (depth + 1) t = rt at hagree
        cases hagree with
        | ok _ h' => exact ihk _ depth h' hgood
      | error e s' =>
        rw [hr] at hb hg hgood
        have hg' : C.good s' := C.good_of (hgrows hb) hg
        have hagree := ihb (depth + 1) hst (by rw [hr]; exact hg')
        rw [hr] at hagree
        generalize ht : body.run H' (depth + 1) t = rt at hagree
        cases hagree with
        | error _ h' => exact ihk _ depth (hroll hb hg' hst h') hgood

end Program

/-! ## Lists of results -/

theorem exists_mapM {f : α → Except ε β} {l : List α} (h : ∀ x ∈ l, ∃ y, f x = .ok y) :
    ∃ ys, l.mapM f = .ok ys := by
  induction l with
  | nil => exact ⟨[], rfl⟩
  | cons x l ih =>
    obtain ⟨y, hy⟩ := h x (by simp)
    obtain ⟨ys, hys⟩ := ih fun z hz => h z (by simp [hz])
    refine ⟨y :: ys, ?_⟩
    rw [List.mapM_cons, hy, hys]
    rfl

theorem mapM_cons_eq_ok {f : α → Except ε β} {x : α} {l : List α} {ys : List β}
    (h : (x :: l).mapM f = .ok ys) : ∃ y ys', f x = .ok y ∧ l.mapM f = .ok ys' ∧ ys = y :: ys' := by
  rw [List.mapM_cons] at h
  cases hx : f x with
  | error e =>
    rw [hx] at h
    cases h
  | ok y =>
    cases hl : l.mapM f with
    | error e =>
      rw [hx, hl] at h
      cases h
    | ok ys' =>
      rw [hx, hl] at h
      cases h
      exact ⟨y, ys', rfl, rfl, rfl⟩

/-- The results of a list of calls that all succeed are those of its members. -/
theorem mem_mapM {f : α → Except ε β} {l : List α} {ys : List β} (h : l.mapM f = .ok ys) {y : β} :
    y ∈ ys ↔ ∃ x ∈ l, f x = .ok y := by
  induction l generalizing ys with
  | nil =>
    cases h
    simp
  | cons x l ih =>
    obtain ⟨z, ys', hx, hl, rfl⟩ := mapM_cons_eq_ok h
    rw [List.mem_cons, ih hl]
    constructor
    · rintro (rfl | ⟨x', hx', hy⟩)
      · exact ⟨x, by simp, hx⟩
      · exact ⟨x', by simp [hx'], hy⟩
    · rintro ⟨x', hx', hy⟩
      rcases List.mem_cons.1 hx' with rfl | hx'
      · rw [hx] at hy
        exact Or.inl (Except.ok.inj hy).symm
      · exact Or.inr ⟨x', hx', hy⟩

theorem mapM_ok_mem {f : α → Except ε β} {l : List α} {ys : List β} (h : l.mapM f = .ok ys) {x : α}
    (hx : x ∈ l) : ∃ y ∈ ys, f x = .ok y := by
  induction l generalizing ys with
  | nil => cases hx
  | cons z l ih =>
    obtain ⟨y, ys', hz, hl, rfl⟩ := mapM_cons_eq_ok h
    rcases List.mem_cons.1 hx with rfl | hx
    · exact ⟨y, by simp, hz⟩
    · obtain ⟨y', hy', hf⟩ := ih hl hx
      exact ⟨y', by simp [hy'], hf⟩

theorem mapM_congr {f g : α → Except ε β} {l : List α} (h : ∀ x ∈ l, f x = g x) :
    l.mapM f = l.mapM g := by
  induction l with
  | nil => rfl
  | cons x l ih => rw [List.mapM_cons, List.mapM_cons, h x (by simp), ih fun z hz => h z (by simp [hz])]

theorem map_mapM {γ : Type} {f : α → Except ε β} {g : β → γ} {k : α → γ} {l : List α} {ys : List β}
    (h : l.mapM f = .ok ys) (hg : ∀ x y, f x = .ok y → g y = k x) : ys.map g = l.map k := by
  induction l generalizing ys with
  | nil =>
    cases h
    rfl
  | cons x l ih =>
    obtain ⟨z, ys', hx, hl, rfl⟩ := mapM_cons_eq_ok h
    rw [List.map_cons, List.map_cons, hg x z hx, ih hl]

end Session
