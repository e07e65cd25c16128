/-
  Logs, and what can be rebuilt from them.

  `N.Accepts b log b'` says that every call of `log` takes effect on the machine
  `N`, and that together they lead from `b` to `b'`.  `Explains` connects two
  machines: whatever takes effect on the first is observed as calls the second
  accepts, and the relation `R` between their states is kept.  `Explains.run`
  carries this to whole runs, so that the second machine, fed with nothing but
  the observations, ends in a state related to the one the first is in.
-/
import TogetherFi.Lib.Run

namespace Machine

variable {σ α ε τ β δ : Type*}

/-- The calls of `log` all take effect, and lead from `s` to `s'`. -/
def Accepts (M : Machine σ α ε) (s : σ) (log : List α) (s' : σ) : Prop := M.runAll s log = .ok s'

section
variable {M : Machine σ α ε} {s s₁ s₂ : σ} {a : α} {as bs : List α}

@[simp] theorem accepts_nil : M.Accepts s [] s₁ ↔ s = s₁ :=
  ⟨fun h => Except.ok.inj h, fun h => congrArg Except.ok h⟩

theorem accepts_cons : M.Accepts s (a :: as) s₂ ↔ ∃ s₁, M.step s a = .ok s₁ ∧ M.Accepts s₁ as s₂ := by
  unfold Accepts
  cases h : M.step s a with
  | ok s₁ => simp [runAll_cons_ok h]
  | error e =>
    rw [runAll, List.foldlM_cons, h]
    constructor
    · intro h; cases h
    · rintro ⟨_, h, -⟩; cases h

@[simp] theorem accepts_singleton : M.Accepts s [a] s₁ ↔ M.step s a = .ok s₁ := by
  rw [accepts_cons]
  constructor
  · rintro ⟨s', h, hs⟩
    rw [← accepts_nil.1 hs]; exact h
  · intro h
    exact ⟨s₁, h, accepts_nil.2 rfl⟩

theorem accepts_append : M.Accepts s (as ++ bs) s₂ ↔ ∃ s₁, M.Accepts s as s₁ ∧ M.Accepts s₁ bs s₂ := by
  induction as generalizing s with
  | nil => simp
  | cons a as ih =>
    rw [List.cons_append, accepts_cons]
    constructor
    · rintro ⟨s', ha, h⟩
      obtain ⟨s₁, h₁, h₂⟩ := ih.1 h
      exact ⟨s₁, accepts_cons.2 ⟨s', ha, h₁⟩, h₂⟩
    · rintro ⟨s₁, h₁, h₂⟩
      obtain ⟨s', ha, h₁⟩ := accepts_cons.1 h₁
      exact ⟨s', ha, ih.2 ⟨s₁, h₁, h₂⟩⟩

/-- A log leads to one state only. -/
theorem Accepts.unique (h₁ : M.Accepts s as s₁) (h₂ : M.Accepts s as s₂) : s₁ = s₂ :=
  Except.ok.inj (h₁.symm.trans h₂)

/-- **Induction over accepted logs**, one call after another. -/
theorem Accepts.induction {P : List α → σ → Prop} (h₀ : P [] s)
    (hstep : ∀ {log b a b'}, M.Accepts s log b → P log b → M.step b a = .ok b' → P (log ++ [a]) b')
    {log : List α} {s' : σ} (h : M.Accepts s log s') : P log s' := by
  induction log using List.reverseRecOn generalizing s' with
  | nil => rw [← accepts_nil.1 h]; exact h₀
  | append_singleton log a ih =>
    obtain ⟨b, hlog, ha⟩ := accepts_append.1 h
    exact hstep hlog (ih hlog) (accepts_singleton.1 ha)

end

/-- **One machine explains another.**  `obs` is what is seen of a call. -/
structure Explains (M : Machine σ α ε) (N : Machine τ β δ) (obs : M.Step → List β)
    (R : σ → τ → Prop) : Prop where
  step : ∀ (t : M.Step) {b : τ}, R t.pre b → ∃ b', N.Accepts b (obs t) b' ∧ R t.post b'

/-- **The explanation of a run.**  What is observed of a run is a log the second
    machine accepts, and the states at the end are related. -/
theorem Explains.run {M : Machine σ α ε} {N : Machine τ β δ} {obs : M.Step → List β}
    {R : σ → τ → Prop} (h : Explains M N obs R) {s : σ} {b : τ} (hR : R s b) (as : List α) :
    ∃ b', N.Accepts b ((M.trace s as).flatMap obs) b' ∧ R (M.run s as) b' := by
  refine trace_induction (A := fun _ => True)
    (P := fun tr s' => ∃ b', N.Accepts b (tr.flatMap obs) b' ∧ R s' b') ⟨b, accepts_nil.2 rfl, hR⟩
    (fun as t _ _ hpre ih => ?_) as fun _ _ => trivial
  obtain ⟨b₁, hlog, hR₁⟩ := ih
  obtain ⟨b₂, hobs, hR₂⟩ := h.step t hR₁
  refine ⟨b₂, ?_, hR₂⟩
  rw [List.flatMap_append, List.flatMap_singleton]
  exact accepts_append.2 ⟨b₁, hlog, hobs⟩

end Machine
