/-
  Processes that can crash.

  A process does things in order and returns a value or stops with an error.
  `Ensures P Q` says that everything it does satisfies `P` and what it returns
  `Q`; it has one rule for each construct.
  A crash after its first `n` events leaves these (`Run.visible`), and of a state
  that is saved now and then the last save among them (`persisted`).  `crashing`
  is the machine whose calls are runs of a process, each with its crash, over
  the persisted state.
-/
import TogetherFi.Lib.Run

/-- What a process did, in order, and what it returned or why it stopped. -/
structure Process (ε ω α : Type*) where
  events : List ω
  result : Except ε α

namespace Process

universe u

variable {ε ω σ : Type*} {α β : Type u}

/-- Stop with an error. -/
def stop (e : ε) : Process ε ω α := ⟨[], .error e⟩

/-- One effect. -/
def emit (w : ω) : Process ε ω Unit := ⟨[w], .ok ()⟩

/-- A step without effect. -/
def ofExcept (x : Except ε α) : Process ε ω α := ⟨[], x⟩

/-- Go on with the value, unless the process has stopped. -/
def bind (p : Process ε ω α) (f : α → Process ε ω β) : Process ε ω β :=
  match p.result with
  | .ok a => ⟨p.events ++ (f a).events, (f a).result⟩
  | .error e => ⟨p.events, .error e⟩

instance : Monad (Process ε ω) where
  pure a := ⟨[], .ok a⟩
  bind := Process.bind

@[simp] theorem pure_events (a : α) : (pure a : Process ε ω α).events = [] := rfl

@[simp] theorem emit_events (w : ω) : (emit w : Process ε ω Unit).events = [w] := rfl

@[simp] theorem emit_result (w : ω) : (emit w : Process ε ω Unit).result = .ok () := rfl

@[simp] theorem ofExcept_events (x : Except ε α) : (ofExcept x : Process ε ω α).events = [] := rfl

@[simp] theorem ofExcept_result (x : Except ε α) : (ofExcept x : Process ε ω α).result = x := rfl

@[simp] theorem stop_events (e : ε) : (stop e : Process ε ω α).events = [] := rfl

@[simp] theorem stop_result (e : ε) : (stop e : Process ε ω α).result = .error e := rfl

/-- **The events of a sequence** are those of its first part, and of the second where
    the first has returned. -/
theorem mem_bind {p : Process ε ω α} {f : α → Process ε ω β} {w : ω} :
    w ∈ (p >>= f).events ↔ w ∈ p.events ∨ ∃ a, p.result = .ok a ∧ w ∈ (f a).events := by
  show w ∈ (Process.bind p f).events ↔ _
  unfold Process.bind
  cases p.result with
  | ok a => simp
  | error e => simp

theorem bind_result {p : Process ε ω α} {f : α → Process ε ω β} {b : β} :
    (p >>= f).result = .ok b ↔ ∃ a, p.result = .ok a ∧ (f a).result = .ok b := by
  show (Process.bind p f).result = .ok b ↔ _
  unfold Process.bind
  cases p.result with
  | ok a => simp
  | error e => simp

/-! ## What a process ensures -/

/-- Every event satisfies `P`, and a returned value satisfies `Q`. -/
structure Ensures (p : Process ε ω α) (P : ω → Prop) (Q : α → Prop) : Prop where
  events : ∀ w ∈ p.events, P w
  result : ∀ a, p.result = .ok a → Q a

section
variable {P P' : ω → Prop} {Q Q' : α → Prop} {R : β → Prop} {p : Process ε ω α}
  {f : α → Process ε ω β}

theorem ensures_pure {a : α} (h : Q a) : (pure a : Process ε ω α).Ensures P Q := by
  refine ⟨fun w hw => ?_, fun b hb => ?_⟩
  · cases hw
  · obtain rfl := Except.ok.inj hb
    exact h

theorem ensures_stop {e : ε} : (stop e : Process ε ω α).Ensures P Q := by
  refine ⟨fun w hw => ?_, fun b hb => ?_⟩
  · cases hw
  · cases hb

theorem ensures_emit {w : ω} (h : P w) : (emit w : Process ε ω Unit).Ensures P fun _ => True := by
  refine ⟨fun v hv => ?_, fun _ _ => trivial⟩
  rw [List.mem_singleton.1 hv]
  exact h

theorem ensures_ofExcept (x : Except ε α) :
    (ofExcept x : Process ε ω α).Ensures P fun a => x = .ok a := by
  refine ⟨fun w hw => ?_, fun _ h => h⟩
  cases hw

/-- **The rule of sequences**: what the first part returns, the second is run with. -/
theorem Ensures.bind (hp : p.Ensures P Q) (hf : ∀ a, Q a → (f a).Ensures P R) :
    (p >>= f).Ensures P R := by
  constructor
  · intro w hw
    rcases mem_bind.1 hw with hw | ⟨a, ha, hw⟩
    · exact hp.events w hw
    · exact (hf a (hp.result a ha)).events w hw
  · intro b hb
    obtain ⟨a, ha, hb⟩ := bind_result.1 hb
    exact (hf a (hp.result a ha)).result b hb

theorem Ensures.mono (hp : p.Ensures P Q) (hP : ∀ w, P w → P' w) (hQ : ∀ a, Q a → Q' a) :
    p.Ensures P' Q' :=
  ⟨fun w hw => hP w (hp.events w hw), fun a ha => hQ a (hp.result a ha)⟩

end

/-! ## Crashes -/

/-- The state that is left by the events: the last one saved. -/
def persisted (saved : ω → Option σ) (s : σ) (ws : List ω) : σ :=
  ws.foldl (fun s w => (saved w).getD s) s

/-- **What every save keeps, the persisted state keeps.** -/
theorem persisted_invariant {saved : ω → Option σ} {I : σ → Prop} {s : σ} {ws : List ω} (hs : I s)
    (h : ∀ w ∈ ws, ∀ s', saved w = some s' → I s') : I (persisted saved s ws) := by
  unfold persisted
  induction ws generalizing s with
  | nil => exact hs
  | cons w ws ih =>
    rw [List.foldl_cons]
    refine ih ?_ fun v hv => h v (List.mem_cons_of_mem w hv)
    cases hw : saved w with
    | none => exact hs
    | some s' => exact h w List.mem_cons_self s' hw

/-- One run of a process: what it is given, and how many events it gets to. -/
structure Run (α : Type*) where
  input : α
  crash : ℕ

/-- The events of a run up to its crash. -/
def Run.visible (process : σ → α → Process ε ω β) (s : σ) (r : Run α) : List ω :=
  (process s r.input).events.take r.crash

/-- Runs one after another over the persisted state; no run is rejected. -/
def crashing (saved : ω → Option σ) (process : σ → α → Process ε ω β) : Machine σ (Run α) Empty :=
  ⟨fun s r => .ok (persisted saved s (r.visible process s))⟩

/-- Every run takes effect. -/
theorem crashing_trace (saved : ω → Option σ) (process : σ → α → Process ε ω β) (s : σ)
    (r : Run α) : ∃ t ∈ (crashing saved process).trace s [r], t.pre = s ∧ t.act = r := by
  rw [Machine.trace_cons_ok (M := crashing saved process) (s := s) (a := r) rfl]
  exact ⟨_, List.mem_cons_self, rfl, rfl⟩

/-- **Invariants of the persisted state.** -/
theorem crashing_invariant {saved : ω → Option σ} {process : σ → α → Process ε ω β} {I : σ → Prop}
    (hstep : ∀ s a, I s → ∀ w ∈ (process s a).events, ∀ s', saved w = some s' → I s') {s : σ}
    (hs : I s) (rs : List (Run α)) : I ((crashing saved process).run s rs) := by
  refine Machine.run_invariant (A := fun _ => True) (fun t _ ht => ?_) hs (fun _ _ => trivial)
  rw [← Except.ok.inj t.ok]
  exact persisted_invariant ht fun w hw => hstep t.pre t.act.input ht w (List.mem_of_mem_take hw)

/-- **What holds of the events of every run.** -/
theorem crashing_events {saved : ω → Option σ} {process : σ → α → Process ε ω β} {I : σ → Prop}
    {P : ω → Prop}
    (hstep : ∀ s a, I s → ∀ w ∈ (process s a).events, P w ∧ ∀ s', saved w = some s' → I s') {s : σ}
    (hs : I s) {rs : List (Run α)} {t : Machine.Step (crashing saved process)}
    (ht : t ∈ (crashing saved process).trace s rs) :
    I t.pre ∧ ∀ w ∈ t.act.visible process t.pre, P w := by
  obtain ⟨bs, cs, -, hpre, -⟩ := Machine.mem_trace ht
  have hI : I t.pre := by
    rw [hpre]
    exact crashing_invariant (fun s a hs w hw => (hstep s a hs w hw).2) hs bs
  exact ⟨hI, fun w hw => (hstep t.pre t.act.input hI w (List.mem_of_mem_take hw)).1⟩

end Process
