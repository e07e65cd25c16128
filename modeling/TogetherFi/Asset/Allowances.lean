/-
  What an allowance of the asset lets others take, and how long it lasts.

  * `holder_loses_at_most`: a contract that cannot be clawed back from loses at most
    what it spends and what it allows.
  * `allowance_left`: through the ledger it names, an allowance is what was approved
    less what was drawn since; it is nothing after that.
-/
import TogetherFi.Asset.Holdings

namespace TogetherFi

open Outcome Function

namespace Asset

variable {inv : Invocation} {s s' s₁ s₂ : Storage} {c : Call} {a holder spender : Address} {n : ℤ}
  {liveUntil id : ℕ} {li li' : LedgerInfo} {w : Chain}

/-! ## Reading an allowance -/

theorem readAllowance_congr (h : s'.allowance holder spender = s.allowance holder spender) :
    readAllowance li holder spender s' = readAllowance li holder spender s := by
  unfold readAllowance Storage.liveAllowance
  rw [h]

theorem readAllowance_live {e : Temporary AllowanceValue} (h : s.liveAllowance li holder spender = some e)
    (hlive : li.sequenceNumber ≤ e.value.liveUntilLedger) :
    readAllowance li holder spender s = e.value.amount := by
  unfold readAllowance
  rw [h]
  exact if_neg (not_lt.2 hlive)

theorem readAllowance_le_of_close (hv : s.Valid) (h : li.sequenceNumber ≤ li'.sequenceNumber) :
    readAllowance li' holder spender s ≤ readAllowance li holder spender s := by
  unfold readAllowance
  cases hl : s.liveAllowance li' holder spender with
  | none => exact hv.readAllowance_nonneg ..
  | some e =>
    obtain ⟨he, hlive⟩ := Storage.liveAllowance_eq_some.1 hl
    have hold : s.liveAllowance li holder spender = some e :=
      Storage.liveAllowance_eq_some.2 ⟨he, h.trans hlive⟩
    have hpos := hv.allowance _ _ e he
    simp only [hold]
    split
    · split <;> omega
    · split <;> omega

/-- **What an approval allows.** -/
theorem readAllowance_approve (hn : 0 ≤ n) (h : writeAllowance li holder spender n liveUntil s = .ok s') :
    readAllowance li holder spender s' ≤ n ∧
      ∀ x y, ¬ (x = holder ∧ y = spender) → s'.allowance x y = s.allowance x y := by
  obtain ⟨-, -, ⟨rfl, hnone, -⟩ | ⟨life, hw⟩⟩ := writeAllowance_ok h
  · refine ⟨?_, fun _ _ _ => rfl⟩
    unfold readAllowance
    rw [hnone]
    exact hn
  · rw [hw.write]
    refine ⟨?_, fun x y hxy => ?_⟩
    · unfold readAllowance
      split
      · rename_i e he
        obtain ⟨he, -⟩ := Storage.liveAllowance_eq_some.1 he
        obtain rfl : _ = e := by simpa using he
        split
        · exact hn
        · exact le_rfl
      · exact hn
    · by_cases hx : x = holder
      · subst hx
        have hy : y ≠ spender := fun hy => hxy ⟨rfl, hy⟩
        simp [hy]
      · simp [hx]

/-- What a call draws from what `holder` allows `spender`. -/
def Call.drawn (holder spender : Address) (c : Call) : ℤ :=
  if c.payer = some holder ∧ c.spender = some spender then c.amount else 0

/-- **What a call that moves the asset draws on**: a live allowance of at least the
    amount, which keeps its ledger and its life. -/
theorem Moved.allowance (hv : s.Valid) (h : Moved inv c s s₁ s₂ s') (holder spender : Address) :
    c.drawn holder spender ≤ readAllowance inv.ledger holder spender s ∧
      (c.drawn holder spender = 0 ∧ s'.allowance holder spender = s.allowance holder spender ∨
        ∃ e, s.liveAllowance inv.ledger holder spender = some e ∧
          inv.ledger.sequenceNumber ≤ e.value.liveUntilLedger ∧
          s'.allowance holder spender =
            some ⟨⟨e.value.amount - c.drawn holder spender, e.value.liveUntilLedger⟩, e.liveUntil⟩) := by
  obtain ⟨-, hterms, -⟩ := h.received_ok hv
  rw [hterms.allowance]
  have hpos := hv.readAllowance_nonneg inv.ledger holder spender
  have hd := h.drawn
  cases hsp : c.spender with
  | none =>
    rw [hsp] at hd
    obtain rfl := Except.ok.inj hd
    have hz : c.drawn holder spender = 0 := if_neg fun hc => by rw [hsp] at hc; cases hc.2
    exact ⟨hz ▸ hpos, .inl ⟨hz, rfl⟩⟩
  | some sp =>
    cases hp : c.payer with
    | none =>
      rw [hsp, hp] at hd
      obtain rfl := Except.ok.inj hd
      have hz : c.drawn holder spender = 0 := if_neg fun hc => by rw [hp] at hc; cases hc.1
      exact ⟨hz ▸ hpos, .inl ⟨hz, rfl⟩⟩
    | some src =>
      rw [hsp, hp] at hd
      obtain ⟨hle, hcase⟩ := spendAllowance_ok h.nonneg hd
      by_cases hpair : src = holder ∧ sp = spender
      · obtain ⟨rfl, rfl⟩ := hpair
        have hc : c.drawn src sp = c.amount := if_pos ⟨hp, hsp⟩
        rw [hc]
        refine ⟨hle, ?_⟩
        obtain ⟨hz, rfl⟩ | ⟨e, he, hlive, -, rfl⟩ := hcase
        · exact .inl ⟨hz, rfl⟩
        · exact .inr ⟨e, he, hlive, by simp⟩
      · have hz : c.drawn holder spender = 0 := if_neg fun hc => by
          rw [hp, hsp] at hc
          exact hpair ⟨Option.some.inj hc.1, Option.some.inj hc.2⟩
        refine ⟨hz ▸ hpos, .inl ⟨hz, ?_⟩⟩
        obtain ⟨-, rfl⟩ | ⟨e, -, -, -, rfl⟩ := hcase
        · rfl
        · by_cases hx : holder = src
          · subst hx
            have hy : spender ≠ sp := fun hy => hpair ⟨rfl, hy.symm⟩
            simp [hy]
          · simp [hx]

theorem Moved.readAllowance (hv : s.Valid) (h : Moved inv c s s₁ s₂ s') (holder spender : Address) :
    readAllowance inv.ledger holder spender s' =
      readAllowance inv.ledger holder spender s - c.drawn holder spender := by
  obtain ⟨-, ⟨hz, hsame⟩ | ⟨e, he, hlive, hs'⟩⟩ := h.allowance hv holder spender
  · rw [hz, sub_zero]
    exact readAllowance_congr hsame
  · rw [readAllowance_live he hlive]
    have hnew := Storage.liveAllowance_eq_some.2 ⟨hs', (Storage.liveAllowance_eq_some.1 he).2⟩
    exact readAllowance_live hnew hlive

/-! ## What a holder loses -/

/-- What a call lets go of `a`'s holding: what `a` spends, or allows. -/
def Call.outlay (a : Address) : Call → ℤ
  | .transfer src _ n | .burn src n => if src = a then n else 0
  | .approve holder _ n _ => if holder = a then n else 0
  | _ => 0

theorem Call.outlay_nonneg (h : c.exec inv s = .ok s') (a : Address) : 0 ≤ c.outlay a := by
  cases c with
  | transfer | burn | approve =>
    simp only [exec, Asset.transfer, Asset.burn, Asset.approve, bind_eq_ok, checkNonnegativeAmount_eq_ok] at h
    obtain ⟨_, hn, -⟩ := h
    simp only [outlay]
    split <;> omega
  | _ => exact le_rfl

/-- What a step lets go of `a`'s holding. -/
def outlay (a : Address) (t : machine.Step) : ℤ :=
  match t.act with
  | .call _ c => c.outlay a
  | _ => 0

/-- What the spenders may still draw from `a`. -/
def exposure (spenders : Finset Address) (a : Address) (w : Chain) : ℤ :=
  ∑ spender ∈ spenders, readAllowance w.ledger a spender w.storage

/-- Nobody else may draw from `a`. -/
def Covers (spenders : Finset Address) (a : Address) (w : Chain) : Prop :=
  ∀ spender, spender ∉ spenders → readAllowance w.ledger a spender w.storage = 0

variable {spenders : Finset Address} {v : BalanceValue} {authorized : Address → Bool}

theorem exposure_congr (spenders : Finset Address) (w w' : Chain)
    (h : ∀ spender, readAllowance w'.ledger a spender w'.storage =
      readAllowance w.ledger a spender w.storage) :
    exposure spenders a w' = exposure spenders a w ∧ (Covers spenders a w → Covers spenders a w') :=
  ⟨Finset.sum_congr rfl fun spender _ => h spender, fun hc spender hs => (h spender).trans (hc spender hs)⟩

theorem approve_loses (hv : w.storage.Valid) (hn : 0 ≤ n) (hcov : Covers spenders (.contract id) w)
    (hmem : holder = .contract id → spender ∈ spenders)
    (h : writeAllowance w.ledger holder spender n liveUntil w.storage = .ok s') :
    w.storage.holding (.contract id) - exposure spenders (.contract id) w -
          (Call.approve holder spender n liveUntil).outlay (.contract id) ≤
        s'.holding (.contract id) - exposure spenders (.contract id) ⟨w.ledger, s'⟩ ∧
      Covers spenders (.contract id) ⟨w.ledger, s'⟩ := by
  have hhold : s'.holding (.contract id) = w.storage.holding (.contract id) := by
    rw [writeAllowance_frame h]; rfl
  obtain ⟨hread, hothers⟩ := readAllowance_approve hn h
  by_cases hid : holder = .contract id
  · subst hid
    have hmem := hmem rfl
    have hle : ∀ x ∈ spenders, readAllowance w.ledger (.contract id) x s' ≤
        readAllowance w.ledger (.contract id) x w.storage + if x = spender then n else 0 := by
      intro x _
      by_cases hx : x = spender
      · subst hx
        have := hv.readAllowance_nonneg w.ledger (.contract id) x
        rw [if_pos rfl]
        omega
      · rw [if_neg hx, add_zero]
        exact (readAllowance_congr (hothers _ _ fun h => hx h.2)).le
    have hsum := Finset.sum_le_sum hle
    rw [Finset.sum_add_distrib, Finset.sum_ite_eq', if_pos hmem] at hsum
    refine ⟨?_, fun x hx => ?_⟩
    · rw [hhold]
      simp only [Call.outlay, if_true, exposure] at hsum ⊢
      omega
    · have hne : ¬ (Address.contract id = .contract id ∧ x = spender) := fun h => hx (h.2 ▸ hmem)
      exact (readAllowance_congr (hothers _ _ hne)).trans (hcov x hx)
  · obtain ⟨hexp, hcov'⟩ := exposure_congr spenders w ⟨w.ledger, s'⟩ fun x =>
      readAllowance_congr (hothers (.contract id) x fun h => hid h.1.symm)
    refine ⟨?_, hcov' hcov⟩
    rw [hexp, hhold]
    simp [Call.outlay, hid]

theorem Moved.drawn_nonneg (h : Moved inv c s s₁ s₂ s') (holder spender : Address) :
    0 ≤ c.drawn holder spender := by
  have := h.nonneg
  unfold Call.drawn
  split <;> omega

/-- A contract pays by itself, or from an allowance: it is not clawed back from. -/
theorem Moved.pays (hv : w.storage.Valid) (h : Moved ⟨w.ledger, authorized⟩ c w.storage s₁ s₂ s')
    (hb : w.storage.balance id = some v) (hclaw : v.clawback = false)
    (hcov : Covers spenders (.contract id) w) (hout : 0 ≤ c.outlay (.contract id))
    (hp : c.payer = some (.contract id)) :
    c.amount ≤ c.outlay (.contract id) + ∑ x ∈ spenders, c.drawn (.contract id) x := by
  have hdraw := h.drawn_nonneg (.contract id)
  have hsum : 0 ≤ ∑ x ∈ spenders, c.drawn (.contract id) x := Finset.sum_nonneg fun x _ => hdraw x
  cases hsp : c.spender with
  | none =>
    have hnc : ∀ n, c ≠ .clawback (.contract id) n := by
      rintro n rfl
      have hcheck := h.clawable _ rfl
      simp only [checkClawbackable, hb, rejectIf_eq_ok] at hcheck
      exact hcheck hclaw
    have hown : c.outlay (.contract id) = c.amount := by
      cases c with
      | transfer src dst n | burn src n =>
        cases hp
        exact if_pos rfl
      | clawback src n =>
        cases hp
        exact absurd rfl (hnc n)
      | transferFrom | burnFrom => cases hsp
      | _ => cases hp
    omega
  | some sp =>
    have hc : c.drawn (.contract id) sp = c.amount := if_pos ⟨hp, hsp⟩
    by_cases hmem : sp ∈ spenders
    · have hle := Finset.single_le_sum (fun x _ => hdraw x) hmem
      omega
    · have hz : Asset.readAllowance w.ledger (.contract id) sp w.storage = 0 := hcov sp hmem
      have hn : c.amount ≤ 0 := hc ▸ ((h.allowance hv (.contract id) sp).1).trans hz.le
      omega

theorem Moved.loses (hv : w.storage.Valid) (h : Moved ⟨w.ledger, authorized⟩ c w.storage s₁ s₂ s')
    (hb : w.storage.balance id = some v) (hclaw : v.clawback = false)
    (hcov : Covers spenders (.contract id) w) (hout : 0 ≤ c.outlay (.contract id)) :
    w.storage.holding (.contract id) - exposure spenders (.contract id) w - c.outlay (.contract id) ≤
        s'.holding (.contract id) - exposure spenders (.contract id) ⟨w.ledger, s'⟩ ∧
      Covers spenders (.contract id) ⟨w.ledger, s'⟩ := by
  have hread := h.readAllowance hv (.contract id)
  have hdraw := h.drawn_nonneg (.contract id)
  have hcov' : Covers spenders (.contract id) ⟨w.ledger, s'⟩ := by
    intro x hx
    have hz := hcov x hx
    have h₁ := (h.allowance hv (.contract id) x).1
    have h₂ := hdraw x
    show Asset.readAllowance w.ledger (.contract id) x s' = 0
    rw [hread x]
    simp only at h₁ ⊢
    omega
  refine ⟨?_, hcov'⟩
  obtain ⟨-, -, -, hpaid⟩ := h.paid_ok hv
  obtain ⟨-, -, hrec⟩ := h.received_ok hv
  have hexp : exposure spenders (.contract id) ⟨w.ledger, s'⟩ =
      exposure spenders (.contract id) w - ∑ x ∈ spenders, c.drawn (.contract id) x := by
    unfold exposure
    rw [← Finset.sum_sub_distrib]
    exact Finset.sum_congr rfl fun x _ => hread x
  rw [hexp, hrec, hpaid]
  have hin : 0 ≤ if c.payee.filter (¬ w.storage.isIssuer ·) = some (.contract id) then c.amount else 0 := by
    have := h.nonneg
    split <;> omega
  by_cases hp : c.payer = some (.contract id)
  · have hfilter : c.payer.filter (¬ w.storage.isIssuer ·) = some (.contract id) :=
      mem_filter_holder.2 ⟨hp, Storage.not_isIssuer_contract⟩
    have hpay := h.pays hv hb hclaw hcov hout hp
    rw [if_pos hfilter]
    omega
  · have hfilter : c.payer.filter (¬ w.storage.isIssuer ·) ≠ some (.contract id) :=
      fun hf => hp (mem_filter_holder.1 hf).1
    rw [if_neg hfilter]
    have hz : ∑ x ∈ spenders, c.drawn (.contract id) x = 0 :=
      Finset.sum_eq_zero fun x _ => if_neg fun hc => hp hc.1
    omega

/-- What one call takes from a contract is let go by it, or drawn from what it allowed. -/
theorem Call.loses (hv : w.storage.Valid) (hb : w.storage.balance id = some v)
    (hclaw : v.clawback = false) (hcov : Covers spenders (.contract id) w)
    (happ : ∀ spender n l, c = .approve (.contract id) spender n l → spender ∈ spenders)
    (h : c.exec ⟨w.ledger, authorized⟩ w.storage = .ok s') :
    w.storage.holding (.contract id) - exposure spenders (.contract id) w - c.outlay (.contract id) ≤
        s'.holding (.contract id) - exposure spenders (.contract id) ⟨w.ledger, s'⟩ ∧
      Covers spenders (.contract id) ⟨w.ledger, s'⟩ := by
  have he := Call.effect h
  have hout := Call.outlay_nonneg h (.contract id)
  clear h
  cases he with
  | approve hn h => exact approve_loses hv hn hcov (fun hid => happ _ _ _ (by rw [hid])) h
  | moved h => exact h.loses hv hb hclaw hcov hout
  | setAuthorized h =>
    obtain ⟨-, hh, -, -, hall, -⟩ := writeAuthorization_ok hv h
    have hsame : ∀ x, readAllowance w.ledger (.contract id) x s' =
        readAllowance w.ledger (.contract id) x w.storage := fun x => readAllowance_congr (by rw [hall])
    obtain ⟨hexp, hcov'⟩ := exposure_congr spenders w ⟨w.ledger, s'⟩ hsame
    refine ⟨?_, hcov' hcov⟩
    rw [hexp, hh]
    simp [outlay]
  | setAdmin h =>
    subst h
    rename_i newAdmin
    have hsame : ∀ x, readAllowance w.ledger (.contract id) x { w.storage with admin := some newAdmin } =
        readAllowance w.ledger (.contract id) x w.storage := fun x => readAllowance_congr rfl
    obtain ⟨hexp, hcov'⟩ := exposure_congr spenders w
      ⟨w.ledger, { w.storage with admin := some newAdmin }⟩ hsame
    refine ⟨?_, hcov' hcov⟩
    rw [hexp]
    simp [outlay, Storage.holding]

/-- What one step takes from a contract is let go by it, or drawn from what it allowed. -/
theorem step_loses (t : machine.Step) (hv : t.pre.storage.Valid)
    (hb : t.pre.storage.balance id = some v) (hclaw : v.clawback = false)
    (hcov : Covers spenders (.contract id) t.pre)
    (happ : ∀ authorized spender n l, t.act = .call authorized (.approve (.contract id) spender n l) →
      spender ∈ spenders) :
    t.pre.storage.holding (.contract id) - exposure spenders (.contract id) t.pre -
          outlay (.contract id) t ≤
        t.post.storage.holding (.contract id) - exposure spenders (.contract id) t.post ∧
      Covers spenders (.contract id) t.post := by
  obtain ⟨p, act, q, h⟩ := t
  cases act with
  | call authorized c =>
    obtain ⟨hl, hex⟩ := machine_call.1 h
    have hq : q = ⟨p.ledger, q.storage⟩ := by rw [← hl]
    have hloses := Call.loses hv hb hclaw hcov
      (fun spender n l hc => happ authorized spender n l (congrArg (Action.call authorized) hc)) hex
    rw [← hq] at hloses
    exact hloses
  | close n settings =>
    obtain rfl := Except.ok.inj h
    have hle : ∀ x, readAllowance { settings with sequenceNumber := p.ledger.sequenceNumber + n }
        (.contract id) x p.storage ≤ readAllowance p.ledger (.contract id) x p.storage :=
      fun x => readAllowance_le_of_close hv (Nat.le_add_right _ _)
    have hsum := Finset.sum_le_sum fun x (_ : x ∈ spenders) => hle x
    refine ⟨?_, fun x hx => ?_⟩
    · simp only [exposure, outlay] at hsum ⊢
      omega
    · exact le_antisymm ((hle x).trans (hcov x hx).le) (hv.readAllowance_nonneg ..)
  | setAccount | setTrustline =>
    have hsame : (∀ x, readAllowance q.ledger (.contract id) x q.storage =
        readAllowance p.ledger (.contract id) x p.storage) ∧
          q.storage.holding (.contract id) = p.storage.holding (.contract id) := by
      obtain rfl := Except.ok.inj h
      exact ⟨fun x => readAllowance_congr rfl, rfl⟩
    obtain ⟨hexp, hcov'⟩ := exposure_congr spenders p q hsame.1
    refine ⟨?_, hcov' hcov⟩
    show _ ≤ q.storage.holding (.contract id) - exposure spenders (.contract id) q
    rw [hexp, hsame.2]
    simp [outlay]

theorem outlay_authorized {a : Address} (t : machine.Step) (h : outlay a t ≠ 0) :
    ∃ authorized c, t.act = .call authorized c ∧ authorized a = true := by
  obtain ⟨p, act, q, hstep⟩ := t
  cases act with
  | call authorized c =>
    obtain ⟨b, hsign, hauth⟩ := Call.signed (machine_call.1 hstep).2
    refine ⟨authorized, c, rfl, ?_⟩
    cases c with
    | transfer | burn | approve =>
      simp only [outlay, Call.outlay, ne_eq, ite_eq_right_iff, Classical.not_imp] at h
      cases hsign
      rw [← h.1]
      exact hauth
    | _ => exact absurd rfl h
  | _ => exact absurd rfl h

/-- **A holder loses at most what it spends and what it allows.**  Take a contract
    that nothing can be clawed back from.  However a run goes, its holding shrinks
    by no more than it transfers, burns or approves in the run itself, plus what it
    had allowed before; whatever is still allowed at the end is left over from this.
    All it lets go in the run it authorizes. -/
theorem holder_loses_at_most (hv : w.storage.Valid) (hb : w.storage.balance id = some v)
    (hclaw : v.clawback = false) (hcov : Covers spenders (.contract id) w) (acts : List Action)
    (happ : ∀ t ∈ machine.trace w acts, ∀ authorized spender n l,
      t.act = .call authorized (.approve (.contract id) spender n l) → spender ∈ spenders) :
    w.storage.holding (.contract id) - exposure spenders (.contract id) w -
          ((machine.trace w acts).map (outlay (.contract id))).sum ≤
        (machine.run w acts).storage.holding (.contract id) -
          exposure spenders (.contract id) (machine.run w acts) ∧
      ∀ t ∈ machine.trace w acts, outlay (.contract id) t ≠ 0 →
        ∃ authorized c, t.act = .call authorized c ∧ authorized (.contract id) = true := by
  refine ⟨?_, fun t _ h => outlay_authorized t h⟩
  have hrun := machine.history_induction
    (A := fun t => ∀ authorized spender n l,
      t.act = .call authorized (.approve (.contract id) spender n l) → spender ∈ spenders)
    (P := fun tr w' => w'.storage.Valid ∧ (∃ u, w'.storage.balance id = some u ∧ u.clawback = false) ∧
      Covers spenders (.contract id) w' ∧
        w.storage.holding (.contract id) - exposure spenders (.contract id) w -
            (tr.map (outlay (.contract id))).sum ≤
          w'.storage.holding (.contract id) - exposure spenders (.contract id) w')
    (s := w) ⟨hv, ⟨v, hb, hclaw⟩, hcov, by simp⟩ (fun as t hact _ ih => ?_) acts happ
  · exact hrun.2.2.2
  · obtain ⟨hvp, ⟨u, hbu, hcu⟩, hcovp, hle⟩ := ih
    obtain ⟨u', hbu', hcu', -⟩ := step_entry t hvp hbu
    obtain ⟨hstep, hcov'⟩ := step_loses t hvp hbu hcu hcovp hact
    refine ⟨step_valid t hvp, ⟨u', hbu', hcu'.trans hcu⟩, hcov', ?_⟩
    rw [List.map_append, List.sum_append, List.map_singleton, List.sum_singleton]
    omega

/-- Contract 1 allows contract 2 a part of its holding, who draws some of it. -/
def sampleDraw : List Action :=
  [.call (fun a => a = .contract 1) (.approve (.contract 1) (.contract 2) 300 200),
    .call (fun a => a = .contract 2) (.transferFrom (.contract 2) (.contract 1) (.contract 2) 120)]

theorem holder_loses_at_most_sample :
    500 - 0 - 300 ≤ (machine.run sampleChain sampleDraw).storage.holding (.contract 1) - 180 := by
  have hb : sampleChain.storage.balance 1 = some ⟨500, true, false⟩ := rfl
  have hcov : Covers {.contract 2} (.contract 1) sampleChain := fun _ _ => rfl
  have h := (holder_loses_at_most sampleChain_valid hb rfl hcov sampleDraw ?_).1
  · exact h
  · intro t ht authorized spender n l hact
    have hmem := Machine.act_mem_of_mem_trace ht
    rw [hact] at hmem
    simp only [sampleDraw, List.mem_cons, Action.call.injEq, Call.approve.injEq, reduceCtorEq, and_false,
      List.not_mem_nil, or_false] at hmem
    simp [hmem.2.2.1]

/-! ## How long an allowance lasts -/

/-- The entry of an allowance lives at least until the ledger the allowance names. -/
def Lasting (holder spender : Address) (s : Storage) : Prop :=
  ∀ e ∈ s.allowance holder spender, e.value.liveUntilLedger ≤ e.liveUntil

/-- What a step draws from what `holder` allows `spender`. -/
def drawn (holder spender : Address) (t : machine.Step) : ℤ :=
  match t.act with
  | .call _ c => c.drawn holder spender
  | _ => 0

/-- A step that does not approve for the pair draws on its allowance, or leaves it. -/
theorem step_allowance (t : machine.Step) (hv : t.pre.storage.Valid)
    (hno : ∀ authorized n l, t.act ≠ .call authorized (.approve holder spender n l)) :
    drawn holder spender t = 0 ∧
        t.post.storage.allowance holder spender = t.pre.storage.allowance holder spender ∨
      ∃ e, t.pre.storage.allowance holder spender = some e ∧
        t.pre.ledger.sequenceNumber ≤ e.value.liveUntilLedger ∧ t.post.ledger = t.pre.ledger ∧
        drawn holder spender t ≤ e.value.amount ∧
        t.post.storage.allowance holder spender =
          some ⟨⟨e.value.amount - drawn holder spender t, e.value.liveUntilLedger⟩, e.liveUntil⟩ := by
  obtain ⟨p, act, q, h⟩ := t
  cases act with
  | call authorized c =>
    obtain ⟨hl, hex⟩ := machine_call.1 h
    have he := Call.effect hex
    clear hex
    cases he with
    | approve hn h' =>
      rename_i holder' spender' n l
      refine .inl ⟨rfl, (readAllowance_approve hn h').2 _ _ ?_⟩
      rintro ⟨rfl, rfl⟩
      exact hno authorized n l rfl
    | moved h' =>
      obtain ⟨hle, hsame | ⟨e, he, hlive, hs'⟩⟩ := h'.allowance hv holder spender
      · exact .inl hsame
      · rw [readAllowance_live he hlive] at hle
        exact .inr ⟨e, (Storage.liveAllowance_eq_some.1 he).1, hlive, hl, hle, hs'⟩
    | setAuthorized h' =>
      obtain ⟨-, -, -, -, hall, -⟩ := writeAuthorization_ok hv h'
      exact .inl ⟨rfl, congrFun (congrFun hall _) _⟩
    | setAdmin h' => exact .inl ⟨rfl, by show q.storage.allowance _ _ = _; rw [h']⟩
  | close | setAccount | setTrustline =>
    obtain rfl := Except.ok.inj h
    exact .inl ⟨rfl, rfl⟩

/-- **An approval lasts.**  It makes, of an allowance that lasts, one that does, if
    it allows an amount or names no later ledger than the current one. -/
theorem lasting_approve (hlast : Lasting holder spender s) (hl : 0 < n ∨ liveUntil ≤ li.sequenceNumber)
    (h : writeAllowance li holder spender n liveUntil s = .ok s') :
    Lasting holder spender s' ∧ (0 < n → ∃ life, s'.allowance holder spender =
      some ⟨⟨n, liveUntil⟩, life⟩ ∧ liveUntil ≤ life) := by
  obtain ⟨-, -, ⟨rfl, -, hn⟩ | ⟨life, hw⟩⟩ := writeAllowance_ok h
  · exact ⟨hlast, fun hpos => absurd hpos (not_lt.2 hn)⟩
  · have hnew : s'.allowance holder spender = some ⟨⟨n, liveUntil⟩, life⟩ := by rw [hw.write]; simp
    have hlife : liveUntil ≤ life := by
      cases hold : s.liveAllowance li holder spender with
      | none =>
        have hpos := hw.new hold
        by_cases hz : 0 < liveUntil
        · exact hw.extended hpos (by rw [hold]; exact hz)
        · omega
      | some e =>
        obtain ⟨he, hlive⟩ := Storage.liveAllowance_eq_some.1 hold
        have hkept := hw.kept e hold
        rcases hl with hpos | hle
        · by_cases hd : deadline (s.liveAllowance li holder spender) < liveUntil
          · exact hw.extended hpos hd
          · rw [hold] at hd
            have hd : ¬ e.value.liveUntilLedger < liveUntil := hd
            have := hlast e he
            omega
        · omega
    refine ⟨fun e he => ?_, fun _ => ⟨life, hnew, hlife⟩⟩
    obtain rfl : _ = e := Option.some.inj (hnew.symm.trans he)
    exact hlife

/-- The clearings of a run name no later ledger than the current one. -/
def ClearsNow (holder spender : Address) (tr : List machine.Step) : Prop :=
  ∀ t ∈ tr, ∀ authorized l, t.act = .call authorized (.approve holder spender 0 l) →
    l ≤ t.pre.ledger.sequenceNumber

theorem lasting_run (hv : w.storage.Valid) (hlast : Lasting holder spender w.storage) (acts : List Action)
    (hclear : ClearsNow holder spender (machine.trace w acts)) :
    Lasting holder spender (machine.run w acts).storage := by
  have hrun := machine.history_induction
    (A := fun t => ∀ authorized l, t.act = .call authorized (.approve holder spender 0 l) →
      l ≤ t.pre.ledger.sequenceNumber)
    (P := fun _ w' => w'.storage.Valid ∧ Lasting holder spender w'.storage)
    (s := w) ⟨hv, hlast⟩ (fun as t hc _ ih => ?_) acts hclear
  · exact hrun.2
  obtain ⟨hvp, hlastp⟩ := ih
  refine ⟨step_valid t hvp, ?_⟩
  by_cases happ : ∃ authorized n l, t.act = .call authorized (.approve holder spender n l)
  · obtain ⟨authorized, n, l, hact⟩ := happ
    have hcl : n = 0 → l ≤ t.pre.ledger.sequenceNumber :=
      fun hz => hc authorized l (by rw [hact, hz])
    obtain ⟨p, act, q, h⟩ := t
    obtain rfl : act = _ := hact
    have he := (machine_call.1 h).2
    simp only [Call.exec, approve, bind_eq_ok, checkNonnegativeAmount_eq_ok, requireAuth_eq_ok,
      exists_const] at he
    obtain ⟨hn, -, he⟩ := he
    refine (lasting_approve hlastp ?_ he).1
    rcases hn.lt_or_eq with hpos | hz
    · exact .inl hpos
    · exact .inr (hcl hz.symm)
  · push Not at happ
    rcases step_allowance t hvp happ with ⟨-, hsame⟩ | ⟨e, he, -, -, -, hnew⟩
    · intro x hx
      exact hlastp x (hsame ▸ hx)
    · intro x hx
      obtain rfl : _ = x := Option.some.inj (hnew.symm.trans hx)
      exact hlastp e he

/-- **What is left of an allowance.**  A holder approves an amount, and does not
    approve for the spender again.  Then, however the run goes on, what can be drawn
    is the amount less what was drawn since, through the ledger the approval names,
    and nothing after it.  No more than the amount is ever drawn. -/
theorem allowance_left (hv : w.storage.Valid) (hlast : Lasting holder spender w.storage)
    {before : List Action} (hclear : ClearsNow holder spender (machine.trace w before))
    {authorized : Address → Bool} {w₁ : Chain} (hn : 0 < n)
    (happ : machine.step (machine.run w before)
      (.call authorized (.approve holder spender n liveUntil)) = .ok w₁)
    (acts : List Action)
    (hno : ∀ t ∈ machine.trace w₁ acts, ∀ authorized n l,
      t.act ≠ .call authorized (.approve holder spender n l)) :
    ((machine.trace w₁ acts).map (drawn holder spender)).sum ≤ n ∧
      readAllowance (machine.run w₁ acts).ledger holder spender (machine.run w₁ acts).storage =
        if (machine.run w₁ acts).ledger.sequenceNumber ≤ liveUntil then
          n - ((machine.trace w₁ acts).map (drawn holder spender)).sum else 0 := by
  have hv₀ := (run_accepts hv before).1
  have hlast₀ := lasting_run hv hlast before hclear
  have hv₁ := step_valid ⟨_, _, _, happ⟩ hv₀
  have he := (machine_call.1 happ).2
  simp only [Call.exec, approve, bind_eq_ok, checkNonnegativeAmount_eq_ok, requireAuth_eq_ok,
    exists_const] at he
  obtain ⟨life, hentry, hlife⟩ := (lasting_approve hlast₀ (.inl hn) he.2.2).2 hn
  have hrun := machine.history_induction
    (A := fun t => ∀ authorized n l, t.act ≠ .call authorized (.approve holder spender n l))
    (P := fun tr w' => w'.storage.Valid ∧ (tr.map (drawn holder spender)).sum ≤ n ∧
      w'.storage.allowance holder spender =
        some ⟨⟨n - (tr.map (drawn holder spender)).sum, liveUntil⟩, life⟩)
    (s := w₁) ⟨hv₁, by simpa using hn.le, by simpa using hentry⟩ (fun as t hact _ ih => ?_) acts hno
  · obtain ⟨-, hle, hent⟩ := hrun
    refine ⟨hle, ?_⟩
    split
    · rename_i hseq
      exact readAllowance_live (Storage.liveAllowance_eq_some.2 ⟨hent, hseq.trans hlife⟩) hseq
    · rename_i hseq
      unfold readAllowance
      split
      · rename_i e he
        obtain ⟨he, -⟩ := Storage.liveAllowance_eq_some.1 he
        obtain rfl : _ = e := Option.some.inj (hent.symm.trans he)
        exact if_pos (not_le.1 hseq)
      · rfl
  · obtain ⟨hvp, hle, hent⟩ := ih
    refine ⟨step_valid t hvp, ?_⟩
    rw [List.map_append, List.sum_append, List.map_singleton, List.sum_singleton]
    rcases step_allowance t hvp hact with ⟨hz, hsame⟩ | ⟨e, he, -, -, hdr, hnew⟩
    · rw [hz, add_zero]
      exact ⟨hle, hsame.trans hent⟩
    · obtain rfl : _ = e := Option.some.inj (hent.symm.trans he)
      refine ⟨by simp only at hdr; omega, ?_⟩
      rw [hnew]
      simp only [sub_sub]

theorem allowance_left_sample :
    readAllowance sampleChain.ledger (.contract 1) (.contract 2)
      (machine.run sampleChain sampleDraw).storage = 180 := by
  have happ : machine.step (machine.run sampleChain []) (.call (fun a => a = .contract 1)
      (.approve (.contract 1) (.contract 2) 300 200)) = .ok (machine.run sampleChain (sampleDraw.take 1)) := rfl
  have hlast : Lasting (.contract 1) (.contract 2) sampleChain.storage := fun e he => by cases he
  have hclear : ClearsNow (.contract 1) (.contract 2) (machine.trace sampleChain []) :=
    fun t ht => by cases ht
  have hno : ∀ t ∈ machine.trace (machine.run sampleChain (sampleDraw.take 1)) (sampleDraw.drop 1),
      ∀ authorized n l, t.act ≠ .call authorized (.approve (.contract 1) (.contract 2) n l) := by
    intro t ht authorized n l hact
    have hmem := List.mem_singleton.1 (Machine.act_mem_of_mem_trace ht)
    rw [hact] at hmem
    cases hmem
  exact (allowance_left sampleChain_valid hlast hclear (by decide) happ (sampleDraw.drop 1) hno).2

/-- Cleared for longer than it was given, an allowance is lost before its ledger: the
    entry does not get the life of the later approval. -/
example : readAllowance ⟨100, 100, 16, 1000⟩ (.contract 1) (.contract 2) (machine.run sampleChain
    [.call (fun _ => true) (.approve (.contract 1) (.contract 2) 5 50),
      .call (fun _ => true) (.approve (.contract 1) (.contract 2) 0 900),
      .call (fun _ => true) (.approve (.contract 1) (.contract 2) 5 800),
      .close 90 ⟨0, 100, 16, 1000⟩]).storage = 0 := by decide +kernel

end Asset

end TogetherFi
