/-
  The allowances of the asset contract on the host.

  In the contract's model an allowance is a value with the ledger it lives
  through.  On the host it is a temporary entry: writing it reads the entry,
  stores the value, which keeps the life of an entry that is there, and extends
  the life, which fails where a temporary entry would outlive the longest life.
  The two agree on every write (`allowance_on_host`).
-/
import TogetherFi.Asset.Effect
import TogetherFi.HostStorage.Isolation
import TogetherFi.HostStorage.Lives

namespace TogetherFi

open Function Session

namespace HostStorage

/-- How a ledger holds the allowances of a contract: each under a temporary key of its own. -/
structure AllowanceCodec (K E : Type) [LedgerKey K] [LedgerEntry K E] where
  key : Address → Address → K
  encode : Address → Address → Asset.AllowanceValue → E
  decode : E → Asset.AllowanceValue
  key_injective : ∀ {a b a' b'}, key a b = key a' b' → a = a' ∧ b = b'
  kind : ∀ a b, LedgerKey.kind (key a b) = .contractData .temporary
  key_encode : ∀ a b v, LedgerEntry.key (encode a b v) = key a b
  decode_encode : ∀ a b v, decode (encode a b v) = v

/-- What the asset contract asks of the ledger. -/
def LedgerInfo.asset (li : LedgerInfo) (baseReserve : ℕ) : Asset.LedgerInfo :=
  ⟨li.sequenceNumber, baseReserve, li.minTempEntryTtl, li.maxEntryTtl⟩

/-- `ContractError::AllowanceError` -/
def allowanceError : Error := .contract 9

variable {K E X V : Type} [LedgerKey K] [LedgerEntry K E] {policy : Policy K} {li : LedgerInfo}
  {l : Ledger K E}

namespace AllowanceCodec

variable (c : AllowanceCodec K E) (li : LedgerInfo) (holder spender : Address) (amount : ℤ) (liveUntil : ℕ)

/-- The entry of an allowance. -/
def entry (a : Asset.Temporary Asset.AllowanceValue) : EntryWithLiveUntil E :=
  (c.encode holder spender a.value, some a.liveUntil)

/-- `put_contract_data` and `extend_contract_data_ttl` of `write_allowance`; `old` is the
    allowance it has read. -/
def store (old : Option Asset.AllowanceValue) (rest : Invocation K E X V) : Invocation K E X V :=
  .call (.store (c.key holder spender) .temporary
      fun _ => .ok (c.encode holder spender ⟨amount, liveUntil⟩)) fun r => match r with
    | .error e => .done (.error e)
    | .ok _ =>
      if 0 < amount ∧ old.elim 0 Asset.AllowanceValue.liveUntilLedger < liveUntil then
        let liveFor := min (liveUntil - li.sequenceNumber + 1) (2 ^ 32 - 1)
        .call (.extendTtl (c.key holder spender) liveFor liveFor) fun r => match r with
          | .error e => .done (.error e)
          | .ok _ => rest
      else rest

/-- `write_allowance`, then the rest -/
def write (rest : Invocation K E X V) : Invocation K E X V :=
  match li.maxLiveUntilLedger with
  | .error e => .done (.error e)
  | .ok max =>
    if max < liveUntil then .done (.error allowanceError)
    else if 0 < amount ∧ liveUntil < li.sequenceNumber then .done (.error allowanceError)
    else .call (.get (c.key holder spender)) fun r => match r with
      | .error e => .done (.error e)
      | .ok (.entry (some e)) => c.store li holder spender amount liveUntil (some (c.decode e)) rest
      | .ok _ => if 0 < amount then c.store li holder spender amount liveUntil none rest else rest

/-- The ledger holds the allowances that are alive, and no others. -/
def Stands (s : Asset.Storage) (li' : Asset.LedgerInfo) (l : Ledger K E) : Prop :=
  ∀ a b, l (c.key a b) = (s.liveAllowance li' a b).map (c.entry a b)

end AllowanceCodec

/-! ## The calls -/

variable {c : AllowanceCodec K E} {holder spender : Address} {reserve n : ℕ}
  {old : Option (Asset.Temporary Asset.AllowanceValue)} {a : Asset.Temporary Asset.AllowanceValue}
  {v : Asset.AllowanceValue}

theorem checkedAdd_ok {a b : ℕ} (h : a + b < 2 ^ 32) : checkedAdd a b = .ok (a + b) :=
  if_pos (by rw [u32Max]; omega)

theorem checkedAdd_error {a b : ℕ} (h : ¬ a + b < 2 ^ 32) :
    checkedAdd a b = .error (.host .context .internalError) :=
  if_neg (by rw [u32Max]; omega)

theorem AllowanceCodec.durability (c : AllowanceCodec K E) (holder spender : Address) :
    getKeyDurability (c.key holder spender) = some .temporary := by
  rw [getKeyDurability, c.kind]

theorem AllowanceCodec.supported (c : AllowanceCodec K E) (holder spender : Address) :
    checkSupportedLedgerKeyType (c.key holder spender) = .ok () :=
  checkSupported_of_durability (c.durability holder spender)

theorem putOpt_exec (hp : policy (c.key holder spender) = some .readWrite)
    (a : Asset.Temporary Asset.AllowanceValue) :
    Plain.putOpt policy (c.key holder spender) (some (c.entry holder spender a)) l =
      .ok () (update l (c.key holder spender) (some (c.entry holder spender a))) := by
  have hs := c.supported holder spender
  have hc : Storage.checkSupported (c.key holder spender) (some (c.entry holder spender a)) = .ok () := by
    rw [Storage.checkSupported, hs, Outcome.ok_bind]
    show checkSupportedLedgerKeyType (LedgerEntry.key (c.encode holder spender a.value) : K) = .ok ()
    rw [c.key_encode, hs]
  have ha : Plain.access policy (c.key holder spender) .readWrite l = .ok () l :=
    Plain.access_ok ⟨_, hp, rfl⟩
  unfold Plain.putOpt
  rw [hc, attempt_ok_bind]
  exact bind_ok ha

theorem store_exec {life : ℕ} (hp : policy (c.key holder spender) = some .readWrite)
    (hl : l (c.key holder spender) = old.map (c.entry holder spender))
    (h : Asset.putAllowance (li.asset reserve) old = .ok life) :
    Plain.store policy li (c.key holder spender) .temporary (fun _ => .ok (c.encode holder spender v)) l =
      .ok () (update l (c.key holder spender) (some (c.entry holder spender ⟨v, life⟩))) := by
  rw [Plain.store_eq (Plain.tryGetFull_ok (c.supported holder spender) (by rw [hp]; rfl)), hl]
  cases old with
  | some a =>
    cases h
    exact putOpt_exec hp ⟨v, a.liveUntil⟩
  | none =>
    rw [Asset.putAllowance, Asset.LedgerInfo.minLiveUntilLedger, Outcome.trapOr_eq_ok,
      Asset.checkedAddU32_eq_some] at h
    obtain ⟨hfit, rfl⟩ := h
    have hmin : li.minLiveUntilLedger .temporary = .ok _ := checkedAdd_ok hfit
    rw [Option.map_none, Plain.storeOver, hmin]
    exact putOpt_exec hp ⟨v, _⟩

theorem store_fails (hp : policy (c.key holder spender) = some .readWrite)
    (hl : l (c.key holder spender) = old.map (c.entry holder spender))
    (h : ∀ life, Asset.putAllowance (li.asset reserve) old ≠ .ok life) :
    Plain.store policy li (c.key holder spender) .temporary (fun _ => .ok (c.encode holder spender v)) l =
      .error (.host .context .internalError) l := by
  rw [Plain.store_eq (Plain.tryGetFull_ok (c.supported holder spender) (by rw [hp]; rfl)), hl]
  cases old with
  | some a => exact absurd rfl (h a.liveUntil)
  | none =>
    have hfit : ¬ li.sequenceNumber + (li.minTempEntryTtl - 1) < 2 ^ 32 := by
      intro hfit
      refine h (li.sequenceNumber + (li.minTempEntryTtl - 1)) ?_
      rw [Asset.putAllowance, Asset.LedgerInfo.minLiveUntilLedger, Outcome.trapOr_eq_ok,
        Asset.checkedAddU32_eq_some]
      exact ⟨hfit, rfl⟩
    have hmin : li.minLiveUntilLedger .temporary = .error _ := checkedAdd_error hfit
    rw [Option.map_none, Plain.storeOver, hmin]
    rfl

theorem extend_exec {life : ℕ} (hp : policy (c.key holder spender) = some .readWrite)
    (hl : l (c.key holder spender) = some (c.entry holder spender a)) (ha : li.sequenceNumber ≤ a.liveUntil)
    (h : Asset.extendTtl (li.asset reserve) a.liveUntil n n = .ok life) :
    Plain.extendTtl policy li (c.key holder spender) n n l =
      .ok () (update l (c.key holder spender) (some (c.entry holder spender ⟨a.value, life⟩))) := by
  obtain ⟨hmax, hle, rfl⟩ := Asset.extendTtl_eq_ok.1 h
  have hmax : li.sequenceNumber + (li.maxEntryTtl - 1) < 2 ^ 32 := hmax
  have hle : li.sequenceNumber + n ≤ li.sequenceNumber + (li.maxEntryTtl - 1) := hle
  have hlongest : li.maxLiveUntilLedger = .ok _ := checkedAdd_ok hmax
  have hnew : Storage.newLiveUntil li (c.key holder spender) n = .ok (li.sequenceNumber + n) := by
    rw [Storage.newLiveUntil, checkedAdd_ok (by omega), Outcome.ok_bind, hlongest, Outcome.ok_bind,
      if_neg (by omega)]
  exact extendTtl_exec hnew (c.supported holder spender) (by rw [hp]; rfl) hl ha

theorem extend_fails (hp : policy (c.key holder spender) = some .readWrite)
    (hl : l (c.key holder spender) = some (c.entry holder spender a)) (ha : li.sequenceNumber ≤ a.liveUntil)
    (h : ∀ life, Asset.extendTtl (li.asset reserve) a.liveUntil n n ≠ .ok life) :
    ∃ err, Plain.extendTtl policy li (c.key holder spender) n n l = .error err l := by
  have hfail (err : Error) (hnew : Storage.newLiveUntil li (c.key holder spender) n = .error err) :
      ∃ err, Plain.extendTtl policy li (c.key holder spender) n n l = .error err l := by
    refine ⟨err, ?_⟩
    rw [extendTtl_live (c.supported holder spender) (by rw [hp]; rfl) hl ha, hnew]
    rfl
  by_cases hnew : li.sequenceNumber + n < 2 ^ 32
  · by_cases hmax : li.sequenceNumber + (li.maxEntryTtl - 1) < 2 ^ 32
    · have hlongest : li.maxLiveUntilLedger = .ok _ := checkedAdd_ok hmax
      by_cases hle : li.sequenceNumber + n ≤ li.sequenceNumber + (li.maxEntryTtl - 1)
      · exact absurd (Asset.extendTtl_eq_ok.2 ⟨hmax, hle, rfl⟩) (h _)
      · refine hfail (.host .storage .invalidAction) ?_
        rw [Storage.newLiveUntil, checkedAdd_ok hnew, Outcome.ok_bind, hlongest, Outcome.ok_bind,
          if_pos (by omega), c.durability]
    · have hlongest : li.maxLiveUntilLedger = .error _ := checkedAdd_error hmax
      refine hfail (.host .context .internalError) ?_
      rw [Storage.newLiveUntil, checkedAdd_ok hnew, Outcome.ok_bind, hlongest]
      rfl
  · refine hfail (.host .context .internalError) ?_
    rw [Storage.newLiveUntil, checkedAdd_error hnew]
    rfl

/-! ## A write -/

variable {s : Asset.Storage} {amount : ℤ} {liveUntil base depth : ℕ} {rest : Invocation K E X V}
  {events : Events X}

theorem deadline_map (old : Option (Asset.Temporary Asset.AllowanceValue)) :
    (old.map Asset.Temporary.value).elim 0 Asset.AllowanceValue.liveUntilLedger = Asset.deadline old := by
  cases old <;> rfl

theorem putAllowance_alive (halive : ∀ a ∈ old, li.sequenceNumber ≤ a.liveUntil)
    (h : Asset.putAllowance (li.asset reserve) old = .ok base) : li.sequenceNumber ≤ base := by
  cases old with
  | some a =>
    cases h
    exact halive a rfl
  | none =>
    rw [Asset.putAllowance, Asset.LedgerInfo.minLiveUntilLedger, Outcome.trapOr_eq_ok,
      Asset.checkedAddU32_eq_some] at h
    rw [h.2]
    exact Nat.le_add_right ..

theorem AllowanceCodec.store_run_stored (hp : policy (c.key holder spender) = some .readWrite)
    (hl : l (c.key holder spender) = old.map (c.entry holder spender))
    (hput : Asset.putAllowance (li.asset reserve) old = .ok base) :
    (c.store li holder spender amount liveUntil (old.map Asset.Temporary.value) rest).run
        (plainHandler policy li) depth (l, events) =
      (if 0 < amount ∧ Asset.deadline old < liveUntil then
          let liveFor := min (liveUntil - li.sequenceNumber + 1) (2 ^ 32 - 1)
          .call (.extendTtl (c.key holder spender) liveFor liveFor) fun r => match r with
            | .error e => .done (.error e)
            | .ok _ => rest
        else rest).run (plainHandler policy li) depth
          (update l (c.key holder spender) (some (c.entry holder spender ⟨⟨amount, liveUntil⟩, base⟩)), events) := by
  have hstore : Plain.exec policy li (.store (c.key holder spender) .temporary
      fun _ => .ok (c.encode holder spender ⟨amount, liveUntil⟩) : Op K E X) l = .ok .unit _ :=
    (bind_ok (store_exec hp hl hput)).trans rfl
  rw [AllowanceCodec.store, run_call_ok hstore rfl]
  simp only [deadline_map]

theorem AllowanceCodec.store_run {life : ℕ} (hp : policy (c.key holder spender) = some .readWrite)
    (hl : l (c.key holder spender) = old.map (c.entry holder spender))
    (halive : ∀ a ∈ old, li.sequenceNumber ≤ a.liveUntil)
    (hput : Asset.putAllowance (li.asset reserve) old = .ok base)
    (hext : Asset.extendAllowance (li.asset reserve) old amount liveUntil base = .ok life) :
    (c.store li holder spender amount liveUntil (old.map Asset.Temporary.value) rest).run
        (plainHandler policy li) depth (l, events) =
      rest.run (plainHandler policy li) depth
        (update l (c.key holder spender) (some (c.entry holder spender ⟨⟨amount, liveUntil⟩, life⟩)), events) := by
  rw [AllowanceCodec.store_run_stored hp hl hput]
  unfold Asset.extendAllowance at hext
  split at hext
  · next hlonger =>
    rw [if_pos hlonger]
    have hextend := extend_exec
      (l := update l (c.key holder spender) (some (c.entry holder spender ⟨⟨amount, liveUntil⟩, base⟩)))
      hp (update_self ..) (putAllowance_alive halive hput) hext
    rw [update_idem] at hextend
    exact run_call_ok ((bind_ok hextend).trans rfl) rfl
  · next hshort =>
    cases hext
    rw [if_neg hshort]

theorem AllowanceCodec.store_run_fails (hp : policy (c.key holder spender) = some .readWrite)
    (hl : l (c.key holder spender) = old.map (c.entry holder spender))
    (halive : ∀ a ∈ old, li.sequenceNumber ≤ a.liveUntil)
    (h : ∀ base life, Asset.putAllowance (li.asset reserve) old = .ok base →
      Asset.extendAllowance (li.asset reserve) old amount liveUntil base ≠ .ok life) :
    ∃ err l', (c.store li holder spender amount liveUntil (old.map Asset.Temporary.value) rest).run
      (plainHandler policy li) depth (l, events) = .error err (l', events) := by
  by_cases hput : ∃ base, Asset.putAllowance (li.asset reserve) old = .ok base
  · obtain ⟨base, hput⟩ := hput
    rw [AllowanceCodec.store_run_stored hp hl hput]
    have hno := fun life => h base life hput
    unfold Asset.extendAllowance at hno
    split at hno
    · next hlonger =>
      rw [if_pos hlonger]
      obtain ⟨err, hextend⟩ := extend_fails (a := ⟨⟨amount, liveUntil⟩, base⟩) hp (update_self ..)
        (putAllowance_alive halive hput) hno
      exact ⟨err, _, (run_call_error (bind_error hextend) rfl).trans rfl⟩
    · exact absurd rfl (hno base)
  · have hfails := store_fails (v := ⟨amount, liveUntil⟩) hp hl fun base hb => hput ⟨base, hb⟩
    exact ⟨_, l, (run_call_error (bind_error hfails) rfl).trans rfl⟩

/-- When the model writes, and what. -/
theorem writeAllowance_eq_ok {li' : Asset.LedgerInfo} {s' : Asset.Storage} :
    Asset.writeAllowance li' holder spender amount liveUntil s = .ok s' ↔
      li'.sequenceNumber + (li'.maxEntryTtl - 1) < 2 ^ 32 ∧
        liveUntil ≤ li'.sequenceNumber + (li'.maxEntryTtl - 1) ∧
          ¬ (0 < amount ∧ liveUntil < li'.sequenceNumber) ∧
            if s.liveAllowance li' holder spender = none ∧ amount ≤ 0 then s' = s
            else ∃ base, Asset.putAllowance li' (s.liveAllowance li' holder spender) = .ok base ∧
              ∃ life, Asset.extendAllowance li' (s.liveAllowance li' holder spender) amount liveUntil base =
                .ok life ∧ s' = s.setAllowance holder spender ⟨⟨amount, liveUntil⟩, life⟩ := by
  simp only [Asset.writeAllowance, Outcome.bind_eq_ok, Asset.maxLiveUntilLedger_eq_ok,
    Outcome.rejectIf_eq_ok, exists_const]
  constructor
  · rintro ⟨_, ⟨hfit, rfl⟩, hle, hseq, h⟩
    refine ⟨hfit, not_lt.1 hle, hseq, ?_⟩
    split at h
    · next hc =>
      rw [if_pos hc]
      exact (Except.ok.inj h).symm
    · next hc =>
      rw [if_neg hc]
      obtain ⟨base, hbase, h⟩ := Outcome.bind_eq_ok.1 h
      obtain ⟨life, hlife, h⟩ := Outcome.bind_eq_ok.1 h
      exact ⟨base, hbase, life, hlife, (Except.ok.inj h).symm⟩
  · rintro ⟨hfit, hle, hseq, h⟩
    refine ⟨_, ⟨hfit, rfl⟩, not_lt.2 hle, hseq, ?_⟩
    split at h
    · next hc =>
      rw [if_pos hc, h]
      rfl
    · next hc =>
      obtain ⟨base, hbase, life, hlife, rfl⟩ := h
      rw [if_neg hc, hbase, Outcome.ok_bind, hlife]
      rfl

theorem AllowanceCodec.Stands.setAllowance {life : ℕ} (hstands : c.Stands s (li.asset reserve) l)
    (halive : li.sequenceNumber ≤ life) :
    c.Stands (s.setAllowance holder spender ⟨v, life⟩) (li.asset reserve)
      (update l (c.key holder spender) (some (c.entry holder spender ⟨v, life⟩))) := by
  intro x y
  by_cases hk : c.key x y = c.key holder spender
  · obtain ⟨rfl, rfl⟩ := c.key_injective hk
    have hlive : (s.setAllowance x y ⟨v, life⟩).liveAllowance (li.asset reserve) x y = some ⟨v, life⟩ :=
      Asset.Storage.liveAllowance_eq_some.2
        ⟨by rw [Asset.Storage.setAllowance_allowance, update_self, update_self], halive⟩
    rw [update_self, hlive]
    rfl
  · have hsame : (s.setAllowance holder spender ⟨v, life⟩).allowance x y = s.allowance x y := by
      rw [Asset.Storage.setAllowance_allowance]
      rcases eq_or_ne x holder with rfl | hx
      · have hy : y ≠ spender := fun hy => hk (by rw [hy])
        rw [update_self, update_of_ne hy]
      · rw [update_of_ne hx]
    have hlive : (s.setAllowance holder spender ⟨v, life⟩).liveAllowance (li.asset reserve) x y =
        s.liveAllowance (li.asset reserve) x y := by
      rw [Asset.Storage.liveAllowance, hsame]
      rfl
    rw [update_of_ne hk, hlive]
    exact hstands x y

theorem extendAllowance_le {life : ℕ}
    (h : Asset.extendAllowance (li.asset reserve) old amount liveUntil base = .ok life) : base ≤ life := by
  unfold Asset.extendAllowance at h
  split at h
  · rw [(Asset.extendTtl_eq_ok.1 h).2.2]
    exact le_max_left ..
  · cases h
    exact le_rfl

theorem AllowanceCodec.write_run_checked (hp : policy (c.key holder spender) = some .readWrite)
    (hl : l (c.key holder spender) = old.map (c.entry holder spender))
    (hfit : li.sequenceNumber + (li.maxEntryTtl - 1) < 2 ^ 32)
    (hle : liveUntil ≤ li.sequenceNumber + (li.maxEntryTtl - 1))
    (hseq : ¬ (0 < amount ∧ liveUntil < li.sequenceNumber)) :
    (c.write li holder spender amount liveUntil rest).run (plainHandler policy li) depth (l, events) =
      (if old = none ∧ amount ≤ 0 then rest
        else c.store li holder spender amount liveUntil (old.map Asset.Temporary.value) rest).run
          (plainHandler policy li) depth (l, events) := by
  have hlongest : li.maxLiveUntilLedger = .ok _ := checkedAdd_ok hfit
  have hpolicy : (policy (c.key holder spender)).isSome := by rw [hp]; rfl
  have hfull := Plain.tryGetFull_ok (c.supported holder spender) hpolicy l
  have htry : Plain.tryGet policy (c.key holder spender) l =
      .ok ((l (c.key holder spender)).map Prod.fst) l := (bind_ok hfull).trans rfl
  have hget : Plain.exec policy li (.get (c.key holder spender) : Op K E X) l =
      .ok (.entry ((l (c.key holder spender)).map Prod.fst)) l := (bind_ok htry).trans rfl
  rw [AllowanceCodec.write, hlongest]
  dsimp only
  rw [if_neg (not_lt.2 hle), if_neg hseq, run_call_ok hget rfl, hl]
  cases old with
  | some a =>
    have hwrites : ¬ (some a = none ∧ amount ≤ 0) := fun h => by cases h.1
    rw [if_neg hwrites]
    show (c.store li holder spender amount liveUntil (some (c.decode (c.encode holder spender a.value)))
      rest).run _ _ _ = _
    rw [c.decode_encode]
    rfl
  | none =>
    by_cases hpos : 0 < amount
    · have hwrites : ¬ ((none : Option (Asset.Temporary Asset.AllowanceValue)) = none ∧ amount ≤ 0) :=
        fun h => not_lt.2 h.2 hpos
      rw [if_pos hpos, if_neg hwrites]
      rfl
    · rw [if_neg hpos, if_pos ⟨rfl, not_lt.1 hpos⟩]
      rfl

/-- A write the model makes goes through and leaves the allowances of the model. -/
theorem AllowanceCodec.write_run {s' : Asset.Storage} (hp : policy (c.key holder spender) = some .readWrite)
    (hstands : c.Stands s (li.asset reserve) l)
    (h : Asset.writeAllowance (li.asset reserve) holder spender amount liveUntil s = .ok s') :
    ∃ l', (c.write li holder spender amount liveUntil rest).run (plainHandler policy li) depth (l, events) =
        rest.run (plainHandler policy li) depth (l', events) ∧
      c.Stands s' (li.asset reserve) l' ∧ ∀ k, k ≠ c.key holder spender → l' k = l k := by
  obtain ⟨hfit, hle, hseq, h⟩ := writeAllowance_eq_ok.1 h
  rw [AllowanceCodec.write_run_checked hp (hstands holder spender) hfit hle hseq]
  split at h
  · next hnothing =>
    rw [if_pos hnothing, h]
    exact ⟨l, rfl, hstands, fun _ _ => rfl⟩
  · next hwrites =>
    obtain ⟨base, hput, life, hext, rfl⟩ := h
    have halive : ∀ a ∈ s.liveAllowance (li.asset reserve) holder spender, li.sequenceNumber ≤ a.liveUntil :=
      fun a ha => (Asset.Storage.liveAllowance_eq_some.1 ha).2
    rw [if_neg hwrites, AllowanceCodec.store_run hp (hstands holder spender) halive hput hext]
    exact ⟨_, rfl, hstands.setAllowance ((putAllowance_alive halive hput).trans (extendAllowance_le hext)),
      fun k hk => update_of_ne hk ..⟩

/-- A write the model refuses fails. -/
theorem AllowanceCodec.write_run_fails (hp : policy (c.key holder spender) = some .readWrite)
    (hstands : c.Stands s (li.asset reserve) l)
    (h : ∀ s', Asset.writeAllowance (li.asset reserve) holder spender amount liveUntil s ≠ .ok s') :
    ∃ err l', (c.write li holder spender amount liveUntil rest).run (plainHandler policy li) depth (l, events) =
      .error err (l', events) := by
  have hno (s' : Asset.Storage) := mt writeAllowance_eq_ok.2 (h s')
  by_cases hfit : li.sequenceNumber + (li.maxEntryTtl - 1) < 2 ^ 32
  · have hlongest : li.maxLiveUntilLedger = .ok _ := checkedAdd_ok hfit
    by_cases hle : liveUntil ≤ li.sequenceNumber + (li.maxEntryTtl - 1)
    · by_cases hseq : 0 < amount ∧ liveUntil < li.sequenceNumber
      · refine ⟨allowanceError, l, ?_⟩
        rw [AllowanceCodec.write, hlongest]
        dsimp only
        rw [if_neg (not_lt.2 hle), if_pos hseq]
        rfl
      · rw [AllowanceCodec.write_run_checked hp (hstands holder spender) hfit hle hseq]
        by_cases hnothing : s.liveAllowance (li.asset reserve) holder spender = none ∧ amount ≤ 0
        · exact absurd ⟨hfit, hle, hseq, by rw [if_pos hnothing]⟩ (hno s)
        · rw [if_neg hnothing]
          have hne (base life : ℕ) (hput : Asset.putAllowance (li.asset reserve)
              (s.liveAllowance (li.asset reserve) holder spender) = .ok base) :
              Asset.extendAllowance (li.asset reserve) (s.liveAllowance (li.asset reserve) holder spender)
                amount liveUntil base ≠ .ok life := fun hext =>
            hno (s.setAllowance holder spender ⟨⟨amount, liveUntil⟩, life⟩)
              ⟨hfit, hle, hseq, by rw [if_neg hnothing]; exact ⟨base, hput, life, hext, rfl⟩⟩
          exact AllowanceCodec.store_run_fails hp (hstands holder spender)
            (fun a ha => (Asset.Storage.liveAllowance_eq_some.1 ha).2) hne
    · refine ⟨allowanceError, l, ?_⟩
      rw [AllowanceCodec.write, hlongest]
      dsimp only
      rw [if_pos (not_le.1 hle)]
      rfl
  · have hlongest : li.maxLiveUntilLedger = .error _ := checkedAdd_error hfit
    refine ⟨.host .context .internalError, l, ?_⟩
    rw [AllowanceCodec.write, hlongest]
    rfl

/-- **The allowances of the asset contract are the host's temporary entries.**  On an
    enforced storage that holds the allowances alive, a write the model makes goes through
    and leaves those of the model, and one the model refuses fails and changes no entry. -/
theorem allowance_on_host {footprint : Footprint K} {map : StorageMap K E} (amount : ℤ) (liveUntil : ℕ)
    (v : V) (hmap : map.entry = footprint.restrict l) (hstands : c.Stands s (li.asset reserve) l)
    (hp : footprint.entry (c.key holder spender) = some .readWrite) :
    match Asset.writeAllowance (li.asset reserve) holder spender amount liveUntil s with
    | .ok s' =>
      ∃ t, invokeFunction li (c.write li holder spender amount liveUntil (.done (.ok v)) : Invocation K E X V)
          (Storage.withEnforcingFootprintAndMap footprint map, []) = .ok v (t, []) ∧
        (∀ a b, (footprint.entry (c.key a b)).isSome → t.map.entry (c.key a b) =
          some ((s'.liveAllowance (li.asset reserve) a b).map (c.entry a b))) ∧
        ∀ k, k ≠ c.key holder spender → t.map.entry k = map.entry k
    | .error _ =>
      ∃ err t, invokeFunction li
          (c.write li holder spender amount liveUntil (.done (.ok v)) : Invocation K E X V)
          (Storage.withEnforcingFootprintAndMap footprint map, []) = .error err (t, []) ∧
        t.map.entry = map.entry := by
  have hagree := invokeFunction_agrees li hmap
    (c.write li holder spender amount liveUntil (.done (.ok v)) : Invocation K E X V)
  generalize invokeFunction li (c.write li holder spender amount liveUntil (.done (.ok v)) : Invocation K E X V)
    (Storage.withEnforcingFootprintAndMap footprint map, []) = x at hagree ⊢
  rw [plainFunction, Program.run_frame] at hagree
  cases hw : Asset.writeAllowance (li.asset reserve) holder spender amount liveUntil s with
  | ok s' =>
    obtain ⟨l', hrun, hstands', hframe⟩ := AllowanceCodec.write_run hp hstands hw
    rw [hrun] at hagree
    cases hagree with
    | @ok _ t _ h =>
      rcases t with ⟨t, events⟩
      obtain ⟨he, hev⟩ := h
      have he : Enforcing footprint t l' := he
      have hev : events = [] := hev
      refine ⟨t, by rw [hev], fun a b hk => ?_, fun k hk => ?_⟩
      · rw [he.entry_eq, Footprint.restrict, if_pos hk]
        exact congrArg some (hstands' a b)
      · rw [he.entry_eq, hmap, Footprint.restrict, Footprint.restrict, hframe k hk]
  | error e =>
    have hno (s' : Asset.Storage) :
        Asset.writeAllowance (li.asset reserve) holder spender amount liveUntil s ≠ .ok s' := by
      rw [hw]
      exact fun h => (by cases h)
    obtain ⟨err, l', hrun⟩ := AllowanceCodec.write_run_fails hp hstands hno
    rw [hrun] at hagree
    cases hagree with
    | @error _ t _ h =>
      rcases t with ⟨t, events⟩
      obtain ⟨he, hev⟩ := h
      -- the frame that failed has put the ledger back
      have he : Enforcing footprint t l := he
      have hev : events = [] := hev
      exact ⟨err, t, by rw [hev], he.entry_eq.trans hmap.symm⟩

/-- An allowance under a key. -/
structure AllowanceEntry where
  key : DataKey
  value : Asset.AllowanceValue

instance : LedgerEntry DataKey AllowanceEntry := ⟨AllowanceEntry.key, fun _ => 20⟩

omit [LedgerEntry K E] in
theorem snapshotOf_insert {map map' : StorageMap K E} {k : K} {e : EntryWithLiveUntil E}
    (h : map.insert k (some e) = .ok map') : snapshotOf map' = update (snapshotOf map) k (some e) := by
  funext k'
  rw [snapshotOf, MeteredOrdMap.insert_eq_ok h]
  rcases eq_or_ne k' k with rfl | hne
  · rw [update_self, update_self]
    rfl
  · rw [update_of_ne hne, update_of_ne hne]
    rfl

namespace Sample

/-- Addresses as numbers. -/
def addressNumber : Address → ℕ
  | .account key => 2 * key
  | .contract id => 2 * id + 1

theorem addressNumber_injective : Injective addressNumber := by
  rintro (x | x) (y | y) h <;> simp only [addressNumber] at h
  · rw [show x = y by omega]
  · omega
  · omega
  · rw [show x = y by omega]

/-- A temporary key for each pair. -/
def allowanceKey (a b : Address) : DataKey := ⟨2 * Nat.pair (addressNumber a) (addressNumber b) + 1⟩

/-- Allowances as the entries of these keys. -/
def codec : AllowanceCodec DataKey AllowanceEntry where
  key := allowanceKey
  encode a b v := ⟨allowanceKey a b, v⟩
  decode e := e.value
  key_injective {a b a' b'} h := by
    have hn : 2 * Nat.pair (addressNumber a) (addressNumber b) + 1 =
        2 * Nat.pair (addressNumber a') (addressNumber b') + 1 := congrArg DataKey.number h
    obtain ⟨ha, hb⟩ := Nat.pair_eq_pair.1 (by omega : Nat.pair (addressNumber a) (addressNumber b) =
      Nat.pair (addressNumber a') (addressNumber b'))
    exact ⟨addressNumber_injective ha, addressNumber_injective hb⟩
  kind a b := by
    show LedgerKind.contractData _ = _
    rw [if_neg (by show ¬ (2 * _ + 1) % 2 = 0; omega)]
  key_encode _ _ _ := rfl
  decode_encode _ _ _ := rfl

/-- One allowance of a contract. -/
def allowing : Asset.Storage :=
  Asset.Storage.setAllowance ⟨.native, none, fun _ => none, fun _ _ => none, fun _ => none, fun _ => none⟩
    (.account 0) (.contract 0) ⟨⟨5, 50⟩, 60⟩

/-- The allowance of account 0 for contract 0. -/
def allowanceFootprint : Footprint DataKey :=
  ⟨[(⟨3⟩, .readWrite)], List.pairwise_singleton .., by decide⟩

/-- It is 5 through ledger 50. -/
def allowanceMap : StorageMap DataKey AllowanceEntry :=
  ⟨[(⟨3⟩, some (⟨⟨3⟩, ⟨5, 50⟩⟩, some 60))], List.pairwise_singleton .., by decide⟩

theorem allowanceMap_built :
    buildStorageMap allowanceFootprint [(⟨⟨3⟩, ⟨5, 50⟩⟩ : AllowanceEntry)] [some 60] 10 = .ok allowanceMap := by
  rfl

theorem allowanceMap_inserted : (MeteredOrdMap.new : StorageMap DataKey AllowanceEntry).insert ⟨3⟩
    (some (⟨⟨3⟩, ⟨5, 50⟩⟩, some 60)) = .ok allowanceMap := by rfl

theorem allowanceMap_stands : codec.Stands allowing (network.asset 0) (snapshotOf allowanceMap) := by
  rw [snapshotOf_insert allowanceMap_inserted]
  exact AllowanceCodec.Stands.setAllowance (fun _ _ => rfl) (by decide : 10 ≤ 60)

end Sample

/-- An allowance is raised, and lives for longer. -/
theorem allowance_on_host_sample :
    ∃ t, invokeFunction Sample.network
        (Sample.codec.write Sample.network (.account 0) (.contract 0) 9 70 (.done (.ok 7)) :
          Invocation DataKey AllowanceEntry ℕ ℕ)
        (Storage.withEnforcingFootprintAndMap Sample.allowanceFootprint Sample.allowanceMap, []) =
          .ok 7 (t, []) ∧
      t.map.entry ⟨3⟩ = some (some (⟨⟨3⟩, ⟨9, 70⟩⟩, some 71)) := by
  have hwrite : Asset.writeAllowance (Sample.network.asset 0) (.account 0) (.contract 0) 9 70 Sample.allowing =
      .ok (Sample.allowing.setAllowance (.account 0) (.contract 0) ⟨⟨9, 70⟩, 71⟩) := by rfl
  have hp : Sample.allowanceFootprint.entry (Sample.codec.key (.account 0) (.contract 0)) =
      some .readWrite := rfl
  have hhost := allowance_on_host (X := ℕ) 9 70 7 (buildStorageMap_eq_ok Sample.allowanceMap_built)
    Sample.allowanceMap_stands hp
  rw [hwrite] at hhost
  obtain ⟨t, hrun, hleft, -⟩ := hhost
  exact ⟨t, hrun, (hleft (.account 0) (.contract 0) rfl).trans rfl⟩

end HostStorage

end TogetherFi
