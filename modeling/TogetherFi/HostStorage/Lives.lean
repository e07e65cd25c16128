/-
  The lives of the contracts' entries on the host.

  The contracts' model keeps a number for the life of each entry, and an
  `extend_ttl(key, TTL, TTL)` raises it to `TTL` ledgers from now
  (`TogetherFi.extendTtl`).  On the host this is a call that looks the entry up,
  compares two lives with a threshold and clamps the new one (`extendTtl_exec`).
  The extensions of a call, one after another, leave the lives of the model in
  the storage (`lives_on_host`).
-/
import TogetherFi.Host
import TogetherFi.HostStorage.Preflight

namespace TogetherFi

open Function Session

namespace HostStorage

variable {K E X V κ : Type} [LedgerKey K] [LedgerEntry K E] [DecidableEq κ] {key : K}
  {policy : Policy K} {li : LedgerInfo} {l : Ledger K E} {enc : κ → K} {held : κ → Option E}
  {live : κ → ℕ}

/-- The settings of a network on which `TTL` is within the longest life. -/
structure LedgerInfo.Admits (li : LedgerInfo) : Prop where
  ttl_lt : ttl < li.maxEntryTtl
  fits : li.sequenceNumber + li.maxEntryTtl ≤ u32Max + 1

/-- The ledger holds the entries of a contract, with their lives. -/
def Stands (enc : κ → K) (held : κ → Option E) (live : κ → ℕ) (l : Ledger K E) : Prop :=
  ∀ k, l (enc k) = (held k).map fun e => (e, some (live k))

/-- `extend_ttl(key, TTL, TTL)` for every key, then the rest. -/
def extendEach (keys : List K) (rest : Invocation K E X V) : Invocation K E X V :=
  keys.foldr (fun key p => .call (.extendTtl key ttl ttl) fun r => match r with
    | .ok _ => p
    | .error e => .done (.error e)) rest

/-! ## One extension -/

omit [LedgerEntry K E] in
theorem newLiveUntil_ttl (hli : li.Admits) (key : K) :
    Storage.newLiveUntil li key ttl = .ok (li.sequenceNumber + ttl) := by
  have hlt := hli.ttl_lt
  have hfits := hli.fits
  have hnew : checkedAdd li.sequenceNumber ttl = .ok (li.sequenceNumber + ttl) :=
    if_pos (by omega)
  have hmax : li.maxLiveUntilLedger = .ok (li.sequenceNumber + (li.maxEntryTtl - 1)) :=
    if_pos (by omega)
  rw [Storage.newLiveUntil, hnew, Outcome.ok_bind, hmax, Outcome.ok_bind, if_neg (by omega)]

omit [LedgerEntry K E] in
theorem checkSupported_of_durability {d : ContractDataDurability} (h : getKeyDurability key = some d) :
    checkSupportedLedgerKeyType key = .ok () := by
  unfold getKeyDurability at h
  unfold checkSupportedLedgerKeyType
  split
  · next hk =>
    rw [hk] at h
    cases h
  · rfl

omit [LedgerEntry K E] in
theorem getWithLiveUntilLedger_ok {e : EntryWithLiveUntil E}
    (hs : checkSupportedLedgerKeyType key = .ok ()) (hp : (policy key).isSome) (hl : l key = some e) :
    Plain.getWithLiveUntilLedger policy key l = .ok e l := by
  refine (bind_ok (Plain.tryGetFull_ok hs hp l)).trans ?_
  rw [hl]
  rfl

omit [LedgerEntry K E] in
theorem extendTtl_live {e : E} {a n : ℕ} (hs : checkSupportedLedgerKeyType key = .ok ())
    (hp : (policy key).isSome) (hl : l key = some (e, some a)) (ha : li.sequenceNumber ≤ a) :
    Plain.extendTtl policy li key n n l =
      (do
        let liveUntil ← attempt (Storage.newLiveUntil li key n)
        if Storage.renews li a liveUntil n then Plain.write key (some (e, some liveUntil)) else pure ()) l := by
  have hcheck : Storage.checkExtension key n n = .ok () := by
    rw [Storage.checkExtension, hs, Outcome.ok_bind, if_neg (lt_irrefl _)]
  have hlive : Storage.checkLive li (some a) = .ok a := if_neg (not_lt.2 ha)
  unfold Plain.extendTtl
  rw [hcheck, attempt_ok_bind]
  refine (bind_ok (getWithLiveUntilLedger_ok hs hp hl)).trans ?_
  simp only [hlive, attempt_ok_bind]

omit [LedgerEntry K E] in
/-- An extension by `n` ledgers with that threshold raises the life of a live entry to `n`
    ledgers from now. -/
theorem extendTtl_exec {e : E} {a n : ℕ}
    (hnew : Storage.newLiveUntil li key n = .ok (li.sequenceNumber + n))
    (hs : checkSupportedLedgerKeyType key = .ok ()) (hp : (policy key).isSome)
    (hl : l key = some (e, some a)) (ha : li.sequenceNumber ≤ a) :
    Plain.extendTtl policy li key n n l =
      .ok () (update l key (some (e, some (max a (li.sequenceNumber + n))))) := by
  rw [extendTtl_live hs hp hl ha, hnew, attempt_ok_bind]
  by_cases hlt : a < li.sequenceNumber + n
  · -- less than `n` ledgers are left, so the threshold is met
    have hr : Storage.renews li a (li.sequenceNumber + n) n = true := by
      simp only [Storage.renews, Bool.and_eq_true, decide_eq_true_eq]
      exact ⟨hlt, by omega⟩
    rw [if_pos hr, max_eq_right hlt.le]
    rfl
  · have hr : ¬ Storage.renews li a (li.sequenceNumber + n) n = true := by
      simp only [Storage.renews, Bool.and_eq_true, decide_eq_true_eq]
      exact fun h => hlt h.1
    rw [if_neg hr, max_eq_left (not_lt.1 hlt), ← hl]
    exact congrArg (EStateM.Result.ok ()) (update_eq_self key l).symm

/-! ## The extensions of a call -/

section

variable {o : Op K E X} {k : Except Error (Reply E) → Invocation K E X V} {depth : ℕ} {events : Events X}
  {l' : Ledger K E}

theorem run_call_ok {r : Reply E} (h : Plain.exec policy li o l = .ok r l') (hnone : o.emitted = []) :
    (Program.call o k).run (plainHandler policy li) depth (l, events) =
      (k (.ok r)).run (plainHandler policy li) depth (l', events) := by
  have hexec : (plainHandler policy li).exec o (l, events) = .ok r (l', events) := by
    show onFirst (Plain.exec policy li o) (l, events ++ o.emitted) = _
    rw [onFirst, h, hnone, List.append_nil]
  rw [Program.run_call, hexec]
  rfl

theorem run_call_error {err : Error} (h : Plain.exec policy li o l = .error err l') (hnone : o.emitted = []) :
    (Program.call o k).run (plainHandler policy li) depth (l, events) =
      (k (.error err)).run (plainHandler policy li) depth (l', events) := by
  have hexec : (plainHandler policy li).exec o (l, events) = .error err (l', events) := by
    show onFirst (Plain.exec policy li o) (l, events ++ o.emitted) = _
    rw [onFirst, h, hnone, List.append_nil]
  rw [Program.run_call, hexec]
  rfl

end

omit [LedgerEntry K E] in
/-- An extension of an entry of the contract extends its life in the model. -/
theorem Stands.extend {env : Env} {k : κ} {e : E} (henc : Injective enc) (hstands : Stands enc held live l)
    (hseq : env.sequence = li.sequenceNumber) (he : held k = some e) :
    Stands enc held (TogetherFi.extendTtl env live k)
      (update l (enc k) (some (e, some (max (live k) (li.sequenceNumber + ttl))))) := by
  intro j
  rw [TogetherFi.extendTtl, hseq]
  rcases eq_or_ne j k with rfl | hne
  · rw [update_self, update_self, he]
    rfl
  · rw [update_of_ne (henc.ne hne), update_of_ne hne]
    exact hstands j

/-- **The extensions of a call run through** and leave the lives of the model. -/
theorem extendEach_run {env : Env} {ks : List κ} (rest : Invocation K E X V) (depth : ℕ)
    (events : Events X) (henc : Injective enc) (hli : li.Admits) (hseq : env.sequence = li.sequenceNumber)
    (hd : ∀ k, getKeyDurability (enc k) = some .persistent) (hstands : Stands enc held live l)
    (hks : ∀ k ∈ ks, (held k).isSome ∧ (policy (enc k)).isSome)
    (halive : ∀ k, (held k).isSome → li.sequenceNumber ≤ live k) :
    ∃ l', (extendEach (ks.map enc) rest).run (plainHandler policy li) depth (l, events) =
        rest.run (plainHandler policy li) depth (l', events) ∧
      Stands enc held (ks.foldl (TogetherFi.extendTtl env) live) l' := by
  induction ks generalizing l live with
  | nil => exact ⟨l, rfl, hstands⟩
  | cons k ks ih =>
    obtain ⟨hheld, hp⟩ := hks k (by simp)
    obtain ⟨e, he⟩ := Option.isSome_iff_exists.1 hheld
    have hl : l (enc k) = some (e, some (live k)) := by
      rw [hstands k, he]
      rfl
    have hexec : Plain.exec policy li (.extendTtl (enc k) ttl ttl : Op K E X) l = .ok .unit
        (update l (enc k) (some (e, some (max (live k) (li.sequenceNumber + ttl))))) :=
      (bind_ok (extendTtl_exec (newLiveUntil_ttl hli (enc k)) (checkSupported_of_durability (hd k)) hp hl
        (halive k hheld))).trans rfl
    have halive' : ∀ j, (held j).isSome → li.sequenceNumber ≤ TogetherFi.extendTtl env live k j := by
      intro j hj
      rw [TogetherFi.extendTtl, update_apply]
      split
      · exact (halive k hheld).trans (le_max_left ..)
      · exact halive j hj
    obtain ⟨l', hrun, hl'⟩ :=
      ih (Stands.extend henc hstands hseq he) (fun j hj => hks j (by simp [hj])) halive'
    refine ⟨l', ?_, hl'⟩
    rw [List.map_cons, extendEach, List.foldr_cons, run_call_ok hexec rfl]
    exact hrun

/-- **The lives of the contracts' model are those of the host.**  On an enforced storage that
    holds the entries of a contract, the extensions of a call leave every entry of the
    footprint as it was, with the life it has in the model. -/
theorem lives_on_host {env : Env} {ks : List κ} {footprint : Footprint K} {map : StorageMap K E} {v : V}
    (henc : Injective enc) (hd : ∀ k, getKeyDurability (enc k) = some .persistent) (hli : li.Admits)
    (hseq : env.sequence = li.sequenceNumber) (hmap : map.entry = footprint.restrict l)
    (hstands : Stands enc held live l)
    (hks : ∀ k ∈ ks, (held k).isSome ∧ (footprint.entry (enc k)).isSome)
    (halive : ∀ k, (held k).isSome → li.sequenceNumber ≤ live k) :
    ∃ s, invokeFunction li (extendEach (ks.map enc) (.done (.ok v)) : Invocation K E X V)
        (Storage.withEnforcingFootprintAndMap footprint map, []) = .ok v (s, []) ∧
      ∀ k, (footprint.entry (enc k)).isSome → s.map.entry (enc k) =
        some ((held k).map fun e => (e, some (ks.foldl (TogetherFi.extendTtl env) live k))) := by
  obtain ⟨l', hrun, hl'⟩ :=
    extendEach_run (.done (.ok v)) 1 ([] : Events X) henc hli hseq hd hstands hks halive
  have hplain : plainFunction footprint.entry li (extendEach (ks.map enc) (.done (.ok v)) : Invocation K E X V)
      (l, []) = .ok v (l', []) := by
    rw [plainFunction, Program.run_frame, hrun]
    rfl
  have hagree := invokeFunction_agrees li hmap
    (extendEach (ks.map enc) (.done (.ok v)) : Invocation K E X V)
  rw [hplain] at hagree
  generalize invokeFunction li (extendEach (ks.map enc) (.done (.ok v)) : Invocation K E X V)
    (Storage.withEnforcingFootprintAndMap footprint map, []) = x at hagree
  cases hagree with
  | @ok _ s t h =>
    rcases s with ⟨s, events⟩
    obtain ⟨he, hev⟩ := h
    have he : Enforcing footprint s l' := he
    have hev : events = [] := hev
    refine ⟨s, by rw [hev], fun k hk => ?_⟩
    rw [he.entry_eq, Footprint.restrict, if_pos hk]
    exact congrArg some (hl' k)

namespace Sample

/-- The keys of two entries. -/
def pair (b : Bool) : DataKey := ⟨if b then 2 else 0⟩

/-- One is near its end, the other is not. -/
def lives (b : Bool) : ℕ := if b then 50 else 800000

/-- Both are read-only. -/
def pairFootprint : Footprint DataKey :=
  ⟨[(pair false, .readOnly), (pair true, .readOnly)], List.pairwise_pair.2 (by decide), by decide⟩

/-- Their entries. -/
def pairMap : StorageMap DataKey DataEntry :=
  ⟨[(pair false, some (⟨pair false, 8⟩, some 800000)), (pair true, some (⟨pair true, 8⟩, some 50))],
    List.pairwise_pair.2 (by decide), by decide⟩

theorem pairMap_built : buildStorageMap pairFootprint [⟨pair false, 8⟩, ⟨pair true, 8⟩]
    [some 800000, some 50] 10 = .ok pairMap := by rfl

/-- Its longest life is a million ledgers. -/
def network : LedgerInfo := ⟨10, 16, 100, 1000000⟩

/-- A call at ledger 10. -/
def env : Env where
  self := .contract 0
  timestamp := 0
  sequence := 10
  authorized _ := false
  deployedAddress a _ := a
  isPool _ := false
  foreign := ⟨fun _ => none, fun _ => none, fun _ _ _ => false⟩

end Sample

theorem lives_on_host_sample :
    ∃ s, invokeFunction Sample.network
        (extendEach ([true, false, true].map Sample.pair) (.done (.ok 7)) : Invocation DataKey DataEntry ℕ ℕ)
        (Storage.withEnforcingFootprintAndMap Sample.pairFootprint Sample.pairMap, []) = .ok 7 (s, []) ∧
      ∀ k, (Sample.pairFootprint.entry (Sample.pair k)).isSome → s.map.entry (Sample.pair k) =
        some ((some ⟨Sample.pair k, 8⟩ : Option DataEntry).map fun e =>
          (e, some ([true, false, true].foldl (TogetherFi.extendTtl Sample.env) Sample.lives k))) := by
  have hstands : Stands Sample.pair (fun k => some ⟨Sample.pair k, 8⟩) Sample.lives
      (snapshotOf Sample.pairMap) := by
    intro k
    cases k <;> rfl
  have hpair : Injective Sample.pair := by decide
  have hnetwork : Sample.network.Admits := ⟨by decide, by decide⟩
  refine lives_on_host hpair (fun k => ?_) hnetwork rfl (buildStorageMap_eq_ok Sample.pairMap_built) hstands
    ?_ ?_
  · cases k <;> rfl
  · intro k _
    cases k <;> exact ⟨rfl, rfl⟩
  · intro k _
    cases k <;> decide

end HostStorage

end TogetherFi
