/-
  The scores are the last writes.

  A successful call writes one record, installs the admin, or changes nothing
  (`Effect`).  Along every run the stored scores are the last write of each
  profile (`run_score`), and all writes come after the one installation of an
  admin and are authorized by it (`run_governed`).
-/
import TogetherFi.Lib.LastWrite
import TogetherFi.Reputation.Contract

namespace TogetherFi

open Outcome Function LastWrite

namespace Reputation

/-! ## What a call did -/

/-- The record an attempt writes, if it is successful, and its key. -/
def Attempt.written (a : Attempt) : Option (UInt64 × ScoreRecord) :=
  match a.call with
  | .anchorScore id creator score tier hash =>
    some (id, ⟨id, creator, score, tier, hash, a.env.timestamp⟩)
  | _ => none

/-- The admin an attempt installs, if it is successful. -/
def Attempt.installed (a : Attempt) : Option Address :=
  match a.call with
  | .initializeAnchor admin _ _ => some admin
  | _ => none

/-- What a successful attempt did. -/
inductive Effect (s s' : AnchorStorage) (a : Attempt) : Prop
  | install {admin} (fresh : s.admin = none) (installed : a.installed = some admin)
      (written : a.written = none) (post : s' = { s with admin := some admin })
  | write {admin id r} (admin_eq : s.admin = some admin) (auth : a.env.authorized admin = true)
      (installed : a.installed = none) (written : a.written = some (id, r))
      (key : r.profileId = id) (bound : r.score ≤ 1000)
      (post : s' = { s with score := update s.score id (some r) })
  | read (installed : a.installed = none) (written : a.written = none) (post : s' = s)

/-- **What a successful attempt did.** -/
theorem effect {s s' : AnchorStorage} {a : Attempt} (h : machine.step s a = .ok s') :
    Effect s s' a := by
  obtain ⟨env, call⟩ := a
  have h : call.exec env s = .ok s' := h
  cases call with
  | initializeAnchor admin deployer salt =>
    simp only [AnchorCall.exec, Reputation.initializeAnchor, bind_eq_ok, rejectIf_eq_ok,
      requireAuth_eq_ok, exists_const, pure_eq, Except.ok.injEq] at h
    obtain ⟨hfresh, -, -, _, -, rfl⟩ := h
    exact .install (by simpa using hfresh) rfl rfl rfl
  | anchorScore id creator score tier hash =>
    simp only [AnchorCall.exec, Reputation.anchorScore, requireInitialized, bind_eq_ok, okOr_eq_ok,
      rejectIf_eq_ok, requireAuth_eq_ok, exists_const, pure_eq, Except.ok.injEq] at h
    obtain ⟨admin, hadmin, hauth, hscore, rfl⟩ := h
    exact .write hadmin hauth rfl rfl rfl (by simpa using hscore) rfl
  | getScore id =>
    simp only [AnchorCall.exec, bind_eq_ok, pure_eq, Except.ok.injEq] at h
    obtain ⟨_, -, rfl⟩ := h
    exact .read rfl rfl rfl
  | getScoresBatch ids => exact .read rfl rfl (Except.ok.inj h).symm

/-! ## The batch read -/

theorem collectScores_eq (s : AnchorStorage) (ids : List UInt64) (results : List ScoreRecord) :
    collectScores s ids results = results ++ ids.filterMap s.score := by
  induction ids generalizing results with
  | nil => simp [collectScores]
  | cons id ids ih =>
    cases h : s.score id with
    | none => simp only [collectScores, h, ih, List.filterMap_cons_none]
    | some r =>
      simp only [collectScores, h, ih]
      rw [List.filterMap_cons_some h, List.append_assoc, List.singleton_append]

/-- **The batch read is the single read along the list.** -/
theorem getScoresBatch_eq (s : AnchorStorage) (ids : List UInt64) :
    getScoresBatch ids s = ids.filterMap fun id => (getScore id s).toOption := by
  rw [getScoresBatch, collectScores_eq, List.nil_append]
  congr 1
  funext id
  unfold getScore
  cases s.score id <;> rfl

/-! ## Histories -/

/-- The writes of a history, in order. -/
def writes (h : List Step) : List (UInt64 × ScoreRecord) := h.filterMap (·.act.written)

/-- The step writes profile `p`. -/
def WritesTo (p : UInt64) (t : Step) : Prop := ∃ r, t.act.written = some (p, r)

theorem forall_writes {h : List Step} {p : UInt64} :
    (∀ w ∈ writes h, w.1 ≠ p) ↔ ∀ t ∈ h, ¬ WritesTo p t := by
  simp only [writes, List.mem_filterMap, WritesTo]
  constructor
  · rintro hall t ht ⟨r, hr⟩
    exact hall (p, r) ⟨t, ht, hr⟩ rfl
  · rintro hall ⟨_, r⟩ ⟨t, ht, hr⟩ rfl
    exact hall t ht ⟨r, hr⟩

theorem writes_eq_append {h : List Step} {p : UInt64} {r : ScoreRecord} :
    (∃ l k, writes h = l ++ (p, r) :: k ∧ ∀ w ∈ k, w.1 ≠ p) ↔
      ∃ l t k, h = l ++ t :: k ∧ t.act.written = some (p, r) ∧ ∀ u ∈ k, ¬ WritesTo p u := by
  constructor
  · rintro ⟨l, k, he, hk⟩
    obtain ⟨h₁, h₂, rfl, -, htail⟩ := List.filterMap_eq_append_iff.1 he
    obtain ⟨h₃, t, h₄, rfl, hnone, ht, rfl⟩ := List.filterMap_eq_cons_iff.1 htail
    refine ⟨h₁ ++ h₃, t, h₄, by simp, ht, ?_⟩
    exact forall_writes.1 hk
  · rintro ⟨l, t, k, rfl, ht, hk⟩
    refine ⟨writes l, writes k, ?_, forall_writes.2 hk⟩
    have hcons : writes (t :: k) = (p, r) :: writes k := List.filterMap_cons_some ht
    rw [← hcons]
    exact List.filterMap_append

/-- **The stored scores are the last writes.** -/
theorem run_score (as : List Attempt) :
    (machine.run .empty as).score = latest (writes (machine.trace .empty as)) := by
  refine Machine.trace_induction (A := fun _ => True) (P := fun h s => s.score = latest (writes h))
    rfl (fun as t _ _ _ ih => ?_) as (fun _ _ => trivial)
  rw [writes, List.filterMap_append, ← writes]
  cases effect t.ok with
  | install _ _ hw hpost => simp [hpost, hw, ih]
  | write _ _ _ hw _ _ hpost => simp [hpost, hw, ih]
  | read _ hw hpost => simp [hpost, hw, ih]

/-- The write is of a valid record, and the admin `a` authorized it. -/
def Attempt.Authorized (a : Address) (t : Attempt) (w : UInt64 × ScoreRecord) : Prop :=
  t.env.authorized a = true ∧ w.2.profileId = w.1 ∧ w.2.score ≤ 1000

/-- In the history `h` the admin was installed once, if there is one, and whatever
    was written came later and with its authorization. -/
def Governed : Option Address → List Step → Prop
  | none, h => ∀ t ∈ h, t.act.installed = none ∧ t.act.written = none
  | some a, h => ∃ l i r, h = l ++ i :: r ∧ i.act.installed = some a ∧
    (∀ t ∈ l ++ r, t.act.installed = none) ∧ (∀ t ∈ l ++ [i], t.act.written = none) ∧
    ∀ t ∈ r, ∀ w, t.act.written = some w → t.act.Authorized a w

theorem Governed.later {a : Address} {h : List Step} {t : Step} (hg : Governed (some a) h)
    (ht : t.act.installed = none) (hw : ∀ w, t.act.written = some w → t.act.Authorized a w) :
    Governed (some a) (h ++ [t]) := by
  obtain ⟨l, i, r, rfl, hi, hinst, hbefore, hafter⟩ := hg
  refine ⟨l, i, r ++ [t], by simp, hi, ?_, hbefore, ?_⟩
  · intro u hu
    rw [← List.append_assoc] at hu
    rcases List.mem_append.1 hu with hu | hu
    · exact hinst u hu
    · rw [List.mem_singleton.1 hu]
      exact ht
  · intro u hu w hwu
    rcases List.mem_append.1 hu with hu | hu
    · exact hafter u hu w hwu
    · obtain rfl := List.mem_singleton.1 hu
      exact hw w hwu

/-- **All writes are the admin's.** -/
theorem run_governed (as : List Attempt) :
    Governed (machine.run .empty as).admin (machine.trace .empty as) := by
  refine Machine.trace_induction (A := fun _ => True)
    (P := fun h (s : AnchorStorage) => Governed s.admin h) (by simp [AnchorStorage.empty, Governed])
    (fun as t _ _ _ ih => ?_) as (fun _ _ => trivial)
  cases effect t.ok with
  | install hfresh hi hw hpost =>
    rw [hfresh] at ih
    rw [hpost]
    refine ⟨_, t, [], rfl, hi, ?_, ?_, by simp⟩
    · intro u hu
      rw [List.append_nil] at hu
      exact (ih u hu).1
    · intro u hu
      rcases List.mem_append.1 hu with hu | hu
      · exact (ih u hu).2
      · rw [List.mem_singleton.1 hu]
        exact hw
  | write hadmin hauth hi hw hkey hbound hpost =>
    rw [hpost]
    rw [hadmin] at ih ⊢
    refine ih.later hi fun w hw' => ?_
    obtain rfl := Option.some.inj (hw.symm.trans hw')
    exact ⟨hauth, hkey, hbound⟩
  | read hi hw hpost =>
    rw [hpost]
    cases hadmin : t.pre.admin with
    | none =>
      rw [hadmin] at ih
      intro u hu
      rcases List.mem_append.1 hu with hu | hu
      · exact ih u hu
      · rw [List.mem_singleton.1 hu]
        exact ⟨hi, hw⟩
    | some a =>
      rw [hadmin] at ih
      refine ih.later hi fun w hw' => ?_
      rw [hw] at hw'
      cases hw'

theorem run_authorized (as : List Attempt) {p : UInt64} {r : ScoreRecord}
    (hr : (machine.run .empty as).score p = some r) :
    r.profileId = p ∧ r.score ≤ 1000 ∧ ∃ admin l i k,
      machine.trace .empty as = l ++ i :: k ∧ i.act.installed = some admin ∧
      (∀ t ∈ l ++ k, t.act.installed = none) ∧
      ∃ t ∈ k, t.act.written = some (p, r) ∧ t.act.env.authorized admin = true := by
  rw [run_score] at hr
  obtain ⟨l', t, k', hsplit, ht, -⟩ := writes_eq_append.1 (latest_eq_some.1 hr)
  have htmem : t ∈ machine.trace .empty as := by rw [hsplit]; simp
  have hg := run_governed as
  cases hadmin : (machine.run .empty as).admin with
  | none =>
    rw [hadmin] at hg
    rw [(hg t htmem).2] at ht
    cases ht
  | some admin =>
    rw [hadmin] at hg
    obtain ⟨l, i, k, he, hi, hinst, hbefore, hafter⟩ := hg
    -- the step is none of those up to the installation
    have htk : t ∈ k := by
      rw [he, List.append_cons, List.mem_append] at htmem
      refine htmem.resolve_left fun hmem => ?_
      rw [hbefore t hmem] at ht
      cases ht
    obtain ⟨hauth, hkey, hbound⟩ := hafter t htk _ ht
    exact ⟨hkey, hbound, admin, l, i, k, he, hi, hinst, t, htk, ht, hauth⟩

theorem next_score (s : AnchorStorage) {a : Attempt} {p : UInt64}
    (hp : ∀ w, a.written = some w → w.1 ≠ p) : (machine.next s a).score p = s.score p := by
  cases h : machine.step s a with
  | error e => rw [Machine.next_error h]
  | ok s' =>
    rw [Machine.next_ok h]
    cases effect h with
    | install _ _ _ hpost | read _ _ hpost => rw [hpost]
    | write _ _ _ hw _ _ hpost =>
      rw [hpost]
      exact update_of_ne (hp _ hw).symm ..

/-- **The store is an exact last-write map.**  After every run of attempts, successful
    or not: the single read returns the record of the latest successful write, or
    that there is none; every stored record is valid and was written with the
    authorization of the one admin installed before; the batch read is the single
    read along the list; and an attempt changes no answer but that for the profile
    it writes. -/
theorem last_write_map (as : List Attempt) :
    let s := machine.run .empty as
    let h := machine.trace .empty as
    (∀ p r, getScore p s = .ok r ↔
      ∃ l t k, h = l ++ t :: k ∧ t.act.written = some (p, r) ∧ ∀ u ∈ k, ¬ WritesTo p u) ∧
    (∀ p, getScore p s = .error (.error .scoreNotFound) ↔ ∀ t ∈ h, ¬ WritesTo p t) ∧
    (∀ p r, s.score p = some r → r.profileId = p ∧ r.score ≤ 1000 ∧ ∃ admin l i k,
      h = l ++ i :: k ∧ i.act.installed = some admin ∧ (∀ t ∈ l ++ k, t.act.installed = none) ∧
      ∃ t ∈ k, t.act.written = some (p, r) ∧ t.act.env.authorized admin = true) ∧
    (∀ ids, getScoresBatch ids s = ids.filterMap fun p => (getScore p s).toOption) ∧
    ∀ a ids, (∀ p ∈ ids, ∀ w, Attempt.written a = some w → w.1 ≠ p) →
      (∀ p ∈ ids, getScore p (machine.next s a) = getScore p s) ∧
      getScoresBatch ids (machine.next s a) = getScoresBatch ids s := by
  intro s h
  have hscore : s.score = latest (writes h) := run_score as
  refine ⟨fun p r => ?_, fun p => ?_, fun p r hr => run_authorized as hr,
    fun ids => getScoresBatch_eq s ids, fun a ids hids => ?_⟩
  · rw [getScore, okOr_eq_ok, hscore, latest_eq_some]
    exact writes_eq_append
  · rw [← forall_writes, ← latest_eq_none, ← hscore, getScore]
    cases s.score p <;> simp [okOr]
  · have hread : ∀ p ∈ ids, getScore p (machine.next s a) = getScore p s := by
      intro p hp
      rw [getScore, getScore, next_score s (hids p hp)]
    refine ⟨hread, ?_⟩
    rw [getScoresBatch_eq, getScoresBatch_eq]
    refine List.filterMap_congr fun p hp => ?_
    rw [hread p hp]

end Reputation

end TogetherFi
