/-
  The entries a call of a pool extends.

  As for the escrow: a successful call extends exactly the entries it touches
  (`PoolCall.exec_live`).  Which these are depends on the storage only where a
  call goes through the allocations of a manifest.
-/
import TogetherFi.Pool.Claims
import TogetherFi.Pool.Credit

namespace TogetherFi

open Outcome Function

namespace Pool

/-- The first `n` allocations of manifest `id`. -/
def allocations (id : UInt64) (n : ℕ) : List PoolEntry := (List.range n).map (.allocation id)

/-- The entries a successful call extends. -/
def PoolCall.touched (s : PoolStorage) : PoolCall → List PoolEntry
  | .recordCredit id _ => [.instance_, .creditedCampaign id]
  | .publishManifest id _ _ _ recipients _ =>
    .instance_ :: allocations id recipients.length ++ [.manifest id]
  | .claim id i => [.instance_, .allocation id i, .manifest id]
  | .expireManifest id => [.instance_, .manifest id]
  | .getManifest id => [.manifest id]
  | .getAllocation id i => [.allocation id i]
  | .extendManifestTtl id =>
    .manifest id :: allocations id ((s.manifest id).elim 0 Manifest.allocationCount)
  | .isPaused | .governance | .eligibilityAuthority | .escrowContract | .tokenContract => []
  | _ => [.instance_]

variable {env : Env} {s s' : PoolStorage} {t t' : Tokens} {id : UInt64}

/-! ## The loops -/

theorem storeAllocations_live (env : Env) (id : UInt64) (pairs : List (Address × ℤ)) (index : ℕ)
    (s : PoolStorage) : (storeAllocations env id index pairs s).live =
      ((List.range' index pairs.length).map (.allocation id)).foldl (extendTtl env) s.live := by
  induction pairs generalizing index s with
  | nil => rfl
  | cons p pairs ih =>
    rw [storeAllocations, ih, List.length_cons, List.range'_succ, List.map_cons, List.foldl_cons]
    rfl

theorem extendAllocationTtls_live {is : List ℕ} (h : extendAllocationTtls env id is s = .ok s') :
    s'.live = (is.map (.allocation id)).foldl (extendTtl env) s.live := by
  induction is generalizing s with
  | nil =>
    simp only [extendAllocationTtls, Except.ok.injEq] at h
    rw [← h]
    rfl
  | cons i is ih =>
    simp only [extendAllocationTtls, bind_eq_ok] at h
    obtain ⟨_, -, h⟩ := h
    rw [ih h, List.map_cons, List.foldl_cons]
    rfl

/-! ## The entry points -/

theorem initializePool_live {g e tok esc d : Address} {salt : BytesN32}
    (h : initializePool env g e tok esc d salt s = .ok s') :
    s'.live = [.instance_].foldl (extendTtl env) s.live := by
  simp only [initializePool, bind_eq_ok, pure_eq, Except.ok.injEq] at h
  obtain ⟨_, -, _, -, _, -, _, -, _, -, _, -, rfl⟩ := h
  rfl

theorem publishManifest_live {hash policy : BytesN32} {expiresAt : UInt64} {recipients : List Address}
    {amounts : List ℤ} (h : publishManifest env id hash policy expiresAt recipients amounts s t = .ok s') :
    s'.live = (.instance_ :: allocations id recipients.length ++ [PoolEntry.manifest id]).foldl
      (extendTtl env) s.live := by
  have hlen := (publishManifest_ok h).lengths
  simp only [publishManifest, bind_eq_ok, init_eq_ok, pure_eq, Except.ok.injEq] at h
  obtain ⟨_, ⟨-, rfl⟩, _, -, _, -, _, -, _, -, _, -, _, -, _, -, _, -, _, -, _, -, _, -, _, -, _, -, _, -, _,
    -, rfl⟩ := h
  have hzip : (recipients.zip amounts).length = recipients.length := by
    rw [List.length_zip, hlen, min_self]
  have hstore := storeAllocations_live env id (recipients.zip amounts) 0 (s.extend env .instance_)
  rw [hzip, ← List.range_eq_range'] at hstore
  rw [List.foldl_append, List.foldl_cons]
  exact congrArg (extendTtl env · (PoolEntry.manifest id)) hstore

theorem expireManifest_live (h : expireManifest env id s = .ok s') :
    s'.live = [.instance_, .manifest id].foldl (extendTtl env) s.live := by
  simp only [expireManifest, bind_eq_ok, init_eq_ok, pure_eq, Except.ok.injEq] at h
  obtain ⟨_, ⟨-, rfl⟩, _, -, _, -, _, -, _, -, _, -, _, -, rfl⟩ := h
  rfl

theorem proposeRole_live {role : ℕ} {account : Address} (h : proposeRole env role account s = .ok s') :
    s'.live = [.instance_].foldl (extendTtl env) s.live := by
  simp only [proposeRole, bind_eq_ok, init_eq_ok, pure_eq, Except.ok.injEq] at h
  obtain ⟨_, ⟨-, rfl⟩, _, -, _, -, rfl⟩ := h
  split <;> rfl

theorem acceptRole_live {role : ℕ} (h : acceptRole env role s = .ok s') :
    s'.live = [.instance_].foldl (extendTtl env) s.live := by
  simp only [acceptRole, bind_eq_ok, init_eq_ok, pure_eq, Except.ok.injEq] at h
  obtain ⟨_, ⟨-, rfl⟩, _, -, _, -, _, -, _, -, rfl⟩ := h
  split <;> rfl

theorem setPaused_live {b : Bool} (h : setPaused b env s = .ok s') :
    s'.live = [.instance_, .instance_].foldl (extendTtl env) s.live := by
  simp only [setPaused, bind_eq_ok, init_eq_ok, pure_eq, Except.ok.injEq] at h
  obtain ⟨_, ⟨-, rfl⟩, _, -, _, -, rfl⟩ := h
  rfl

theorem extendManifestTtl_live {m : Manifest} (hm : s.manifest id = some m)
    (h : extendManifestTtl env id s = .ok s') : s'.live =
      (PoolEntry.manifest id :: allocations id m.allocationCount).foldl (extendTtl env) s.live := by
  simp only [extendManifestTtl, Pool.manifest, bind_eq_ok, okOr_eq_ok] at h
  obtain ⟨m', hm', h⟩ := h
  obtain rfl := Option.some.inj (hm.symm.trans hm')
  rw [extendAllocationTtls_live h]
  rfl

/-- **A successful call extends the entries it touches, and no others.** -/
theorem PoolCall.exec_live {call : PoolCall} (h : call.exec env s t = .ok (s', t')) :
    s'.live = extendAll env.sequence (call.touched s) s.live := by
  cases call
  case initializePool =>
    obtain ⟨hc, rfl⟩ := pair_eq_ok.1 h
    rw [initializePool_live hc, foldl_extendTtl]
    rfl
  case recordCredit =>
    obtain ⟨hc, rfl⟩ := pair_eq_ok.1 h
    exact (recordCredit_live hc).trans (foldl_extendTtl env [_, _] s.live)
  case publishManifest =>
    obtain ⟨hc, rfl⟩ := pair_eq_ok.1 h
    rw [publishManifest_live hc, foldl_extendTtl]
    rfl
  case claim =>
    rw [claim_live h, foldl_extendTtl]
    rfl
  case expireManifest =>
    obtain ⟨hc, rfl⟩ := pair_eq_ok.1 h
    rw [expireManifest_live hc, foldl_extendTtl]
    rfl
  case proposeGovernance | proposeEligibilityAuthority =>
    obtain ⟨hc, rfl⟩ := pair_eq_ok.1 h
    rw [proposeRole_live hc, foldl_extendTtl]
    rfl
  case acceptGovernance | acceptEligibilityAuthority =>
    obtain ⟨hc, rfl⟩ := pair_eq_ok.1 h
    rw [acceptRole_live hc, foldl_extendTtl]
    rfl
  case pause | unpause =>
    obtain ⟨hc, rfl⟩ := pair_eq_ok.1 h
    rw [setPaused_live hc, foldl_extendTtl]
    exact extendAll_congr (by simp [touched]) ..
  case getManifest =>
    obtain ⟨⟨_, hc⟩, rfl⟩ := snd_pair_eq_ok.1 h
    simp only [Pool.getManifest, bind_eq_ok, pure_eq, Except.ok.injEq, Prod.mk.injEq] at hc
    obtain ⟨_, -, -, rfl⟩ := hc
    exact foldl_extendTtl env [_] s.live
  case getAllocation =>
    obtain ⟨⟨_, hc⟩, rfl⟩ := snd_pair_eq_ok.1 h
    simp only [Pool.getAllocation, bind_eq_ok, pure_eq, Except.ok.injEq, Prod.mk.injEq] at hc
    obtain ⟨_, -, -, rfl⟩ := hc
    exact foldl_extendTtl env [_] s.live
  case totalLiability =>
    obtain ⟨⟨_, hc⟩, rfl⟩ := snd_pair_eq_ok.1 h
    simp only [Pool.totalLiability, bind_eq_ok, init_eq_ok, pure_eq, Except.ok.injEq,
      Prod.mk.injEq] at hc
    obtain ⟨_, ⟨-, rfl⟩, _, -, -, rfl⟩ := hc
    exact foldl_extendTtl env [_] s.live
  case availableBalance =>
    simp only [exec, bind_eq_ok, pure_eq, Except.ok.injEq, Prod.mk.injEq] at h
    obtain ⟨_, -, rfl, rfl⟩ := h
    exact foldl_extendTtl env [_] s.live
  case isPaused =>
    simp only [exec, Except.ok.injEq, Prod.mk.injEq] at h
    obtain ⟨rfl, rfl⟩ := h
    exact (extendAll_nil ..).symm
  case extendInstanceTtl =>
    obtain ⟨hc, rfl⟩ := pair_eq_ok.1 h
    obtain ⟨-, rfl⟩ := init_eq_ok.1 hc
    exact foldl_extendTtl env [_] s.live
  case extendManifestTtl id =>
    obtain ⟨hc, rfl⟩ := pair_eq_ok.1 h
    cases hm : s.manifest id with
    | none =>
      simp only [Pool.extendManifestTtl, Pool.manifest, hm] at hc
      cases hc
    | some m =>
      rw [extendManifestTtl_live hm hc, foldl_extendTtl]
      simp only [touched, hm, Option.elim_some]
  case governance | eligibilityAuthority | escrowContract | tokenContract =>
    simp only [exec, bind_eq_ok, pure_eq, Except.ok.injEq, Prod.mk.injEq] at h
    obtain ⟨_, -, rfl, rfl⟩ := h
    exact (extendAll_nil ..).symm

end Pool

end TogetherFi
