/-
  Two roles that are handed over in two steps.

  The holder of the governance role proposes an account for either role, and the
  proposed account accepts.  `Rotates` is what such an event does to the two
  holders and the two pending slots; `guard` is what a contract compares before
  a role is filled, `auth` who authorizes the event.

  * `Rotates.apart_iff`: the roles stay with different accounts exactly when
    every event fills a role with an account that does not hold the other.
  * `accept_proposed`: in every run, an accepted role goes to the account of the
    latest proposal for it, which the governance of that time authorized.
-/
import Mathlib.Tactic.Basic
import Mathlib.Logic.Function.Basic
import TogetherFi.Lib.Run

namespace Rotation

open Function

/-- The two roles. -/
inductive Role where
  | governance
  | authority
  deriving DecidableEq, Repr

/-- The role that is not this one. -/
def Role.other : Role → Role
  | governance => authority
  | authority => governance

/-- Who holds each role, and who is proposed for it. -/
@[ext] structure Roles (α : Type*) where
  holder : Role → Option α
  pending : Role → Option α

/-- What can happen to the roles. -/
inductive RoleEvent (α : Type*) where
  | install (governance authority : α)
  | propose (role : Role) (account : α)
  | accept (role : Role)
  /-- any event that leaves the roles alone -/
  | keep
  deriving DecidableEq, Repr

variable {α : Type*}

namespace Roles

/-- The first holders. -/
def installed (r : Roles α) (governance authority : α) : Roles α where
  holder
    | .governance => some governance
    | .authority => some authority
  pending := r.pending

/-- An account is proposed for a role. -/
def proposed (r : Roles α) (role : Role) (account : α) : Roles α :=
  { r with pending := update r.pending role (some account) }

/-- A proposed account takes its role. -/
def accepted (r : Roles α) (role : Role) (account : α) : Roles α where
  holder := update r.holder role (some account)
  pending := update r.pending role none

@[simp] theorem proposed_pending_self (r : Roles α) (role : Role) (a : α) :
    (r.proposed role a).pending role = some a := update_self ..

@[simp] theorem accepted_holder_self (r : Roles α) (role : Role) (a : α) :
    (r.accepted role a).holder role = some a := update_self ..

@[simp] theorem accepted_pending_self (r : Roles α) (role : Role) (a : α) :
    (r.accepted role a).pending role = none := update_self ..

/-- Both roles are held once the first is, and by different accounts. -/
def Apart (r : Roles α) : Prop :=
  ∀ g, r.holder .governance = some g → ∃ a, r.holder .authority = some a ∧ g ≠ a

/-- The event fills no role with the holder of the other. -/
def Separates (r : Roles α) : RoleEvent α → Prop
  | .install g a => g ≠ a
  | .accept role => ∀ a, r.pending role = some a → r.holder role.other ≠ some a
  | .propose .. | .keep => True

end Roles

/-- The event proposes an account for `role`, or fills it from its pending slot. -/
def RoleEvent.touches (role : Role) : RoleEvent α → Prop
  | .propose r _ => r = role
  | .accept r => r = role
  | .install .. | .keep => False

/-- The role an event proposes an account for. -/
def RoleEvent.proposes : RoleEvent α → Option Role
  | .propose role _ => some role
  | _ => none

/-- **What an event does to the roles.** -/
inductive Rotates (guard : α → α → Prop) (auth : α → Prop) (r : Roles α) :
    RoleEvent α → Roles α → Prop
  | install {g a} (fresh : r.holder .governance = none) (apart : guard g a) :
      Rotates guard auth r (.install g a) (r.installed g a)
  | propose {role a g} (holder : r.holder .governance = some g) (ok : auth g) :
      Rotates guard auth r (.propose role a) (r.proposed role a)
  | accept {role a} (initialized : (r.holder .governance).isSome) (pending : r.pending role = some a)
      (ok : auth a) (apart : ∀ o, r.holder role.other = some o → guard a o) :
      Rotates guard auth r (.accept role) (r.accepted role a)
  | keep : Rotates guard auth r .keep r

section
variable {guard : α → α → Prop} {auth : α → Prop} {r r' : Roles α} {e : RoleEvent α}

theorem Rotates.keep_eq (h : Rotates guard auth r .keep r') : r' = r := by
  cases h; rfl

/-- **When the roles stay apart**: exactly when the event separates them. -/
theorem Rotates.apart_iff (h : Rotates guard auth r e r') (hr : r.Apart) :
    r'.Apart ↔ r.Separates e := by
  cases h with
  | @install g a _ _ =>
    constructor
    · intro h'
      obtain ⟨a', ha', hne⟩ := h' g rfl
      obtain rfl : a = a' := Option.some.inj ha'
      exact hne
    · intro hne g' hg'
      obtain rfl : g = g' := Option.some.inj hg'
      exact ⟨a, rfl, hne⟩
  | propose => exact iff_of_true hr trivial
  | @accept role b hg hp _ _ =>
    obtain ⟨g, hg⟩ := Option.isSome_iff_exists.1 hg
    obtain ⟨a, ha, -⟩ := hr g hg
    cases role with
    | governance =>
      constructor
      · rintro h' b' hb' ho
        obtain rfl : b = b' := Option.some.inj (hp.symm.trans hb')
        obtain ⟨a', ha', hne⟩ := h' b (r.accepted_holder_self ..)
        exact hne (Option.some.inj (ho.symm.trans ha'))
      · rintro hs g' hg'
        obtain rfl : b = g' := Option.some.inj ((r.accepted_holder_self ..).symm.trans hg')
        refine ⟨a, ha, ?_⟩
        rintro rfl
        exact hs b hp ha
    | authority =>
      constructor
      · rintro h' b' hb' ho
        obtain rfl : b = b' := Option.some.inj (hp.symm.trans hb')
        obtain ⟨a', ha', hne⟩ := h' b ho
        exact hne (Option.some.inj ((r.accepted_holder_self ..).symm.trans ha'))
      · rintro hs g' hg'
        refine ⟨b, r.accepted_holder_self .., ?_⟩
        rintro rfl
        exact hs g' hp hg'
  | keep => exact iff_of_true hr trivial

/-- A guard that compares the accounts separates the roles. -/
theorem Rotates.separates (h : Rotates guard auth r e r') (hguard : ∀ a o, guard a o → a ≠ o) :
    r.Separates e := by
  cases h with
  | install _ apart => exact hguard _ _ apart
  | propose | keep => trivial
  | accept _ hp _ apart =>
    intro a ha ho
    obtain rfl := Option.some.inj (hp.symm.trans ha)
    exact hguard _ _ (apart _ ho) rfl

theorem Rotates.mono {guard' : α → α → Prop} (h : Rotates guard auth r e r')
    (hguard : ∀ a o, guard a o → guard' a o) : Rotates guard' auth r e r' := by
  cases h with
  | install fresh apart => exact .install fresh (hguard _ _ apart)
  | propose holder ok => exact .propose holder ok
  | accept initialized pending ok apart =>
    exact .accept initialized pending ok fun o ho => hguard _ _ (apart o ho)
  | keep => exact .keep

/-- A proposal stays in its slot until the role is proposed again or accepted. -/
theorem Rotates.pending_of_not_touches (h : Rotates guard auth r e r') {role : Role}
    (he : ¬ e.touches role) : r'.pending role = r.pending role := by
  cases h with
  | install | keep => rfl
  | propose | accept => exact update_of_ne (Ne.symm he) ..

theorem Rotates.holder_of_ne_accept (h : Rotates guard auth r e r') {g : α}
    (hr : r.holder .governance = some g) (he : e ≠ .accept .governance) :
    r'.holder .governance = some g := by
  cases h with
  | install fresh => rw [fresh] at hr; cases hr
  | propose | keep => exact hr
  | @accept role a _ _ _ _ =>
    cases role with
    | governance => exact absurd rfl he
    | authority => exact hr

end

/-! ## Runs -/

section
variable {σ β ε : Type*} {M : Machine σ β ε} {roles : σ → Roles α} {event : M.Step → RoleEvent α}
  {guard : α → α → Prop} {auth : M.Step → α → Prop} {s : σ}

/-- **The roles are apart after every step of a run exactly when every step
    separates them.** -/
theorem apart_run_iff (hrot : ∀ t, Rotates guard (auth t) (roles t.pre) (event t) (roles t.post))
    (as : List β) (h₀ : (roles s).Apart) :
    (∀ t ∈ M.trace s as, (roles t.pre).Separates (event t)) ↔
      ∀ t ∈ M.trace s as, (roles t.post).Apart := by
  induction as generalizing s with
  | nil => simp
  | cons a as ih =>
    cases h : M.step s a with
    | error e => rw [Machine.trace_cons_error h]; exact ih h₀
    | ok s' =>
      have hiff := (hrot ⟨s, a, s', h⟩).apart_iff h₀
      rw [Machine.trace_cons_ok h, List.forall_mem_cons, List.forall_mem_cons]
      constructor
      · rintro ⟨hs, hrest⟩
        exact ⟨hiff.2 hs, (ih (hiff.2 hs)).1 hrest⟩
      · rintro ⟨hs, hrest⟩
        exact ⟨hiff.1 hs, (ih hs).2 hrest⟩

theorem apart_run (hrot : ∀ t, Rotates guard (auth t) (roles t.pre) (event t) (roles t.post))
    (as : List β) (h₀ : (roles s).Apart)
    (hs : ∀ t ∈ M.trace s as, (roles t.pre).Separates (event t)) : (roles (M.run s as)).Apart := by
  induction as generalizing s with
  | nil => exact h₀
  | cons a as ih =>
    rw [Machine.run_cons]
    cases h : M.step s a with
    | error e =>
      rw [Machine.trace_cons_error h] at hs
      rw [Machine.next_error h]
      exact ih h₀ hs
    | ok s' =>
      rw [Machine.trace_cons_ok h, List.forall_mem_cons] at hs
      rw [Machine.next_ok h]
      exact ih (((hrot ⟨s, a, s', h⟩).apart_iff h₀).2 hs.1) hs.2

/-- `u` is the latest proposal for `role` in `history`: it named `a`, and the
    account `g` that governed then authorized it. -/
structure Latest (roles : σ → Roles α) (event : M.Step → RoleEvent α) (auth : M.Step → α → Prop)
    (role : Role) (a g : α) (u : M.Step) (before later : List M.Step) (history : List M.Step) :
    Prop where
  history_eq : history = before ++ u :: later
  names : event u = .propose role a
  governs : (roles u.pre).holder .governance = some g
  authorizes : auth u g
  latest : ∀ v ∈ later, ¬ (event v).touches role

/-- **A pending account was named by the latest proposal** for its role.  Its
    proposer still governs if nobody accepted governance since. -/
theorem pending_proposed
    (hrot : ∀ t, Rotates guard (auth t) (roles t.pre) (event t) (roles t.post))
    (h₀ : ∀ role, (roles s).pending role = none) (as : List β) {role : Role} {a : α}
    (h : (roles (M.run s as)).pending role = some a) :
    ∃ g u before later, Latest roles event auth role a g u before later (M.trace s as) ∧
      ((∀ v ∈ later, event v ≠ .accept .governance) →
        (roles (M.run s as)).holder .governance = some g) := by
  refine Machine.trace_induction (M := M) (A := fun _ => True) (P := fun hist w =>
    (roles w).pending role = some a → ∃ g u before later,
      Latest roles event auth role a g u before later hist ∧
        ((∀ v ∈ later, event v ≠ .accept .governance) → (roles w).holder .governance = some g))
    ?_ ?_ as (fun _ _ => trivial) h
  · intro hp
    rw [h₀] at hp; cases hp
  · intro bs t _ _ _ ih hp
    by_cases ht : (event t).touches role
    · -- the step that fills the slot is the latest proposal itself
      have hr := hrot t
      generalize he : event t = e at ht hr
      generalize hpost : roles t.post = r' at hp hr
      cases hr with
      | install | keep => exact ht.elim
      | @propose role' b g hg hok =>
        obtain rfl : role' = role := ht
        obtain rfl : b = a := Option.some.inj ((Roles.proposed_pending_self ..).symm.trans hp)
        exact ⟨g, t, _, [], ⟨rfl, he, hg, hok, by simp⟩, fun _ => hg⟩
      | @accept role' b _ _ _ _ =>
        obtain rfl : role' = role := ht
        rw [Roles.accepted_pending_self] at hp; cases hp
    · rw [(hrot t).pending_of_not_touches ht] at hp
      obtain ⟨g, u, before, later, hu, hgov⟩ := ih hp
      refine ⟨g, u, before, later ++ [t], ⟨?_, hu.names, hu.governs, hu.authorizes, ?_⟩, ?_⟩
      · rw [hu.history_eq, List.append_assoc, List.cons_append]
      · intro v hv
        rcases List.mem_append.1 hv with hv | hv
        · exact hu.latest v hv
        · rw [List.mem_singleton.1 hv]; exact ht
      · intro hno
        exact (hrot t).holder_of_ne_accept (hgov fun v hv => hno v (by simp [hv])) (hno t (by simp))

/-- **An accepted role goes to the account of the latest proposal for it.** -/
theorem accept_proposed
    (hrot : ∀ t, Rotates guard (auth t) (roles t.pre) (event t) (roles t.post))
    (h₀ : ∀ role, (roles s).pending role = none) {as : List β} {t : M.Step} {role : Role}
    (ht : t ∈ M.trace s as) (he : event t = .accept role) :
    ∃ a g u before later rest, M.trace s as = before ++ u :: later ++ t :: rest ∧
      Latest roles event auth role a g u before later (before ++ u :: later) ∧
      (roles t.post).holder role = some a ∧ auth t a ∧
      ((role = .governance ∨ ∀ v ∈ later, event v ≠ .accept .governance) →
        (roles t.pre).holder .governance = some g) := by
  obtain ⟨bs, cs, -, hpre, htr⟩ := Machine.mem_trace ht
  have hr := hrot t
  rw [he] at hr
  generalize hpost : roles t.post = r' at hr
  cases hr with
  | @accept _ a _ hp hok _ =>
    rw [hpre] at hp
    obtain ⟨g, u, before, later, hu, hgov⟩ := pending_proposed hrot h₀ bs hp
    refine ⟨a, g, u, before, later, M.trace t.post cs, ?_, ?_, Roles.accepted_holder_self .., hok, ?_⟩
    · rw [← htr, hu.history_eq]
    · exact ⟨rfl, hu.names, hu.governs, hu.authorizes, hu.latest⟩
    · intro hor
      rw [hpre]
      refine hgov fun v hv => ?_
      rcases hor with rfl | hno
      · -- a governance accepted since would have touched the role
        intro hv'
        exact hu.latest v hv (by rw [hv']; rfl)
      · exact hno v hv

end

end Rotation
