/-
  The checks the testnet scripts share (`scripts/testnet-common.mjs`).

  What they use of the Stellar SDK is a parameter (`Sdk`).  A failing check
  throws its text.  An account that `assertQuorum` accepts is a flat account of
  the three members (`assertQuorum_eq_ok`), so that the weight of a set of keys
  is the number of members in it.
-/
import Mathlib
import TogetherFi.Lib.Outcome
import TogetherFi.Lib.Quorum

namespace TogetherFi

open Outcome

namespace Scripts

/-! ## Data -/

/-- A decorated signature. -/
abbrev Signature := List UInt8

/-- The operations the scripts build or count. -/
inductive Operation where
  /-- `Operation.setOptions({ source, signer: { ed25519PublicKey, weight } })` -/
  | setSigner (source ed25519PublicKey : String) (weight : ℕ)
  | invokeHostFunction
  deriving DecidableEq, Repr

/-- A transaction envelope. -/
structure Transaction where
  source : String
  sequence : ℕ
  fee : ℕ
  /-- `timeBounds.maxTime` -/
  maxTime : ℕ
  operations : List Operation
  signatures : List Signature
  deriving DecidableEq

/-- What the scripts use of `@stellar/stellar-sdk`. -/
structure Sdk where
  /-- `StrKey.isValidEd25519PublicKey(key)` -/
  isValidEd25519PublicKey : String → Bool
  /-- `transaction.hash()`, in hexadecimal -/
  hash : Transaction → String
  /-- `Keypair.fromPublicKey(key).verify(digest, signature)`, of a signature of 64 bytes:
      it may throw on other lengths -/
  verify : String → String → Signature → Bool
  /-- `TransactionBuilder.fromXDR(text, NETWORK)`, or what it throws -/
  fromXDR : String → Except String Transaction
  /-- `transaction.toXDR()` -/
  toXDR : Transaction → String

/-- An object with text values: its properties in order, each name once. -/
structure Signers where
  properties : List (String × String)
  nodup : (properties.map Prod.fst).Nodup

/-- `Object.values(signers)` -/
def Signers.values (s : Signers) : List String := s.properties.map Prod.snd

/-- `signers[name]` -/
def Signers.get (s : Signers) (name : String) : Option String := s.properties.lookup name

/-- No signers. -/
def Signers.empty : Signers := ⟨[], List.nodup_nil⟩

/-- The part of a manifest that `validateSigners` reads. -/
structure Config where
  network : String
  signers : Option Signers

/-- `manifest.accounts`: the role accounts. -/
structure Accounts where
  governance : Option String
  settlement : Option String

/-- The part of a manifest that the scripts over a deployment read. -/
structure Deployed extends Config where
  accounts : Accounts

/-- The `type` of a signer. -/
inductive SignerType where
  | ed25519PublicKey
  | sha256Hash
  | preauthTx
  | ed25519SignedPayload
  deriving DecidableEq, Repr

/-- A signer of an account. -/
structure Signer where
  key : String
  weight : ℕ
  type : SignerType
  deriving DecidableEq, Repr

/-- The thresholds of an account. -/
structure Thresholds where
  low : ℕ
  med : ℕ
  high : ℕ
  deriving DecidableEq, Repr

/-- `Object.values(thresholds)` -/
def Thresholds.values (t : Thresholds) : List ℕ := [t.low, t.med, t.high]

/-- An account record of the ledger, which lists each signer once. -/
structure Account where
  accountId : String
  sequence : ℕ
  thresholds : Thresholds
  signers : List Signer
  nodup : (signers.map Signer.key).Nodup

/-! ## Checks -/

/-- `if (p) throw new Error(message)` -/
def throwIf (p : Prop) [Decidable p] (message : String) : Except String Unit :=
  if p then .error message else .ok ()

/-- A value that is `undefined` where it is missing, and rejected with the message. -/
def orThrow {α : Type} (o : Option α) (message : String) : Except String α :=
  match o with
  | some a => .ok a
  | none => .error message

@[simp] theorem orThrow_eq_ok {α : Type} {o : Option α} {message : String} {a : α} :
    orThrow o message = .ok a ↔ o = some a := by
  cases o <;> simp [orThrow]

@[simp] theorem throwIf_eq_ok {p : Prop} [Decidable p] {message : String} {u : Unit} :
    throwIf p message = .ok u ↔ ¬ p := by
  unfold throwIf
  split <;> simp_all

/-- `validateSigners` -/
def validateSigners (sdk : Sdk) (config : Config) : Except String (List String) := do
  throwIf (config.network ≠ "testnet") "Only testnet is permitted"
  let keys := (config.signers.getD .empty).values
  throwIf (keys.length ≠ 3 ∨ keys.dedup.length ≠ 3 ∨
      ¬ keys.all fun key => sdk.isValidEd25519PublicKey key)
    "Exactly three distinct Stellar public signer addresses required"
  return keys

/-- `assertQuorum` -/
def assertQuorum (account : Account) (keys : List String) : Except String Unit := do
  let active := account.signers.filter fun signer => 0 < signer.weight
  throwIf (active.length ≠ 3 ∨ active.any fun signer =>
      signer.type ≠ .ed25519PublicKey ∨ signer.weight ≠ 1 ∨ signer.key ∉ keys)
    "Unexpected active signer configuration"
  throwIf (account.accountId ∈ keys ∨ active.any fun signer => signer.key = account.accountId)
    "Dedicated role account master key must be disabled"
  throwIf (account.thresholds.values.any fun value => value ≠ 2)
    "All role-account thresholds must be 2"

/-- `approvedSignatureCount` -/
def approvedSignatureCount (sdk : Sdk) (transaction : Transaction) (keys : List String) : ℕ :=
  let digest := sdk.hash transaction
  (keys.filter fun key => transaction.signatures.any fun signature =>
    sdk.verify key digest signature).length

/-! ## What the checks accept -/

/-- The signers of an account with their weights. -/
def Account.weights (a : Account) : List (String × ℕ) := a.signers.map fun s => (s.key, s.weight)

/-- Stellar's weight rule: what the keys of a set weigh on the account. -/
def Account.weight (a : Account) (S : String → Bool) : ℕ := Quorum.total a.weights S

/-- The signers of positive weight are the members, public keys at weight one each. -/
structure Account.Members (a : Account) (members : List String) : Prop where
  flat : Quorum.Flat a.weights members
  type : ∀ s ∈ a.signers, 0 < s.weight → s.type = .ed25519PublicKey

theorem validateSigners_eq_ok {sdk : Sdk} {config : Config} {keys : List String} :
    validateSigners sdk config = .ok keys ↔ config.network = "testnet" ∧
      (config.signers.getD .empty).values = keys ∧ keys.length = 3 ∧ keys.Nodup ∧
      ∀ key ∈ keys, sdk.isValidEd25519PublicKey key = true := by
  simp only [validateSigners, bind_eq_ok, throwIf_eq_ok, exists_const, pure_eq, Except.ok.injEq,
    not_not, not_or, List.all_eq_true]
  constructor
  · rintro ⟨hnet, ⟨hlen, hdedup, hvalid⟩, rfl⟩
    refine ⟨hnet, rfl, hlen, ?_, hvalid⟩
    have hsub := (List.dedup_sublist _).eq_of_length (hdedup.trans hlen.symm)
    rw [← hsub]
    exact List.nodup_dedup _
  · rintro ⟨hnet, rfl, hlen, hnodup, hvalid⟩
    exact ⟨hnet, ⟨hlen, by rw [hnodup.dedup, hlen], hvalid⟩, rfl⟩

theorem Account.weights_fst (a : Account) : a.weights.map Prod.fst = a.signers.map Signer.key := by
  rw [weights, List.map_map]
  rfl

/-- **What `assertQuorum` accepts**: the account is flat with the three keys as
    members, none of them its own, and its thresholds are 2. -/
theorem assertQuorum_eq_ok {a : Account} {keys : List String} (hlen : keys.length = 3)
    (hnodup : keys.Nodup) :
    assertQuorum a keys = .ok () ↔
      a.Members keys ∧ a.accountId ∉ keys ∧ ∀ v ∈ a.thresholds.values, v = 2 := by
  simp only [assertQuorum, bind_eq_ok, throwIf_eq_ok, exists_const, not_or, not_not,
    List.any_eq_true, List.mem_filter, decide_eq_true_eq, not_exists, not_and]
  constructor
  · rintro ⟨⟨hcount, hactive⟩, ⟨hmaster, -⟩, hthresholds⟩
    refine ⟨⟨⟨?_, hnodup, fun k n hn => ?_⟩, fun s hs hpos => (hactive s ⟨hs, hpos⟩).1⟩, hmaster,
      hthresholds⟩
    · rw [a.weights_fst]
      exact a.nodup
    · -- three distinct keys among three are all of them
      have hkeys : ((a.signers.filter fun s => 0 < s.weight).map Signer.key).Nodup :=
        a.nodup.sublist (List.filter_sublist.map _)
      have hsub : (a.signers.filter fun s => 0 < s.weight).map Signer.key ⊆ keys := by
        intro k hk
        obtain ⟨s, hs, rfl⟩ := List.mem_map.1 hk
        obtain ⟨hs, hpos⟩ := List.mem_filter.1 hs
        exact (hactive s ⟨hs, of_decide_eq_true hpos⟩).2.2
      have hperm := (List.subperm_of_subset hkeys hsub).perm_of_length_le
        (by rw [List.length_map, hcount, hlen])
      constructor
      · intro hmem
        obtain ⟨s, hs, he⟩ := List.mem_map.1 hmem
        obtain ⟨rfl, rfl⟩ := Prod.mk.inj he
        exact ⟨(hactive s ⟨hs, hn⟩).2.2, (hactive s ⟨hs, hn⟩).2.1⟩
      · rintro ⟨hk, rfl⟩
        obtain ⟨s, hs, rfl⟩ := List.mem_map.1 (hperm.mem_iff.2 hk)
        obtain ⟨hs, hpos⟩ := List.mem_filter.1 hs
        exact List.mem_map.2 ⟨s, hs, by rw [(hactive s ⟨hs, of_decide_eq_true hpos⟩).2.1]⟩
  · rintro ⟨hmem, hmaster, hthresholds⟩
    have hkey : ∀ s ∈ a.signers, 0 < s.weight → s.key ∈ keys ∧ s.weight = 1 := fun s hs hpos =>
      (hmem.flat.mem_iff s.key s.weight hpos).1 (List.mem_map.2 ⟨s, hs, rfl⟩)
    refine ⟨⟨?_, fun s hs => ?_⟩, ⟨hmaster, fun s hs he => ?_⟩, hthresholds⟩
    · have hcount := hmem.flat.perm.length_eq
      rw [List.length_map, hlen, Account.weights, List.filter_map, List.length_map] at hcount
      exact hcount
    · exact ⟨hmem.type s hs.1 hs.2, (hkey s hs.1 hs.2).2, (hkey s hs.1 hs.2).1⟩
    · rw [← he] at hmaster
      exact hmaster (hkey s hs.1 hs.2).1

/-! ## Two of three -/

/-- The keys under which a signature of the transaction verifies. -/
def Transaction.signedBy (sdk : Sdk) (transaction : Transaction) (key : String) : Bool :=
  transaction.signatures.any fun signature => sdk.verify key (sdk.hash transaction) signature

theorem approvedSignatureCount_eq (sdk : Sdk) (transaction : Transaction) {keys : List String}
    (h : keys.Nodup) : approvedSignatureCount sdk transaction keys =
      (keys.toFinset.filter fun key => ∃ signature ∈ transaction.signatures,
        sdk.verify key (sdk.hash transaction) signature = true).card := by
  have hfilter : (keys.filter (transaction.signedBy sdk)).toFinset =
      keys.toFinset.filter fun key => ∃ signature ∈ transaction.signatures,
        sdk.verify key (sdk.hash transaction) signature = true := by
    ext key
    simp [Transaction.signedBy]
  rw [← hfilter, List.toFinset_card_of_nodup (h.filter _)]
  rfl

/-- **The quorum gate means two distinct members.**  On an account the scripts accept, a
    set of keys reaches the thresholds exactly when two members are in it: the master
    key does not, no single key does, and nobody does who is not a member.  The
    signature count is the number of members who signed, and it is two exactly when
    the signatures reach the thresholds. -/
theorem quorum_is_two_members {sdk : Sdk} {config : Config} {keys : List String} {account : Account}
    (hkeys : validateSigners sdk config = .ok keys) (haccount : assertQuorum account keys = .ok ()) :
    (∀ S, ∀ threshold ∈ account.thresholds.values, (threshold ≤ account.weight S ↔
      ∃ a ∈ keys, ∃ b ∈ keys, a ≠ b ∧ S a = true ∧ S b = true)) ∧
    (∀ threshold ∈ account.thresholds.values,
      account.weight (· = account.accountId) < threshold ∧
      (∀ key, account.weight (· = key) < threshold) ∧
      ∀ S, (∀ key ∈ keys, S key = false) → account.weight S < threshold) ∧
    ∀ transaction,
      approvedSignatureCount sdk transaction keys =
        (keys.toFinset.filter fun key => ∃ signature ∈ transaction.signatures,
          sdk.verify key (sdk.hash transaction) signature = true).card ∧
      ∀ threshold ∈ account.thresholds.values,
        (2 ≤ approvedSignatureCount sdk transaction keys ↔
          threshold ≤ account.weight (transaction.signedBy sdk)) := by
  obtain ⟨-, -, hlen, hnodup, -⟩ := validateSigners_eq_ok.1 hkeys
  obtain ⟨⟨hflat, -⟩, -, hthresholds⟩ := (assertQuorum_eq_ok hlen hnodup).1 haccount
  refine ⟨fun S v hv => ?_, fun v hv => ?_, fun transaction => ⟨?_, fun v hv => ?_⟩⟩
  · rw [hthresholds v hv]
    exact hflat.two_le_total S
  · rw [hthresholds v hv]
    refine ⟨hflat.single_lt_two _, hflat.single_lt_two, fun S hS => ?_⟩
    by_contra hlt
    obtain ⟨a, ha, -, -, -, hSa, -⟩ := (hflat.two_le_total S).1 (not_lt.1 hlt)
    rw [hS a ha] at hSa
    cases hSa
  · exact approvedSignatureCount_eq sdk transaction hnodup
  · rw [hthresholds v hv, Account.weight, hflat.total_eq]
    rfl

/-! ## A small configuration -/

namespace Sample

/-- A key made of one letter. -/
def key (c : Char) : String := String.ofList ('G' :: List.replicate 55 c)

/-- A signature is made of the key and the digest. -/
def sign (key digest : String) : Signature := (key.toUTF8 ++ digest.toUTF8).data.toList

/-- An SDK whose hashes and signatures are readable. -/
def sdk : Sdk where
  isValidEd25519PublicKey := fun key => key.utf8ByteSize = 56 ∧ key.front = 'G'
  hash := fun transaction => transaction.source
  verify := fun key digest signature => signature = sign key digest
  fromXDR := fun text => .error text
  toXDR := fun transaction => transaction.source

/-- Three members. -/
def config : Config :=
  ⟨"testnet", some ⟨[("Ayoub", key 'A'), ("Ace", key 'B'), ("King", key 'C')], by decide⟩⟩

/-- The three members at weight one and the disabled master key. -/
def roleSigners (master : Char) : List Signer :=
  [⟨key 'A', 1, .ed25519PublicKey⟩, ⟨key 'B', 1, .ed25519PublicKey⟩,
   ⟨key 'C', 1, .ed25519PublicKey⟩, ⟨key master, 0, .ed25519PublicKey⟩]

/-- The account of the governance role. -/
def governance : Account := ⟨key 'D', 100, ⟨2, 2, 2⟩, roleSigners 'D', by decide +kernel⟩

/-- The account of the settlement role. -/
def settlement : Account := ⟨key 'E', 200, ⟨2, 2, 2⟩, roleSigners 'E', by decide +kernel⟩

/-- One member signs twice, a stranger and another member once. -/
def transaction : Transaction where
  source := key 'D'
  sequence := 101
  fee := 10000
  maxTime := 600
  operations := [.invokeHostFunction]
  signatures := [sign (key 'A') (key 'D'), sign (key 'A') (key 'D'), sign (key 'Z') (key 'D'),
    sign (key 'C') (key 'D')]

theorem validateSigners_config :
    validateSigners sdk config = .ok [key 'A', key 'B', key 'C'] := by decide +kernel

end Sample

theorem quorum_is_two_members_sample :
    approvedSignatureCount Sample.sdk Sample.transaction [Sample.key 'A', Sample.key 'B',
      Sample.key 'C'] = 2 ∧
    2 ≤ Sample.governance.weight (Sample.transaction.signedBy Sample.sdk) := by
  have hquorum : assertQuorum Sample.governance [Sample.key 'A', Sample.key 'B', Sample.key 'C'] =
      .ok () := by decide +kernel
  have hcount : approvedSignatureCount Sample.sdk Sample.transaction [Sample.key 'A',
      Sample.key 'B', Sample.key 'C'] = 2 := by decide +kernel
  obtain ⟨-, -, h⟩ := quorum_is_two_members Sample.validateSigners_config hquorum
  exact ⟨hcount, ((h Sample.transaction).2 2 (by decide)).1 hcount.ge⟩

end Scripts

end TogetherFi
