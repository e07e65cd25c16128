/-
  The ReputationAnchor contract (`contracts/reputation_anchor/src/lib.rs`).

  Every entry point is a function of the environment, its arguments and the
  storage.  Events and logs are not modelled.
-/
import TogetherFi.Host
import TogetherFi.Lib.Run

namespace TogetherFi

open Outcome Function

namespace Reputation

/-! ## Data -/

/-- An anchored score. -/
structure ScoreRecord where
  profileId : UInt64
  creator : Address
  score : UInt32
  tier : String
  arbitrumTxHash : String
  anchoredAt : UInt64
  deriving DecidableEq

/-- `RepAnchorError` -/
inductive RepAnchorError where
  | alreadyInitialized
  | notInitialized
  | scoreNotFound
  | invalidScore
  | invalidDeployment
  deriving DecidableEq, Repr

/-- The storage of the anchor: one field for each `DataKey`. -/
structure AnchorStorage where
  admin : Option Address
  score : UInt64 → Option ScoreRecord

/-- The storage of the deployed contract before `initialize`. -/
def AnchorStorage.empty : AnchorStorage := ⟨none, fun _ => none⟩

/-- Results of calls. -/
abbrev Result (α : Type) := Outcome RepAnchorError HostError α

/-! ## Entry points -/

/-- The admin of an initialized anchor. -/
def requireInitialized (s : AnchorStorage) : Result Address := okOr s.admin .notInitialized

/-- Install the admin, once; the deployer authorizes. -/
def initializeAnchor (env : Env) (admin deployer : Address) (deploymentSalt : BytesN32)
    (s : AnchorStorage) : Result AnchorStorage := do
  rejectIf s.admin.isSome .alreadyInitialized
  rejectIf (env.deployedAddress deployer deploymentSalt ≠ env.self) .invalidDeployment
  requireAuth env deployer
  requireAuthIf (admin ≠ deployer) env admin
  return { s with admin := some admin }

/-- The admin writes the record of a profile, over the one that is there. -/
def anchorScore (env : Env) (profileId : UInt64) (creatorStellarAddress : Address) (score : UInt32)
    (tier arbitrumTxHash : String) (s : AnchorStorage) : Result AnchorStorage := do
  let admin ← requireInitialized s
  requireAuth env admin
  rejectIf (score > 1000) .invalidScore
  let anchoredAt := env.timestamp
  let record : ScoreRecord :=
    { profileId
      creator := creatorStellarAddress
      score
      tier
      arbitrumTxHash
      anchoredAt }
  return { s with score := update s.score profileId (some record) }

/-- Read the record of a profile. -/
def getScore (profileId : UInt64) (s : AnchorStorage) : Result ScoreRecord :=
  okOr (s.score profileId) .scoreNotFound

/-- The loop of `get_scores_batch`: `results` are the records found so far. -/
def collectScores (s : AnchorStorage) : List UInt64 → List ScoreRecord → List ScoreRecord
  | [], results => results
  | profileId :: rest, results =>
    match s.score profileId with
    | some record => collectScores s rest (results ++ [record])
    | none => collectScores s rest results

/-- Read the records of the profiles that have one, in the order asked. -/
def getScoresBatch (profileIds : List UInt64) (s : AnchorStorage) : List ScoreRecord :=
  collectScores s profileIds []

/-! ## Calls -/

/-- A call of an entry point. -/
inductive AnchorCall where
  | initializeAnchor (admin deployer : Address) (deploymentSalt : BytesN32)
  | anchorScore (profileId : UInt64) (creatorStellarAddress : Address) (score : UInt32)
      (tier arbitrumTxHash : String)
  | getScore (profileId : UInt64)
  | getScoresBatch (profileIds : List UInt64)

/-- What a call does to the storage; the value it returns is dropped. -/
def AnchorCall.exec (env : Env) (s : AnchorStorage) : AnchorCall → Result AnchorStorage
  | .initializeAnchor admin deployer salt => Reputation.initializeAnchor env admin deployer salt s
  | .anchorScore id creator score tier hash => Reputation.anchorScore env id creator score tier hash s
  | .getScore id => do let _ ← Reputation.getScore id s; return s
  | .getScoresBatch _ => .ok s

/-- A call in the environment it is made in. -/
structure Attempt where
  env : Env
  call : AnchorCall

/-- The anchor under attempts to call it. -/
def machine : Machine AnchorStorage Attempt (Fault RepAnchorError HostError) :=
  ⟨fun s a => a.call.exec a.env s⟩

/-- An attempt that took effect. -/
abbrev Step := Machine.Step machine

end Reputation

end TogetherFi
