/-
  The submission of a completion (`scripts/submit-testnet-completion.mjs`, with
  `submitPrepared` and `waitConfirmed` of `scripts/testnet-common.mjs`).

  A run of the script is a process that saves the manifest and sends
  transactions.  `Answers` is what the network answers to each call it makes:
  any value, or what the call throws.
-/
import TogetherFi.Lib.Process
import TogetherFi.Scripts.TestnetCommon

namespace TogetherFi

open Outcome Process

namespace Scripts

/-! ## The manifest -/

/-- The `status` of a journal entry. -/
inductive EntryStatus where
  | signedNotBroadcast
  | broadcastOutcomeUnknown
  | rejectedBeforeLedger
  | confirmedSuccess
  deriving DecidableEq, Repr

/-- An entry of `manifest.transactions`. -/
structure Entry where
  label : String
  hash : String
  signedXdr : String
  status : EntryStatus
  resultXdr : Option String
  reason : Option String
  ledger : Option ℕ
  ledgerClosedAt : Option ℕ
  explorer : Option String

/-- `manifest.completion_approval` -/
structure Approval where
  status : Option String
  hash : String
  unsignedXdr : Option String
  completionLedger : Option ℕ

/-- The holders whose balances are compared. -/
inductive Holder where
  | creator
  | service
  | nftPool
  | revenuePool
  | referrer
  | escrow
  deriving DecidableEq, Repr

/-- The key of a holder in the manifest. -/
def Holder.name : Holder → String
  | creator => "creator"
  | service => "service"
  | nftPool => "nft_pool"
  | revenuePool => "revenue_pool"
  | referrer => "referrer"
  | escrow => "escrow"

/-- The counters of a contract instance, where they are stored. -/
structure Counters where
  totalLiability : Option ℤ
  totalCredited : Option ℤ
  totalPaid : Option ℤ

/-- `manifest.evidence` -/
structure Evidence where
  /-- the reason of `one_of_three_rejection` -/
  oneOfThreeRejection : Option (Option String)
  balancesBeforeCompletion : Holder → Option ℤ
  /-- the status of the campaign -/
  campaign1AfterCompletion : Option String
  accountingAfterCompletion : List (Holder × Counters)
  liabilityReconciled : Option String
  balancesAfterCompletion : List (Holder × ℤ)
  splitVerified : Option String

/-- What the script reads and writes of the manifest. -/
structure Manifest extends Deployed where
  approval : Option Approval
  transactions : List Entry
  evidence : Evidence
  status : Option String

/-- `manifest.transactions.push(entry)` -/
def Manifest.push (m : Manifest) (entry : Entry) : Manifest :=
  { m with transactions := m.transactions ++ [entry] }

/-! ## The network -/

/-- The `status` of `getTransaction`. -/
inductive TransactionStatus where
  | success
  | failed
  | notFound
  deriving DecidableEq, Repr

/-- What `server.getTransaction` answers. -/
structure TransactionResult where
  status : TransactionStatus
  ledger : Option ℕ
  createdAt : Option ℕ

/-- The `status` of `sendTransaction`. -/
inductive SendStatus where
  | pending
  | duplicate
  | tryAgainLater
  | error
  deriving DecidableEq, Repr

/-- An `errorResult`. -/
structure ErrorResult where
  xdr : String
  reason : String

/-- What `server.sendTransaction` answers. -/
structure SendResult where
  status : SendStatus
  errorResult : Option ErrorResult

/-- What the network answers to a submission. -/
structure SubmissionAnswers where
  send : Except String SendResult
  poll : ℕ → Except String TransactionResult

/-- The role accounts. -/
inductive Role where
  | governance
  | settlement
  deriving DecidableEq, Repr

/-- What the network answers to the script. -/
structure Answers where
  /-- `horizon.loadAccount(manifest.accounts[role])` -/
  account : Role → Except String Account
  /-- `server.getTransaction(prior.hash)` -/
  prior : Except String TransactionResult
  /-- the submission of the envelope with one signature -/
  one : SubmissionAnswers
  /-- the submission of the completion -/
  two : SubmissionAnswers
  /-- a balance, unless its simulation fails -/
  balance : Holder → Except String (Option ℤ)
  /-- the status of campaign 1, unless its simulation fails -/
  campaign : Except String (Option String)
  /-- the counters of an instance, unless the ledger has no entry of it -/
  counters : Holder → Except String (Option Counters)

/-- What one run of the script is given: the text of the file it is called with,
    trimmed, and the answers of the network. -/
structure Submission where
  input : Option (Except String String)
  answers : Answers

/-- What a run does that lasts. -/
inductive Event where
  | save (manifest : Manifest)
  | send (hash : String)

/-- The manifest an event writes. -/
def Event.saved : Event → Option Manifest
  | .save m => some m
  | .send _ => none

/-! ## Sending -/

/-- The loop of `waitConfirmed`, with the attempts that are left. -/
def waitConfirmed (txHash : String) (poll : ℕ → Except String TransactionResult) :
    ℕ → ℕ → Except String TransactionResult
  | 0, _ => .error ("Transaction confirmation pending: " ++ txHash)
  | left + 1, attempt => do
    let result ← poll attempt
    match result.status with
    | .success => return result
    | .failed => .error ("Confirmed transaction failed: " ++ txHash)
    | .notFound => waitConfirmed txHash poll left (attempt + 1)

/-- What `submitPrepared` returns: the rejected entry's reason, where a rejection is
    expected, or the ledger of the confirmed transaction. -/
structure Submitted where
  reason : Option String
  ledger : Option ℕ

/-- The last part of `submitPrepared`: wait for the confirmation and record it. -/
def recordConfirmed (answers : SubmissionAnswers) (entry : Entry) (m : Manifest) :
    Process String Event (Manifest × Submitted) := do
  let result ← ofExcept (waitConfirmed entry.hash answers.poll 90 0)
  let entry := { entry with
    status := .confirmedSuccess
    ledger := result.ledger
    ledgerClosedAt := result.createdAt
    explorer := some ("https://stellar.expert/explorer/testnet/tx/" ++ entry.hash) }
  emit (.save (m.push entry))
  return (m.push entry, ⟨none, result.ledger⟩)

/-- The part of `submitPrepared` for a transaction that the network answers `ERROR` to. -/
def recordRejected (sent : SendResult) (entry : Entry) (expectBadAuth : Bool) (m : Manifest) :
    Process String Event (Manifest × Submitted) := do
  let reason := sent.errorResult.map ErrorResult.reason
  let entry := { entry with
    status := .rejectedBeforeLedger
    resultXdr := sent.errorResult.map ErrorResult.xdr
    reason := reason }
  emit (.save (m.push entry))
  if expectBadAuth ∧ reason = some "txBadAuth" then return (m.push entry, ⟨reason, none⟩)
  else stop (entry.label ++ " rejected: " ++ reason.getD "undefined")

/-- `m` is the manifest without the entry of this submission, which the source pushes
    first and changes in place. -/
def submitPrepared (sdk : Sdk) (answers : SubmissionAnswers) (transaction : Transaction)
    (label : String) (expectBadAuth : Bool) (m : Manifest) :
    Process String Event (Manifest × Submitted) := do
  let entry : Entry :=
    { label
      hash := sdk.hash transaction
      signedXdr := sdk.toXDR transaction
      status := .signedNotBroadcast
      resultXdr := none
      reason := none
      ledger := none
      ledgerClosedAt := none
      explorer := none }
  emit (.save (m.push entry))
  emit (.send (sdk.hash transaction))
  match answers.send with
  | .error message =>
    let entry := { entry with status := .broadcastOutcomeUnknown }
    emit (.save (m.push entry))
    if expectBadAuth then stop message else recordConfirmed answers entry m
  | .ok sent =>
    if sent.status = .error then recordRejected sent entry expectBadAuth m
    else if expectBadAuth then stop "Disabled setup key unexpectedly accepted"
    else recordConfirmed answers entry m

/-! ## Verification -/

/-- What the completion pays to each holder. -/
def Holder.expected : Holder → ℤ
  | creator => 8200000
  | service => 1000000
  | nftPool => 500000
  | revenuePool => 200000
  | referrer => 100000
  | escrow => -10000000

/-- A balance after completion, against the one recorded before. -/
def checkBalance (answers : Answers) (m : Manifest) (holder : Holder) :
    Except String (Holder × ℤ) := do
  let simulation ← answers.balance holder
  let after ← orThrow simulation "Balance read failed"
  let before ← orThrow (m.evidence.balancesBeforeCompletion holder)
    "Cannot convert undefined to a BigInt"
  throwIf (after - before ≠ holder.expected) ("Payout delta mismatch for " ++ holder.name)
  return (holder, after)

/-- The counters of a contract instance. -/
def readCounters (answers : Answers) (contract : Holder) : Except String (Holder × Counters) := do
  let entries ← answers.counters contract
  let counters ← orThrow entries ("Contract instance unavailable: " ++ contract.name)
  return (contract, counters)

/-- The script after the completion: what it compares, and the manifest it saves. -/
def verifyCompletion (answers : Answers) (ledger : Option ℕ) (m : Manifest) :
    Except String Manifest := do
  let after ← [.creator, .service, .nftPool, .revenuePool, .referrer, .escrow].mapM
    (checkBalance answers m)
  let simulation ← answers.campaign
  let status ← orThrow simulation "Campaign read failed"
  throwIf (status ≠ "Completed") "Campaign is not in the expected terminal Completed state"
  let (_, escrow) ← readCounters answers .escrow
  let (_, nftPool) ← readCounters answers .nftPool
  let (_, revenuePool) ← readCounters answers .revenuePool
  throwIf (escrow.totalLiability ≠ some 10000000 ∨ nftPool.totalCredited ≠ some 500000 ∨
      revenuePool.totalCredited ≠ some 200000)
    "Escrow liability or authenticated pool-credit counters do not reconcile"
  return { m with
    evidence := { m.evidence with
      campaign1AfterCompletion := some status
      accountingAfterCompletion := [(.escrow, escrow), (.nftPool, nftPool), (.revenuePool, revenuePool)]
      liabilityReconciled := some "Only the funded 1-test-XLM expiry campaign remains owed"
      balancesAfterCompletion := after
      splitVerified := some "82/10/5/2/1, exact base-unit deltas" }
    approval := m.approval.map fun a => { a with status := some "confirmed", completionLedger := ledger }
    status := some "quorum_completion_verified; real_30_day_refund_proof_pending" }

/-! ## The script -/

/-- The label of the confirmed completion. -/
def completionLabel : String := "two_of_three_completion_confirmed"

/-- The label of the rejected attempt. -/
def rejectionLabel : String := "one_of_three_member_completion_rejected"

/-- The script up to the lookup of the prior entry. -/
def gates (sdk : Sdk) (m : Manifest) (run : Submission) :
    Except String (List String × Approval × Transaction) := do
  let file ← orThrow run.input "Path to wallet-signed testnet XDR required"
  let keys ← validateSigners sdk m.toConfig
  throwIf (m.approval.bind Approval.status = some "confirmed") "Campaign already completed"
  let approval ← orThrow (m.approval.filter fun a => a.unsignedXdr.getD "" ≠ "")
    "No prepared completion approval exists"
  let text ← file
  let signed ← sdk.fromXDR text
  throwIf (sdk.hash signed ≠ approval.hash ∨ some signed.source ≠ m.accounts.settlement ∨
      signed.operations.length ≠ 1)
    "Signed transaction differs from the exact approved testnet completion"
  throwIf (approvedSignatureCount sdk signed keys < 2)
    "Two distinct selected signer signatures required; do not submit yet"
  assertQuorum (← run.answers.account .governance) keys
  assertQuorum (← run.answers.account .settlement) keys
  return (keys, approval, signed)

/-- The prior entry: the first with the label of the completion and the hash. -/
def Manifest.prior (m : Manifest) (hash : String) : Option Entry :=
  m.transactions.find? fun entry => entry.label = completionLabel ∧ entry.hash = hash

/-- The script where there is a prior entry. -/
def resumeCompletion (sdk : Sdk) (answers : Answers) (keys : List String) (hash : String)
    (prior : Entry) (m : Manifest) : Process String Event (Manifest × Submitted) := do
  let result ← ofExcept answers.prior
  ofExcept (throwIf (result.status = .failed) "Previously broadcast completion failed")
  if result.status = .success then return (m, ⟨none, result.ledger⟩)
  else
    ofExcept (throwIf (prior.status = .confirmedSuccess)
      "Previously confirmed completion unavailable; do not resubmit")
    let frozen ← ofExcept (sdk.fromXDR prior.signedXdr)
    ofExcept (throwIf (sdk.hash frozen ≠ hash ∨ approvedSignatureCount sdk frozen keys < 2)
      "Persisted completion envelope failed validation")
    submitPrepared sdk answers.two frozen completionLabel false m

/-- The script where there is none: one signature alone is rejected first. -/
def firstCompletion (sdk : Sdk) (answers : Answers) (keys : List String) (signed : Transaction)
    (m : Manifest) : Process String Event (Manifest × Submitted) := do
  let copy ← ofExcept (sdk.fromXDR (sdk.toXDR signed))
  let one := { copy with signatures := copy.signatures.take 1 }
  ofExcept (throwIf (approvedSignatureCount sdk one keys ≠ 1)
    "First signature must belong to a selected member")
  let (m, rejected) ← submitPrepared sdk answers.one one rejectionLabel true m
  let m := { m with evidence := { m.evidence with oneOfThreeRejection := some rejected.reason } }
  submitPrepared sdk answers.two signed completionLabel false m

/-- `submitCompletion` -/
def submitCompletion (sdk : Sdk) (m : Manifest) (run : Submission) : Process String Event Unit := do
  let (keys, approval, signed) ← ofExcept (gates sdk m run)
  let (m, submitted) ← match m.prior approval.hash with
    | some prior => resumeCompletion sdk run.answers keys approval.hash prior m
    | none => firstCompletion sdk run.answers keys signed m
  let m ← ofExcept (verifyCompletion run.answers submitted.ledger m)
  emit (.save m)

end Scripts

end TogetherFi
