import TogetherFi.Lib.Outcome
import TogetherFi.Lib.Run
import TogetherFi.Lib.Replay
import TogetherFi.Lib.Table
import TogetherFi.Lib.Ledger
import TogetherFi.Lib.Holdings
import TogetherFi.Lib.Rotation
import TogetherFi.Lib.Pace
import TogetherFi.Lib.LastWrite
import TogetherFi.Lib.Quorum
import TogetherFi.Lib.Process
import TogetherFi.Lib.SortedMap
import TogetherFi.Lib.Session
import TogetherFi.Lib.Serial
import TogetherFi.Host
import TogetherFi.Pool.Contract
import TogetherFi.Pool.Effect
import TogetherFi.Pool.Books
import TogetherFi.Pool.Manifests
import TogetherFi.Pool.Publication
import TogetherFi.Pool.Claims
import TogetherFi.Pool.Credit
import TogetherFi.Pool.Roles
import TogetherFi.Pool.Events
import TogetherFi.Pool.Lives
import TogetherFi.Escrow.Contract
import TogetherFi.Escrow.Effect
import TogetherFi.Escrow.Books
import TogetherFi.Escrow.Completion
import TogetherFi.Escrow.Split
import TogetherFi.Escrow.Roles
import TogetherFi.Escrow.Events
import TogetherFi.Escrow.Advance
import TogetherFi.Escrow.Lives
import TogetherFi.System.World
import TogetherFi.System.Accounting
import TogetherFi.System.Binding
import TogetherFi.System.Credits
import TogetherFi.System.Events
import TogetherFi.System.Solvency
import TogetherFi.System.Liveness
import TogetherFi.System.Lifecycle
import TogetherFi.System.Provenance
import TogetherFi.System.Payouts
import TogetherFi.System.Deficit
import TogetherFi.System.Publication
import TogetherFi.System.Settlement
import TogetherFi.System.Authority
import TogetherFi.System.Claims
import TogetherFi.System.Commute
import TogetherFi.System.Lives
import TogetherFi.System.Completable
import TogetherFi.HostStorage.MeteredMap
import TogetherFi.HostStorage.Storage
import TogetherFi.HostStorage.Calls
import TogetherFi.HostStorage.Refinement
import TogetherFi.HostStorage.Modes
import TogetherFi.HostStorage.Invoke
import TogetherFi.HostStorage.Inputs
import TogetherFi.HostStorage.Preflight
import TogetherFi.HostStorage.Isolation
import TogetherFi.HostStorage.Transactions
import TogetherFi.HostStorage.Lives
import TogetherFi.HostStorage.Allowances
import TogetherFi.Asset.Contract
import TogetherFi.Asset.Effect
import TogetherFi.Asset.Calls
import TogetherFi.Asset.Holdings
import TogetherFi.Asset.Allowances
import TogetherFi.Reputation.Contract
import TogetherFi.Reputation.History
import TogetherFi.Scripts.UsdcFixtureRuntime
import TogetherFi.Scripts.TestnetCommon
import TogetherFi.Scripts.SignerRotation
import TogetherFi.Scripts.Completion
import TogetherFi.Scripts.Resubmission
