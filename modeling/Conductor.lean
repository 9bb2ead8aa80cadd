import Conductor.Main
import Conductor.Proofs.CommandLine.Effect
import Conductor.Proofs.Dispatch.Clients
import Conductor.Proofs.Dispatch.Overlap
import Conductor.Proofs.Dispatch.Retries
import Conductor.Proofs.Expression.Failure
import Conductor.Proofs.Expression.Structural
import Conductor.Proofs.Matching.Entrance
import Conductor.Proofs.Matching.Score
import Conductor.Proofs.Matching.Selection
import Conductor.Proofs.Step.Contract
import Conductor.Proofs.Store.Ledger
import Conductor.Proofs.System.Alone
import Conductor.Proofs.System.Backends
import Conductor.Proofs.System.Balance
import Conductor.Proofs.System.Fields
import Conductor.Proofs.System.Passage
import Conductor.Proofs.Workflow.Lookup
import Conductor.Proofs.Workflow.Targets
