import WideColumn.Main
import WideColumn.Number.Numeral
import WideColumn.Session
import WideColumn.Proofs.Operation.Frame
import WideColumn.Proofs.Store.Atomicity
import WideColumn.Proofs.Session.Atomicity
import WideColumn.Proofs.Collections.NameSet
import WideColumn.Proofs.Collections.OrderedMap
import WideColumn.Proofs.Column
import WideColumn.Proofs.Column.Reading
import WideColumn.Proofs.Row.Cells
import WideColumn.Proofs.Row.Contributions
import WideColumn.Proofs.Row.Overlay
import WideColumn.Proofs.Row.Finished
import WideColumn.Proofs.Row.Staging
import WideColumn.Proofs.Row.Resolution
import WideColumn.Proofs.Row.Keeping
import WideColumn.Proofs.MadeTable
import WideColumn.Proofs.Row.WellFormed
import WideColumn.Proofs.Row.Canonical
import WideColumn.Proofs.Row.LastStaging
import WideColumn.Proofs.Row.Independence
import WideColumn.Proofs.Row.OfCells
import WideColumn.Proofs.TableRequest
import WideColumn.Proofs.Store.Memory
import WideColumn.Proofs.Store.History
import WideColumn.Proofs.Store.Gateway
import WideColumn.Proofs.Store.Holdings
import WideColumn.Proofs.Store.Client
import WideColumn.Proofs.Session.Services
import WideColumn.Proofs.Session.Writes
import WideColumn.Proofs.Operation.Agreement
import WideColumn.Proofs.Store.Mirror
import WideColumn.Proofs.Store.Simulation
import WideColumn.Proofs.Store.Stability
import WideColumn.Proofs.Session.Runs
import WideColumn.Proofs.Session.Deletion
import WideColumn.Proofs.Store.Joined
import WideColumn.Proofs.Session.ReadBack
import WideColumn.Proofs.Store.Making
import WideColumn.Proofs.CommandLine.Run
import WideColumn.Proofs.Deployment.Attempts
import WideColumn.Proofs.Deployment.Families
import WideColumn.Proofs.Deployment.Recreation
import WideColumn.Proofs.Row.Unreadable
import WideColumn.Proofs.Store.Calls
import WideColumn.Proofs.Store.Orderly
import WideColumn.Proofs.Store.Tasks
import WideColumn.Proofs.Deployment.Validation
import WideColumn.Proofs.CommandLine.ExitCode
import WideColumn.Proofs.CommandLine.Loads
import WideColumn.Proofs.Session.Snapshots
import WideColumn.Proofs.Session.Requests
import WideColumn.Proofs.Store.Refusals
import WideColumn.Proofs.Session.Execution
import WideColumn.Proofs.TableRequest.Names
import WideColumn.Proofs.Session.SingleUse
import WideColumn.Proofs.Settings.Documents
import WideColumn.Proofs.Settings.Escapes
import WideColumn.Proofs.Number.Decimal
import WideColumn.Proofs.Number.Numeral
import WideColumn.Proofs.Value.Encoding
import WideColumn.Proofs.Store.Catalogues
import WideColumn.Proofs.TableRequest.Declarations
