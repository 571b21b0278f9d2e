import Tendwire.Commands.SendAuthority
import Tendwire.Commands.LinkBackoff
import Tendwire.Commands.ReceiptRetention
import Tendwire.Turns.CompactionSoundness
import Tendwire.Turns.ItemAgreement
import Tendwire.Turns.Completion
import Tendwire.Turns.Traversal
import Tendwire.Snapshots.Order
import Tendwire.Connector.LeaseExclusivity
import Tendwire.Connector.KeptFinals
import Tendwire.Retention.Footprint
import Tendwire.Attention.Run
import Tendwire.Pending.Freshness
import Tendwire.Pending.Answer
import Tendwire.Codex.Schedules
import Tendwire.Omp.Finals
import Tendwire.Installation.Agreement
import Tendwire.Collections.OrderedDict
import Tendwire.Framing.Copies
import Tendwire.Herdr.Completions
import Tendwire.Herdr.Delivery
import Tendwire.Herdr.Watermarks
import Tendwire.Ingestion.Flights
import Tendwire.Ingestion.Progress
import Tendwire.Ingestion.Service
import Tendwire.Herdr.Separation
import Tendwire.Commands.Rejection
import Tendwire.Commands.Replay
import Tendwire.Commands.Canonical
import Tendwire.Connector.ReclaimDue
import Tendwire.Connector.Coverage
import Tendwire.Connector.OperatorRetry
import Tendwire.Connector.Budget
import Tendwire.Connector.Upkeep
import Tendwire.Connector.Filing
import Tendwire.Connector.Suffix
import Tendwire.Connector.Recoveries
import Tendwire.Strings.Base64
import Tendwire.Turns.DeltaTokens
import Tendwire.Turns.ContentService
import Tendwire.Herdr.IsolatedReads
