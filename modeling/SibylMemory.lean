import SibylMemory.Library.PercentEncoding
import SibylMemory.Outbox.Leases
import SibylMemory.Outbox.SessionOrder
import SibylMemory.ErrorResponses
import SibylMemory.LateTurns
import SibylMemory.Delivery.ExactlyOnce
import SibylMemory.Delivery.Dependencies
import SibylMemory.Delivery.Replacements
import SibylMemory.Outbox.Sequences
import SibylMemory.Outbox.Secrets
import SibylMemory.Lineage
import SibylMemory.Receipts
import SibylMemory.WireRequests
import SibylMemory.RecallRuns
import SibylMemory.Exposures
import SibylMemory.Credentials
import SibylMemory.Outbox.Initialization
import SibylMemory.Outbox.FlushRuns
import SibylMemory.Outbox.LostClaims
import SibylMemory.RuntimeFlush
import SibylMemory.Recovery
import SibylMemory.RewindPlans
import SibylMemory.CommittedTurns
import SibylMemory.SourceIds
import SibylMemory.CorrectionRoutes
import SibylMemory.ResponseBoundary
import SibylMemory.Redelivery
import SibylMemory.ToolCalls
import SibylMemory.TurnNumbers
import SibylMemory.EnvFile
import SibylMemory.SavedConfiguration
import SibylMemory.Outbox.ExposedSecrets
import SibylMemory.Reinitialization
import SibylMemory.GateVerdict
import SibylMemory.ReceiptSecrets
import SibylMemory.Outbox.TimestampQueries
import SibylMemory.Outbox.Settlements
import SibylMemory.Outbox.AbandonedClaims
import SibylMemory.OperatorFlush
import SibylMemory.Doctor
import SibylMemory.RealStackRuns
import SibylMemory.Saves
import SibylMemory.SetupRuns
import SibylMemory.ToolSchemas
import SibylMemory.Delivery.Endings
import SibylMemory.Deployment
