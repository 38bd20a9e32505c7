import FleetPrivacy.AuditChain
import FleetPrivacy.IdempotentIntake
import FleetPrivacy.Effects
import FleetPrivacy.Tables
import FleetPrivacy.LeaseColumns
import FleetPrivacy.Attempts
import FleetPrivacy.Finality
import FleetPrivacy.Holding
import FleetPrivacy.Finalisation
import FleetPrivacy.Notices
import FleetPrivacy.Publication
import FleetPrivacy.Delivery
import FleetPrivacy.Api
import FleetPrivacy.Library.Unwinding
import FleetPrivacy.ArtifactPaths
import FleetPrivacy.TenantView
import FleetPrivacy.TenantIsolation
import FleetPrivacy.Ownership
import FleetPrivacy.Sessions
import FleetPrivacy.Versions
import FleetPrivacy.AdaptiveConcurrency
import FleetPrivacy.Library.Quantile
import FleetPrivacy.Percentile
import FleetPrivacy.Library.Separated
import FleetPrivacy.RedisKeys
import FleetPrivacy.ColumnWidths
import FleetPrivacy.Library.Walk
import FleetPrivacy.ArtifactContainment
import FleetPrivacy.SourceConnectors
import FleetPrivacy.Regional
import FleetPrivacy.Admission
import FleetPrivacy.Executions
import FleetPrivacy.Deletions
import FleetPrivacy.Replays
import FleetPrivacy.RelayPasses
import FleetPrivacy.Accounting
import FleetPrivacy.Archive
import FleetPrivacy.DeadLetters
import FleetPrivacy.Claiming
import FleetPrivacy.Commands
import FleetPrivacy.ExactDeletion
import FleetPrivacy.SourceExecution
import FleetPrivacy.ReceiptContents
import FleetPrivacy.SharedWindow
import FleetPrivacy.BatchExecution
import FleetPrivacy.BatchAgreement
import FleetPrivacy.MessageConsumption
import FleetPrivacy.RetryBudget
import FleetPrivacy.Library.Redelivery
import FleetPrivacy.LocalQueue
import FleetPrivacy.SequentialCompletion
import FleetPrivacy.Library.JsonReader
import FleetPrivacy.QueueWire
import FleetPrivacy.WholeCalls
import FleetPrivacy.Recovery
import FleetPrivacy.Library.Backlog
import FleetPrivacy.OutboxBacklog
import FleetPrivacy.Library.Paging
import FleetPrivacy.RequestPages
import FleetPrivacy.Library.AdditiveIncrease
import FleetPrivacy.WindowBand
import FleetPrivacy.Library.Idempotency
import FleetPrivacy.RegionalEffects
import FleetPrivacy.Library.Settlement
import FleetPrivacy.RequestLedger
import FleetPrivacy.Downloads
