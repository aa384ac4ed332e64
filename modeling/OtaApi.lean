import OtaApi.Isolation
import OtaApi.TrialDeadline
import OtaApi.TrialRace
import OtaApi.Latency
import OtaApi.Payload
import OtaApi.Progress
import OtaApi.ProgressBar
import OtaApi.Connection
import OtaApi.Nesting
import OtaApi.Background
import OtaApi.Interaction.Throttle
import OtaApi.Ticks
import OtaApi.ByteRange.Denotation
import OtaApi.ByteRange.Grammar
import OtaApi.ParseRange
import OtaApi.OtaServer
import OtaApi.PartialDownload
import OtaApi.CInteger.Expr
import OtaApi.CInteger.FixedWidth
import OtaApi.Conversions
import OtaApi.Undisturbed
import OtaApi.CallerValues
import OtaApi.Interaction.Handoff
import OtaApi.CText
import OtaApi.Calls
import OtaApi.Placement
import OtaApi.OnDemand
import OtaApi.OnDemandRequests
import OtaApi.Advanced
import OtaApi.AdvancedShape
import OtaApi.AdvancedTasks
import OtaApi.AdvancedPlace
import OtaApi.AdvancedConsole
import OtaApi.AdvancedRequests
import OtaApi.AdvancedOutcome
import OtaApi.Interaction.Contract
import OtaApi.Interaction.Succession
import OtaApi.Rollback
import OtaApi.RollbackFlash
import OtaApi.RollbackContract
import OtaApi.RollbackMain
import OtaApi.RollbackOtadata
import OtaApi.RollbackOutcome
import OtaApi.RollbackVerdict
import OtaApi.Interaction.Custody
import OtaApi.Heap
import OtaApi.HeapCustody
import OtaApi.Completion
import OtaApi.Basic
import OtaApi.BasicStart
