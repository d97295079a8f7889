import Voicetext.Common.U64
import Voicetext.Common.Machine
import Voicetext.Common.Task
import Voicetext.Common.TaskPool
import Voicetext.Common.PartialSteps
import Voicetext.Common.RelyGuarantee
import Voicetext.Common.SortedTable
import Voicetext.Common.Text
import Voicetext.Speech.Domain.Batch
import Voicetext.Speech.Application.Ports
import Voicetext.Speech.Application.BatchModels
import Voicetext.Speech.Application.BatchCoordinator
import Voicetext.Gateway.Storage.Identifiers
import Voicetext.Gateway.Storage.Operations
import Voicetext.Gateway.Storage.Postgres
import Voicetext.Gateway.Storage.Spool
import Voicetext.Gateway.Storage.SpoolDiscipline
import Voicetext.Gateway.World
import Voicetext.Speech.Application.SnapshotInvariant
import Voicetext.Gateway.History
import Voicetext.Gateway.SubmissionFence
import Voicetext.Gateway.Calls
import Voicetext.Gateway.Invariant
import Voicetext.Gateway.Preservation
import Voicetext.Gateway.Protocol
import Voicetext.Gateway.RowVersions
import Voicetext.Gateway.VersionedCalls
import Voicetext.Gateway.PortCalls
import Voicetext.Gateway.AdmissionCall
import Voicetext.Gateway.ExecutionCall
import Voicetext.Gateway.RecoveryCall
import Voicetext.Gateway.Runs
import Voicetext.Gateway.PaidSubmission
import Voicetext.Gateway.IdempotentAdmission
import Voicetext.Gateway.AudioCleanup
import Voicetext.Gateway.AudioCustody
import Voicetext.Gateway.Contracts.Batch
import Voicetext.Gateway.Contracts.BatchResponse
import Voicetext.Gateway.Contracts.BatchOutbound
import Voicetext.Gateway.Contracts.BatchAgreement
import Voicetext.Gateway.Contracts.Live
import Voicetext.Gateway.Contracts.LiveOutbound
import Voicetext.Gateway.Contracts.LiveAgreement
import Voicetext.Gateway.LedgerSnapshots
import Voicetext.Gateway.Server.Recovery
import Voicetext.Gateway.Server.BacklogRecovery
import Voicetext.Gateway.Server.BacklogClaims
import Voicetext.Gateway.Server.StartupReconciliation
import Voicetext.Common.Json
import Voicetext.Common.JsonReader
import Voicetext.Common.JsonValue
import Voicetext.Common.JsonFields
import Voicetext.Gateway.Storage.Records
import Voicetext.Gateway.Storage.RecordRoundTrip
import Voicetext.Gateway.Storage.DurableRecords
import Voicetext.Speech.Domain.Live
import Voicetext.Speech.Domain.LiveAccounting
import Voicetext.Speech.Application.LivePorts
import Voicetext.Speech.Application.LiveTimeline
import Voicetext.Speech.Application.LiveCapabilities
import Voicetext.Speech.Application.LiveCoordinator
import Voicetext.Speech.Application.CoordinatorTimeline
import Voicetext.Speech.Application.TranscriptBounds
import Voicetext.Speech.Application.TerminalSilence
import Voicetext.Providers.ElevenLabs.LiveDto
import Voicetext.Providers.ElevenLabs.LiveState
import Voicetext.Providers.ElevenLabs.SynthesizedTimeline
import Voicetext.Providers.ElevenLabs.FinalizeEvidence
import Voicetext.Common.MaximalRuns
import Voicetext.Providers.ElevenLabs.CommittedWords
import Voicetext.Providers.ElevenLabs.BatchDto
import Voicetext.Providers.ElevenLabs.WordSegments
import Voicetext.Common.Decimal
import Voicetext.Providers.Deepgram.LiveDto
import Voicetext.Providers.Deepgram.FinalTimes
import Voicetext.Common.Fallible
import Voicetext.Common.FifoSemaphore
import Voicetext.Common.FloatWidening
import Voicetext.Providers.Fields
import Voicetext.Common.Cancellation
import Voicetext.Providers.Socket
import Voicetext.Providers.Deepgram.LiveSession
import Voicetext.Providers.ElevenLabs.LiveSession
import Voicetext.Providers.ReadCancellation
import Voicetext.Common.CrashLogic
import Voicetext.Gateway.Storage.SpoolFiles
import Voicetext.Gateway.Storage.SpoolCalls
import Voicetext.Gateway.Storage.SpoolMaintenance
import Voicetext.Gateway.Storage.SpoolSweep
import Voicetext.Gateway.SpoolMaintenancePass
import Voicetext.Gateway.Storage.SpoolClaims
import Voicetext.Gateway.SpoolRuns
import Voicetext.Common.Utf16
import Voicetext.Common.SortDedup
import Voicetext.Common.Framing
import Voicetext.Gateway.Identity
import Voicetext.Gateway.CanonicalKeyterms
import Voicetext.Gateway.FingerprintPreimage
import Voicetext.Common.Checked
import Voicetext.Audio.OggOpus
import Voicetext.Audio.ContainerPages
import Voicetext.Audio.ContainerScan
import Voicetext.Audio.CommentHeader
import Voicetext.Audio.PlayableDuration
import Voicetext.Common.Words
import Voicetext.Common.JsonPointer
import Voicetext.Providers.Deepgram.BatchDto
import Voicetext.Providers.Deepgram.Timeline
import Voicetext.Providers.Deepgram.NormalizedTimeline
import Voicetext.Providers.Deepgram.Absorption
import Voicetext.Providers.Deepgram.OptionalParagraphs
import Voicetext.Gateway.Server.LiveFrames
import Voicetext.Common.JsonSize
import Voicetext.Gateway.Contracts.BatchProjection
import Voicetext.Gateway.Storage.PaidOutcomes
import Voicetext.Speech.Application.BatchCapabilities
import Voicetext.Providers.BatchCapabilities
import Voicetext.Gateway.Server.Batch
import Voicetext.Gateway.Server.StoredRequests
import Voicetext.Gateway.Server.QualificationSink
import Voicetext.Gateway.Server.QualificationPublication
import Voicetext.Gateway.Server.BatchShutdown
import Voicetext.Gateway.Server.ShutdownQuiescence
import Voicetext.Providers.LiveCapabilities
import Voicetext.Gateway.Profiles
import Voicetext.Gateway.Server.AdmittedRequests
import Voicetext.Gateway.Server.ServedResponses
import Voicetext.Gateway.Server.Live
import Voicetext.Common.Traces
import Voicetext.Gateway.Server.LiveProtocol
import Voicetext.Gateway.Server.LiveWorld
import Voicetext.Gateway.Server.LiveReplies
import Voicetext.Gateway.Server.LiveRuns
import Voicetext.Common.Dues
import Voicetext.Gateway.Server.SpoolMetrics
import Voicetext.Gateway.Server.MeteredWorld
import Voicetext.Gateway.Server.MeteredSteps
import Voicetext.Gateway.Server.SpoolAccounts
import Voicetext.Gateway.Server.MeteredProtocol
import Voicetext.Gateway.Server.MeteredPorts
import Voicetext.Gateway.Server.MeteredCalls
import Voicetext.Gateway.Server.SpoolGauge
import Voicetext.Gateway.Server.QualificationObservation
import Voicetext.Gateway.Server.EvidenceDigests
import Voicetext.Xtask.Tokens
import Voicetext.Xtask.UseTrees
import Voicetext.Xtask.UseDeclarations
import Voicetext.Common.Utf8
import Voicetext.Xtask.Relexing
import Voicetext.Xtask.CommentStripping
import Voicetext.Xtask.PurityRules
import Voicetext.Xtask.TestItems
import Voicetext.Xtask.FirstPartyPaths
import Voicetext.Providers.Http
import Voicetext.Providers.Recognition
import Voicetext.Providers.Deepgram.Batch
import Voicetext.Providers.ElevenLabs.Batch
import Voicetext.Gateway.BatchRecognizers
import Voicetext.Gateway.PaidOnce
import Voicetext.Gateway.Transcripts
import Voicetext.Common.TaskContracts
import Voicetext.Gateway.Server.ServableRows
import Voicetext.Gateway.Auth
import Voicetext.Gateway.Server.Polling
import Voicetext.Audio.CompleteUpload
import Voicetext.Common.TaskDelegation
import Voicetext.Gateway.Server.BatchPost
import Voicetext.Gateway.Server.PostedRequests
import Voicetext.Gateway.Server.HttpRuns
