import ImageGen.Runs
import ImageGen.Coroutine
import ImageGen.JobStore
import ImageGen.Requests
import ImageGen.Worker
import ImageGen.WorkerTerminal
import ImageGen.WorkerLoop
import ImageGen.ModelSwap
import ImageGen.QueueGate
import ImageGen.Dispatcher
import ImageGen.Delivery
import ImageGen.ChannelExclusivity
import ImageGen.Handover
import ImageGen.AttemptLedger
import ImageGen.DeliveryAttempts
import ImageGen.DeliveryProgress
import ImageGen.ComfyWait
import ImageGen.LostCompletion
import ImageGen.FileTree
import ImageGen.LoraFiles
import ImageGen.Eviction
import ImageGen.LoraProtection
import ImageGen.WriteBlocks
import ImageGen.JobRows
import ImageGen.ReadIsolation
import ImageGen.Migrations
import ImageGen.Recovery
import ImageGen.Reaper
import ImageGen.StorageOrphans
import ImageGen.ErrorCodes
import ImageGen.Gateway
import ImageGen.GatewayUrls
import ImageGen.Graph
import ImageGen.Injectors
import ImageGen.GraphEdits
import ImageGen.LoraChain
import ImageGen.LoraPaths
import ImageGen.LoraSlots
import ImageGen.LoraInjection
import ImageGen.Detour
import ImageGen.LoraRewiring
import ImageGen.ResolvedSeed
import ImageGen.RetryMachine
import ImageGen.PromptCancel
import ImageGen.WebhookTarget
import ImageGen.CompletionSound
import ImageGen.SharedWaits
import ImageGen.FetchTable
import ImageGen.CivitaiFetch
import ImageGen.FetchDedupe
import ImageGen.FileWrites
import ImageGen.LoraScan
import ImageGen.FetchNames
import ImageGen.FetchedLoras
import ImageGen.Metrics
import ImageGen.JobLedger
import ImageGen.MetricsConservation
import ImageGen.PendingWaits
import ImageGen.EvictFor
import ImageGen.EvictionRuns
import ImageGen.StorageGate
import ImageGen.FetchAtomicity
import ImageGen.StreamDownload
import ImageGen.HashIntegrity
import ImageGen.SidecarWriters
import ImageGen.SidecarReaders
import ImageGen.RequestModels
import ImageGen.Validation
import ImageGen.RequestLimits
import ImageGen.FrameCount
import ImageGen.WebhookHeaders
import ImageGen.CivitaiUrl
import ImageGen.LoraListing
import ImageGen.Auth
import ImageGen.LogScrub
import ImageGen.LogRedaction
import ImageGen.Prometheus
import ImageGen.MetricsExposition
import ImageGen.LiteGraph
import ImageGen.WidgetDecoding
import ImageGen.LiteGraphWiring
import ImageGen.Calendar
import ImageGen.Timestamps
import ImageGen.BundleBatch
import ImageGen.BundlePaths
import ImageGen.BundleRun
import ImageGen.BundleResume
import ImageGen.Intake
import ImageGen.StoredDecoding
import ImageGen.Preparation
import ImageGen.Registry
import ImageGen.RegistryChecks
import ImageGen.Preparability
import ImageGen.PollAnswers
import ImageGen.FetchRecovery
import ImageGen.RequestCarried
import ImageGen.ServiceLifespan
import ImageGen.StartupPosture
import ImageGen.FetchPolls
import ImageGen.SyncAnswers
import ImageGen.RequestContext
import ImageGen.RuntimeAdmin
import ImageGen.ModelUnload
import ImageGen.ObjectUpload
import ImageGen.OneWait
