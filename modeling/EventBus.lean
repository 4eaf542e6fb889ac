import EventBus.Lib.Run
import EventBus.Lib.Prog
import EventBus.Lib.Pool
import EventBus.Lib.Alone
import EventBus.Lib.Sites
import EventBus.Lib.Local
import EventBus.Lib.Exclusive
import EventBus.Lib.Joined
import EventBus.Lib.Topic
import EventBus.Lib.HeaderBlock
import EventBus.Lib.FormatString
import EventBus.Lib.Progress
import EventBus.Lib.Purge
import EventBus.Lib.Backoff
import EventBus.Lib.Coupled
import EventBus.Lib.Lifetimes
import EventBus.Lib.Countdown
import EventBus.Lib.RelyGuarantee
import EventBus.Lib.Layers
import EventBus.Lib.Script
import EventBus.Model.Core
import EventBus.Model.Dlq
import EventBus.Model.Subscriber
import EventBus.Model.Store
import EventBus.Model.Redis
import EventBus.Model.RedisCommands
import EventBus.Model.ClaimScript
import EventBus.Model.NatsKv
import EventBus.Model.AgedBucket
import EventBus.Model.World
import EventBus.Model.KvWorkers
import EventBus.Model.Attempts
import EventBus.Model.Subscription
import EventBus.Model.PullLoop
import EventBus.Model.RunningBus
import EventBus.Model.AdvisoryLogger
import EventBus.Model.DlqStreams
import EventBus.Model.Bus
import EventBus.Model.SubjectTemplate
import EventBus.Model.Publisher
import EventBus.Model.EventFlow
import EventBus.Model.DeriveEvent
import EventBus.Interface.ControlPoints
import EventBus.Interface.Effects
import EventBus.Interface.Faults
import EventBus.Interface.DeadLetterIds
import EventBus.Interface.KvPoints
import EventBus.Interface.KvPlaces
import EventBus.Interface.KvLayers
import EventBus.Interface.Leases
import EventBus.Interface.SharedServer
import EventBus.Interface.Templates
import EventBus.Interface.LoopSteps
import EventBus.Interface.Reconnects
import EventBus.Interface.BusSteps
import EventBus.Interface.PublishPoints
import EventBus.Analysis.Settlement
import EventBus.Analysis.FanOut
import EventBus.Analysis.Ownership
import EventBus.Analysis.EffectivelyOnce
import EventBus.Analysis.ClaimOwnership
import EventBus.Analysis.DeadLetters
import EventBus.Analysis.LastDelivery
import EventBus.Analysis.TrueDeadLetters
import EventBus.Analysis.KvExclusion
import EventBus.Analysis.KvRefinement
import EventBus.Analysis.RetryBudget
import EventBus.Analysis.DoneMarker
import EventBus.Analysis.NoSilentLoss
import EventBus.Analysis.Backends
import EventBus.Analysis.DlqRouting
import EventBus.Analysis.BusSubscriptions
import EventBus.Analysis.MessageKeys
import EventBus.Analysis.DlqHeaders
import EventBus.Analysis.SubjectMeaning
import EventBus.Analysis.SubjectShape
import EventBus.Analysis.BatchRetry
import EventBus.Analysis.Publishers
import EventBus.Analysis.HandledEvents
import EventBus.Analysis.DerivedEvents
import EventBus.Analysis.DeadLetteredEvents
import EventBus.Analysis.Receipts
import EventBus.Analysis.DrainComplete
import EventBus.Analysis.Workers
import EventBus.Analysis.PermitWait
import EventBus.Analysis.DrainProgress
import EventBus.Analysis.RetryLife
import EventBus.Analysis.PrefixIsolation
import EventBus.Analysis.ReconnectDelays
