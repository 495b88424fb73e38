import EdgeAgent.FiniteMaps
import EdgeAgent.JsonValues
import EdgeAgent.HostPrimitives
import EdgeAgent.TimerBlocks
import EdgeAgent.CounterBlocks
import EdgeAgent.EdgeTriggerBlocks
import EdgeAgent.FunctionBlocks
import EdgeAgent.LastWriterWins
import EdgeAgent.FunctionBlockRegistry
import EdgeAgent.ScriptContext
import EdgeAgent.StateMachines
import EdgeAgent.TimerLiveness
import EdgeAgent.BlockCheckpoints
import EdgeAgent.SynchronousSweeps
import EdgeAgent.WiringPhases
import EdgeAgent.SynchronousScan
import EdgeAgent.OutputExports
import EdgeAgent.SensorWiring
import EdgeAgent.TypedRestores
import EdgeAgent.PriorityArbitration
import EdgeAgent.ConflictDetector
import EdgeAgent.ConflictCycles
import EdgeAgent.ExecutionLimits
import EdgeAgent.ScriptDefinitions
import EdgeAgent.ScriptStorage
import EdgeAgent.EngineEffects
import EdgeAgent.ScriptLifecycle
import EdgeAgent.ContextAttribution
import EdgeAgent.HardwareConsistency
import EdgeAgent.FileBackedMaps
import EdgeAgent.ScriptDirectory
import EdgeAgent.DirectoryDurability
import EdgeAgent.DetectorBanks
import EdgeAgent.TriggerManager
import EdgeAgent.TriggerSelection
import EdgeAgent.TriggerIndependence
import EdgeAgent.ScheduledTriggers
import EdgeAgent.ScriptCommands
import EdgeAgent.TriggerResets
import EdgeAgent.ExecutionBudget
import EdgeAgent.PresetRedeploys
import EdgeAgent.EngineLoops
import EdgeAgent.ShutdownPersistence
import EdgeAgent.VariableRuns
import EdgeAgent.RetainReadability
import EdgeAgent.RetainIsolation
import EdgeAgent.CircuitBreaker
import EdgeAgent.BreakerHistories
import EdgeAgent.RateLimiter
import EdgeAgent.ModbusClient
import EdgeAgent.ModbusRequests
import EdgeAgent.OpenCircuitTraffic
import EdgeAgent.LocalRefusals
import EdgeAgent.StorageFailures
import EdgeAgent.ScriptManagement
import EdgeAgent.StatusFlags
import EdgeAgent.CriticalSections
import EdgeAgent.AddScriptInterleavings
import EdgeAgent.LexicalPaths
import EdgeAgent.ScriptPaths
import EdgeAgent.ProgramCommands
import EdgeAgent.ProgramFailures
import EdgeAgent.ProgramRollback
import EdgeAgent.ModbusManager
import EdgeAgent.PermitLeaks
import EdgeAgent.PolicyGate
import EdgeAgent.AgentConfig
import EdgeAgent.ConfigConsumers
import EdgeAgent.ParallelBranches
import EdgeAgent.ParallelSync
import EdgeAgent.BranchLifetimes
import EdgeAgent.OrderedAnswers
import EdgeAgent.AutoincrementTables
import EdgeAgent.OfflineQueue
import EdgeAgent.QueueEviction
import EdgeAgent.QueueSteps
import EdgeAgent.DeliveryOrder
import EdgeAgent.MessageConservation
import EdgeAgent.QueueBound
import EdgeAgent.DiskHighWater
import EdgeAgent.Activation
import EdgeAgent.BoundedWaits
import EdgeAgent.FailedReads
import EdgeAgent.GpioHandle
import EdgeAgent.GpioWrites
import EdgeAgent.KeyedRows
import EdgeAgent.MqttTopics
import EdgeAgent.OffDelayLaw
import EdgeAgent.OnDelayLaw
import EdgeAgent.PulseHistories
import EdgeAgent.PulseLaw
import EdgeAgent.RefusedActions
import EdgeAgent.RequestChannels
import EdgeAgent.SeparatedTexts
import EdgeAgent.SignalHistories
import EdgeAgent.TaskShutdown
import EdgeAgent.TopicIsolation
import EdgeAgent.VariableStore
import EdgeAgent.VariableStoreMap
import EdgeAgent.SaturatingCounters
import EdgeAgent.CounterLaw
import EdgeAgent.ComparisonLaw
import EdgeAgent.SourceAgreement
import EdgeAgent.FilledTemplates
import EdgeAgent.InterpolationLaw
import EdgeAgent.TriggerArithmetic
import EdgeAgent.TriggerSpacing
import EdgeAgent.DebouncedEdges
import EdgeAgent.CommandWindow
import EdgeAgent.CronLists
import EdgeAgent.InputFidelity
import EdgeAgent.PinReadings
import EdgeAgent.RegisterDecoding
import EdgeAgent.SlidingWindows
import EdgeAgent.FixedWindows
import EdgeAgent.ScriptRateLaw
import EdgeAgent.RateLimiterArithmetic
import EdgeAgent.TokenBuckets
import EdgeAgent.TokenLaw
import EdgeAgent.IndependentTasks
import EdgeAgent.ParallelPolls
import EdgeAgent.ModbusActor
import EdgeAgent.RemoteWrites
import EdgeAgent.ConfigUpdates
import EdgeAgent.BatchDelivery
import EdgeAgent.MessageExpiry
import EdgeAgent.BlockStateStore
import EdgeAgent.ResolutionTrees
import EdgeAgent.EncodedTexts
import EdgeAgent.LogMasking
import EdgeAgent.FairLocks
import EdgeAgent.AgentTasks
import EdgeAgent.JammedTasks
import EdgeAgent.BrokerOutages
import EdgeAgent.CommandHandler
import EdgeAgent.CommandRuns
import EdgeAgent.CommandSecrets
import EdgeAgent.MqttSessions
import EdgeAgent.ContextReadings
import EdgeAgent.ProgramHistories
import EdgeAgent.ProgramBoot
import EdgeAgent.AgentRestarts
import EdgeAgent.LogLevels
import EdgeAgent.RetainedRows
import EdgeAgent.ExecutionHistory
import EdgeAgent.PinRegisters
import EdgeAgent.SchemaMigrations
import EdgeAgent.ModbusTraffic
import EdgeAgent.ScanSchedule
import EdgeAgent.FirstFailures
