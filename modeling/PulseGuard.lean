import PulseGuard.Native.RulePacks.Composite
import PulseGuard.Spec.HardStops
import PulseGuard.Spec.PublishGate
import PulseGuard.Native.RuleData
import PulseGuard.Native.InMemoryRulePackRepository
import PulseGuard.Native.PostgresRulePackRepository
import PulseGuard.Native.ManageRules
import PulseGuard.Native.Calls
import PulseGuard.Spec.Catalogue
import PulseGuard.Spec.RepositoryLaws
import PulseGuard.Spec.CallSteps
import PulseGuard.Spec.InMemoryCorrect
import PulseGuard.Spec.PostgresCorrect
import PulseGuard.Spec.Lifecycle
import PulseGuard.Spec.OneActive
import PulseGuard.Spec.LockVersion
import PulseGuard.Spec.VettedPacks
import PulseGuard.Native.Requests
import PulseGuard.Native.RuleSnapshot
import PulseGuard.Spec.RuleCacheCorrect
import PulseGuard.Native.PostgresRuleRepository
import PulseGuard.Spec.RegionIsolation
import PulseGuard.Native.RuleCacheFleet
import PulseGuard.Spec.PolicyForward
import PulseGuard.Spec.StoreCoherent
import PulseGuard.Spec.Lineage
import PulseGuard.Spec.RollbackUndoes
import PulseGuard.Spec.DecisiveRules
import PulseGuard.ForStd.Json
import PulseGuard.Native.SnapshotText
import PulseGuard.Spec.SnapshotTransparent
import PulseGuard.Native.ImportRequest
import PulseGuard.Spec.DormantRules
import PulseGuard.Spec.ExportImport
import PulseGuard.Spec.VersionAllocation
import PulseGuard.Spec.RequestSections
import PulseGuard.Spec.FrozenPacks
import PulseGuard.Spec.RuleEdits
import PulseGuard.Spec.LevelCatalogues
import PulseGuard.Spec.BackendOperations
import PulseGuard.Spec.PairedBackends
import PulseGuard.Spec.RunStages
import PulseGuard.Spec.SelfVeto
import PulseGuard.Spec.CompliancePass
import PulseGuard.Spec.FieldByField
import PulseGuard.Spec.AddOnPacks
import PulseGuard.Spec.LivePolicy
import PulseGuard.Native.EvaluateIncident
import PulseGuard.Native.SlaBreachSweep
import PulseGuard.Spec.SweepOnce
import PulseGuard.Native.Simulation
import PulseGuard.Native.BulkEvaluate
import PulseGuard.Spec.DecisionHistory
import PulseGuard.ForStd.FloatRange
import PulseGuard.Spec.SameVerdicts
import PulseGuard.Spec.WhatIfFidelity
import PulseGuard.Spec.BulkFaithful
import PulseGuard.Spec.ReplayConsistent
import PulseGuard.ForStd.Ties
import PulseGuard.Spec.SettledFields
import PulseGuard.Spec.OrderIndependent
import PulseGuard.Spec.PairedWrites
import PulseGuard.Spec.PairedCalls
import PulseGuard.Spec.BackendsAgree
import PulseGuard.Spec.Escalation
import PulseGuard.Spec.EngineNodes
import PulseGuard.Spec.EvaluatorTotal
import PulseGuard.Spec.MissingFields
import PulseGuard.Spec.ConjunctOrder
import PulseGuard.Spec.BulkAccounts
import PulseGuard.Spec.RuleEntries
import PulseGuard.Spec.RuleCodes
import PulseGuard.Spec.RuleIds
import PulseGuard.Spec.AuditTrail
import PulseGuard.Spec.NoEscalation
import PulseGuard.Spec.PlanSteps
import PulseGuard.Spec.ChosenValues
import PulseGuard.Spec.PriorityScale
import PulseGuard.Spec.UnseenChanges
import PulseGuard.Spec.RemovedWrites
import PulseGuard.Spec.GroupElection
import PulseGuard.Spec.GroupLosers
import PulseGuard.Spec.SetAside
import PulseGuard.Spec.SlaFill
import PulseGuard.Spec.StringentTarget
import PulseGuard.Spec.BulkCreation
import PulseGuard.Spec.RuleUpdate
import PulseGuard.Spec.StartupSeed
import PulseGuard.Spec.PrefixStrip
import PulseGuard.ForStd.Refinement
import PulseGuard.ForStd.AtomicObject
import PulseGuard.Native.RedisCacheBackend
import PulseGuard.ForStd.FixedWindow
import PulseGuard.Native.RateLimit
import PulseGuard.Spec.PointerSwap
import PulseGuard.Spec.RateLimit
import PulseGuard.Spec.ReadSet
import PulseGuard.Spec.Transpiled
import PulseGuard.ForStd.Ledger
import PulseGuard.Spec.RuleTrail
import PulseGuard.ForStd.FloatRounding
import PulseGuard.Native.DecisionRepositories
import PulseGuard.Spec.DecisionBackends
import PulseGuard.ForStd.TextLines
import PulseGuard.Native.UsageLog
import PulseGuard.Spec.UsageLogCorrect
import PulseGuard.Spec.AccountsAgree
import PulseGuard.Spec.Logins
import PulseGuard.Native.ManageIncidents
import PulseGuard.Spec.NullFields
