import AuraCall.TabLease.ProfileControl
import AuraCall.TabLease.ExclusiveGroup
import AuraCall.Ledger.ChatConcurrency
import AuraCall.Persistence.Stores
import AuraCall.Runtime.History
import AuraCall.Runtime.LeaseExclusion
import AuraCall.Runtime.Cancellation
import AuraCall.Runtime.LeaseFencing
import AuraCall.Runtime.TenantAdmission
import AuraCall.Traffic.PlanBudgets
import AuraCall.Traffic.WarningStop
import AuraCall.Ledger.ReservationLeaks
import AuraCall.Desktop.TransitionExclusion
import AuraCall.Desktop.StoreLockExclusion
import AuraCall.Desktop.ControlRecovery
import AuraCall.Receipts.ExactlyOnce
import AuraCall.BackendRequests.AtMostOnce
import AuraCall.Materialization.QueueLiveness
import AuraCall.Materialization.LostUpdates
import AuraCall.Runners.Liveness
import AuraCall.AccountMirror.Revisits
import AuraCall.AccountMirror.EpochIsolation
import AuraCall.Sessions.LosslessUpdates
import AuraCall.TabLease.RetirementClosing
import AuraCall.Runtime.OrphanedJobs
import AuraCall.Runtime.StartWindows
import AuraCall.Materialization.ReconciliationBudget
import AuraCall.Materialization.RetryRotation
import AuraCall.Browser.ProviderGuard
import AuraCall.Archive.Identity
import AuraCall.Archive.Rebuild
import AuraCall.AccountMirror.SchedulerPasses
import AuraCall.AccountMirror.ArtifactRecovery
import AuraCall.AccountMirror.ActivityLedger
import AuraCall.AccountMirror.FrontierResume
import AuraCall.AccountMirror.BackfillLedger
import AuraCall.AccountMirror.FreshnessFrontier
import AuraCall.Handoff.AnalysisDecision
import AuraCall.Handoff.DeterministicZip
import AuraCall.Handoff.PacketPath
import AuraCall.AccountMirror.CampaignBudgets
import AuraCall.Archive.IndexRefresh
import AuraCall.Search.Restriction
import AuraCall.AccountMirror.PolitePolicy
import AuraCall.AccountMirror.ProviderWork
import AuraCall.Dispatcher.QueuedPolling
import AuraCall.Runtime.LeaseReuse
import AuraCall.Traffic.InteractionSpacing
import AuraCall.Ledger.MinuteLimit
import AuraCall.Desktop.PoolRecovery
import AuraCall.AccountMirror.TabRollback
import AuraCall.Runtime.TerminalRuns
import AuraCall.Runtime.LimitInheritance
import AuraCall.Runtime.ResumeProgress
import AuraCall.Runtime.DispatchProgress
import AuraCall.Runtime.LeaseHeartbeat
import AuraCall.Runtime.LeaseExpiry
import AuraCall.Browser.ChatgptGuard
import AuraCall.Runtime.DispatchPool
import AuraCall.TabLease.Acquisition
import AuraCall.Runtime.RunInvariants
