import ControlPlane.Guarantees.CompositeSemantics
import ControlPlane.Guarantees.CacheTransparency
import ControlPlane.Guarantees.VerificationRouting
import ControlPlane.Guarantees.BudgetStop
import ControlPlane.Guarantees.SpecRepairFrame
import ControlPlane.Guarantees.ApprovalGate
import ControlPlane.Guarantees.RestartBound
import ControlPlane.Guarantees.ResolvedWave
import ControlPlane.Guarantees.ProbeLeaseWindow
import ControlPlane.Guarantees.ProposalMerge
import ControlPlane.Guarantees.KrumSafety
import ControlPlane.Guarantees.MedianBreakdown
import ControlPlane.Guarantees.KahnWaves
import ControlPlane.Guarantees.PlanReview
import ControlPlane.Guarantees.CompoundExecution
import ControlPlane.Guarantees.TenantIsolation
import ControlPlane.Guarantees.TaskOwnership
import ControlPlane.Guarantees.SessionHistory
import ControlPlane.Guarantees.ShadowDemotion
import ControlPlane.Guarantees.CheckpointReadback
import ControlPlane.Guarantees.TerminalPhases
import ControlPlane.Guarantees.TerminalEvents
import ControlPlane.Guarantees.GraftViability
import ControlPlane.Guarantees.CleanExits
import ControlPlane.Guarantees.OperatorInput
import ControlPlane.Guarantees.SnapshotReplay
import ControlPlane.Guarantees.TokenAccounting
import ControlPlane.Guarantees.LiveCounters
import ControlPlane.Guarantees.FailureDiagnostics
import ControlPlane.Guarantees.RubricCompilation
import ControlPlane.Guarantees.FrozenBypass
import ControlPlane.Guarantees.WaveQuorum
import ControlPlane.Guarantees.CheckpointProgress
import ControlPlane.Guarantees.InductionTenant
import ControlPlane.Guarantees.ReportedRepair
import ControlPlane.Guarantees.VersionLinearity
import ControlPlane.Guarantees.ViolationRates
import ControlPlane.Guarantees.OproAccounting
import ControlPlane.Guarantees.SlowPeers
import ControlPlane.Guarantees.MandatoryConstraints
import ControlPlane.Guarantees.DppmCoverage
import ControlPlane.Guarantees.BlockDeduplication
import ControlPlane.Guarantees.WavePrompts
import ControlPlane.Guarantees.ErrorCorrelation
import ControlPlane.Guarantees.LeaderSlots
import ControlPlane.Guarantees.OracleDurability
import ControlPlane.Guarantees.HashOrder
import ControlPlane.Guarantees.MergeSurvivor
import ControlPlane.Guarantees.GraftOnce
import ControlPlane.Source.Engine.SynthesisDelivery
import ControlPlane.Guarantees.UncutDelivery
import ControlPlane.Lib.Sequences
import ControlPlane.Lib.Runs
import ControlPlane.Source.Memory.SkillNodes
import ControlPlane.Guarantees.SkillIsolation
import ControlPlane.Source.Engine.EpistemicFeedback
import ControlPlane.Guarantees.OpenGaps
import ControlPlane.Lib.Placeholders
import ControlPlane.Source.Engine.PromptBuilders
import ControlPlane.Source.Memory.InductionStore
import ControlPlane.Source.Memory.InductionTraffic
import ControlPlane.Source.Memory.InductionRuns
import ControlPlane.Guarantees.TryCounts
import ControlPlane.Guarantees.CompactionBudget
import ControlPlane.Guarantees.KrumAgreement
import ControlPlane.Guarantees.AgentAnswers
import ControlPlane.Guarantees.ThinkingKeeps
import ControlPlane.Lib.Loops
import ControlPlane.Source.Engine.Decomposition
import ControlPlane.Guarantees.DomainCoverage
import ControlPlane.Guarantees.AgreementCeiling
import ControlPlane.Lib.Ranking
import ControlPlane.Source.Knowledge.WikiProvider
import ControlPlane.Source.Knowledge.CompositeProvider
import ControlPlane.Source.Knowledge.Types
import ControlPlane.Guarantees.GuaranteedKnowledge
import ControlPlane.Lib.GreedyCover
import ControlPlane.Source.MapeK.Partials
import ControlPlane.Guarantees.GreedyPartials
import ControlPlane.Guarantees.IsolationEvidence
import ControlPlane.Source.Engine.GraftRounds
import ControlPlane.Guarantees.ImportanceTrim
import ControlPlane.Guarantees.SilentJudge
import ControlPlane.Guarantees.LastJsonObject
import ControlPlane.Guarantees.CheckSegments
import ControlPlane.Lib.Brackets
import ControlPlane.Guarantees.TournamentMerge
import ControlPlane.Guarantees.EnsembleSizing
import ControlPlane.Source.Ensemble.Diagnostics
import ControlPlane.Guarantees.RankHistogram
import ControlPlane.Guarantees.ParticipationRatio
import ControlPlane.Guarantees.PageRank
import ControlPlane.Lib.UnionFind
import ControlPlane.Source.Memory.TensionClusters
import ControlPlane.Guarantees.TensionClusters
import ControlPlane.Guarantees.ChangepointPosterior
import ControlPlane.Guarantees.DriftMargin
import ControlPlane.Source.Agent.EdgeDispatch
import ControlPlane.Guarantees.EdgeAnswers
import ControlPlane.Guarantees.AgentSelection
import ControlPlane.Guarantees.BanditEvidence
import ControlPlane.Guarantees.RedactedAudit
import ControlPlane.Guarantees.ConflictGraph
import ControlPlane.Guarantees.SandboxedTools
import ControlPlane.Guarantees.ReadmeBytes
