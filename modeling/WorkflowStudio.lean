import WorkflowStudio.Executor.PreviewProperties
import WorkflowStudio.Executor.NodeRunLogProperties
import WorkflowStudio.Executor.LoopEntryProperties
import WorkflowStudio.Editor.RedoProperties
import WorkflowStudio.Editor.PreviewIsolationProperties
import WorkflowStudio.Editor.MirrorProperties
import WorkflowStudio.Editor.RoundTripProperties
import WorkflowStudio.Editor.LoadSaveProperties
import WorkflowStudio.Queue.JobSafetyProperties
import WorkflowStudio.Workflow.HistoryProperties
import WorkflowStudio.Workflow.SavingProperties
import WorkflowStudio.Sandbox.ClosureProperties
import WorkflowStudio.Expression.InjectionProperties
import WorkflowStudio.Progress.SettledProperties
import WorkflowStudio.Progress.IsolationProperties
import WorkflowStudio.Editor.RewindProperties
import WorkflowStudio.Editor.UnsavedChanges
import WorkflowStudio.Editor.UnsavedProperties
import WorkflowStudio.Editor.HistoryScope
import WorkflowStudio.Editor.HistoryScopeProperties
import WorkflowStudio.Editor.Clipboard
import WorkflowStudio.Editor.ClipboardProperties
import WorkflowStudio.Executor.PinGateProperties
import WorkflowStudio.Workflow.Publishing
import WorkflowStudio.Workflow.PublishingProperties
import WorkflowStudio.Workflow.TriggerProperties
import WorkflowStudio.Executor.Launch
import WorkflowStudio.Executor.LaunchProperties
import WorkflowStudio.Connector.EffectiveConfig
import WorkflowStudio.Connector.EffectiveConfigProperties
import WorkflowStudio.Progress.NodeResults
import WorkflowStudio.Progress.NodeResultsProperties
import WorkflowStudio.Progress.PreviewResponse
import WorkflowStudio.Progress.PreviewResponseProperties
import WorkflowStudio.Executor.IterationCapProperties
import WorkflowStudio.Executor.Savepoint
import WorkflowStudio.Executor.SavepointProperties
import WorkflowStudio.Lib.Chunks
import WorkflowStudio.Executor.BatchProperties
import WorkflowStudio.Executor.IfNode
import WorkflowStudio.Executor.IfNodeProperties
import WorkflowStudio.Executor.OutputValue
import WorkflowStudio.Executor.PinReplayProperties
import WorkflowStudio.Vars.Wrapping
import WorkflowStudio.Vars.WrappingProperties
import WorkflowStudio.Expression.InterpolationProperties
import WorkflowStudio.Expression.TargetRecords
import WorkflowStudio.Expression.TargetRecordsProperties
import WorkflowStudio.Lib.Substitution
import WorkflowStudio.Executor.Masking
import WorkflowStudio.Executor.MaskingProperties
import WorkflowStudio.Executor.MaskingStabilityProperties
import WorkflowStudio.Executor.OutputValueProperties
import WorkflowStudio.Progress.PreviewReport
import WorkflowStudio.Progress.PreviewReportProperties
import WorkflowStudio.Lib.LinkedMaps
import WorkflowStudio.Vars.Paths
import WorkflowStudio.Vars.PathProperties
import WorkflowStudio.Vars.PathEditProperties
import WorkflowStudio.Vars.LensProperties
import WorkflowStudio.Data.Equality
import WorkflowStudio.Workflow.Retrieval
import WorkflowStudio.Workflow.RetrievalProperties
import WorkflowStudio.Workflow.Migration
import WorkflowStudio.Workflow.MigrationProperties
import WorkflowStudio.Workflow.Comparison
import WorkflowStudio.Workflow.ComparisonProperties
import WorkflowStudio.Workflow.ComparisonExactness
import WorkflowStudio.Canvas.StructuralGraph
import WorkflowStudio.Canvas.StructuralProperties
import WorkflowStudio.Canvas.Graphlib
import WorkflowStudio.Canvas.Layout
import WorkflowStudio.Canvas.ComponentProperties
import WorkflowStudio.Canvas.LayoutProperties
import WorkflowStudio.Canvas.StackingProperties
import WorkflowStudio.Canvas.TidyUpProperties
import WorkflowStudio.Canvas.FitView
import WorkflowStudio.Canvas.FitViewProperties
import WorkflowStudio.Expression.Selector
import WorkflowStudio.Expression.SelectorProperties
import WorkflowStudio.Lib.Quoting
import WorkflowStudio.Editor.LiteralSeed
import WorkflowStudio.Editor.LiteralSeedProperties
import WorkflowStudio.Lib.PythonSyntax
import WorkflowStudio.Workflow.TriggerCode
import WorkflowStudio.Lib.PythonLiterals
import WorkflowStudio.Lib.Replacing
import WorkflowStudio.Connector.AuthProfile
import WorkflowStudio.Connector.AuthTemplateProperties
import WorkflowStudio.Connector.AuthRequestProperties
import WorkflowStudio.Data.Heap
import WorkflowStudio.Data.HeapProperties
import WorkflowStudio.Connector.RequestExecution
import WorkflowStudio.Connector.MergeAtProperties
import WorkflowStudio.Connector.RequestExecutionProperties
import WorkflowStudio.Lib.Settling
import WorkflowStudio.Lib.GreedyCover
import WorkflowStudio.Vars.DirtyPathProperties
import WorkflowStudio.Executor.SocketProperties
import WorkflowStudio.Lib.SecondChoice
import WorkflowStudio.Connector.EndpointCode
import WorkflowStudio.Connector.EndpointCodeProperties
import WorkflowStudio.Lib.Ordered
import WorkflowStudio.Workflow.ExecutionRegistry
import WorkflowStudio.Workflow.ExecutionRegistryProperties
import WorkflowStudio.Sandbox.ModelPolicy
import WorkflowStudio.Sandbox.WorkflowPolicyProperties
import WorkflowStudio.Connector.BridgeSync
import WorkflowStudio.Connector.BridgeSyncProperties
import WorkflowStudio.Executor.RunCounterProperties
import WorkflowStudio.Expression.PathParams
import WorkflowStudio.Lib.FirstOccurrence
import WorkflowStudio.Expression.Preview
import WorkflowStudio.Expression.PreviewProperties
import WorkflowStudio.Expression.FieldValues
import WorkflowStudio.Expression.FieldValuesProperties
import WorkflowStudio.Lib.LeastFirst
import WorkflowStudio.Queue.PriorityQueue
import WorkflowStudio.Queue.Channels
import WorkflowStudio.Queue.ChannelManager
import WorkflowStudio.Queue.DispatchProperties
import WorkflowStudio.Queue.FlowProperties
import WorkflowStudio.Queue.NotificationProperties
import WorkflowStudio.Queue.ChannelTreeProperties
import WorkflowStudio.Queue.ManagerProperties
import WorkflowStudio.Queue.HandingOutProperties
import WorkflowStudio.Queue.SchedulingProperties
import WorkflowStudio.Queue.WakeupProperties
import WorkflowStudio.Queue.StatusProperties
import WorkflowStudio.Queue.JobRunner
import WorkflowStudio.Queue.MirrorProperties
import WorkflowStudio.Queue.AgreementProperties
import WorkflowStudio.Queue.RunnerProperties
import WorkflowStudio.Lib.TopologicalOrder
import WorkflowStudio.Queue.DependencyGraph
import WorkflowStudio.Queue.DependentJobs
import WorkflowStudio.Queue.DependencyProperties
import WorkflowStudio.Queue.ReadinessProperties
import WorkflowStudio.Queue.WakingProperties
import WorkflowStudio.Queue.RefinementProperties
import WorkflowStudio.Queue.JobArguments
