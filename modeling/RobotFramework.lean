import RobotFramework.Orchestrator.Merge
import RobotFramework.Orchestrator.PathwiseMerge
import RobotFramework.Orchestrator.Registry
import RobotFramework.Orchestrator.Hosts
import RobotFramework.Orchestrator.Launch
import RobotFramework.Orchestrator.Precedence
import RobotFramework.Orchestrator.NamedMerge
import RobotFramework.Orchestrator.Wildcard
import RobotFramework.Orchestrator.RemovalMarkers
import RobotFramework.Orchestrator.LaunchedNodes
import RobotFramework.BaseNode.Topics
import RobotFramework.BaseNode.CanonicalTopics
import RobotFramework.BaseNode.Timing
import RobotFramework.BaseNode.TimingReports
import RobotFramework.BaseNode.Lifecycle
import RobotFramework.BaseNode.Initialization
import RobotFramework.BaseNode.Stages
import RobotFramework.Systems.ProcessInit
import RobotFramework.Systems.ArmSignals
import RobotFramework.Systems.HealthNetwork
import RobotFramework.Systems.DiagnosticNetwork
import RobotFramework.Systems.MonitoredRobot
import RobotFramework.Systems.ShownRunning
import RobotFramework.Systems.PosePipeline
import RobotFramework.SystemMonitor.HealthReports
import RobotFramework.SystemMonitor.AutoSubscriptions
import RobotFramework.SystemMonitor.StableRows
import RobotFramework.SystemMonitor.Selection
import RobotFramework.SystemMonitor.LogLevelRequests
import RobotFramework.SystemMonitor.DiagnosticWindow
import RobotFramework.SystemMonitor.NodeInfoRows
import RobotFramework.SystemMonitor.MonitorRuns
import RobotFramework.SystemMonitor.Discovery
import RobotFramework.TranslateUtility.CovarianceBounds
import RobotFramework.TranslateUtility.RoundTrip
import RobotFramework.TranslateUtility.Stamps
import RobotFramework.LogAnalysis.Quarantine
import RobotFramework.LogAnalysis.RetryLoop
import RobotFramework.LogAnalysis.AnalyzeBags
import RobotFramework.LogAnalysis.BagDirectories
import RobotFramework.LogAnalysis.BagAnalysis
import RobotFramework.LogAnalysis.RateReport
import RobotFramework.LogAnalysis.MetadataSummary
import RobotFramework.LogAnalysis.OutputStream
import RobotFramework.LogAnalysis.TimestampSearch
