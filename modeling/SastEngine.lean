import SastEngine.Lib.Dict
import SastEngine.Lib.Run
import SastEngine.Scan.Evidence
import SastEngine.Scan.Rules.Builtin
import SastEngine.Scan.Service
import SastEngine.Approval.Models
import SastEngine.Approval.Service
import SastEngine.Approval.Steps
import SastEngine.Approval.PerAction
import SastEngine.Python.Replace
import SastEngine.Python.Walk
import SastEngine.Remediation.Models
import SastEngine.Remediation.Patches
import SastEngine.Remediation.Service
import SastEngine.Approval.Newest
import SastEngine.Remediation.Gate
import SastEngine.Lib.Except
import SastEngine.Remediation.Steps
import SastEngine.Remediation.Authorization
import SastEngine.Remediation.ApplyOnce
import SastEngine.Python.Tabulated
import SastEngine.Scan.Sites
import SastEngine.Scan.Coverage
import SastEngine.Lib.Flow
import SastEngine.Scan.Paths
import SastEngine.Scan.Soundness
import SastEngine.Remediation.Verification
import SastEngine.Remediation.OneScan
import SastEngine.Lib.Template
import SastEngine.Python.Eval
import SastEngine.Remediation.Parameterization
import SastEngine.Approval.Trail
import SastEngine.Approval.Interleaved
import SastEngine.Approval.Durability
import SastEngine.Scan.RunModels
import SastEngine.Scan.RunStore
import SastEngine.Scan.StageRecords
import SastEngine.Risk.Models
import SastEngine.Risk.Service
import SastEngine.Risk.Evaluator
import SastEngine.Risk.Escalation
import SastEngine.Risk.Durability
import SastEngine.Risk.Interleaved
import SastEngine.Dedup.Fingerprint
import SastEngine.Dedup.Service
import SastEngine.Dedup.OneGroup
import SastEngine.Dedup.Incremental
import SastEngine.Scan.Counting
import SastEngine.Scan.RunHistory
import SastEngine.Db.TrailOrder
import SastEngine.Approval.Views
import SastEngine.DefectDojo.OneCounterpart
import SastEngine.Api.Notifications
import SastEngine.Api.ReadMarks
import SastEngine.Api.Repositories
import SastEngine.Scan.LiveLineage
import SastEngine.Lib.Commits
import SastEngine.Scan.RunCommits
import SastEngine.Scan.FailedScans
import SastEngine.Api.Deletion
import SastEngine.Api.Reachable
import SastEngine.Api.DeletedProject
import SastEngine.Api.RetriedDeletion
import SastEngine.Remediation.Targets
import SastEngine.Scan.Distributes
import SastEngine.Remediation.Totality
import SastEngine.Lib.Pass
import SastEngine.Scan.Provenance
import SastEngine.Scan.ReportedSource
import SastEngine.Remediation.FailedWrites
import SastEngine.Remediation.Interleaved
import SastEngine.Python.TextFiles
import SastEngine.Remediation.UntouchedBytes
import SastEngine.Prepare.Contracts
import SastEngine.Prepare.Parser
import SastEngine.Prepare.Service
import SastEngine.Prepare.Persistence
import SastEngine.Scan.ExactIdentity
import SastEngine.Lib.FileTree
import SastEngine.Lib.Loop
import SastEngine.Prepare.Fetcher
import SastEngine.Prepare.ZipBounds
import SastEngine.Prepare.Effects
import SastEngine.Prepare.Ingestion
import SastEngine.Prepare.Reprepare
import SastEngine.Python.Lines
import SastEngine.Validate.Evidence
import SastEngine.Validate.PhysicalLines
import SastEngine.Prepare.Cpg.Builder
import SastEngine.Prepare.Cpg.Ids
import SastEngine.Prepare.Cpg.Passes
import SastEngine.Prepare.Cpg.Trees
import SastEngine.Prepare.Cpg.Built
import SastEngine.Prepare.Cpg.EveryNode
import SastEngine.Prepare.Cpg.Closed
import SastEngine.Prepare.Cpg.FirstFile
import SastEngine.Prepare.Cpg.Loop
import SastEngine.Prepare.Cpg.ControlFlow
import SastEngine.Prepare.Cpg.WellFormed
import SastEngine.Benchmark.Matcher
import SastEngine.Lib.Matching
import SastEngine.Benchmark.Accounting
import SastEngine.Benchmark.ReportOrder
import SastEngine.Benchmark.CrossTool
import SastEngine.Prove.Sandbox
import SastEngine.Report.Service
import SastEngine.Report.Sums
import SastEngine.Risk.Isolation
import SastEngine.Dedup.Persistence
import SastEngine.Python.Json
import SastEngine.Benchmark.Semgrep
import SastEngine.Python.JoinedLines
import SastEngine.Python.JsonScan
import SastEngine.Validate.Fences
import SastEngine.Dedup.Separation
import SastEngine.Python.Regex
import SastEngine.Validate.Redaction
import SastEngine.Validate.Concealment
import SastEngine.Lib.BoundedSearch
import SastEngine.Prepare.Cpg.Reachability
import SastEngine.Prepare.Cpg.Lookups
import SastEngine.Auth.Models
import SastEngine.Auth.Service
import SastEngine.Auth.Sessions
import SastEngine.Auth.Seed
import SastEngine.Prove.Planner
import SastEngine.Prove.Service
import SastEngine.Prove.Harness
import SastEngine.Api.Platform
import SastEngine.Api.Requests
import SastEngine.Api.Custody
import SastEngine.Api.AuditTrail
import SastEngine.Lib.Thresholds
import SastEngine.Risk.Scoring
import SastEngine.Api.RiskRoutes
import SastEngine.Api.Deadlines
import SastEngine.Api.Ranking
