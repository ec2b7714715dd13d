import PackageGraph.Main
import PackageGraph.Restore.Project
import PackageGraph.Workspace
import PackageGraph.Proofs.Aggregate.Consumers
import PackageGraph.Proofs.Aggregate.Graph
import PackageGraph.Proofs.Aggregate.PackageKey
import PackageGraph.Proofs.Aggregate.RoundTrip
import PackageGraph.Proofs.DependencyGraph.Acceptance
import PackageGraph.Proofs.DependencyGraph.Closure
import PackageGraph.Proofs.DependencyGraph.OwnNames
import PackageGraph.Proofs.DependencyGraph.ProjectJson
import PackageGraph.Proofs.PackageSpec.Installation
import PackageGraph.Proofs.Restore.KeyedByName
import PackageGraph.Proofs.Restore.LastAction
import PackageGraph.Proofs.Restore.Narrowing
import PackageGraph.Proofs.Restore.Partition
import PackageGraph.Proofs.Version.Order
import PackageGraph.Proofs.VersionRange.Floating
import PackageGraph.Proofs.VersionRange.Membership
import PackageGraph.Proofs.DependencyGraph.Unresolved
import PackageGraph.Proofs.Aggregate.References
import PackageGraph.Proofs.Escapes
import PackageGraph.Proofs.FileSystem
import PackageGraph.Proofs.FileSystem.Changes
import PackageGraph.Proofs.Project.Escapes
import PackageGraph.Proofs.BuildTool.Derivation
import PackageGraph.Proofs.Settings.Escapes
import PackageGraph.Proofs.Settings.Precedence
import PackageGraph.Proofs.CommandLine.ExitCode
import PackageGraph.Proofs.Version.Written
import PackageGraph.Proofs.Framework.ShortVersion
import PackageGraph.Proofs.Text.SmallLetters
import PackageGraph.Proofs.Version.Respelling
import PackageGraph.Proofs.Framework.ShortSpelling
import PackageGraph.Proofs.Framework.RoundTrip
import PackageGraph.Proofs.Json.DateText
import PackageGraph.Proofs.Json.GuidText
import PackageGraph.Proofs.Json.Narrowing
import PackageGraph.Proofs.Aggregate.Priority
import PackageGraph.Proofs.PackageSpec.Obstacles
import PackageGraph.Proofs.Project.Agreement
import PackageGraph.Proofs.Project.Conditions
import PackageGraph.Proofs.Path.Normal
import PackageGraph.Proofs.Path.Reference
import PackageGraph.Proofs.Aggregate.CanonicalNames
import PackageGraph.Proofs.AssetFlags.Tokens
import PackageGraph.Proofs.Settings.PackageSources
import PackageGraph.Proofs.Aggregate.Schedule
import PackageGraph.Proofs.Workspace
import PackageGraph.Proofs.Workspace
