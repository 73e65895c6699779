import NpuStack.Schemes.Text
import NpuStack.Schemes.Keyed
import NpuStack.Schemes.Interaction
import NpuStack.Schemes.Returns
import NpuStack.Schemes.Handler
import NpuStack.Schemes.OrderedMap
import NpuStack.Schemes.SortUnique
import NpuStack.Schemes.LineEdit
import NpuStack.Schemes.FileTree
import NpuStack.Schemes.Serde
import NpuStack.Schemes.Python
import NpuStack.Schemes.PyValue
import NpuStack.Schema.Kernel
import NpuStack.Schema.Profile
import NpuStack.Schema.Release
import NpuStack.Platform.OsRelease
import NpuStack.Install.Inventory
import NpuStack.Install.NativeRpm
import NpuStack.Install.Plan
import NpuStack.Install.PlanVerify
import NpuStack.Install.Transport
import NpuStack.Install.Policy
import NpuStack.Install.Discover
import NpuStack.Install.Review
import NpuStack.Install.Replay
import NpuStack.Install.Prepare
import NpuStack.Install.Main
import NpuStack.Install.Lifecycle
import NpuStack.Install.Agreement
import NpuStack.Install.Preview
import NpuStack.Install.Snapshot
import NpuStack.Install.RenderConfig
import NpuStack.Install.Validators
import NpuStack.Install.StatusPolicy
import NpuStack.Install.Activation
import NpuStack.Install.Bootstrap
import NpuStack.Install.PlanExact
import NpuStack.Runtime.Process
import NpuStack.Runtime.Package
import NpuStack.Runtime.Inspect
import NpuStack.Runtime.Report
import NpuStack.Runtime.Activity
import NpuStack.Runtime.Boundaries
import NpuStack.Native.Agreement
import NpuStack.Native.WriterSession
import NpuStack.Native.Utf8
import NpuStack.Sources.Lfs
import NpuStack.Packaging.Assemble
import NpuStack.Packaging.ReleaseProfile
import NpuStack.Packaging.LicenseEvidence
import NpuStack.Packaging.Payload
import NpuStack.Xtask.CandidateCollection
import NpuStack.Xtask.OpenvinoPackages
import NpuStack.Publish.Exact
import NpuStack.Publish.Pipeline
import NpuStack.Publish.ArchiveSite
import NpuStack.Ci.Signatures
import NpuStack.Ci.CheckRelease
import NpuStack.Ci.ReleaseInputs
import NpuStack.Ci.ReleaseArtifact
import NpuStack.Ci.KernelVerdicts
import NpuStack.Ci.SupportNotes
import NpuStack.Ci.UpstreamWatch
