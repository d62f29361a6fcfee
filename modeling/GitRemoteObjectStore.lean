import GitRemoteObjectStore.Library.CallProgram
import GitRemoteObjectStore.Library.Contract
import GitRemoteObjectStore.Library.Machine
import GitRemoteObjectStore.Library.Pool
import GitRemoteObjectStore.Library.Separated
import GitRemoteObjectStore.Library.Arrivals
import GitRemoteObjectStore.Library.Closure
import GitRemoteObjectStore.BundleRuns
import GitRemoteObjectStore.PackchainRuns
import GitRemoteObjectStore.LockExclusion
import GitRemoteObjectStore.ChainIntegrity
import GitRemoteObjectStore.PackSafety
import GitRemoteObjectStore.ProtectedRefs
import GitRemoteObjectStore.ManifestUpdate
import GitRemoteObjectStore.BundleListing
import GitRemoteObjectStore.BundleDeletion
import GitRemoteObjectStore.Engines
import GitRemoteObjectStore.Footprint
import GitRemoteObjectStore.KeyCodec
import GitRemoteObjectStore.EngineExclusivity
import GitRemoteObjectStore.PackchainSections
import GitRemoteObjectStore.ChainShape
import GitRemoteObjectStore.Repository
import GitRemoteObjectStore.Fetch
import GitRemoteObjectStore.FetchRuns
import GitRemoteObjectStore.PushedRepository
import GitRemoteObjectStore.SegmentInstalls
import GitRemoteObjectStore.ObjectGraph
import GitRemoteObjectStore.PackBuild
import GitRemoteObjectStore.ChainClosure
import GitRemoteObjectStore.Library.DeltaFormat
import GitRemoteObjectStore.Library.Outcomes
import GitRemoteObjectStore.Delta
import GitRemoteObjectStore.ReadIntegrity
import GitRemoteObjectStore.Library.BreadthFirst
import GitRemoteObjectStore.Library.LastRun
import GitRemoteObjectStore.Read
import GitRemoteObjectStore.Repl
import GitRemoteObjectStore.ReplBatches
import GitRemoteObjectStore.S3Download
import GitRemoteObjectStore.S3Atomicity
import GitRemoteObjectStore.LockRelease
import GitRemoteObjectStore.StaleRemote
import GitRemoteObjectStore.DoctorEffects
import GitRemoteObjectStore.Library.PercentEncoding
import GitRemoteObjectStore.BundleUriEmission
import GitRemoteObjectStore.PathLookup
import GitRemoteObjectStore.ShallowFile
import GitRemoteObjectStore.Library.BoundedRead
import GitRemoteObjectStore.HeaderGrammar
import GitRemoteObjectStore.Library.Faults
import GitRemoteObjectStore.DoctorFaults
import GitRemoteObjectStore.BranchDeletion
import GitRemoteObjectStore.MarkPrecision
import GitRemoteObjectStore.SweepConfluence
import GitRemoteObjectStore.BaselineCleanup
import GitRemoteObjectStore.SizeVarints
import GitRemoteObjectStore.PackIndexCache
import GitRemoteObjectStore.PackKeys
import GitRemoteObjectStore.VirtualHosts
import GitRemoteObjectStore.UrlRoundTrip
import GitRemoteObjectStore.Multipart
import GitRemoteObjectStore.UploadGuard
import GitRemoteObjectStore.LfsAgent
import GitRemoteObjectStore.LfsLedger
import GitRemoteObjectStore.LfsStream
import GitRemoteObjectStore.SweepEffects
import GitRemoteObjectStore.BundleHistories
import GitRemoteObjectStore.SweepSafety
import GitRemoteObjectStore.GcCycle
import GitRemoteObjectStore.Library.Authority
import GitRemoteObjectStore.Library.Drift
import GitRemoteObjectStore.Protection
import GitRemoteObjectStore.Ownership
import GitRemoteObjectStore.ProtectedHistories
import GitRemoteObjectStore.Provenance
import GitRemoteObjectStore.FetchClosure
import GitRemoteObjectStore.Library.Refinement
import GitRemoteObjectStore.Library.Registers
import GitRemoteObjectStore.RefRegisters
import GitRemoteObjectStore.BundleFetch
import GitRemoteObjectStore.FetchBatches
import GitRemoteObjectStore.Audit
import GitRemoteObjectStore.PushRetries
import GitRemoteObjectStore.Clones
import GitRemoteObjectStore.CompactionCuts
