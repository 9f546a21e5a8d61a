import ComputeRuntime.Ar.Bounds
import ComputeRuntime.BcsSplit.Runs
import ComputeRuntime.BindlessHeaps.Runs
import ComputeRuntime.BoHandles.Runs
import ComputeRuntime.BufferCopies.Bounds
import ComputeRuntime.CmdList.CopyExact
import ComputeRuntime.CmdList.CopyRegion
import ComputeRuntime.CommandContainer.Conservation
import ComputeRuntime.CommandContainer.HeapSpace
import ComputeRuntime.CommandEncoder.WorkDim
import ComputeRuntime.DebugSession.Names
import ComputeRuntime.DeferredDeleter.Runs
import ComputeRuntime.DeferredFree.Draining
import ComputeRuntime.DirectSubmission.Ahead
import ComputeRuntime.DrmResidency.Runs
import ComputeRuntime.Event.SubmitWraps
import ComputeRuntime.EventCallbacks.Runs
import ComputeRuntime.ExternalFunctions.Results
import ComputeRuntime.GfxPartition.Alignment
import ComputeRuntime.GfxPartition.Owner
import ComputeRuntime.GfxPartition.Retries
import ComputeRuntime.Helpers.L3Range
import ComputeRuntime.HostPtr.Overlaps
import ComputeRuntime.HostPtr.Pages
import ComputeRuntime.HostPtr.Runs
import ComputeRuntime.InOrder.Runs
import ComputeRuntime.Linker.Bounds
import ComputeRuntime.MapOperations.Runs
import ComputeRuntime.MutableCmdList.Reservation
import ComputeRuntime.MutableCmdList.SlmRuns
import ComputeRuntime.MutableCmdList.ValueExact
import ComputeRuntime.PageFault.Removal
import ComputeRuntime.PhysicalAddress.Banks
import ComputeRuntime.PoolAllocator.Runs
import ComputeRuntime.QueueExecution.Calls
import ComputeRuntime.Staging.ImageRuns
import ComputeRuntime.Staging.NullChunk
import ComputeRuntime.Staging.ReadHang
import ComputeRuntime.Submissions.Soundness
import ComputeRuntime.SynchronizedDispatch.Runs
import ComputeRuntime.TagAllocator.Runs
import ComputeRuntime.UnifiedMemory.IndirectRuns
import ComputeRuntime.UnifiedMemory.Reuse
import ComputeRuntime.UsmPool.Runs
import ComputeRuntime.WalkerPartition.Dynamic
import ComputeRuntime.WalkerPartition.Fields
import ComputeRuntime.Yaml.Exactness
