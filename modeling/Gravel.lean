import Gravel.Library.Chain
import Gravel.Library.Run
import Gravel.Library.Bitmap
import Gravel.Library.CeilingScheduler
import Gravel.Library.HandOffLocks
import Gravel.Library.ShrinkingBubble
import Gravel.Library.HyperbolicBound
import Gravel.Library.WrappedTimer
import Gravel.Library.Refinement
import Gravel.Kernel.State
import Gravel.Kernel.RunQueue
import Gravel.Kernel.Dispatch
import Gravel.Kernel.Mutex
import Gravel.Kernel.Device
import Gravel.Kernel.Admission
import Gravel.Kernel.Process
import Gravel.Kernel.Machine
import Gravel.Kernel.Io
import Gravel.Scheduling.PriorityMap
import Gravel.Scheduling.Dispatching
import Gravel.Scheduling.Wakeup
import Gravel.Scheduling.Context
import Gravel.Scheduling.Representation
import Gravel.Scheduling.Simulation
import Gravel.Scheduling.Launch
import Gravel.Scheduling.Placement
import Gravel.Scheduling.Ceiling
import Gravel.Scheduling.Inversion
import Gravel.Scheduling.Wipe
import Gravel.Locking.Layer
import Gravel.Locking.HandOff
import Gravel.Locking.Untouched
import Gravel.Locking.ResultCodes
import Gravel.Admission.RateMonotonic
import Gravel.Admission.Verdict
import Gravel.Admission.Soundness
import Gravel.Admission.Table
import Gravel.Io.Confined
import Gravel.Timing.Periodic
import Gravel.Timing.Drift
import Gravel.Locking.Creation
import Gravel.Library.Arm
import Gravel.Library.Interrupted
import Gravel.Library.HighestBit
import Gravel.Library.ByteMemory
import Gravel.Library.Copying
import Gravel.Handlers.Swi
import Gravel.Handlers.Irq
import Gravel.Handlers.Switch
import Gravel.Arithmetic.Ilog2
import Gravel.Libc.Memmove
import Gravel.Kernel.Vectors
import Gravel.Handlers.Hooking
import Gravel.Timing.Sleep
import Gravel.Admission.Total
import Gravel.Library.ExtendedRational
import Gravel.Admission.Degenerate
import Gravel.Admission.Allotment
import Gravel.Library.WordArray
import Gravel.Kernel.TaskArray
import Gravel.Admission.Gate
import Gravel.Library.LineEditor
import Gravel.Io.LineEditing
import Gravel.Timing.Guarantee
import Gravel.Scheduling.Blocking
import Gravel.Handlers.Stubs
import Gravel.Handlers.FirstDispatch
import Gravel.Handlers.UserApp
import Gravel.Timing.Release
import Gravel.Scheduling.Lifetime
import Gravel.Libc.Doprnt
import Gravel.Libc.Strtol
import Gravel.Libc.Sprintf
import Gravel.Libc.Printf
import Gravel.Libc.Console
import Gravel.Libc.Strncpy
import Gravel.Libc.Doscan
