import Fomos.App.Elf
import Fomos.App.Shared
import Fomos.App.Store
import Fomos.App.Stores
import Fomos.Console.Blur
import Fomos.Console.Cuts
import Fomos.Console.Drawable
import Fomos.Console.Drawing
import Fomos.Console.Geometry
import Fomos.Console.Keys
import Fomos.Console.Modifiers
import Fomos.Console.Overrun
import Fomos.Console.Prompt
import Fomos.Console.Start
import Fomos.Console.Store
import Fomos.Console.Turns
import Fomos.Gpu.Drive
import Fomos.Gpu.Ready
import Fomos.Gpu.Requests
import Fomos.Gpu.Script
import Fomos.Gpu.Virgl
import Fomos.Input.Delivery
import Fomos.Input.Global
import Fomos.Input.KeyCodes
import Fomos.Input.KeyEdges
import Fomos.Input.Pipeline
import Fomos.Input.VirtioInput
import Fomos.Interrupts.EndOfInterrupt
import Fomos.Interrupts.Halt
import Fomos.Interrupts.Logger
import Fomos.Interrupts.Sleepers
import Fomos.Interrupts.SpinLock
import Fomos.Interrupts.Timer
import Fomos.Ioapic.Redirection
import Fomos.Kernel.Boot
import Fomos.Kernel.Completion
import Fomos.Kernel.Counts
import Fomos.Kernel.Descriptors
import Fomos.Kernel.DeviceLaw
import Fomos.Kernel.Flight
import Fomos.Kernel.Healthy
import Fomos.Kernel.Lock
import Fomos.Kernel.Matching
import Fomos.Kernel.Outstanding
import Fomos.Kernel.Ownership
import Fomos.Kernel.Payloads
import Fomos.Kernel.Registered
import Fomos.Kernel.Round
import Fomos.Kernel.RoundEnds
import Fomos.Kernel.Scheduled
import Fomos.Kernel.Scripts
import Fomos.Kernel.State
import Fomos.Kernel.Step
import Fomos.Kernel.Tasks
import Fomos.Kernel.Tokens
import Fomos.Kernel.WakeTokens
import Fomos.Kernel.WellFormed
import Fomos.Library.ArrayQueue
import Fomos.Library.ArrayVec
import Fomos.Library.BitField
import Fomos.Library.Calls
import Fomos.Library.Cells
import Fomos.Library.Follow
import Fomos.Library.Framing
import Fomos.Library.Iter
import Fomos.Library.ReprC
import Fomos.Library.RingWindow
import Fomos.Library.Splice
import Fomos.Library.Sweep
import Fomos.Library.Transition
import Fomos.Library.UpdateSum
import Fomos.Library.Utf8
import Fomos.Memory.Callers
import Fomos.Memory.FrameAllocator
import Fomos.Memory.Isolation
import Fomos.Memory.PhysicalMap
import Fomos.Pci.Accessors
import Fomos.Pci.Bars
import Fomos.Pci.Config
import Fomos.Pci.Scan
import Fomos.Virtio.Capabilities
import Fomos.Virtio.Handshake
import Fomos.Virtio.Queue
import Fomos.Virtio.QueueMemory
import Fomos.Virtio.RingFifo
