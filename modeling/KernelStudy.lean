import KernelStudy.Foundations.MachineWord
import KernelStudy.Foundations.CellMemory
import KernelStudy.Foundations.BoundedLoop
import KernelStudy.Foundations.LabelledRun
import KernelStudy.Foundations.ModuleLifecycle
import KernelStudy.Foundations.LinkedRing
import KernelStudy.Foundations.RingReader
import KernelStudy.Foundations.Numeral
import KernelStudy.Foundations.RunCollapse
import KernelStudy.PhysicalMemory.DramDevice
import KernelStudy.PhysicalMemory.DramReading
import KernelStudy.PhysicalMemory.DramSeek
import KernelStudy.Fileview.BufferFill
import KernelStudy.Fileview.SeekPrompt
import KernelStudy.Fileview.Navigation
import KernelStudy.Fileview.Rendering
import KernelStudy.Fileview.Window
import KernelStudy.Fileview.LineEditor
import KernelStudy.Fileview.HexViews
import KernelStudy.Fileview.LineBuffer
import KernelStudy.Fileview.Addressing
import KernelStudy.Fileview.Session
import KernelStudy.Fileview.Paging
import KernelStudy.PhysicalMemory.DramBrowsing
import KernelStudy.BlockDevice.RamDisk
import KernelStudy.BlockDevice.RequestLoop
import KernelStudy.BlockDevice.SectorArray
import KernelStudy.BlockDevice.DeviceGuard
import KernelStudy.BlockDevice.SilentLoss
import KernelStudy.BlockDevice.Capacity
import KernelStudy.AddressSpace.Memmap
import KernelStudy.AddressSpace.FaultBounds
import KernelStudy.AddressSpace.PageWalk
import KernelStudy.AddressSpace.SharedArea
import KernelStudy.AddressSpace.WorkedTranslation
import KernelStudy.Concurrency.HeartbeatTimer
import KernelStudy.Concurrency.SharedInterrupt
import KernelStudy.CharacterDevice.Handlers
import KernelStudy.CharacterDevice.CallContract
import KernelStudy.CharacterDevice.Publication
import KernelStudy.CharacterDevice.UserPrograms
import KernelStudy.UserNamespace.Handshake
import KernelStudy.UserNamespace.IdMaps
import KernelStudy.DriverLifecycle.LoadUnload
import KernelStudy.DriverLifecycle.MoreModules
import KernelStudy.Pcimem.Program
import KernelStudy.Pcimem.MappedAccess
import KernelStudy.Pcimem.CollapsedDump
import KernelStudy.Pcimem.MemoryEditing
import KernelStudy.ListModule.Program
import KernelStudy.ListModule.Deletion
import KernelStudy.ListModule.Lifecycle
import KernelStudy.ListModule.Ownership
import KernelStudy.ListModule.KernelLog
import KernelStudy.ListModule.WorkerThread
import KernelStudy.LoadMonitor.RateLimit
import KernelStudy.LoadMonitor.LoadLine
import KernelStudy.ProcessList.TaskLists
import KernelStudy.ProcessList.Walks
import KernelStudy.ProcessList.StackDump
import KernelStudy.ProcessList.PrintPcb
import KernelStudy.ModuleReference.ForcedPut
import KernelStudy.MmioProbe.VmapPfn
import KernelStudy.MmioProbe.CycleStatistics
import KernelStudy.MmioProbe.Probe
