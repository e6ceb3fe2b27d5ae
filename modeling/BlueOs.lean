import BlueOs.Acknowledgement
import BlueOs.ActiveHeap
import BlueOs.AdvanceTechnologyAttachment
import BlueOs.ButtonDispatch
import BlueOs.Carving
import BlueOs.Clipping
import BlueOs.Coalescing
import BlueOs.ConfigurationHeader
import BlueOs.ConfigurationSpace
import BlueOs.ConsoleColours
import BlueOs.ConsoleLayout
import BlueOs.Constructors
import BlueOs.ContextOwnership
import BlueOs.ContextSwitch
import BlueOs.CursorOverlay
import BlueOs.DescriptorTables
import BlueOs.DesktopPointer
import BlueOs.DeviceEnumeration
import BlueOs.DeviceListing
import BlueOs.DigitBuffer
import BlueOs.DiskStore
import BlueOs.DriveChannels
import BlueOs.DriveHandshake
import BlueOs.DrivePolling
import BlueOs.EndOfInterrupt
import BlueOs.FirstFit
import BlueOs.FixedRegistries
import BlueOs.FocusFollowsClick
import BlueOs.FrameBuffer
import BlueOs.FunctionRegisters
import BlueOs.HandlerRegistry
import BlueOs.HeapBalance
import BlueOs.HeapClients
import BlueOs.HeapInvariant
import BlueOs.HitTesting
import BlueOs.InputActivation
import BlueOs.InterruptDispatch
import BlueOs.InterruptManager
import BlueOs.InterruptStubs
import BlueOs.InterruptedPrint
import BlueOs.KernelDrives
import BlueOs.KernelMain
import BlueOs.Keyboard
import BlueOs.Library.ByteMemory
import BlueOs.Library.Controller8042
import BlueOs.Library.FuelledLoop
import BlueOs.Library.GrowingRing
import BlueOs.Library.IndexedRegisters
import BlueOs.Library.LatestWrites
import BlueOs.Library.LeftmostLeast
import BlueOs.Library.LinkedNodes
import BlueOs.Library.Messages
import BlueOs.Library.Numerals
import BlueOs.Library.Pagination
import BlueOs.Library.ParentTree
import BlueOs.Library.Pic8259
import BlueOs.Library.ProgramPairs
import BlueOs.Library.Programs
import BlueOs.Library.Runs
import BlueOs.Library.Simulation
import BlueOs.Library.Tiling
import BlueOs.Library.WordStack
import BlueOs.MemoryManager
import BlueOs.MemoryMap
import BlueOs.MemorySummary
import BlueOs.ModeSetting
import BlueOs.MotionDelivery
import BlueOs.Mouse
import BlueOs.MouseMotion
import BlueOs.Multitasking
import BlueOs.NumberPrinting
import BlueOs.PacketFraming
import BlueOs.PagedScreen
import BlueOs.PeripheralComponentInterconnect
import BlueOs.Picture
import BlueOs.Port
import BlueOs.PortBases
import BlueOs.PrintedText
import BlueOs.Reclaiming
import BlueOs.RoundRobin
import BlueOs.RunToCompletion
import BlueOs.SchedulerSteps
import BlueOs.ScreenMemory
import BlueOs.SectorDisk
import BlueOs.SectorDrain
import BlueOs.SectorRoundTrip
import BlueOs.SectorWrite
import BlueOs.Segmentation
import BlueOs.Selection
import BlueOs.SetupMemory
import BlueOs.SharedCursor
import BlueOs.ShortestRemaining
import BlueOs.StableSelection
import BlueOs.TableSafety
import BlueOs.TableWalk
import BlueOs.TaskLog
import BlueOs.TaskManager
import BlueOs.TaskedKernel
import BlueOs.TextConsole
import BlueOs.TypedText
import BlueOs.VideoGraphicsArray
import BlueOs.WidgetConstruction
import BlueOs.WidgetTree
