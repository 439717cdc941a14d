import Apes.Library.TransitionSystem
import Apes.Library.SortedTally
import Apes.Library.LinkRing
import Apes.KernelSort.KMergeSort
import Apes.LinkedList.Insertion
import Apes.SharedMemory.Discipline
import Apes.SharedMemory.Alternation
import Apes.SharedMemory.Interrupted
import Apes.SharedMemory.Turnaround
import Apes.PthreadTest.KillSignal
import Apes.PthreadTest.CpuTick
import Apes.PthreadTest.LogFile
import Apes.Pipes.PipesTest
import Apes.Pipes.RoundTrip
import Apes.Library.Channel
import Apes.Sockets.Sessions
import Apes.Sockets.FirstSession
import Apes.Sockets.ManySessions
import Apes.Library.BinaryFloat
import Apes.Firmware.TempSensor
import Apes.Library.SerialOutput
import Apes.Firmware.Uart
import Apes.Library.LossyQueue
import Apes.Firmware.Board
import Apes.Firmware.Led
import Apes.Library.SharedFile
import Apes.Timer.TimerModule
import Apes.SharedMemory.Restart
import Apes.Pipes.Signals
import Apes.KernelSort.BufferBounds
import Apes.Firmware.Alert
import Apes.KernelSort.ErrorPaths
import Apes.PthreadTest.LetterReport
import Apes.LinkedList.Filters
import Apes.LinkedList.Loading
import Apes.LinkedList.Unload
import Apes.FileIo.FileIo
import Apes.PthreadTest.StatFile
import Apes.SharedMemory.Setup
import Apes.Sockets.Disconnect
import Apes.LinkedList.Ring
import Apes.Library.WrapClock
import Apes.SoftwareTimers.Timers
import Apes.SoftwareTimers.Placement
import Apes.SoftwareTimers.Service
import Apes.SoftwareTimers.Schedule
import Apes.Library.Recurrence
import Apes.SoftwareTimers.Periods
import Apes.SoftwareTimers.CatchUp
import Apes.SoftwareTimers.Stops
import Apes.Firmware.Main
import Apes.Firmware.Sampling
import Apes.Library.Checks
import Apes.Kernel.Credentials
import Apes.Kernel.Privileges
import Apes.Kernel.Limits
import Apes.Kernel.LimitRuns
import Apes.Kernel.LimitInterfaces
import Apes.Kernel.ProcessGroups
import Apes.Kernel.Sessions
import Apes.Kernel.MemoryMap
import Apes.Kernel.MapRuns
import Apes.Kernel.Priorities
import Apes.Kernel.SystemInfo
