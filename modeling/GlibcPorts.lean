import GlibcPorts.Lib.Transition
import GlibcPorts.Lib.Simulation
import GlibcPorts.Lib.LinkedList
import GlibcPorts.Lib.CString
import GlibcPorts.Lib.ByteField
import GlibcPorts.Lib.ByteOrder
import GlibcPorts.Lib.BitWords
import GlibcPorts.Lib.Alignment
import GlibcPorts.Lib.Decimal
import GlibcPorts.Lib.Records
import GlibcPorts.Lib.Loop
import GlibcPorts.Lib.Block
import GlibcPorts.Lib.Realloc
import GlibcPorts.Lib.Intervals
import GlibcPorts.Lib.Backward
import GlibcPorts.Lib.BitFields
import GlibcPorts.Lib.LastEntry
import GlibcPorts.Lib.Probe
import GlibcPorts.Abi
import GlibcPorts.Errno
import GlibcPorts.Rtld.AuxiliaryVector
import GlibcPorts.Rtld.DlOrigin
import GlibcPorts.Rtld.Mrlock
import GlibcPorts.Rtld.OsVersion
import GlibcPorts.Rtld.ShowAuxv
import GlibcPorts.Timer.Calls
import GlibcPorts.Timer.HelperThread
import GlibcPorts.Timer.KernelPosixTimers
import GlibcPorts.Timer.Machine
import GlibcPorts.Timer.Processes
import GlibcPorts.Timer.Service
import GlibcPorts.AtEmulation.Calls
import GlibcPorts.AtEmulation.Faccessat
import GlibcPorts.AtEmulation.Fexecve
import GlibcPorts.AtEmulation.Futimesat
import GlibcPorts.AtEmulation.KinfoFile
import GlibcPorts.AtEmulation.Permissions
import GlibcPorts.AtEmulation.Resolution
import GlibcPorts.AtEmulation.Threads
import GlibcPorts.UtmpCompat.Database
import GlibcPorts.UtmpCompat.Utmpconv
import GlibcPorts.Mount.Getmntinfo
import GlibcPorts.Mount.Statfsconv
import GlibcPorts.Interfaces.Getifaddrs
import GlibcPorts.Interfaces.IfIndex
import GlibcPorts.Interfaces.Ifreq
import GlibcPorts.Interfaces.RouteMessages
import GlibcPorts.Vmmap.ReadonlyArea
import GlibcPorts.SharedMemory.ShmOpen
import GlibcPorts.SystemName.Uname
import GlibcPorts.Sockets.ControlMessages
import GlibcPorts.Glue.Endian
import GlibcPorts.BitSets.CpuSets
import GlibcPorts.BitSets.Signals
import GlibcPorts.Login.LoginCache
import GlibcPorts.Pty.Getpt
import GlibcPorts.Pty.Ptsname
import GlibcPorts.Process.Affinity
import GlibcPorts.Process.Clone
import GlibcPorts.Process.Iopl
import GlibcPorts.Process.WaitStatus
import GlibcPorts.Proofs.Rtld.AuxiliaryVector
import GlibcPorts.Proofs.Rtld.DlOrigin
import GlibcPorts.Proofs.Rtld.Fields
import GlibcPorts.Proofs.Rtld.MrlockSafety
import GlibcPorts.Proofs.Rtld.MrlockWakeup
import GlibcPorts.Proofs.Rtld.OsVersion
import GlibcPorts.Proofs.Rtld.ShowAuxv
import GlibcPorts.Proofs.Timer.Attribution
import GlibcPorts.Proofs.Timer.Calls
import GlibcPorts.Proofs.Timer.Create
import GlibcPorts.Proofs.Timer.Fallback
import GlibcPorts.Proofs.Timer.Fork
import GlibcPorts.Proofs.Timer.HelperThread
import GlibcPorts.Proofs.Timer.Invariant
import GlibcPorts.Proofs.Timer.LiveTable
import GlibcPorts.Proofs.Timer.Notifications
import GlibcPorts.Proofs.Timer.ProcessInvariant
import GlibcPorts.Proofs.Timer.Processes
import GlibcPorts.Proofs.Timer.Service
import GlibcPorts.Proofs.Timer.Steps
import GlibcPorts.Proofs.Timer.Table
import GlibcPorts.Proofs.Timer.TableAndList
import GlibcPorts.Proofs.Timer.Updates
import GlibcPorts.Proofs.AtEmulation.BufferRoom
import GlibcPorts.Proofs.AtEmulation.Faccessat
import GlibcPorts.Proofs.AtEmulation.Fexecve
import GlibcPorts.Proofs.AtEmulation.Futimesat
import GlibcPorts.Proofs.AtEmulation.SinglePath
import GlibcPorts.Proofs.AtEmulation.Table
import GlibcPorts.Proofs.AtEmulation.Threads
import GlibcPorts.Proofs.AtEmulation.TwoPaths
import GlibcPorts.Proofs.UtmpCompat.Database
import GlibcPorts.Proofs.UtmpCompat.Decoding
import GlibcPorts.Proofs.UtmpCompat.Encoding
import GlibcPorts.Proofs.UtmpCompat.Injectivity
import GlibcPorts.Proofs.UtmpCompat.Matching
import GlibcPorts.Proofs.UtmpCompat.RoundTrip
import GlibcPorts.Proofs.Mount.BufferCapacity
import GlibcPorts.Proofs.Mount.Conversion
import GlibcPorts.Proofs.Mount.MountTable
import GlibcPorts.Proofs.Interfaces.Entries
import GlibcPorts.Proofs.Interfaces.Filling
import GlibcPorts.Proofs.Interfaces.Ifreq
import GlibcPorts.Proofs.Interfaces.IndexLookups
import GlibcPorts.Proofs.Interfaces.Iterate
import GlibcPorts.Proofs.Interfaces.NameList
import GlibcPorts.Proofs.Interfaces.TwoPasses
import GlibcPorts.Proofs.Vmmap.ReadonlyArea
import GlibcPorts.Proofs.SharedMemory.ShmOpen
import GlibcPorts.Proofs.SystemName.Uname
import GlibcPorts.Proofs.Sockets.ControlMessages
import GlibcPorts.Proofs.Glue.Endian
import GlibcPorts.Proofs.BitSets.CpuSets
import GlibcPorts.Proofs.BitSets.Signals
import GlibcPorts.Proofs.Login.LoginCache
import GlibcPorts.Proofs.Pty.Getpt
import GlibcPorts.Proofs.Pty.Ptsname
import GlibcPorts.Proofs.Process.Affinity
import GlibcPorts.Proofs.Process.Clone
import GlibcPorts.Proofs.Process.Iopl
import GlibcPorts.Proofs.Process.Osreldate
import GlibcPorts.Proofs.Process.WaitStatus
