import BrebOS.Lib.InorderTree
import BrebOS.Lib.HeapOrder
import BrebOS.Core.Defs
import BrebOS.Lib.Loop
import BrebOS.Lib.FirstFree
import BrebOS.Core.Memtree
import BrebOS.Core.Memtree.Layout
import BrebOS.Core.Memtree.Free
import BrebOS.Core.Memtree.Allocate
import BrebOS.Core.Memtree.Run
import BrebOS.Core.Memtree.Realloc
import BrebOS.Core.Memtree.ReallocValid
import BrebOS.Core.Memtree.Search
import BrebOS.Core.Memtree.FreeAll
import BrebOS.Core.Memtree.Coalesce
import BrebOS.Core.Memtree.Labels
import BrebOS.Core.SlabAlloc
import BrebOS.Utils.BST
import BrebOS.Core.RawMemory
import BrebOS.Core.Memory
import BrebOS.Processes.Process
import BrebOS.Processes.ELF
import BrebOS.Processes.ELFLoader
import BrebOS.Processes.ELFLoader.LoadELF
import BrebOS.Processes.ELFLoader.Blocks
import BrebOS.Processes.ELFLoader.Segments
import BrebOS.Processes.ELFLoader.Image
import BrebOS.Lib.Count
import BrebOS.Core.Memory.Effects
import BrebOS.Core.RawMemory.Contiguous
import BrebOS.Core.Memory.Heap
import BrebOS.Core.Memory.Faults
import BrebOS.Core.Memory.NoWrap
import BrebOS.Core.Memory.Sbrk
import BrebOS.Core.Memory.Mmap
import BrebOS.Core.Memory.ZeroOut
import BrebOS.Core.Memory.Aligned
import BrebOS.Core.Memory.Shown
import BrebOS.Core.Memory.Calloc
import BrebOS.Core.Memory.Fidelity
import BrebOS.Core.Memory.Mprotect
import BrebOS.Core.Memory.Alloc
import BrebOS.Processes.System
import BrebOS.Processes.Effects
import BrebOS.Processes.Frames
import BrebOS.Processes.Fork
import BrebOS.Processes.Accounting
import BrebOS.Processes.Reclaim
import BrebOS.Processes.Isolation
import BrebOS.Processes.CopyOnWrite
import BrebOS.Utils.CircularBuffer
import BrebOS.FileManagement.Pipe
import BrebOS.Lib.Linked
import BrebOS.Lib.Run
import BrebOS.Core.SlabAllocator
import BrebOS.Core.SlabAllocator.Lists
import BrebOS.Core.SlabAllocator.Run
import BrebOS.FileManagement.File
import BrebOS.FileManagement.FileTable
import BrebOS.FileManagement.FileTable.Cursor
import BrebOS.Processes.Descriptors
import BrebOS.Processes.Descriptors.Files
import BrebOS.FileManagement.PipeEnds
import BrebOS.Processes.Descriptors.Waits
import BrebOS.Processes.Descriptors.Parts
import BrebOS.Processes.Descriptors.Calls
import BrebOS.Processes.Descriptors.Lifecycle
import BrebOS.Processes.Descriptors.Exec
import BrebOS.Processes.Descriptors.Loading
import BrebOS.Processes.Descriptors.Cursors
import BrebOS.Processes.Descriptors.Inheritance
import BrebOS.Processes.Descriptors.RefCounts
import BrebOS.Processes.Descriptors.PipeWaits
import BrebOS.FileManagement.VFS
import BrebOS.FileManagement.VFS.References
import BrebOS.FileManagement.VFS.Inodes
import BrebOS.FileManagement.VFS.Resolution
import BrebOS.FileManagement.VFS.Paths
import BrebOS.FileManagement.FAT
import BrebOS.FileManagement.FAT.Directories
import BrebOS.FileManagement.FAT.FreeClusters
import BrebOS.FileManagement.FAT.Load
import BrebOS.FileManagement.FAT.Table
import BrebOS.FileManagement.FAT.Resize
import BrebOS.FileManagement.FAT.Write
import BrebOS.FileManagement.FAT.Listing
import BrebOS.FileManagement.FAT.Mkdir
import BrebOS.FileManagement.File.Cursor
import BrebOS.FileManagement.File.Preload
import BrebOS.FileManagement.File.Write
import BrebOS.FileManagement.FAT.Lookup
import BrebOS.FileManagement.FAT.Names
import BrebOS.FileManagement.FAT.Touch
import BrebOS.FileManagement.FAT.Volume
import BrebOS.Utils.MinHeap
import BrebOS.Utils.SharedPointer
import BrebOS.Lib.Recent
import BrebOS.Lib.OnesComplement
import BrebOS.Lib.Ring
import BrebOS.Core.FB
import BrebOS.Core.FB.Caret
import BrebOS.Utils.SharedPointer.Counts
import BrebOS.Processes.Scheduler
import BrebOS.Processes.Scheduler.Effects
import BrebOS.Processes.Scheduler.Orderly
import BrebOS.Processes.Scheduler.Located
import BrebOS.Processes.Scheduler.Pids
import BrebOS.Processes.Scheduler.Waits
import BrebOS.Processes.Scheduler.WakeUps
import BrebOS.Processes.Scheduler.Next
import BrebOS.Processes.Scheduler.Places
import BrebOS.Processes.Scheduler.OnePlace
import BrebOS.Processes.Scheduler.Family
import BrebOS.Processes.Scheduler.NoPanic
import BrebOS.Processes.Scheduler.WaitOrder
import BrebOS.Lib.Nested
import BrebOS.Processes.Signals
import BrebOS.Processes.Signals.Contexts
import BrebOS.Processes.Signals.Blocked
import BrebOS.Processes.Signals.Crash
import BrebOS.Network.Defs
import BrebOS.Network.Socket
import BrebOS.Network.Socket.Handshake
import BrebOS.Network.Socket.Stream
import BrebOS.Lib.Slots
import BrebOS.Network.ARP
import BrebOS.Network.ARP.Pending
import BrebOS.Network.ARP.Cache
import BrebOS.Network.DNS
import BrebOS.Network.DNS.Pending
import BrebOS.Network.DNS.Names
import BrebOS.Network.DNS.Codec
import BrebOS.Network.DNS.Responses
import BrebOS.Network.DNS.Positions
import BrebOS.Network.DHCP
import BrebOS.Network.DHCP.Options
import BrebOS.Network.HTTP
import BrebOS.Network.HTTP.Response
import BrebOS.Network.HTTP.Headers
import BrebOS.Network.HTTP.Body
import BrebOS.Network.HTTP.Chunks
import BrebOS.Lib.Succeeds
import BrebOS.Lib.Calendar
import BrebOS.Network.TP
import BrebOS.Utils.BST.Remove
import BrebOS.Utils.List
import BrebOS.Utils.List.Sequence
import BrebOS.Utils.List.Runs
import BrebOS.Processes.ELF.Bounds
import BrebOS.Network.Frame
import BrebOS.Network.Frame.Checksums
import BrebOS.Network.Frame.Bounds
import BrebOS.Programs.Shell.Fds
import BrebOS.Programs.Shell
import BrebOS.Programs.Shell.Frames
import BrebOS.Programs.Shell.Redirections
import BrebOS.Programs.Shell.Pipelines
import BrebOS.Programs.Shell.Lexer
import BrebOS.Programs.Shell.Parser
import BrebOS.Programs.Shell.Parser.Grammar
import BrebOS.Programs.Shell.Parser.Lookahead
import BrebOS.Programs.Shell.Parser.Complete
import BrebOS.Programs.Shell.Parser.Progress
import BrebOS.Programs.Shell.Parser.Sound
import BrebOS.Programs.Shell.Main
import BrebOS.Programs.Shell.Lexer.Lookahead
import BrebOS.Programs.Shell.Lexer.Operators
import BrebOS.Programs.Shell.Expansion
import BrebOS.Programs.Shell.Expansion.Steps
import BrebOS.Programs.Shell.Expansion.Resolvers
import BrebOS.Programs.Shell.Expansion.Variables
import BrebOS.Lib.Below
import BrebOS.Lib.Buffer
import BrebOS.Lib.Bytes
import BrebOS.Lib.Attempt
import BrebOS.Lib.Pieces
import BrebOS.Lib.Lookahead
import BrebOS.Processes.ELFLoader.Stack
import BrebOS.Processes.ELFLoader.Arguments
import BrebOS.Processes.ELFLoader.InitialStack
import BrebOS.Libc.Kstring
import BrebOS.Lib.Tokens
import BrebOS.Libc.Kstring.Tokens
import BrebOS.Utils.BST.Validity
import BrebOS.Programs.Shell.Assign
import BrebOS.Programs.Shell.Input
import BrebOS.Lib.DirTree
import BrebOS.Programs.Shell.Cd
import BrebOS.Programs.Shell.Cd.Canonical
import BrebOS.Programs.Shell.Quotes
