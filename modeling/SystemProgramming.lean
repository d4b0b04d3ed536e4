import SystemProgramming.Library.Transition
import SystemProgramming.Library.Buffer
import SystemProgramming.Library.Channel
import SystemProgramming.Kernel
import SystemProgramming.BinarySems
import SystemProgramming.SharedMemory.Model
import SystemProgramming.SharedMemory.Moves
import SystemProgramming.SharedMemory.Handover
import SystemProgramming.SharedMemory.Transfer
import SystemProgramming.SharedMemory.Shutdown
import SystemProgramming.SharedMemory.Accounting
import SystemProgramming.FileServer.Model
import SystemProgramming.FileServer.Moves
import SystemProgramming.FileServer.Dispatch
import SystemProgramming.FileServer.Receiver
import SystemProgramming.FileServer.Streams
import SystemProgramming.FileServer.Payload
import SystemProgramming.FileServer.Completion
import SystemProgramming.FifoSeqnum.Model
import SystemProgramming.FifoSeqnum.Moves
import SystemProgramming.FifoSeqnum.Framing
import SystemProgramming.FifoSeqnum.Routing
import SystemProgramming.FifoSeqnum.Protocol
import SystemProgramming.FifoSeqnum.Uniqueness
import SystemProgramming.EpollOneShot.Model
import SystemProgramming.Library.Holders
import SystemProgramming.EpollOneShot.Moves
import SystemProgramming.EpollOneShot.Dispatch
import SystemProgramming.EpollOneShot.Service
import SystemProgramming.Library.EdgeTriggered
import SystemProgramming.EpollEcho.Model
import SystemProgramming.EpollEcho.Draining
import SystemProgramming.EpollEcho.Idle
import SystemProgramming.EpollEcho.Fidelity
import SystemProgramming.BecomeDaemon.Model
import SystemProgramming.BecomeDaemon.StandardStreams
import SystemProgramming.Library.PeerAddress
import SystemProgramming.Library.StopAndWait
import SystemProgramming.UcaseService.Model
import SystemProgramming.UcaseService.Responses
import SystemProgramming.IdEcho.Echo
import SystemProgramming.UsXfr.Concatenation
import SystemProgramming.FileServer.Requests
import SystemProgramming.FileServer.Reaping
import SystemProgramming.ThreadMultijoin.Model
import SystemProgramming.ThreadMultijoin.Moves
import SystemProgramming.ThreadMultijoin.Control
import SystemProgramming.ThreadMultijoin.Orderly
import SystemProgramming.ThreadMultijoin.JoinDiscipline
import SystemProgramming.Library.Weights
import SystemProgramming.MultiWait.Model
import SystemProgramming.MultiWait.ProcessTree
import SystemProgramming.PshmStore
import SystemProgramming.MyDup2
import SystemProgramming.CpHole.Existing
import SystemProgramming.Library.CMemory
import SystemProgramming.ScatterGather.Gathering
import SystemProgramming.InetSockets.Accounting
import SystemProgramming.InetSockets.Success
import SystemProgramming.FifoSeqnum.Resources
import SystemProgramming.SharedMemory.PeerFailure
import SystemProgramming.FileServer.Disclosure
import SystemProgramming.CpHole.Fresh
import SystemProgramming.CpHole.Holes
import SystemProgramming.CpHole.Reporting
import SystemProgramming.Tee.Model
import SystemProgramming.Tee.Reporting
import SystemProgramming.CopyLoops
import SystemProgramming.Library.OrderedDict
import SystemProgramming.Library.TextSearch
import SystemProgramming.BankLog.Model
import SystemProgramming.BankLog.Aggregation
import SystemProgramming.BankLog.Report
import SystemProgramming.BankLog.Classification
import SystemProgramming.Inotify.Model
import SystemProgramming.Inotify.Decoding
import SystemProgramming.Inotify.Monitor
import SystemProgramming.EpollLtEt.Model
import SystemProgramming.Library.Termination
import SystemProgramming.EpollLtEt.Handlers
import SystemProgramming.EpollLtEt.Agreement
import SystemProgramming.EpollOneShot.Termination
import SystemProgramming.EpollOneShot.Content
import SystemProgramming.EpollEcho.Assertions
import SystemProgramming.UsXfr.ReadErrors
import SystemProgramming.ChatroomClient.Model
import SystemProgramming.ChatroomClient.Shutdown
import SystemProgramming.Library.Mutex
import SystemProgramming.ThreadIncr.Counter
import SystemProgramming.ThreadIncr.Model
import SystemProgramming.ThreadCleanup.Model
import SystemProgramming.ThreadCleanup.Moves
import SystemProgramming.ThreadCleanup.Handoff
import SystemProgramming.ThreadCleanup.Cancellation
import SystemProgramming.ThreadMultijoin.Numbering
import SystemProgramming.Tee.Content
import SystemProgramming.Copy.Model
import SystemProgramming.Copy.Content
import SystemProgramming.FifoSeqnum.Gaps
import SystemProgramming.FifoSeqnum.Reply
import SystemProgramming.FileServer.QueueLifetime
import SystemProgramming.Library.CNumber
import SystemProgramming.ListFiles
import SystemProgramming.Nanosleep
import SystemProgramming.Library.Getopt
import SystemProgramming.CommandLine
import SystemProgramming.PosixQueueTools
import SystemProgramming.PipeLsWc.Model
import SystemProgramming.PipeLsWc.Plumbing
import SystemProgramming.PipeLsWc.Completion
import SystemProgramming.ShellCommand
import SystemProgramming.SvmsgCreate
import SystemProgramming.Library.MessageQueue
import SystemProgramming.SvmsgTools.Model
import SystemProgramming.SvmsgTools.Printing
import SystemProgramming.FifoSeqnum.Names
import SystemProgramming.FileServer.Wire
import SystemProgramming.TSelect
import SystemProgramming.EpollInput.Counting
import SystemProgramming.EpollInput.Data
import SystemProgramming.EpollInput.Closing
import SystemProgramming.EpollInput.Loop
import SystemProgramming.SharedMemory.Completion
import SystemProgramming.FileServer.Progress
import SystemProgramming.SvmsgTools.Delivery
import SystemProgramming.AtomicAppend
import SystemProgramming.BinarySems.Locking
import SystemProgramming.Library.PriorityQueue
import SystemProgramming.PosixQueues.Delivery
import SystemProgramming.SimplePipe.Model
import SystemProgramming.SimplePipe.Moves
import SystemProgramming.SimplePipe.Relay
import SystemProgramming.ThreadIncr.Completion
import SystemProgramming.UcaseService.Losses
import SystemProgramming.UsXfr.Completion
import SystemProgramming.FifoSeqnum.Completion
import SystemProgramming.PollPipes
import SystemProgramming.PshmStore.Sharing
import SystemProgramming.ThreadMultijoin.Deadlock
import SystemProgramming.UsXfr.Isolation
import SystemProgramming.ChatroomClient.Relay
import SystemProgramming.MultiWait.Generations
