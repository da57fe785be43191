import TestExamples.Lib.Machine
import TestExamples.Lib.Bytes
import TestExamples.Lib.Framing
import TestExamples.LibUvHelper
import TestExamples.Lib.CString
import TestExamples.LibUvHelperFrames
import TestExamples.LibUvHelperTermination
import TestExamples.LibUvHelperSpans
import TestExamples.LibUvHelperStreams
import TestExamples.MessageHead
import TestExamples.MessageHeadRange
import TestExamples.MyClient
import TestExamples.MyClientCorrelation
import TestExamples.MyClientSteps
import TestExamples.MyClientRegistry
import TestExamples.MyClientEvents
import TestExamples.EndToEnd
import TestExamples.RJTcpClientSession
import TestExamples.Lib.StoppedQueue
import TestExamples.MyServer
import TestExamples.MyServerAnswers
import TestExamples.MyServerDelivery
import TestExamples.RJTcpServerClose
import TestExamples.RJTcpServerOutbox
import TestExamples.RJTcpServerQueue
import TestExamples.Lib.Sessions
import TestExamples.RJTcpServerLifecycle
import TestExamples.EmptyReads
import TestExamples.MyClientDisconnection
import TestExamples.Lib.Threads
import TestExamples.ThreadPool
import TestExamples.Lib.Simulation
import TestExamples.ThreadPoolShutdown
import TestExamples.ThreadPoolTasks
import TestExamples.ThreadPoolWakeup
import TestExamples.RJSemaphoreWin32
import TestExamples.RJSemaphorePosix
import TestExamples.ConcurrentSort
import TestExamples.ConcurrentSortCount
import TestExamples.Lib.Interleave
import TestExamples.Lib.BubbleSort
import TestExamples.Lib.Shearsort
import TestExamples.ConcurrentSortShear
import TestExamples.ConcurrentSortRounds
import TestExamples.ConcurrentSortPhases
import TestExamples.ConcurrentSortDeadlock
import TestExamples.ConcurrentSortRun
import TestExamples.WebsocketReceive
import TestExamples.WebsocketServer
import TestExamples.WebsocketServerFifo
import TestExamples.WebsocketServerWakeup
import TestExamples.WebsocketClient
import TestExamples.WebsocketClientSteps
import TestExamples.WebsocketClientReconnect
import TestExamples.WebsocketClientTable
import TestExamples.WebsocketppMyserver
import TestExamples.LibUvHelperCopies
import TestExamples.TcpConnection
import TestExamples.UvppServer
import TestExamples.HttpClient
import TestExamples.MyClientShortest
import TestExamples.MyServerHandover
import TestExamples.RJTcpClientReceiving
import TestExamples.RJTcpClientReentry
import TestExamples.WebsocketCacheLimit
import TestExamples.WebsocketClientClose
import TestExamples.RJLock
import TestExamples.Lib.Loop
import TestExamples.Lib.Fields
import TestExamples.RJSysUtilSplit
import TestExamples.RJSysUtilFormatPath
import TestExamples.RJSysUtilStrip
import TestExamples.RJSysUtilToString
import TestExamples.Lib.FileTree
import TestExamples.RJSysUtilDirs
import TestExamples.Lib.Guarded
import TestExamples.Lib.Since
import TestExamples.WebsocketppLogins
import TestExamples.WebsocketppReplies
import TestExamples.TcpConnectionWrites
import TestExamples.BasicTestFind
import TestExamples.Lib.Drawing
import TestExamples.GraphTest
import TestExamples.GraphTestSelection
import TestExamples.GraphTestLines
import TestExamples.Lib.LinkedList
import TestExamples.Lib.Cursor
import TestExamples.USockets
import TestExamples.USocketsLists
import TestExamples.USocketsCalls
import TestExamples.USocketsSteps
import TestExamples.USocketsOrder
import TestExamples.USocketsKernel
import TestExamples.USocketsWritable
import TestExamples.USocketsSweep
import TestExamples.EchoRoundTrip
import TestExamples.TcpNet
import TestExamples.TcpNetWakeup
import TestExamples.WebsocketClientSends
import TestExamples.WebsocketClientFifo
import TestExamples.WebsocketClientWakeup
