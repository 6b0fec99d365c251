import WLink.Lib.Run
import WLink.Lib.CString
import WLink.Lib.LinkedList
import WLink.Httpd.Body
import WLink.Httpd.Admission
import WLink.Httpd.UtilsTheorems
import WLink.Httpd.ParseHeaders
import WLink.Httpd.RequestLine
import WLink.Httpd.HeaderLookup
import WLink.Httpd.ContentLength
import WLink.Httpd.HeadCopies
import WLink.Httpd.HeadLoop
import WLink.NeonRtFs.Def
import WLink.NeonRtFs.Image
import WLink.NeonRtFs.Read
import WLink.Misc.Base64
import WLink.Misc.Sha1
import WLink.Httpd.WebsocketTheorems
import WLink.Httpd.FrameHeader
import WLink.Httpd.SendMessage
import WLink.Httpd.Control
import WLink.Httpd.ResponseTheorems
import WLink.Httpd.DispatchTheorems
import WLink.Httpd.Registry
import WLink.Httpd.Routing
import WLink.Httpd.Task
import WLink.Httpd.RequestFrames
import WLink.Httpd.TaskTheorems
import WLink.Httpd.TaskMemoryTheorems
import WLink.Httpd.TaskRuns
import WLink.Httpd.FailedParse
import WLink.Httpd.TimerDaemon
import WLink.Driver.Usable
import WLink.Led.App
import WLink.Led.Agreement
import WLink.Net.Dhcp
import WLink.Net.DhcpTheorems
import WLink.Net.Ip4Addr
import WLink.Net.Network
import WLink.Led.Routes
import WLink.Led.Interfaces
import WLink.App.NoLeaks
import WLink.Driver.ExtiBooks
import WLink.Driver.ExtiDispatch
import WLink.Driver.ExtiTrigger
import WLink.Driver.InitFailures
import WLink.Driver.PwmOutputs
import WLink.Driver.TimerClock
import WLink.Driver.PinHolders
import WLink.Driver.PinMoves
import WLink.Driver.PinOwnership
import WLink.App.TopicMap
import WLink.Driver.Adc
import WLink.Driver.Dma
import WLink.Httpd.HeaderExact
import WLink.Httpd.KeepAlive
import WLink.Httpd.LineBounds
import WLink.Lib.Iterate
import WLink.Lib.Memory
import WLink.NeonRtFs.Walk
import WLink.Rtos.Memory
import WLink.Driver.AdcRead
import WLink.Driver.ByteTransfers
import WLink.Driver.CanWrite
import WLink.Driver.I2cTransfer
import WLink.NeonRtFs.Build
import WLink.Httpd.ClientLoop
import WLink.Httpd.StartUp
import WLink.Httpd.AcceptKey
import WLink.App.MessageIndex
import WLink.App.PostResults
import WLink.Driver.PwmArith
import WLink.Driver.PwmRuns
import WLink.Driver.PwmInvert
import WLink.Driver.GpioDelivery
import WLink.Driver.TimerVectors
import WLink.Driver.TimerExpiry
import WLink.Driver.AltFunctions
import WLink.Driver.UartTm4c
import WLink.Driver.UartPrintf
import WLink.Httpd.Mimetype
import WLink.NeonRtFs.Pieces
import WLink.Misc.HexText
import WLink.Rtos.Counting
import WLink.Lib.Calendar
import WLink.Driver.I2cReset
import WLink.Driver.Rtc
import WLink.Driver.RtcAlarms
import WLink.Lib.Output
import WLink.Misc.CJsonPrint
import WLink.Misc.CJsonText
import WLink.Misc.CJsonRead
import WLink.Misc.CJsonNumber
import WLink.Misc.CJsonEscapes
import WLink.Misc.CJsonRoundTrip
import WLink.Lib.Tiling
import WLink.Lib.Links
import WLink.Rtos.Heap4
import WLink.Rtos.Heap4Theorems
import WLink.Rtos.Heap4Calls
import WLink.Rtos.Heap4Runs
import WLink.Rtos.Heap4Results
import WLink.Rtos.Heap4Client
import WLink.Lib.Spaced
import WLink.Misc.CJsonGrammar
import WLink.Misc.CJsonAccepts
import WLink.Lib.Agrees
import WLink.Misc.CJsonRender
import WLink.Misc.CJsonRenderTheorems
import WLink.Misc.CJsonRenderRead
import WLink.Misc.CJsonMinify
import WLink.Lib.Ring
import WLink.Rtos.Queue
import WLink.Lib.Deque
import WLink.Rtos.QueueTasks
import WLink.Lib.Waiters
import WLink.Rtos.QueueMoves
import WLink.Rtos.QueueTurns
import WLink.Rtos.QueueWakeups
import WLink.Rtos.QueueOrder
import WLink.Rtos.QueueRuns
import WLink.Rtos.QueueCalls
import WLink.Lib.SortedBy
import WLink.Rtos.Ticks
import WLink.Rtos.TickTheorems
import WLink.Rtos.TickLists
import WLink.Rtos.TickRuns
