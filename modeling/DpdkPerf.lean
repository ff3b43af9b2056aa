import DpdkPerf.Machine.Run
import DpdkPerf.UdpEcho.Wakeup
import DpdkPerf.Machine.SlotMap
import DpdkPerf.UdpEcho.Control
import DpdkPerf.UdpEcho.SessionStore
import DpdkPerf.UdpEcho.ControlReply
import DpdkPerf.UdpEcho.StartUp
import DpdkPerf.VclTestServer.Api
import DpdkPerf.VclTestServer.Connection
import DpdkPerf.VclTestServer.Worker
import DpdkPerf.Machine.PackedStruct
import DpdkPerf.VclTestServer.Layout
import DpdkPerf.VclTestServer.ConnPool
import DpdkPerf.VclTestServer.Effects
import DpdkPerf.VclTestServer.Accounting
import DpdkPerf.VclTestServer.SegmentRelease
import DpdkPerf.VclTestServer.Protocol
import DpdkPerf.VclTestServer.Delivery
import DpdkPerf.VclTestServer.ZeroCopy
import DpdkPerf.VclTestServer.Classification
import DpdkPerf.VclTestServer.Framing
import DpdkPerf.VclTestServer.Leftover
import DpdkPerf.VclTestServer.Interleaving
import DpdkPerf.VclTestServer.SlotHistory
import DpdkPerf.VclTestServer.EventBatch
import DpdkPerf.VclTestServer.PoolMemory
import DpdkPerf.VclTestServer.ServerResults
import DpdkPerf.Machine.SlotTenure
import DpdkPerf.UdpEcho.ClientStart
import DpdkPerf.UdpEcho.FifoEvent
import DpdkPerf.UdpEcho.ServerLoop
import DpdkPerf.Machine.Longjmp
import DpdkPerf.VppTest.Process
import DpdkPerf.VppTest.Scheduler
import DpdkPerf.DpdkBind.Nics
import DpdkPerf.DpdkBind.Ports
import DpdkPerf.DpdkBind.Rebind
import DpdkPerf.DpdkBind.Script
import DpdkPerf.Machine.Cells
import DpdkPerf.UdpEcho.Ip6Address
import DpdkPerf.UdpEcho.Ip6Text
import DpdkPerf.UdpEcho.Ip6Accepted
import DpdkPerf.UdpEcho.Uri
import DpdkPerf.UdpEcho.Echo
import DpdkPerf.UdpEcho.Datagrams
import DpdkPerf.UdpEcho.SendData
import DpdkPerf.UdpEcho.SessionRecord
import DpdkPerf.UdpEcho.Segments
import DpdkPerf.Machine.Windows
import DpdkPerf.RateMeter.Record
import DpdkPerf.RateMeter.PerSecond
import DpdkPerf.VclTestServer.UdpMeter
import DpdkPerf.Machine.Latest
import DpdkPerf.VclTestServer.PoolAlloc
import DpdkPerf.VclTestServer.StopTime
import DpdkPerf.VclTestServer.BufferSizes
import DpdkPerf.VclTestServer.BufferBounds
import DpdkPerf.UdpEcho.RxMeter
import DpdkPerf.VclTestServer.ConfigCount
import DpdkPerf.VclTestServer.EchoText
import DpdkPerf.Machine.Unrolled
import DpdkPerf.NodeTest.Node
import DpdkPerf.VppTest.WaitTime
import DpdkPerf.DpdkBind.Table
import DpdkPerf.Machine.AccessLog
import DpdkPerf.Machine.SignedWords
import DpdkPerf.UdpEcho.Ip6Memory
import DpdkPerf.Machine.Tally
import DpdkPerf.VclTestServer.Workers
import DpdkPerf.VclTestServer.WorkerCounters
import DpdkPerf.VclTestServer.WorkerShutdown
import DpdkPerf.Machine.Getopt
import DpdkPerf.VclTestServer.Options
import DpdkPerf.Machine.Ladder
import DpdkPerf.VclTestServer.WorkerInit
import DpdkPerf.Machine.Relay
import DpdkPerf.UdpEcho.Exchange
import DpdkPerf.Machine.Timers
import DpdkPerf.VppTest.TimingWheel
import DpdkPerf.VppTest.TimingWheelChecks
import DpdkPerf.VppTest.TimingWheelRun
import DpdkPerf.VppTest.TimingWheelSynthetic
import DpdkPerf.Machine.Handles
import DpdkPerf.FpSock.TcpServer
import DpdkPerf.FpSock.UdpServer
import DpdkPerf.Machine.Tending
import DpdkPerf.FpSock.Main
import DpdkPerf.ProcessTest.Node
