import MiniHil.Foundation.Runs
import MiniHil.Foundation.Ledger
import MiniHil.Foundation.Json
import MiniHil.Foundation.JsonText
import MiniHil.Foundation.IndentedJson
import MiniHil.Foundation.Throwing
import MiniHil.Foundation.LineFraming
import MiniHil.Foundation.PartialWrites
import MiniHil.Foundation.Registry
import MiniHil.Foundation.Overwrite
import MiniHil.Foundation.CriticalSections
import MiniHil.Foundation.OwnedHeap
import MiniHil.Core.RelayController
import MiniHil.Core.ChannelMachine
import MiniHil.Core.ChannelRefinement
import MiniHil.Hardware.RelayHardware
import MiniHil.Hardware.OutputLines
import MiniHil.Core.RelayInvariant
import MiniHil.Core.LastCommand
import MiniHil.Core.Shutdown
import MiniHil.Core.ConcurrentController
import MiniHil.Core.TickRuns
import MiniHil.Core.TimedPrograms
import MiniHil.Core.BlinkProgram
import MiniHil.Core.BlinkTiming
import MiniHil.Core.Punctuality
import MiniHil.Core.StatusReports
import MiniHil.Network.Sessions
import MiniHil.Network.SessionTable
import MiniHil.Network.Stopping
import MiniHil.Network.ServerResources
import MiniHil.Network.StopEnds
import MiniHil.Network.RequestStream
import MiniHil.Protocol.NlohmannJson
import MiniHil.Protocol.MethodHandlers
import MiniHil.Protocol.JsonRpcRouter
import MiniHil.Protocol.CommandParams
import MiniHil.Protocol.RequestFailures
import MiniHil.Protocol.Replies
import MiniHil.Protocol.Batches
import MiniHil.Protocol.RequestSteps
import MiniHil.Desk.AppController
import MiniHil.Desk.AppHome
import MiniHil.Desk.HomeView
import MiniHil.Desk.Connection
import MiniHil.Desk.ReadThread
import MiniHil.Desk.ConnectionState
import MiniHil.Desk.DisconnectEnds
import MiniHil.Desk.ResponseStream
import MiniHil.Desk.Application
import MiniHil.Desk.ConfigManager
import MiniHil.Desk.ConfigLoad
import MiniHil.Desk.ConfigSave
import MiniHil.Desk.ConfigCommit
import MiniHil.Desk.SecureClient
import MiniHil.Desk.SendLoop
import MiniHil.Desk.MtlsConnect
import MiniHil.Desk.SettingsForm
import MiniHil.Desk.ClientMemory
import MiniHil.Desk.MemorySafety
import MiniHil.Startup.Arguments
import MiniHil.Startup.Daemon
import MiniHil.Startup.MainWait
import MiniHil.Startup.Certificates
import MiniHil.Startup.IssuedCertificates
import MiniHil.Startup.Credentials
import MiniHil.Startup.Restarts
import MiniHil.Startup.MutualTls
import MiniHil.System.Delivery
import MiniHil.System.Clients
import MiniHil.System.DeskRequests
import MiniHil.System.AutoOff
import MiniHil.System.DeskView
import MiniHil.System.AtRest
import MiniHil.System.ReplyStream
