import VlanConnect.Client.WireRuns
import VlanConnect.Client.KeyDerivation
import VlanConnect.Client.Parsers
import VlanConnect.Client.FecRecovery
import VlanConnect.Client.RawUdpDelivery
import VlanConnect.Client.ReceiveBounds
import VlanConnect.ServerGrammar
import VlanConnect.TunnelManager
import VlanConnect.Server.Identities
import VlanConnect.Server.Sessions
import VlanConnect.Server.RateLimit
import VlanConnect.Server.SendAccounting
import VlanConnect.RoomListPaging
import VlanConnect.RoomOperation
import VlanConnect.ProbeAccounting
import VlanConnect.Client.DatagramBudget
import VlanConnect.Client.OverlayRouting
import VlanConnect.Client.DataChannel
import VlanConnect.Windows.NetworkConfig
import VlanConnect.Windows.Readiness
import VlanConnect.Client.CliTunLifecycle
import VlanConnect.Client.EvictionOrder
import VlanConnect.Client.ReconnectTimers
