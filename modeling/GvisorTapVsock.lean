import GvisorTapVsock.ApiClient.Client
import GvisorTapVsock.ApiClient.ClientTheorems
import GvisorTapVsock.Cmd.CommandLineTheorems
import GvisorTapVsock.Cmd.Gvproxy
import GvisorTapVsock.Cmd.Main
import GvisorTapVsock.Cmd.MainTheorems
import GvisorTapVsock.Cmd.MtuTheorems
import GvisorTapVsock.Cmd.SearchDomains
import GvisorTapVsock.Go.Binary
import GvisorTapVsock.Go.Bytes
import GvisorTapVsock.Go.Cidr
import GvisorTapVsock.Go.Flag
import GvisorTapVsock.Go.HostPort
import GvisorTapVsock.Go.HostPortTheorems
import GvisorTapVsock.Go.Json
import GvisorTapVsock.Go.LengthPrefix
import GvisorTapVsock.Go.Map
import GvisorTapVsock.Go.Net
import GvisorTapVsock.Go.NetTheorems
import GvisorTapVsock.Go.Path
import GvisorTapVsock.Go.Reader
import GvisorTapVsock.Go.ServeMux
import GvisorTapVsock.Go.Slice
import GvisorTapVsock.Go.Sort
import GvisorTapVsock.Go.Strconv
import GvisorTapVsock.Go.Strings
import GvisorTapVsock.Go.Sync
import GvisorTapVsock.Lts.Accounts
import GvisorTapVsock.Lts.Bridge
import GvisorTapVsock.Lts.Copy
import GvisorTapVsock.Lts.Group
import GvisorTapVsock.Lts.LockOrder
import GvisorTapVsock.Lts.Mailbox
import GvisorTapVsock.Lts.Measure
import GvisorTapVsock.Lts.Relay
import GvisorTapVsock.Lts.Resources
import GvisorTapVsock.Lts.Run
import GvisorTapVsock.Lts.Shared
import GvisorTapVsock.Services.Dhcp
import GvisorTapVsock.Services.DhcpTheorems
import GvisorTapVsock.Services.Dns
import GvisorTapVsock.Services.DnsHandle
import GvisorTapVsock.Services.DnsLawTheorems
import GvisorTapVsock.Services.DnsServer
import GvisorTapVsock.Services.DnsTheorems
import GvisorTapVsock.Services.DnsTruncate
import GvisorTapVsock.Services.Forwarder.Ports
import GvisorTapVsock.Services.Forwarder.PortsRefinement
import GvisorTapVsock.Services.Forwarder.PortsTheorems
import GvisorTapVsock.Services.Forwarder.RemoteTheorems
import GvisorTapVsock.Services.Forwarder.SshTunnel
import GvisorTapVsock.Services.Forwarder.SshTunnelTheorems
import GvisorTapVsock.Services.Forwarder.Tcp
import GvisorTapVsock.Services.Forwarder.TcpProxy
import GvisorTapVsock.Services.Forwarder.Udp
import GvisorTapVsock.Services.Forwarder.UdpCloseTheorems
import GvisorTapVsock.Services.Forwarder.UdpFlowTheorems
import GvisorTapVsock.Services.Forwarder.UdpKeyTheorems
import GvisorTapVsock.Services.Forwarder.UdpProxy
import GvisorTapVsock.Services.Forwarder.UdpProxyTheorems
import GvisorTapVsock.Services.Forwarder.UdpTheorems
import GvisorTapVsock.Services.StaticLeaseTheorems
import GvisorTapVsock.Sshclient.Bastion
import GvisorTapVsock.Sshclient.CancelTheorems
import GvisorTapVsock.Sshclient.Forward
import GvisorTapVsock.Sshclient.HostKeyTheorems
import GvisorTapVsock.Sshclient.Tunnel
import GvisorTapVsock.Sshclient.TunnelTheorems
import GvisorTapVsock.Tap.AssignTheorems
import GvisorTapVsock.Tap.BridgeRefinement
import GvisorTapVsock.Tap.CamTheorems
import GvisorTapVsock.Tap.ConnIdTheorems
import GvisorTapVsock.Tap.CounterTheorems
import GvisorTapVsock.Tap.DeliveryTheorems
import GvisorTapVsock.Tap.Ethernet
import GvisorTapVsock.Tap.FailureTheorems
import GvisorTapVsock.Tap.FrameTrace
import GvisorTapVsock.Tap.FramingTheorems
import GvisorTapVsock.Tap.IPPool
import GvisorTapVsock.Tap.IPPoolTheorems
import GvisorTapVsock.Tap.LinkEndpoint
import GvisorTapVsock.Tap.Progress
import GvisorTapVsock.Tap.Protocols
import GvisorTapVsock.Tap.RxPath
import GvisorTapVsock.Tap.RxPathTheorems
import GvisorTapVsock.Tap.SizeFieldTheorems
import GvisorTapVsock.Tap.Switch
import GvisorTapVsock.Tap.SwitchLockTheorems
import GvisorTapVsock.Tap.SwitchLocks
import GvisorTapVsock.Tap.SwitchMoves
import GvisorTapVsock.Tap.TxPkt
import GvisorTapVsock.Tap.WriteTheorems
import GvisorTapVsock.Transport.Tunnel
import GvisorTapVsock.Transport.TunnelTheorems
import GvisorTapVsock.Types.GvproxyCommand
import GvisorTapVsock.Types.Wire
import GvisorTapVsock.VirtualNetwork.AddressTheorems
import GvisorTapVsock.VirtualNetwork.Addresses
import GvisorTapVsock.VirtualNetwork.Connect
import GvisorTapVsock.VirtualNetwork.ConnectTheorems
import GvisorTapVsock.VirtualNetwork.EndToEnd
import GvisorTapVsock.VirtualNetwork.Forwards
import GvisorTapVsock.VirtualNetwork.Mux
import GvisorTapVsock.VirtualNetwork.MuxTheorems
import GvisorTapVsock.VirtualNetwork.New
import GvisorTapVsock.VirtualNetwork.VpnKit
import GvisorTapVsock.VirtualNetwork.VpnKitTheorems
import GvisorTapVsock.Vm.Forwarder
import GvisorTapVsock.Vm.Process
import GvisorTapVsock.Vm.Tx
import GvisorTapVsock.Vm.TxTheorems
