import RtProxy.Chain.Traversal
import RtProxy.Chain.DialUdp
import RtProxy.Chain.UdpChannel
import RtProxy.Handler.Socks5
import RtProxy.Mux.Credit
import RtProxy.Mux.Integrity
import RtProxy.Server.Transport
import RtProxy.Chain.Wire
import RtProxy.Handler.Containment
import RtProxy.Handler.Pipelined
import RtProxy.Handler.Probing
import RtProxy.Handler.Socks5Entry
import RtProxy.Ssh.Auth
import RtProxy.Lib.ByteStream
import RtProxy.Lib.Framing
import RtProxy.Kcp.Config
import RtProxy.Kcp.Crc
import RtProxy.Kcp.Crypt
import RtProxy.Kcp.Datagram
import RtProxy.Kcp.Snappy
import RtProxy.Kcp.SnappyBuffer
import RtProxy.Kcp.SnappyCuts
import RtProxy.Kcp.SnappyFrames
import RtProxy.Relay.Conn
import RtProxy.Relay.Datagrams
import RtProxy.Socks5.TunnelConn
import RtProxy.Socks5.TunnelFrames
import RtProxy.Ss.Integrity
import RtProxy.Kcp.FecAgree
import RtProxy.Kcp.FecGrid
import RtProxy.Chain.Connect
import RtProxy.Handler.Reading
import RtProxy.Lib.Cut
import RtProxy.Lib.NetText
import RtProxy.Relay.Request
import RtProxy.Relay.Handler
import RtProxy.Socks4.Requests
import RtProxy.Socks5.Addresses
import RtProxy.Ss.Address
import RtProxy.Ss.AddressAgree
import RtProxy.Chain.HttpConnect
import RtProxy.Lib.Lanes
import RtProxy.Mux.Flush
import RtProxy.Lib.Base64
import RtProxy.Sni.ClientHello
import RtProxy.Sni.Records
import RtProxy.Sni.RoundTrip
import RtProxy.Mux.Accepting
import RtProxy.Mux.Decoding
import RtProxy.Mux.Memory
import RtProxy.Mux.StreamIds
import RtProxy.Mux.Table
import RtProxy.Mux.Teardown
import RtProxy.Dialer.Completion
import RtProxy.Dialer.Sessions
import RtProxy.Kcp.Demux
import RtProxy.Kcp.FecMap
import RtProxy.Kcp.FecOrder
import RtProxy.Sni.Conn
import RtProxy.Sni.Cuts
import RtProxy.Http2.Request
import RtProxy.Http2.Response
import RtProxy.Udp.Access
import RtProxy.Udp.Reclaim
import RtProxy.Resolver.Cache
import RtProxy.Resolver.Codec
import RtProxy.Resolver.Questions
import RtProxy.Resolver.Reloading
import RtProxy.Resolver.Rewrite
import RtProxy.Reload.Bypass
import RtProxy.Reload.Periodic
import RtProxy.Lib.Trim
import RtProxy.Permissions.Rules
import RtProxy.Ss.Backlog
import RtProxy.Ss.Nonces
import RtProxy.Relay.Rejection
import RtProxy.Obfs.Draining
import RtProxy.Selector.Filters
import RtProxy.Selector.Group
import RtProxy.Selector.Balance
import RtProxy.Permissions.HostPort
import RtProxy.Resolver.NameWalk
import RtProxy.Lib.GoDuration
import RtProxy.Durations
import RtProxy.Resolver.UdpServer
import RtProxy.Resolver.Settings
import RtProxy.Resolver.Options
import RtProxy.Lib.Awaiting
import RtProxy.ProxyConn
import RtProxy.Lib.HeadEnd
import RtProxy.Chain.ResponseHead
import RtProxy.Lib.LineReader
import RtProxy.Lib.Decoded
import RtProxy.Chain.ConnectClients
import RtProxy.Chain.ConnectAgreement
import RtProxy.Http2.Builder
import RtProxy.Lib.HeadText
import RtProxy.Handler.GostTarget
import RtProxy.Http2.Serve
import RtProxy.Http2.GostTarget
import RtProxy.Lib.Percent
import RtProxy.Credentials
import RtProxy.Lib.ShiftRegister
import RtProxy.Sni.Checksum
import RtProxy.Mux.Codec
import RtProxy.Permissions.Joined
import RtProxy.Obfs.ClientHello
import RtProxy.Lib.Calendar
import RtProxy.Handler.HttpDate
import RtProxy.Server.Options
import RtProxy.Chain.SocketOptions
import RtProxy.Chain.Reaching
import RtProxy.Chain.Unmarked
import RtProxy.Server.SocketOptions
import RtProxy.Server.Start
import RtProxy.Handler.Retries
import RtProxy.Lib.FrameReader
import RtProxy.Obfs.Records
import RtProxy.Obfs.Handshake
import RtProxy.Handler.Fronts
import RtProxy.Sni.Hop
import RtProxy.Ssh.Ports
import RtProxy.Resolver.Ways
import RtProxy.Server.Serving
import RtProxy.Ws
import RtProxy.H2
