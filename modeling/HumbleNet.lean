import HumbleNet.Lib.StdMap
import HumbleNet.Lib.Incremental
import HumbleNet.Lib.Buffer
import HumbleNet.Lib.Text
import HumbleNet.Lib.Numerals
import HumbleNet.Bijection
import HumbleNet.Bytes
import HumbleNet.Crc
import HumbleNet.Message
import HumbleNet.Framing
import HumbleNet.Fragmentation
import HumbleNet.Accesses
import HumbleNet.Hello
import HumbleNet.Lib.Program
import HumbleNet.PeerServer.Callback
import HumbleNet.PeerServer.PeerTable
import HumbleNet.PeerServer.Safety
import HumbleNet.PeerServer.Signature
import HumbleNet.PeerServer.ConnectedPeers
import HumbleNet.PeerServer.SendQueue
import HumbleNet.PeerServer.Noninterference
import HumbleNet.Client.SignalStream
import HumbleNet.PeerIds
import HumbleNet.Relay
import HumbleNet.Client.PendingData
import HumbleNet.Client.Registries
import HumbleNet.Client.Turns
import HumbleNet.Client.Identity
import HumbleNet.Client.Sessions
import HumbleNet.Client.LifeCycle
import HumbleNet.Lib.Records
import HumbleNet.Client.Packets
import HumbleNet.Client.Sifting
import HumbleNet.Client.Streams
import HumbleNet.Client.Sending
import HumbleNet.Client.Encoding
import HumbleNet.Client.Backlog
import HumbleNet.Client.Termination
import HumbleNet.Client.Drained
import HumbleNet.Client.Attempts
import HumbleNet.Client.Blacklist
import HumbleNet.Client.Demultiplexing
import HumbleNet.Client.Transmission
import HumbleNet.Client.RoundTrip
import HumbleNet.Client.Release
import HumbleNet.Client.Disconnect
import HumbleNet.Client.FailedSend
import HumbleNet.Client.Refusal
import HumbleNet.Client.SetClosed
import HumbleNet.Client.VirtualPeers
import HumbleNet.HmacContexts
import HumbleNet.ServerAddress
import HumbleNet.PeerServer.GameFile
import HumbleNet.Lib.StdVector
import HumbleNet.PollPass
import HumbleNet.Lib.Scan
import HumbleNet.IceCandidates
import HumbleNet.Client.SocketNames
import HumbleNet.AliasReplies
import HumbleNet.Lib.ShiftRegister
import HumbleNet.Checksum
import HumbleNet.Lib.Mirror
import HumbleNet.PeerServer.ReceiveBuffer
import HumbleNet.PeerServer.Arrivals
import HumbleNet.PeerServer.Draining
import HumbleNet.Lib.Blind
import HumbleNet.Client.ReceiveBuffer
import HumbleNet.Client.Arrivals
import HumbleNet.Uplink
import HumbleNet.Downlink
import HumbleNet.PeerServer.Talk
import HumbleNet.PeerServer.Parcels
import HumbleNet.PeerServer.Wire
import HumbleNet.PeerToPeer
import HumbleNet.Introduction
import HumbleNet.Fips180
import HumbleNet.Sha1Contexts
import HumbleNet.Loader
