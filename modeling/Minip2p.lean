import Minip2p.Lib.BTreeMap
import Minip2p.Lib.MultiMap
import Minip2p.Lib.Panic
import Minip2p.Lib.Hoare
import Minip2p.Lib.Runs
import Minip2p.Lib.Logs
import Minip2p.Lib.Chunking
import Minip2p.Lib.Fifo
import Minip2p.Lib.Radix
import Minip2p.Lib.Fields
import Minip2p.Lib.Frames
import Minip2p.Lib.Matching
import Minip2p.Lib.Records
import Minip2p.Lib.Slices
import Minip2p.Lib.Base64
import Minip2p.Lib.Loops
import Minip2p.Lib.Tickets
import Minip2p.Lib.Der
import Minip2p.Identity.Varint
import Minip2p.Identity.VarintTheorems
import Minip2p.Identity.PeerId
import Minip2p.Identity.PeerIdTheorems
import Minip2p.Identity.PeerIdText
import Minip2p.Identity.Base58
import Minip2p.Identity.Base32
import Minip2p.Identity.PeerIdTextTheorems
import Minip2p.Identity.CanonicalText
import Minip2p.Identity.PublicKey
import Minip2p.Identity.Ed25519
import Minip2p.Core.WireTheorems
import Minip2p.Core.SansIo
import Minip2p.Core.Buffering
import Minip2p.Core.Multiaddr
import Minip2p.Core.MultiaddrTheorems
import Minip2p.Core.MultiaddrText
import Minip2p.Core.MultiaddrTextTheorems
import Minip2p.Core.CanonicalText
import Minip2p.Core.PeerAddr
import Minip2p.Core.Candidates
import Minip2p.Relay.Message
import Minip2p.Relay.Flows
import Minip2p.Dcutr.Message
import Minip2p.Dcutr.Flows
import Minip2p.Core.WireRoundTrip
import Minip2p.Core.Records
import Minip2p.Core.Schema
import Minip2p.Relay.Records
import Minip2p.Dcutr.Records
import Minip2p.Dcutr.RoundTrip
import Minip2p.Dcutr.Session
import Minip2p.Dcutr.Packetisation
import Minip2p.Core.Front
import Minip2p.Core.Reader
import Minip2p.Relay.HopFront
import Minip2p.Relay.StopFront
import Minip2p.Relay.Packetisation
import Minip2p.Relay.Bridge
import Minip2p.Relay.Buffering
import Minip2p.Dcutr.Buffering
import Minip2p.Relay.FrameSafety
import Minip2p.Transport.Types
import Minip2p.Quic.Connection
import Minip2p.Quic.ConnectionTheorems
import Minip2p.Quic.IdentityGate
import Minip2p.Quic.StreamMethods
import Minip2p.Quic.Records
import Minip2p.Quic.WriteOrder
import Minip2p.Quic.WriteFailures
import Minip2p.Quic.StreamEnds
import Minip2p.Quic.OpenStreams
import Minip2p.Quic.StreamGrammar
import Minip2p.Quic.Address
import Minip2p.Quic.Transport
import Minip2p.Quic.TransportTheorems
import Minip2p.Quic.Allocation
import Minip2p.Quic.Indexes
import Minip2p.Quic.Dual
import Minip2p.Quic.Identifiers
import Minip2p.Quic.Routing
import Minip2p.Quic.LostEvents
import Minip2p.Multistream.Select
import Minip2p.Multistream.SelectTheorems
import Minip2p.Multistream.Chunking
import Minip2p.Multistream.Session
import Minip2p.Multistream.Agreement
import Minip2p.Multistream.Negotiable
import Minip2p.Multistream.Voice
import Minip2p.Ping.Protocol
import Minip2p.Ping.Theorems
import Minip2p.Ping.Party
import Minip2p.Ping.Session
import Minip2p.Ping.Moves
import Minip2p.Ping.WellFormed
import Minip2p.Ping.Accounting
import Minip2p.Ping.Resets
import Minip2p.Ping.Echoes
import Minip2p.Identify.Message
import Minip2p.Identify.Protocol
import Minip2p.Identify.Theorems
import Minip2p.Identify.RoundTrip
import Minip2p.Identify.Exchange
import Minip2p.Identify.Release
import Minip2p.Identify.Records
import Minip2p.Autonat.Message
import Minip2p.Autonat.Flows
import Minip2p.Autonat.RoundTrip
import Minip2p.Autonat.Session
import Minip2p.Autonat.Buffering
import Minip2p.Autonat.Recovery
import Minip2p.Autonat.Records
import Minip2p.Autonat.Framing
import Minip2p.Swarm.Events
import Minip2p.Swarm.Core
import Minip2p.Swarm.Session
import Minip2p.Swarm.UserProtocols
import Minip2p.Swarm.ClosedForms
import Minip2p.Swarm.Moves
import Minip2p.Swarm.Tables
import Minip2p.Swarm.Idle
import Minip2p.Swarm.HandlerMoves
import Minip2p.Swarm.StepMoves
import Minip2p.Swarm.Coherence
import Minip2p.Swarm.ConnectionMaps
import Minip2p.Swarm.Actions
import Minip2p.Swarm.ClosedConnections
import Minip2p.Swarm.Superseded
import Minip2p.Swarm.Lifecycle
import Minip2p.Swarm.Handshake
import Minip2p.Swarm.UserStreams
import Minip2p.Swarm.Fidelity
import Minip2p.Swarm.Migration
import Minip2p.Swarm.PingRelease
import Minip2p.Swarm.HalfClosed
import Minip2p.Swarm.Turns
import Minip2p.Swarm.StepTurns
import Minip2p.Swarm.HandshakeTurns
import Minip2p.Swarm.SinglePing
import Minip2p.Swarm.PingQueue
import Minip2p.Swarm.DeferredPing
import Minip2p.Swarm.RequeuedPing
import Minip2p.Swarm.UserGrammar
import Minip2p.Swarm.Readiness
import Minip2p.Swarm.Opens
import Minip2p.Swarm.Traffic
import Minip2p.Swarm.EventQueue
import Minip2p.Swarm.Tokens
import Minip2p.Swarm.Refusals
import Minip2p.Swarm.Driver
import Minip2p.Swarm.Delivery
import Minip2p.Swarm.Flushing
import Minip2p.Swarm.DriverInvariants
import Minip2p.Swarm.Attribution
import Minip2p.Swarm.Outgoing
import Minip2p.Swarm.EndToEnd
import Minip2p.Tls.Pem
import Minip2p.Tls.SignedKey
import Minip2p.Tls.Certificate
import Minip2p.Tls.Verify
import Minip2p.Tls.Generate
import Minip2p.Stack.History
import Minip2p.Stack.Mirror
import Minip2p.Stack.Host
import Minip2p.Stack.Polling
import Minip2p.Stack.Platform
import Minip2p.Stack.Contract
import Minip2p.Stack.Authenticity
import Minip2p.Peer.Script
import Minip2p.Peer.Circuit
import Minip2p.Peer.Dialer
import Minip2p.Peer.Listener
import Minip2p.Peer.Rendezvous
