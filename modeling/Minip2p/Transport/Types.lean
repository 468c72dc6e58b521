import Minip2p.Core.Multiaddr
import Minip2p.Lib.BTreeMap

/-!
# Transport types

The vocabulary of `crates/transport/src`: connection and stream ids, connection endpoints and
states, and the events and errors every transport adapter reports. `StreamKey` is the pair
`(ConnectionId, StreamId)` under which the swarm files its streams.
-/

namespace Minip2p

/-- Opaque identifier for a transport connection. -/
structure ConnectionId where
  asU64 : UInt64
deriving DecidableEq, Repr

/-- Opaque identifier for a stream within a connection. -/
structure StreamId where
  asU64 : UInt64
deriving DecidableEq, Repr

/-- A stream of a connection. -/
structure StreamKey where
  conn : ConnectionId
  stream : StreamId
deriving DecidableEq, Repr

/-- The `Display` text. -/
def ConnectionId.display (id : ConnectionId) : String := toString id.asU64

/-- The `Display` text. -/
def StreamId.display (id : StreamId) : String := toString id.asU64

/-! ## Orders -/

instance : Ord ConnectionId := ⟨compareOn ConnectionId.asU64⟩

instance : Std.TransOrd ConnectionId :=
  inferInstanceAs (Std.TransCmp (compareOn ConnectionId.asU64))

instance : Std.LawfulEqOrd ConnectionId where
  eq_of_compare {a b} h := by
    cases a
    cases b
    exact congrArg ConnectionId.mk (Std.LawfulEqOrd.eq_of_compare h)
  compare_self {a} := by
    show compare a.asU64 a.asU64 = .eq
    exact Std.ReflCmp.compare_self

instance : Ord StreamId := ⟨compareOn StreamId.asU64⟩

instance : Std.TransOrd StreamId :=
  inferInstanceAs (Std.TransCmp (compareOn StreamId.asU64))

instance : Std.LawfulEqOrd StreamId where
  eq_of_compare {a b} h := by
    cases a
    cases b
    exact congrArg StreamId.mk (Std.LawfulEqOrd.eq_of_compare h)
  compare_self {a} := by
    show compare a.asU64 a.asU64 = .eq
    exact Std.ReflCmp.compare_self

namespace StreamKey

/-- Keys are ordered by connection, then by stream. -/
def cmp : StreamKey → StreamKey → Ordering := compareLex (compareOn (·.conn)) (compareOn (·.stream))

instance : Ord StreamKey := ⟨cmp⟩

instance : Std.TransOrd StreamKey :=
  inferInstanceAs
    (Std.TransCmp (compareLex (compareOn StreamKey.conn) (compareOn StreamKey.stream)))

instance : Std.LawfulEqOrd StreamKey where
  eq_of_compare {a b} h := by
    have hparts : cmp a b = .eq := h
    simp only [cmp, compareLex_eq_eq, compareOn] at hparts
    obtain ⟨hconn, hstream⟩ := hparts
    cases a
    cases b
    rw [StreamKey.mk.injEq]
    exact ⟨Std.LawfulEqOrd.eq_of_compare hconn, Std.LawfulEqOrd.eq_of_compare hstream⟩
  compare_self {a} := by
    have hrefl : Std.ReflCmp (compare : StreamKey → StreamKey → Ordering) := inferInstance
    exact hrefl.compare_self

end StreamKey

/-! ## Endpoints and states -/

/-- One side of a connection: a transport address with an optional peer identity. -/
structure ConnectionEndpoint where
  transport : Multiaddr
  peerId : Option PeerId
deriving DecidableEq, Repr

/-- Lifecycle state of a transport connection. -/
inductive ConnectionState
  | connecting
  | connected
  | closing
  | closed
deriving DecidableEq, Repr

/-- The `Display` text. -/
def ConnectionState.display : ConnectionState → String
  | connecting => "connecting"
  | connected => "connected"
  | closing => "closing"
  | closed => "closed"

/-! ## Events -/

/-- Events emitted by a transport back to the host. -/
inductive TransportEvent
  | connected (id : ConnectionId) (endpoint : ConnectionEndpoint)
  | streamOpened (id : ConnectionId) (streamId : StreamId)
  | incomingStream (id : ConnectionId) (streamId : StreamId)
  | streamData (id : ConnectionId) (streamId : StreamId) (data : Bytes)
  | streamRemoteWriteClosed (id : ConnectionId) (streamId : StreamId)
  | streamClosed (id : ConnectionId) (streamId : StreamId)
  | closed (id : ConnectionId)
  | error (id : ConnectionId) (message : String)
  | incomingConnection (id : ConnectionId) (endpoint : ConnectionEndpoint)
  | peerIdentityVerified (id : ConnectionId) (endpoint : ConnectionEndpoint)
      (previousPeerId : Option PeerId)
  | listening (addr : Multiaddr)
deriving DecidableEq, Repr

/-- The connection an event is about. -/
def TransportEvent.conn? : TransportEvent → Option ConnectionId
  | connected id _ => some id
  | streamOpened id _ => some id
  | incomingStream id _ => some id
  | streamData id _ _ => some id
  | streamRemoteWriteClosed id _ => some id
  | streamClosed id _ => some id
  | closed id => some id
  | error id _ => some id
  | incomingConnection id _ => some id
  | peerIdentityVerified id _ _ => some id
  | listening _ => none

/-- Errors returned by transport operations. -/
inductive TransportError
  | invalidAddress (context reason : String)
  | invalidConfig (reason : String)
  | resourceExhausted (resource : String)
  | connectionNotFound (id : ConnectionId)
  | invalidState (id : ConnectionId) (state expected : ConnectionState)
  | notListening
  | listenFailed (reason : String)
  | dialFailed (id : ConnectionId) (reason : String)
  | streamNotFound (id : ConnectionId) (streamId : StreamId)
  | streamExists (id : ConnectionId) (streamId : StreamId)
  | openStreamFailed (id : ConnectionId) (reason : String)
  | streamSendFailed (id : ConnectionId) (streamId : StreamId) (reason : String)
  | streamCloseWriteFailed (id : ConnectionId) (streamId : StreamId) (reason : String)
  | streamResetFailed (id : ConnectionId) (streamId : StreamId) (reason : String)
  | closeFailed (id : ConnectionId) (reason : String)
  | pollError (reason : String)
deriving DecidableEq, Repr

/-- The `Display` text. -/
def TransportError.display : TransportError → String
  | invalidAddress context reason => s!"invalid address for {context}: {reason}"
  | invalidConfig reason => s!"invalid transport configuration: {reason}"
  | resourceExhausted resource => s!"resource exhausted: {resource}"
  | connectionNotFound id => s!"connection {id.display} not found"
  | invalidState id state expected =>
    s!"connection {id.display} is {state.display}, expected {expected.display}"
  | notListening => "not listening on any address"
  | listenFailed reason => s!"listen failed: {reason}"
  | dialFailed id reason => s!"dial failed for {id.display}: {reason}"
  | streamNotFound id streamId =>
    s!"stream {streamId.display} not found on connection {id.display}"
  | streamExists id streamId =>
    s!"stream {streamId.display} already exists on connection {id.display}"
  | openStreamFailed id reason => s!"failed to open stream on {id.display}: {reason}"
  | streamSendFailed id streamId reason =>
    s!"stream send failed for {id.display}/{streamId.display}: {reason}"
  | streamCloseWriteFailed id streamId reason =>
    s!"stream close write failed for {id.display}/{streamId.display}: {reason}"
  | streamResetFailed id streamId reason =>
    s!"stream reset failed for {id.display}/{streamId.display}: {reason}"
  | closeFailed id reason => s!"close failed for {id.display}: {reason}"
  | pollError reason => s!"poll error: {reason}"

end Minip2p
