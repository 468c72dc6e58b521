import Minip2p.Identify.Protocol

/-!
# Swarm events

The types of `crates/swarm/src/events.rs`: what the core takes in, the actions it asks of its
driver, the events it reports to the application, and its errors.
-/

namespace Minip2p.Swarm

open Identify (IdentifyMessage)

/-- Machine-testable runtime error category. -/
inductive SwarmErrorKind
  | transport
  | multistream
  | identify
  | ping
  | userProtocol (protocolId : String)
  | identifyStreamRejected
  | openStreamFailed
  | unsupportedProtocol
  | driver
deriving DecidableEq, Repr

/-- Structured runtime error emitted through `SwarmEvent.error`. -/
structure SwarmRuntimeError where
  kind : SwarmErrorKind
  peerId : Option PeerId
  connId : Option ConnectionId
  detail : String
deriving DecidableEq, Repr

/-- Events emitted by the swarm to the application. -/
inductive SwarmEvent
  | connectionEstablished (peerId : PeerId)
  | connectionClosed (peerId : PeerId)
  | identifyReceived (peerId : PeerId) (info : IdentifyMessage)
  | peerReady (peerId : PeerId) (protocols : List String)
  | pingRttMeasured (peerId : PeerId) (rttMs : UInt64)
  | pingTimeout (peerId : PeerId)
  | userStreamReady (peerId : PeerId) (streamId : StreamId) (protocolId : String)
      (initiatedLocally : Bool)
  | userStreamData (peerId : PeerId) (streamId : StreamId) (data : Bytes)
  | userStreamRemoteWriteClosed (peerId : PeerId) (streamId : StreamId)
  | userStreamClosed (peerId : PeerId) (streamId : StreamId)
  | error (error : SwarmRuntimeError)
deriving DecidableEq, Repr

/-- Correlation handle for a pending outbound stream-open request. -/
structure OpenStreamToken where
  raw : UInt64
deriving DecidableEq, Repr

instance : Ord OpenStreamToken := ⟨compareOn OpenStreamToken.raw⟩

instance : Std.TransOrd OpenStreamToken :=
  inferInstanceAs (Std.TransCmp (compareOn OpenStreamToken.raw))

instance : Std.LawfulEqOrd OpenStreamToken where
  eq_of_compare {a b} h := by
    cases a
    cases b
    exact congrArg OpenStreamToken.mk (Std.LawfulEqOrd.eq_of_compare h)
  compare_self {a} := by
    show compare a.raw a.raw = .eq
    exact Std.ReflCmp.compare_self

/-- Inputs accepted by the swarm core. -/
inductive SwarmInput
  | transport (event : TransportEvent) (nowMs : UInt64)
  | tick (nowMs : UInt64)
  | streamOpened (connId : ConnectionId) (streamId : StreamId) (token : OpenStreamToken)
      (nowMs : UInt64)
  | openStreamFailed (token : OpenStreamToken) (reason : String) (nowMs : UInt64)
  | runtimeError (error : SwarmRuntimeError)
deriving DecidableEq, Repr

/-- Commands the swarm asks its driver to execute against the underlying transport. -/
inductive SwarmAction
  | openStream (connId : ConnectionId) (token : OpenStreamToken)
  | sendStream (connId : ConnectionId) (streamId : StreamId) (data : Bytes)
  | closeStreamWrite (connId : ConnectionId) (streamId : StreamId)
  | resetStream (connId : ConnectionId) (streamId : StreamId)
  | closeConnection (connId : ConnectionId)
deriving DecidableEq, Repr

/-- Outputs produced by the swarm core. -/
inductive SwarmOutput
  | action (action : SwarmAction)
  | event (event : SwarmEvent)
deriving DecidableEq, Repr

/-- Errors returned by the core for application-driven operations. -/
inductive SwarmError
  | notConnected (peerId : PeerId)
  | protocolNotRegistered (protocolId : String)
  | remoteDoesNotSupport (peerId : PeerId) (protocolId : String)
  | userStreamNotFound (peerId : PeerId) (streamId : StreamId)
  | pingError (reason : String)
  | identifyError (reason : String)
deriving DecidableEq, Repr

/-- The `Display` text. -/
def SwarmError.display [MultihashCodec] : SwarmError → String
  | notConnected peerId => s!"peer {peerId.toBase58} is not connected"
  | protocolNotRegistered protocolId => s!"user protocol '{protocolId}' is not registered"
  | remoteDoesNotSupport peerId protocolId =>
    s!"peer {peerId.toBase58} does not support user protocol '{protocolId}'"
  | userStreamNotFound peerId streamId =>
    s!"user stream {streamId.display} for peer {peerId.toBase58} is not active"
  | pingError reason => s!"ping error: {reason}"
  | identifyError reason => s!"identify error: {reason}"

/-- An event under another peer id, if it names `old`. -/
def SwarmEvent.migrate (old new : PeerId) : SwarmEvent → SwarmEvent
  | connectionEstablished peerId => connectionEstablished (if peerId = old then new else peerId)
  | connectionClosed peerId => connectionClosed (if peerId = old then new else peerId)
  | pingTimeout peerId => pingTimeout (if peerId = old then new else peerId)
  | identifyReceived peerId info => identifyReceived (if peerId = old then new else peerId) info
  | pingRttMeasured peerId rttMs => pingRttMeasured (if peerId = old then new else peerId) rttMs
  | userStreamReady peerId streamId protocolId initiatedLocally =>
    userStreamReady (if peerId = old then new else peerId) streamId protocolId initiatedLocally
  | userStreamData peerId streamId data =>
    userStreamData (if peerId = old then new else peerId) streamId data
  | userStreamRemoteWriteClosed peerId streamId =>
    userStreamRemoteWriteClosed (if peerId = old then new else peerId) streamId
  | userStreamClosed peerId streamId =>
    userStreamClosed (if peerId = old then new else peerId) streamId
  | peerReady peerId protocols => peerReady (if peerId = old then new else peerId) protocols
  | error e => error { e with peerId := if e.peerId = some old then some new else e.peerId }

end Minip2p.Swarm
