import Minip2p.Quic.ConnectionTheorems
import Minip2p.Quic.Transport

/-!
# Rules for the methods of the QUIC transport

What the transport does between its own steps, calling into the world, keeps every invariant that
the calls keep (`Along`), and so those that do not look at the world (`Worldly`). An id that was
allocated is free.
-/

namespace Minip2p.Quic

variable {W : Type} {net : Net W} {fuel : Nat} {I : Host W → Prop} {id : ConnectionId}

/-- A call of quiche or of the socket it sends to. -/
inductive Quiche.Moves (q : Quiche W) : W → W → Prop
  | silent {w w' : W} (h : q.Silent w w') : Moves q w w'
  | streamRecv (raw : UInt64) (w : W) : Moves q w (q.streamRecv raw w).2
  | streamSend (raw : UInt64) (data : Bytes) (fin : Bool) (w : W) :
    Moves q w (q.streamSend raw data fin w).2
  | streamShutdown (raw : UInt64) (direction : Shutdown) (w : W) :
    Moves q w (q.streamShutdown raw direction w).2

/-- A call into the world. -/
inductive Net.Moves (net : Net W) : W → W → Prop
  | quiche (n : Nat) {w w' : W} (h : (net.quiche n).Moves w w') : Moves net w w'
  | sourceId (n : Nat) (w : W) : Moves net w (net.sourceId n w).2
  | isClosed (n : Nat) (w : W) : Moves net w (net.isClosed n w).2
  | connect (scid : Bytes) (local' peer : SocketAddr) (w : W) :
    Moves net w (net.connect scid local' peer w).2
  | accept (scid : Bytes) (local' peer : SocketAddr) (w : W) :
    Moves net w (net.accept scid local' peer w).2
  | generateScid (w : W) : Moves net w (net.generateScid w).2
  | localAddr (w : W) : Moves net w (net.localAddr w).2
  | recvFrom (w : W) : Moves net w (net.recvFrom w).2
  | sendTo (payload : Bytes) (addr : SocketAddr) (w : W) : Moves net w (net.sendTo payload addr w).2
  | toSocketAddrs (name : String) (w : W) : Moves net w (net.toSocketAddrs name w).2
  | keyOrder (keys : List ConnectionId) (w : W) : Moves net w (net.keyOrder keys w).2

/-- An invariant that calls into the world keep. -/
def Along (net : Net W) (I : Host W → Prop) : Prop :=
  ∀ h w, net.Moves h.world w → I h → I { h with world := w }

namespace Along

variable (hI : Along net I)

include hI

theorem ask_keeps {α : Type} {op : W → α × W} (hop : ∀ w, net.Moves w (op w).2) :
    Keeps I (ask op) :=
  Keeps.modifyGet fun h hh => hI h _ (hop h.world) hh

theorem localAddr_keeps : Keeps I (localAddr net) := by
  refine Keeps.bind (hI.ask_keeps .localAddr) fun answer => ?_
  split
  · exact Keeps.pure _
  · exact Keeps.throw _

theorem localAddresses_keeps : Keeps I (localAddresses net) := by
  refine Triple.bind (Keeps.attempt (Keeps.bind hI.localAddr_keeps fun _ => Keeps.pure _))
    fun answer => ?_
  split
  · exact Keeps.pure _
  · exact Keeps.pure _

theorem resolveName_keeps (name : String) (port : UInt16) (context kind : String)
    (usable : SocketAddr → Bool) :
    Keeps I (resolveName net name port context kind usable) := by
  refine Keeps.bind (hI.ask_keeps (.toSocketAddrs _)) fun answer => ?_
  split
  · exact Keeps.throw _
  · dsimp only
    split
    · exact Keeps.throw _
    · exact Keeps.pure _

theorem resolveDialSocketAddrs_keeps (multiaddr : Multiaddr) (context : String) :
    Keeps I (resolveDialSocketAddrs net multiaddr context) := by
  refine Keeps.bind (Keeps.ofResult _) fun target => ?_
  obtain ⟨host, port⟩ := target
  dsimp only
  split
  · exact Keeps.pure _
  · exact Keeps.pure _
  · exact hI.resolveName_keeps _ _ _ _ _
  · exact hI.resolveName_keeps _ _ _ _ _
  · exact hI.resolveName_keeps _ _ _ _ _
  · exact Keeps.throw _

theorem resolveDialSocketAddr_keeps (multiaddr : Multiaddr) (context : String) :
    Keeps I (resolveDialSocketAddr net multiaddr context) := by
  refine Keeps.bind (hI.resolveDialSocketAddrs_keeps _ _) fun addrs => ?_
  split
  · exact Keeps.pure _
  · exact Keeps.throw _

/-- What a new quiche connection sends is its own call. -/
theorem sendInitial_keeps (n : Nat) (label : String) (fail : String → TransportError) :
    Keeps I (sendInitialGo (net.quiche n) label fail fuel) := by
  induction fuel with
  | zero => exact Keeps.diverge
  | succ fuel ih =>
    unfold sendInitialGo
    refine Keeps.bind (hI.ask_keeps fun w => .quiche n (.silent (.send w))) fun sent => ?_
    split
    · exact Keeps.pure _
    · exact Keeps.throw _
    · refine Keeps.bind (hI.ask_keeps fun w => .quiche n (.silent (.sendTo _ w))) fun answer => ?_
      split
      · exact Keeps.throw _
      · exact ih

end Along

/-- An invariant that does not look at the world. -/
def Worldly (I : Host W → Prop) : Prop := ∀ h w, I h → I { h with world := w }

namespace Worldly

variable (hI : Worldly I)

include hI

theorem along : Along net I := fun h w _ hh => hI h w hh

theorem ask_keeps {α : Type} (op : W → α × W) : Keeps I (ask op) :=
  Keeps.modifyGet fun h hh => hI h _ hh

theorem localAddr_keeps : Keeps I (localAddr net) := hI.along.localAddr_keeps

theorem resolveDialSocketAddrs_keeps (multiaddr : Multiaddr) (context : String) :
    Keeps I (resolveDialSocketAddrs net multiaddr context) :=
  hI.along.resolveDialSocketAddrs_keeps multiaddr context

theorem resolveDialSocketAddr_keeps (multiaddr : Multiaddr) (context : String) :
    Keeps I (resolveDialSocketAddr net multiaddr context) :=
  hI.along.resolveDialSocketAddr_keeps multiaddr context

theorem sendInitial_keeps (n : Nat) (label : String) (fail : String → TransportError) :
    Keeps I (sendInitialGo (net.quiche n) label fail fuel) :=
  hI.along.sendInitial_keeps n label fail

theorem newConnection_triple (quiche : Nat) (peerAddr : SocketAddr)
    (endpoint : ConnectionEndpoint) {E : Host W → Prop} :
    Triple I (newConnection net id quiche peerAddr endpoint)
      (fun entry h => I h ∧ entry.endpoint = endpoint) E :=
  Triple.modifyGet fun h hh => ⟨hI h _ hh, rfl⟩

end Worldly

/-! ## Fresh ids -/

/-- An allocated id is not in the table. -/
theorem allocateGo_free {t : QuicTransport} {start : UInt64} {fuel : Nat} {raw : UInt64}
    (h : (t.allocateGo start fuel raw).1 = .ok id) : t.connections[id]? = none := by
  induction fuel generalizing raw with
  | zero =>
    unfold QuicTransport.allocateGo at h
    dsimp only at h
    split at h
    · next hfree =>
      cases h
      simpa using hfree.2
    · split at h <;> cases h
  | succ fuel ih =>
    unfold QuicTransport.allocateGo at h
    dsimp only at h
    split at h
    · next hfree =>
      cases h
      simpa using hfree.2
    · split at h
      · cases h
      · exact ih h

theorem allocateConnectionId_triple
    (hnext : ∀ h next, I h → I (h.modifyTransport fun t => { t with nextConnectionId := next })) :
    Triple I allocateConnectionId
      (fun id h => I h ∧ h.transport.connections[id]? = none) I := by
  refine Triple.bind (Q := fun id h => I h ∧
    ∀ i, id = .ok i → h.transport.connections[i]? = none) (Triple.modifyGet ?_) fun id => ?_
  · intro h hh
    exact ⟨hnext _ _ hh, fun i hi => allocateGo_free (t := h.transport) hi⟩
  · exact Triple.ofResult (fun i h hi hh => ⟨hh.1, hh.2 i hi⟩) fun _ _ _ hh => hh.1

end Minip2p.Quic
