import Minip2p.Swarm.Moves

/-!
# What the outputs of the handlers leave alone

Polling a negotiator or draining a protocol handler queues events and actions, though no request
for a stream, and may file what identify received. A relation between states that allows so much
(`Permissive`, and `Oblivious` if it does not look at the handlers) is kept by every function that
does no more. That the connection and stream tables stay as they are is one of them.
-/

namespace Minip2p.Swarm

open Identify (IdentifyInput IdentifyOutput IdentifyProtocol)
open Multistream (MultistreamOutput)
open Ping (PingInput PingOutput PingProtocol)

/-- The token of a request for a stream, and the connection it is for. -/
def SwarmAction.openRequest? : SwarmAction → Option (OpenStreamToken × ConnectionId)
  | openStream connId token => some (token, connId)
  | _ => none

/-! ## Relations that outputs keep -/

/-- The relation allows what an output does: an event or an action is queued, what identify
received is filed and a peer becomes ready. -/
structure Permissive (R : SwarmCore → SwarmCore → Prop) : Prop where
  refl : ∀ s, R s s
  trans : ∀ {s s' s''}, R s s' → R s' s'' → R s s''
  pushEvent : ∀ s e, R s (s.pushEvent e)
  /-- Requests for streams are not among what is queued. -/
  pushAction : ∀ s {a}, a.openRequest? = none → R s (s.pushAction a)
  peerInfo : ∀ s peerInfo, R s { s with peerInfo }
  readyPeers : ∀ s readyPeers, R s { s with readyPeers }

/-- A permissive relation that does not look at the handlers. -/
structure Oblivious (R : SwarmCore → SwarmCore → Prop) : Prop extends Permissive R where
  ping : ∀ s ping, R s { s with ping }
  identify : ∀ s identify, R s { s with identify }

namespace Permissive

variable {R : SwarmCore → SwarmCore → Prop} (h : Permissive R)

include h

/-- A loop keeps the relation when its body does. -/
theorem foldl {α : Type} {f : SwarmCore → α → SwarmCore} (hf : ∀ s a, R s (f s a)) (as : List α)
    (s : SwarmCore) : R s (as.foldl f s) := by
  induction as generalizing s with
  | nil => exact h.refl s
  | cons a as ih => exact h.trans (hf s a) (ih (f s a))

theorem executePingAction (s : SwarmCore) (a : Ping.PingAction) : R s (s.executePingAction a) := by
  cases a <;> simp only [SwarmCore.executePingAction] <;> split <;>
    first | exact h.pushAction _ rfl | exact h.refl _

theorem executeIdentifyAction (s : SwarmCore) (a : Identify.IdentifyAction) :
    R s (s.executeIdentifyAction a) := by
  cases a <;> simp only [SwarmCore.executeIdentifyAction] <;> split <;>
    first | exact h.pushAction _ rfl | exact h.refl _

theorem tryEmitPeerReady (s : SwarmCore) (p : PeerId) : R s (s.tryEmitPeerReady p) := by
  rcases SwarmCore.tryEmitPeerReady_cases s p with heq | ⟨info, -, -, heq⟩
  · rw [heq]
    exact h.refl _
  · rw [heq]
    exact h.trans (h.readyPeers s _) (h.pushEvent _ _)

theorem handleIdentifyOutput (s : SwarmCore) (o : IdentifyOutput) :
    R s (s.handleIdentifyOutput o) := by
  cases o with
  | action a => exact h.executeIdentifyAction s a
  | event e =>
    cases e with
    | received p info =>
      exact h.trans (h.trans (h.peerInfo s _) (h.pushEvent _ _)) (h.tryEmitPeerReady _ p)
    | error p t e => exact h.pushEvent _ _

theorem handlePingOutput [MultihashCodec] (s : SwarmCore) (o : PingOutput) :
    R s (s.handlePingOutput o) := by
  cases o with
  | action a => exact h.executePingAction s a
  | event e =>
    simp only [SwarmCore.handlePingOutput, SwarmCore.handlePingEvent]
    split
    · exact h.pushEvent _ _
    · exact h.pushEvent _ _
    · exact h.pushEvent _ _
    · exact h.refl _

theorem handleMultistreamOutput (s : SwarmCore) (k : StreamKey) (o : MultistreamOutput)
    (negotiated : Option String) : R s (s.handleMultistreamOutput k o negotiated).1 := by
  cases o with
  | outboundData bytes => exact h.pushAction _ rfl
  | negotiated protocol => exact h.refl _
  | notAvailable => exact h.refl _
  | protocolError reason => exact h.pushEvent _ _

theorem pollInbound (k : StreamKey) (outputs : List MultistreamOutput) (s : SwarmCore)
    (negotiated : Option String) : R s (SwarmCore.pollInbound k outputs s negotiated).1 := by
  induction outputs generalizing s negotiated with
  | nil => exact h.refl _
  | cons o outputs ih =>
    have hone := h.handleMultistreamOutput s k o negotiated
    rw [SwarmCore.pollInbound]
    split
    · next heq => simpa only [heq] using hone
    · next heq =>
      rw [heq] at hone
      exact h.trans hone (ih _ _)

theorem pollOutbound (k : StreamKey) (outputs : List MultistreamOutput) (s : SwarmCore)
    (negotiated : Bool) : R s (SwarmCore.pollOutbound k outputs s negotiated).1 := by
  induction outputs generalizing s negotiated with
  | nil => exact h.refl _
  | cons o outputs ih =>
    cases o with
    | negotiated protocol => exact ih s true
    | notAvailable => exact h.pushEvent _ _
    | outboundData bytes => exact h.trans (h.pushAction s rfl) (ih _ negotiated)
    | protocolError reason => exact h.pushEvent _ _

theorem pollStart (k : StreamKey) (outputs : List MultistreamOutput) (s : SwarmCore) :
    R s (SwarmCore.pollStart k outputs s) :=
  h.foldl (fun s o => h.handleMultistreamOutput s k o none) outputs s

end Permissive

namespace Oblivious

variable {R : SwarmCore → SwarmCore → Prop} (h : Oblivious R)

include h

theorem drainIdentifyOutputs (s : SwarmCore) : R s s.drainIdentifyOutputs :=
  h.trans (h.identify s s.identify.drainOutputs.2) (h.foldl h.handleIdentifyOutput _ _)

variable [MultihashCodec]

theorem drainPingOutputs (s : SwarmCore) : R s s.drainPingOutputs :=
  h.trans (h.ping s s.ping.drainOutputs.2) (h.foldl h.handlePingOutput _ _)

theorem feedPing (s : SwarmCore) (input : PingInput) : R s (s.feedPing input) :=
  h.trans (h.ping s _) (h.drainPingOutputs _)

theorem feedIdentify (s : SwarmCore) (input : IdentifyInput) : R s (s.feedIdentify input) :=
  h.trans (h.identify s _) (h.drainIdentifyOutputs _)

theorem notifyStreamClosed (s : SwarmCore) (protocol : ProtocolKind) (p : PeerId) (t : StreamId) :
    R s (s.notifyStreamClosed protocol p t) := by
  cases protocol with
  | ping => exact h.feedPing s _
  | identifyInitiator => exact h.feedIdentify s _
  | identifyResponder => exact h.feedIdentify s _
  | user protocolId => exact h.pushEvent _ _

end Oblivious

/-! ## The tables -/

/-- The connection and stream tables are the same. -/
structure SameTables (s s' : SwarmCore) : Prop where
  connToPeer : s'.connToPeer = s.connToPeer
  peerToConn : s'.peerToConn = s.peerToConn
  inboundNegotiators : s'.inboundNegotiators = s.inboundNegotiators
  outboundNegotiators : s'.outboundNegotiators = s.outboundNegotiators
  streamOwner : s'.streamOwner = s.streamOwner
  pendingOpens : s'.pendingOpens = s.pendingOpens

namespace SameTables

variable {s s' s'' : SwarmCore}

theorem rfl : SameTables s s := ⟨Eq.refl _, Eq.refl _, Eq.refl _, Eq.refl _, Eq.refl _, Eq.refl _⟩

theorem trans (h : SameTables s s') (h' : SameTables s' s'') : SameTables s s'' :=
  ⟨h'.connToPeer.trans h.connToPeer, h'.peerToConn.trans h.peerToConn,
    h'.inboundNegotiators.trans h.inboundNegotiators,
    h'.outboundNegotiators.trans h.outboundNegotiators, h'.streamOwner.trans h.streamOwner,
    h'.pendingOpens.trans h.pendingOpens⟩

theorem pushEvent (e : SwarmEvent) : SameTables s (s.pushEvent e) := SameTables.mk
  (Eq.refl _) (Eq.refl _) (Eq.refl _) (Eq.refl _) (Eq.refl _) (Eq.refl _)

theorem pushAction (a : SwarmAction) : SameTables s (s.pushAction a) := SameTables.mk
  (Eq.refl _) (Eq.refl _) (Eq.refl _) (Eq.refl _) (Eq.refl _) (Eq.refl _)

end SameTables

theorem tables_oblivious : Oblivious SameTables where
  refl _ := .rfl
  trans := .trans
  pushEvent _ e := .pushEvent e
  pushAction _ {a} _ := .pushAction a
  peerInfo _ _ := ⟨rfl, rfl, rfl, rfl, rfl, rfl⟩
  readyPeers _ _ := ⟨rfl, rfl, rfl, rfl, rfl, rfl⟩
  ping _ _ := ⟨rfl, rfl, rfl, rfl, rfl, rfl⟩
  identify _ _ := ⟨rfl, rfl, rfl, rfl, rfl, rfl⟩

end Minip2p.Swarm
