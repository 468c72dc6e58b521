import Minip2p.Quic.LostEvents
import Minip2p.Stack.Polling
import Minip2p.Swarm.Driver

/-!
# The QUIC transport under the driver

The driver of a swarm on a machine with a network, clocks and randomness: `platform` answers the
questions of the driver by running the methods of the QUIC transport. `Adapter` is the world the
driver asks, and records whether the run has been orderly so far: every call returned, no poll
failed, no id ran out, and streams were read only on connections that had been reported.
-/

namespace Minip2p.Stack

open Ping (Payload)
open Swarm (Platform)
open Quic (QuicTransport Net Host HostMethod)

variable {W : Type}

/-- A network with the clocks and the randomness of the machine it is on. -/
structure Machine (W : Type) extends Net W where
  nowMs : W → UInt64 × W
  randPingPayload : W → Payload × W
  instantNow : W → Nat × W
  sleep : W → W

/-- What is relied on of quiche, on a machine: its connections do not mind the clocks. -/
structure MachineLaws (machine : Machine W) extends StreamLaws machine.toNet where
  nowMs : ∀ n raw w, finished n raw w → finished n raw (machine.nowMs w).2
  randPingPayload : ∀ n raw w, finished n raw w → finished n raw (machine.randPingPayload w).2
  instantNow : ∀ n raw w, finished n raw w → finished n raw (machine.instantNow w).2
  sleep : ∀ n raw w, finished n raw w → finished n raw (machine.sleep w)

/-- The laws with the peers that a check of certificates accepts. -/
def MachineLaws.setup {machine : Machine W} (laws : MachineLaws machine)
    (verifyLibp2pCertificate : Bytes → Except String PeerId) : Setup machine.toNet :=
  { laws.toStreamLaws with verified := fun p => ∃ der, verifyLibp2pCertificate der = .ok p }

/-- The transport with its world. `reported` are the events that its polls have returned so far. -/
structure Adapter (W : Type) where
  host : Host W
  reported : List TransportEvent
  orderly : Bool

namespace Adapter

/-- A transport on a socket that was just bound. -/
def new (world : W) : Adapter W where
  host := ⟨world, .new, []⟩
  reported := []
  orderly := true

/-- A step of the machine itself. -/
def ask {α : Type} (s : Adapter W) (op : W → α × W) : α × Adapter W :=
  ((op s.host.world).1, { s with host := { s.host with world := (op s.host.world).2 } })

/-- Runs a method of the transport, which keeps the order if it returns and was called `inOrder`. -/
def run {α : Type} (s : Adapter W) (method : HostMethod W α) (inOrder : Bool) :
    Except TransportError α × Adapter W :=
  match Prog.exec method s.host with
  | none => (.error (.pollError "the transport does not answer"), { s with orderly := false })
  | some (r, host) => (r, { s with host, orderly := s.orderly && inOrder })

/-- The transport has connection ids left for `turns` new connections. -/
def hasConnectionIds (s : Adapter W) (turns : Nat) : Bool :=
  s.host.transport.nextConnectionId.toNat + turns < 2 ^ 64

end Adapter

section Platform

variable [MultihashCodec] (machine : Machine W) (fuel : Nat)
  (verifyLibp2pCertificate : Bytes → Except String PeerId)

/-- A poll, after which its events count as reported. -/
def pollAdapter (s : Adapter W) : Except TransportError (List TransportEvent) × Adapter W :=
  match s.run (Quic.poll machine.toNet fuel verifyLibp2pCertificate) (s.hasConnectionIds fuel &&
    pollReadsReported machine.toNet fuel s.reported verifyLibp2pCertificate s.host) with
  | (.ok events, s) => (.ok events, { s with reported := s.reported ++ events })
  | (.error e, s) => (.error e, { s with orderly := false })

/-- The QUIC transport on a machine, as the driver sees it. -/
def platform : Platform (Adapter W) where
  dial addr s := s.run (Quic.dial machine.toNet fuel addr) (s.hasConnectionIds 1)
  listen addr s := s.run (Quic.listen machine.toNet addr) true
  openStream id s := s.run (Quic.openStreamOn machine.toNet id) (hasStreamIds s.host id)
  sendStream id streamId data s :=
    s.run (Quic.sendStreamOn machine.toNet fuel id streamId data) true
  closeStreamWrite id streamId s :=
    s.run (Quic.closeStreamWriteOn machine.toNet fuel id streamId) true
  resetStream id streamId s := s.run (Quic.resetStreamOn machine.toNet id streamId) true
  close id s := s.run (Quic.closeOn machine.toNet fuel id) true
  poll s := pollAdapter machine fuel verifyLibp2pCertificate s
  localAddresses s :=
    let answer := s.run (Quic.localAddresses machine.toNet) true
    (answer.1.toOption.getD [], answer.2)
  nowMs s := s.ask machine.nowMs
  randPingPayload s := s.ask machine.randPingPayload
  instantNow s := s.ask machine.instantNow
  sleep s := (s.ask fun w => ((), machine.sleep w)).2

end Platform

end Minip2p.Stack
