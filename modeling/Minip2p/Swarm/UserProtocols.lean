import Minip2p.Multistream.Negotiable
import Minip2p.Swarm.Session

/-!
# User protocols

`add_user_protocol` takes every string, and `open_user_stream` starts a dialer for it. Whether the
two sides can then agree on it is a question about multistream-select alone.
-/

namespace Minip2p.Swarm

open Identify (IdentifyConfig)
open Multistream (Negotiable Sendable MultistreamSelect dialer listener)
open Ping (PingConfig)

namespace SwarmCore

variable (core : SwarmCore) (id : String)

/-- Every string is registered, for opens and for incoming streams. -/
theorem addUserProtocol_contains :
    (core.addUserProtocol id).userProtocols.contains id = true ∧
      (core.addUserProtocol id).supportedProtocols.contains id = true := by
  have hinsert : ∀ ids : List String,
      (if ids.contains id then ids else ids ++ [id]).contains id = true := by
    intro ids
    split
    · assumption
    · simp
  exact ⟨hinsert core.userProtocols, hinsert core.supportedProtocols⟩

/-- A registered protocol is opened on every connected peer that has not named its own yet. -/
theorem openUserStream_addUserProtocol {peerId : PeerId}
    (hconn : core.peerToConn.contains peerId = true)
    (hready : core.readyPeers.contains peerId = false) :
    ((core.addUserProtocol id).openUserStream peerId id).2 = .ok () := by
  have hconn' : (core.addUserProtocol id).peerToConn.contains peerId = true := hconn
  have hready' : (core.addUserProtocol id).readyPeers.contains peerId = false := hready
  obtain ⟨conn, hget⟩ := BTreeMap.exists_getElem?_of_mem (Std.ExtTreeMap.contains_iff_mem.mp hconn')
  rw [openUserStream, (addUserProtocol_contains core id).1, hconn', hready']
  simp [queueOpenProtocolStream, requireConn, hget]

end SwarmCore

section

variable [Sha256] [MultihashCodec]

/-- The first connection of a peer lets the application open streams for any protocol. -/
theorem open_allowed (identifyConfig : IdentifyConfig) (pingConfig : PingConfig) (id : String) :
    (((run (.new identifyConfig pingConfig)
      [.event (.connected ⟨1⟩ (Sample.endpoint (some Sample.alice)))]).addUserProtocol
        id).openUserStream Sample.alice id).2 = .ok () :=
  SwarmCore.openUserStream_addUserProtocol _ id rfl rfl

/-- The protocols that can be registered, opened and then negotiated are those that fit a frame
and are not the refusal text. -/
theorem userProtocol_negotiable_iff (identifyConfig : IdentifyConfig) (pingConfig : PingConfig)
    (id : String) :
    (∀ calls peerId, ContractRun calls →
      (((run (.new identifyConfig pingConfig) calls).addUserProtocol id).openUserStream
        peerId id).2 = .ok () → Negotiable id) ↔
      Sendable id ∧ id ≠ Multistream.notAvailable := by
  rw [← Multistream.negotiable_iff]
  constructor
  · intro h
    exact h _ _ (by simp [ContractRun, Runs.EachStep, TransportContract, EventContract, Connected,
      Closed]) (open_allowed identifyConfig pingConfig id)
  · intro h calls peerId hcontract hopen
    exact h

end

/-- The dialer of an application that registered and opened `na` reports success when the remote
declines it. -/
theorem userProtocol_na_not_negotiable :
    ((@SwarmCore.addUserProtocol (Sample.run
      [.event (.connected ⟨1⟩ (Sample.endpoint (some Sample.alice)))]) "na").openUserStream
        Sample.alice "na").2 = .ok () ∧
      ∃ session, Multistream.Session.Reachable "na" ∅ session ∧
        .negotiated "na" ∈ session.outputs dialer ∧
        .notAvailable ∈ session.outputs listener ∧
        .negotiated "na" ∉ session.outputs listener := by
  refine ⟨by decide,
    (Multistream.Session.create (Multistream.Session.roles "na" ∅)).run
      Multistream.Session.exchange, ?_, ?_, ?_, ?_⟩
  · exact Multistream.Session.continues_run (by decide +kernel)
  · decide +kernel
  · decide +kernel
  · decide +kernel

end Minip2p.Swarm
