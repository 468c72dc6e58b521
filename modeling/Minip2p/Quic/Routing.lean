import Minip2p.Quic.Dual
import Minip2p.Quic.Identifiers
import Minip2p.Quic.Indexes

/-!
# Routing by connection id

The dual-stack transport doubles the ids of its two transports, so the parity of an id that it
hands out names the side, up to the id at which the doubling saturates. An operation on an id that
was handed out then runs on the connection the id was made for, and leaves the other side alone.
-/

namespace Minip2p.Quic

variable {W : Type}

/-! ## The arithmetic -/

/-- The doubled id fits a `u64`, and the id is not 0. -/
def Mappable (id : ConnectionId) : Prop := 1 ≤ id.asU64.toNat ∧ id.asU64.toNat < 2 ^ 63

instance (id : ConnectionId) : Decidable (Mappable id) := instDecidableAnd

theorem ConnectionId.ext_toNat {id id' : ConnectionId} (h : id.asU64.toNat = id'.asU64.toNat) :
    id = id' :=
  congrArg ConnectionId.mk (UInt64.toNat_inj.mp h)

/-- Below the saturation the ids of the IPv4 side become the odd numbers. -/
theorem externalId_ipv4 {id : ConnectionId} (hid : Mappable id) :
    (externalId .ipv4 id).asU64.toNat = 2 * id.asU64.toNat - 1 := by
  obtain ⟨hpos, hlt⟩ := hid
  show (UInt64.ofNat (min (id.asU64.toNat * 2) (2 ^ 64 - 1) - 1)).toNat = _
  rw [UInt64.toNat_ofNat']
  omega

/-- Below the saturation the ids of the IPv6 side become the even numbers. -/
theorem externalId_ipv6 {id : ConnectionId} (hid : Mappable id) :
    (externalId .ipv6 id).asU64.toNat = 2 * id.asU64.toNat := by
  obtain ⟨hpos, hlt⟩ := hid
  show (UInt64.ofNat (min (id.asU64.toNat * 2) (2 ^ 64 - 1))).toNat = _
  rw [UInt64.toNat_ofNat']
  omega

/-- The external id is never zero. -/
theorem externalId_ne_zero (family : AddressFamily) {id : ConnectionId} (hid : Mappable id) :
    (externalId family id).asU64 ≠ 0 := by
  intro hzero
  have hnat : (externalId family id).asU64.toNat = 0 := by rw [hzero]; rfl
  have hpos := hid.1
  cases family with
  | ipv4 =>
    rw [externalId_ipv4 hid] at hnat
    omega
  | ipv6 =>
    rw [externalId_ipv6 hid] at hnat
    omega

/-- An even id belongs to the IPv6 side. -/
theorem internalId_even {id : ConnectionId} (h : id.asU64.toNat % 2 = 0) :
    internalId id = (.ipv6, ⟨id.asU64 / 2⟩) := by
  have hparity : id.asU64 % 2 = 0 := UInt64.toNat_inj.mp (by rw [UInt64.toNat_mod]; exact h)
  rw [internalId, if_pos hparity]

/-- An odd external id belongs to the IPv4 transport. -/
theorem internalId_odd {id : ConnectionId} (h : id.asU64.toNat % 2 = 1) :
    internalId id = (.ipv4, ⟨id.asU64 / 2 + 1⟩) := by
  have hparity : ¬id.asU64 % 2 = 0 := by
    intro hzero
    have hnat : id.asU64.toNat % 2 = 0 := congrArg UInt64.toNat hzero
    omega
  rw [internalId, if_neg hparity]

/-- What `internal_id` undoes. -/
theorem internalId_externalId (family : AddressFamily) {id : ConnectionId} (hid : Mappable id) :
    internalId (externalId family id) = (family, id) := by
  have hpos := hid.1
  have hlt := hid.2
  cases family with
  | ipv4 =>
    have hvalue := externalId_ipv4 hid
    rw [internalId_odd (by omega)]
    refine congrArg (Prod.mk _) (ConnectionId.ext_toNat ?_)
    show ((externalId .ipv4 id).asU64 / 2 + 1).toNat = id.asU64.toNat
    rw [UInt64.toNat_add, UInt64.toNat_div, hvalue]
    show ((2 * id.asU64.toNat - 1) / 2 + 1) % 2 ^ 64 = _
    omega
  | ipv6 =>
    have hvalue := externalId_ipv6 hid
    rw [internalId_even (by omega)]
    refine congrArg (Prod.mk _) (ConnectionId.ext_toNat ?_)
    show ((externalId .ipv6 id).asU64 / 2).toNat = id.asU64.toNat
    rw [UInt64.toNat_div, hvalue]
    show 2 * id.asU64.toNat / 2 = _
    omega

/-- No two connections share an id. -/
theorem externalId_injective {family family' : AddressFamily} {id id' : ConnectionId}
    (hid : Mappable id) (hid' : Mappable id')
    (h : externalId family id = externalId family' id') : family = family' ∧ id = id' := by
  have heq : (family, id) = (family', id') := by
    rw [← internalId_externalId family hid, h, internalId_externalId family' hid']
  exact Prod.mk.inj heq

/-! ## The calls -/

/-- A connection of one of the two transports. -/
abbrev Origin := AddressFamily × ConnectionId

/-- The id under which the connection is handed out. -/
def Origin.handedOut (origin : Origin) : ConnectionId := externalId origin.1 origin.2

/-- The connections that events are about. -/
def reportedIds (events : List TransportEvent) : List ConnectionId :=
  events.filterMap TransportEvent.conn?

/-- An event keeps its shape under the new id. -/
theorem mapEvent_conn? (family : AddressFamily) (e : TransportEvent) :
    (mapEvent family e).conn? = e.conn?.map (externalId family) := by
  cases e <;> rfl

theorem reportedIds_append (events later : List TransportEvent) :
    reportedIds (events ++ later) = reportedIds events ++ reportedIds later :=
  List.filterMap_append

/-- The ids reported by a side are renamed with its family. -/
theorem reportedIds_map (family : AddressFamily) (events : List TransportEvent) :
    reportedIds (events.map (mapEvent family)) =
      (reportedIds events).map (externalId family) := by
  unfold reportedIds
  rw [List.filterMap_map, List.map_filterMap]
  exact congrArg (fun f => events.filterMap f) (funext (mapEvent_conn? family))

/-- A call on the dual-stack transport. -/
inductive DualCall
  | dial (addr : PeerAddr)
  | dialAll (addr : PeerAddr)
  | dialFamily (addr : PeerAddr) (family : AddressFamily)
  | listen (addr : Multiaddr)
  | sendRawUdp (target : Multiaddr) (payload : Bytes)
  | openStream (id : ConnectionId)
  | sendStream (id : ConnectionId) (streamId : StreamId) (data : Bytes)
  | closeStreamWrite (id : ConnectionId) (streamId : StreamId)
  | resetStream (id : ConnectionId) (streamId : StreamId)
  | close (id : ConnectionId)
  | poll
deriving DecidableEq, Repr

section Calls

variable (net : AddressFamily → Net W) (fuel : Nat)

/-- `dial_target`, with the connection itself. -/
def originTarget (target : AddressFamily × PeerAddr) : DualMethod W Origin := do
  let id ← onSide target.1 (dial (net target.1) fuel target.2)
  return (target.1, id)

/-- The loop of `dial_all`, with the connections themselves. -/
def originEach : List (AddressFamily × PeerAddr) → Option TransportError →
    DualMethod W (List Origin × Option TransportError)
  | [], lastError => return ([], lastError)
  | target :: targets, lastError => do
    match ← Prog.attempt (originTarget net fuel target) with
    | .ok origin =>
      let (origins, lastError) ← originEach targets lastError
      return (origin :: origins, lastError)
    | .error e => originEach targets (some e)

variable [MultihashCodec] (verifyLibp2pCertificate : Bytes → Except String PeerId)

/-- The method a call runs, with the ids that it reports: those it returns and those of its
events. -/
def DualCall.method : DualCall → DualMethod W (List ConnectionId)
  | .dial addr => do return [← dialDual net fuel addr]
  | .dialAll addr => Quic.dialAll net fuel addr
  | .dialFamily addr family => do return [← Quic.dialFamily net fuel addr family]
  | .listen addr => do
    let _ ← listenDual net addr
    return []
  | .sendRawUdp target payload => do
    sendRawUdpDual net target payload
    return []
  | .openStream id => do
    let _ ← openStreamDual net id
    return []
  | .sendStream id streamId data => do
    sendStreamDual net fuel id streamId data
    return []
  | .closeStreamWrite id streamId => do
    closeStreamWriteDual net fuel id streamId
    return []
  | .resetStream id streamId => do
    resetStreamDual net id streamId
    return []
  | .close id => do
    closeDual net fuel id
    return []
  | .poll => do return reportedIds (← pollDual net fuel verifyLibp2pCertificate)

/-- The method a call runs, with the connections that the inner transports returned or put in
their events. -/
def DualCall.origins : DualCall → DualMethod W (List Origin)
  | .dial addr => do
    match ← dialTargets net addr with
    | [] => throw (.invalidAddress "dial target" "no usable ipv4 or ipv6 dial target")
    | target :: _ => return [← originTarget net fuel target]
  | .dialAll addr => do
    let targets ← dialTargets net addr
    let (origins, lastError) ← originEach net fuel targets none
    if origins.isEmpty then
      throw (lastError.getD
        (.invalidAddress "dial target" "no usable ipv4 or ipv6 dial target"))
    else return origins
  | .dialFamily addr family => do
    let targets ← dialTargets net addr
    match targets.find? (·.1 = family) with
    | none => throw (.invalidAddress "dial target" s!"no {family.name} target resolved")
    | some target => return [← originTarget net fuel (family, target.2)]
  | .poll => do
    modify (·.forgetVectors)
    let ipv4 ← onSide .ipv4 (Quic.poll (net .ipv4) fuel verifyLibp2pCertificate)
    let ipv6 ← onSide .ipv6 (Quic.poll (net .ipv6) fuel verifyLibp2pCertificate)
    return (reportedIds ipv4).map (.ipv4, ·) ++ (reportedIds ipv6).map (.ipv6, ·)
  | call => do
    let _ ← call.method net fuel verifyLibp2pCertificate
    return []

/-- Both transports are new. -/
def DualHost.new (world : W) : DualHost W := ⟨world, ⟨.new, []⟩, ⟨.new, []⟩⟩

/-- A sequence of calls with the ids reported; a call that fails leaves what it did to the next
one and reports nothing. -/
def runDual (d : DualHost W) : List DualCall → Option (List ConnectionId × DualHost W)
  | [] => some ([], d)
  | call :: calls =>
    match Prog.exec (call.method net fuel verifyLibp2pCertificate) d with
    | none => none
    | some (result, d) =>
      (runDual d calls).map fun p => ((result.toOption.getD []) ++ p.1, p.2)

/-- The same sequence with the connections that the ids were made for. -/
def runOrigins (d : DualHost W) : List DualCall → Option (List Origin × DualHost W)
  | [] => some ([], d)
  | call :: calls =>
    match Prog.exec (call.origins net fuel verifyLibp2pCertificate) d with
    | none => none
    | some (result, d) =>
      (runOrigins d calls).map fun p => ((result.toOption.getD []) ++ p.1, p.2)

end Calls

section Runs

variable {net : AddressFamily → Net W} {fuel : Nat}

/-! ## Every id stands for its connection -/

theorem dialTarget_eq (target : AddressFamily × PeerAddr) :
    dialTarget net fuel target = Origin.handedOut <$> originTarget net fuel target := by
  rw [originTarget, map_bind]
  simp only [map_pure]
  rfl

theorem dialEach_eq (targets : List (AddressFamily × PeerAddr))
    (lastError : Option TransportError) :
    dialEach net fuel targets lastError =
      (fun found => (found.1.map Origin.handedOut, found.2)) <$>
        originEach net fuel targets lastError := by
  induction targets generalizing lastError with
  | nil => exact (map_pure _ _).symm
  | cons target targets ih =>
    rw [dialEach, originEach, map_bind, dialTarget_eq, Prog.attempt_map, bind_map_left]
    congr 1
    funext result
    cases result with
    | error e => exact ih (some e)
    | ok origin =>
      show (dialEach net fuel targets lastError >>= _) = _ <$> (originEach _ _ _ _ >>= _)
      rw [ih, map_bind, bind_map_left]
      rfl

/-! ## No connection has the id 0 -/

/-- Both transports are sound. -/
def BothSound (d : DualHost W) : Prop := ∀ family, Sound (d.host family)

theorem bothSound_setHost {d : DualHost W} (hd : BothSound d) {family : AddressFamily}
    {h : Host W} (hh : Sound h) : BothSound (d.setHost family h) := by
  intro other
  cases family <;> cases other
  · exact hh
  · exact sound_worldly _ h.world (hd .ipv6)
  · exact sound_worldly _ h.world (hd .ipv4)
  · exact hh

/-- A method of one side. -/
theorem onSide_sound {α : Type} {family : AddressFamily} {method : HostMethod W α}
    {Q : α → Prop} (h : Triple Sound method (fun a h => Sound h ∧ Q a) Sound) :
    Triple BothSound (onSide family method) (fun a d => BothSound d ∧ Q a) BothSound :=
  Triple.zoom h (fun _ hd => hd family)
    (fun _ _ _ hd hh => ⟨bothSound_setHost hd hh.1, hh.2⟩)
    fun _ _ hd hh => bothSound_setHost hd hh

/-- A call on one side leaves the other alone. -/
theorem onSide_keeps {α : Type} {family : AddressFamily} {method : HostMethod W α}
    (h : Keeps Sound method) : Keeps BothSound (onSide family method) :=
  Triple.zoom h (fun _ hd => hd family) (fun _ _ _ hd hh => bothSound_setHost hd hh)
    fun _ _ hd hh => bothSound_setHost hd hh

/-- The connections are not the connection 0. -/
def Numbered (origins : List Origin) : Prop := ∀ origin ∈ origins, origin.2.asU64 ≠ 0

theorem dialTargets_keeps (addr : PeerAddr) :
    Keeps BothSound (dialTargets net addr : DualMethod W _) :=
  Keeps.bind (onSide_keeps (sound_worldly.resolveDialSocketAddrs_keeps _ _)) fun _ =>
    Keeps.ofResult _

theorem originTarget_sound (target : AddressFamily × PeerAddr) :
    Triple BothSound (originTarget net fuel target)
      (fun origin d => BothSound d ∧ origin.2.asU64 ≠ 0) BothSound := by
  refine Triple.bind (onSide_sound (dial_sound target.2)) fun id => ?_
  exact Triple.pure fun _ hd => hd

theorem originEach_sound (targets : List (AddressFamily × PeerAddr))
    (lastError : Option TransportError) :
    Triple BothSound (originEach net fuel targets lastError)
      (fun found d => BothSound d ∧ Numbered found.1) BothSound := by
  induction targets generalizing lastError with
  | nil => exact Triple.pure fun _ hd => ⟨hd, nofun⟩
  | cons target targets ih =>
    refine Triple.bind (originTarget_sound target).attempt fun result => ?_
    cases result with
    | error e => exact (ih _).mono (fun _ hd => hd.2 e rfl) (fun _ _ hd => hd) fun _ hd => hd
    | ok origin =>
      intro d hd
      obtain ⟨hboth, horigin⟩ := hd.1 origin rfl
      refine Triple.bind (ih lastError) (fun found => Triple.pure ?_) d hboth
      rintro d' ⟨hd', hfound⟩
      refine ⟨hd', fun other hother => ?_⟩
      rcases List.mem_cons.mp hother with rfl | hother
      · exact horigin
      · exact hfound other hother

/-- A call that reports nothing. -/
theorem reportsNothing_sound {α : Type} {method : DualMethod W α} (h : Keeps BothSound method) :
    Triple BothSound (do
      let _ ← (do
        let _ ← method
        return [] : DualMethod W (List ConnectionId))
      return [])
      (fun origins d => BothSound d ∧ Numbered origins) BothSound :=
  Triple.bind (Keeps.bind h fun _ => Keeps.pure _) fun _ => Triple.pure fun _ hd => ⟨hd, nofun⟩

/-- A call that reports the connection it has dialed. -/
theorem reportsDialed_sound (target : AddressFamily × PeerAddr) :
    Triple BothSound (do return [← originTarget net fuel target])
      (fun origins d => BothSound d ∧ Numbered origins) BothSound := by
  refine Triple.bind (originTarget_sound target) fun origin => Triple.pure fun d hd => ⟨hd.1, ?_⟩
  intro other hother
  rw [List.mem_singleton.mp hother]
  exact hd.2

/-! ## Operations on an id that was handed out -/

/-- Every operation on the id handed out for a connection runs on this connection, and a method of
its side leaves the other side alone. -/
structure Routed (net : AddressFamily → Net W) (fuel : Nat) (origin : Origin) : Prop where
  openStream : openStreamDual net origin.handedOut =
    onSide origin.1 (openStreamOn (net origin.1) origin.2)
  sendStream : ∀ streamId data, sendStreamDual net fuel origin.handedOut streamId data =
    onSide origin.1 (sendStreamOn (net origin.1) fuel origin.2 streamId data)
  closeStreamWrite : ∀ streamId, closeStreamWriteDual net fuel origin.handedOut streamId =
    onSide origin.1 (closeStreamWriteOn (net origin.1) fuel origin.2 streamId)
  resetStream : ∀ streamId, resetStreamDual net origin.handedOut streamId =
    onSide origin.1 (resetStreamOn (net origin.1) origin.2 streamId)
  close : closeDual net fuel origin.handedOut =
    onSide origin.1 (closeOn (net origin.1) fuel origin.2)
  others : ∀ {α : Type} (method : HostMethod W α) (other : AddressFamily) (side : Side),
    other ≠ origin.1 → Keeps (fun d => d.side other = side) (onSide origin.1 method)

theorem onInternal_handedOut {α : Type} {origin : Origin} (horigin : Mappable origin.2)
    (method : AddressFamily → ConnectionId → HostMethod W α) :
    onInternal origin.handedOut method = onSide origin.1 (method origin.1 origin.2) := by
  unfold onInternal Origin.handedOut
  rw [internalId_externalId origin.1 horigin]

theorem onSide_others {α : Type} {family other : AddressFamily} {side : Side}
    (hother : other ≠ family) (method : HostMethod W α) :
    Keeps (fun d => d.side other = side) (onSide family method) := by
  have hput : ∀ (d : DualHost W) (h : Host W), d.side other = side →
      (d.setHost family h).side other = side := by
    intro d h hd
    cases family <;> cases other
    · exact absurd rfl hother
    · exact hd
    · exact hd
    · exact absurd rfl hother
  have htrue : Triple (fun _ => True) method (fun _ _ => True) fun _ => True :=
    fun _ _ _ _ _ => ⟨fun _ _ => trivial, fun _ _ => trivial⟩
  exact Triple.zoom htrue (fun _ _ => trivial) (fun _ d h hd _ => hput d h hd)
    fun d h hd _ => hput d h hd

theorem routed_of_mappable {origin : Origin} (horigin : Mappable origin.2) :
    Routed net fuel origin where
  openStream := onInternal_handedOut horigin _
  sendStream _ _ := onInternal_handedOut horigin _
  closeStreamWrite _ := onInternal_handedOut horigin _
  resetStream _ := onInternal_handedOut horigin _
  close := onInternal_handedOut horigin _
  others method _ _ hother := onSide_others hother method

variable [MultihashCodec] {verifyLibp2pCertificate : Bytes → Except String PeerId}

/-! ## Runs -/

theorem method_eq (call : DualCall) :
    call.method net fuel verifyLibp2pCertificate =
      (·.map Origin.handedOut) <$> call.origins net fuel verifyLibp2pCertificate := by
  cases call with
  | dial addr =>
    simp only [DualCall.method, DualCall.origins, dialDual, map_bind, bind_assoc]
    congr 1
    funext targets
    cases targets with
    | nil => rfl
    | cons target _ =>
      simp only [dialTarget_eq, map_bind, bind_map_left]
      rfl
  | dialAll addr =>
    simp only [DualCall.method, DualCall.origins, Quic.dialAll, map_bind]
    congr 1
    funext targets
    rw [dialEach_eq, bind_map_left]
    congr 1
    funext found
    obtain ⟨origins, lastError⟩ := found
    cases origins <;> rfl
  | dialFamily addr family =>
    simp only [DualCall.method, DualCall.origins, Quic.dialFamily, map_bind, bind_assoc]
    congr 1
    funext targets
    cases targets.find? (·.1 = family) with
    | none => rfl
    | some target =>
      simp only [dialTarget_eq, map_bind, bind_map_left]
      rfl
  | poll =>
    simp only [DualCall.method, DualCall.origins, pollDual, map_bind, bind_assoc, pure_bind,
      map_pure]
    congr 1
    funext _
    congr 1
    funext ipv4
    congr 1
    funext ipv6
    have hids : reportedIds (ipv4.map (mapEvent .ipv4) ++ ipv6.map (mapEvent .ipv6)) =
        ((reportedIds ipv4).map (AddressFamily.ipv4, ·) ++
          (reportedIds ipv6).map (AddressFamily.ipv6, ·)).map
          Origin.handedOut := by
      rw [reportedIds_append, reportedIds_map, reportedIds_map, List.map_append, List.map_map,
        List.map_map]
      rfl
    rw [hids]
  | _ =>
    simp only [DualCall.method, DualCall.origins, map_bind, map_pure, bind_assoc, pure_bind]
    rfl

/-- A run hands out the ids of the connections that its calls were about. -/
theorem runDual_eq (d : DualHost W) (calls : List DualCall) :
    runDual net fuel verifyLibp2pCertificate d calls =
      (runOrigins net fuel verifyLibp2pCertificate d calls).map
        fun p => (p.1.map Origin.handedOut, p.2) := by
  induction calls generalizing d with
  | nil => rfl
  | cons call calls ih =>
    rw [runDual, runOrigins, method_eq, Prog.exec_map]
    cases Prog.exec (call.origins net fuel verifyLibp2pCertificate) d with
    | none => rfl
    | some p =>
      obtain ⟨result, d'⟩ := p
      simp only [Option.map_some, ih d', Option.map_map]
      congr 1
      funext p
      cases result with
      | error e => rfl
      | ok origins => exact congrArg (·, p.2) List.map_append.symm

/-- Whatever a call does, no connection it is about has the id 0. -/
theorem origins_sound (call : DualCall) :
    Triple BothSound (call.origins net fuel verifyLibp2pCertificate)
      (fun origins d => BothSound d ∧ Numbered origins) BothSound := by
  cases call with
  | dial addr =>
    refine Triple.bind (dialTargets_keeps addr) fun targets => ?_
    cases targets with
    | nil => exact Triple.throw fun _ hd => hd
    | cons target _ => exact reportsDialed_sound target
  | dialAll addr =>
    refine Triple.bind (dialTargets_keeps addr) fun targets => ?_
    refine Triple.bind (originEach_sound targets none) fun found => ?_
    dsimp only
    split
    · exact Triple.throw fun _ hd => hd.1
    · exact Triple.pure fun _ hd => hd
  | dialFamily addr family =>
    refine Triple.bind (dialTargets_keeps addr) fun targets => ?_
    split
    · exact Triple.throw fun _ hd => hd
    · exact reportsDialed_sound _
  | listen addr => exact reportsNothing_sound (onSide_keeps (listen_sound addr))
  | sendRawUdp target payload =>
    apply reportsNothing_sound
    refine Keeps.bind (onSide_keeps (sound_worldly.resolveDialSocketAddr_keeps _ _)) fun addr => ?_
    exact onSide_keeps (sendRawUdp_sound _ payload)
  | openStream id => exact reportsNothing_sound (onSide_keeps openStreamOn_sound)
  | sendStream id streamId data =>
    exact reportsNothing_sound (onSide_keeps (withConnection_keeps fun _ hid =>
      (owned_steady hid).sendStream_keeps streamId data))
  | closeStreamWrite id streamId =>
    exact reportsNothing_sound (onSide_keeps (withConnection_keeps fun _ hid =>
      (owned_steady hid).closeStreamWrite_keeps streamId))
  | resetStream id streamId =>
    exact reportsNothing_sound (onSide_keeps (withConnection_keeps fun _ hid =>
      resetStream_owned hid streamId))
  | close id =>
    exact reportsNothing_sound (onSide_keeps (withConnection_keeps fun _ hid => close_owned hid))
  | poll =>
    have hreported : ∀ {family : AddressFamily} {events : List TransportEvent}, Named events →
        Numbered ((reportedIds events).map fun id => (family, id)) := by
      intro family events hevents origin horigin
      obtain ⟨id, hid, rfl⟩ := List.mem_map.mp horigin
      obtain ⟨e, he, hconn⟩ := List.mem_filterMap.mp hid
      exact hevents e he id hconn
    refine Triple.bind (Q := fun _ => BothSound) (Triple.modify fun d hd family => ?_) fun _ => ?_
    · cases family with
      | ipv4 => exact ⟨(hd .ipv4).entries, (hd .ipv4).pending, nofun⟩
      | ipv6 => exact ⟨(hd .ipv6).entries, (hd .ipv6).pending, nofun⟩
    refine Triple.bind (onSide_sound poll_sound) fun ipv4 => ?_
    rintro d ⟨hd, hipv4⟩
    refine Triple.bind (onSide_sound poll_sound) (fun ipv6 => Triple.pure ?_) d hd
    rintro d' ⟨hd', hipv6⟩
    refine ⟨hd', fun origin horigin => ?_⟩
    rcases List.mem_append.mp horigin with h | h
    · exact hreported hipv4 origin h
    · exact hreported hipv6 origin h

/-- No run is about a connection with the id 0. -/
theorem runOrigins_numbered {d d' : DualHost W} {calls : List DualCall} {origins : List Origin}
    (hd : BothSound d)
    (hrun : runOrigins net fuel verifyLibp2pCertificate d calls = some (origins, d')) :
    Numbered origins := by
  induction calls generalizing d origins with
  | nil =>
    cases hrun
    nofun
  | cons call calls ih =>
    rw [runOrigins] at hrun
    split at hrun
    · cases hrun
    next result d₁ hexec =>
    obtain ⟨⟨later, d₂⟩, hlater, heq⟩ := Option.map_eq_some_iff.mp hrun
    cases heq
    obtain ⟨hok, herror⟩ := origins_sound call d hd result d₁ hexec
    intro origin horigin
    rcases List.mem_append.mp horigin with h | h
    · cases result with
      | error e => cases h
      | ok origins => exact (hok origins rfl).2 origin h
    · cases result with
      | error e => exact ih (herror e rfl) hlater origin h
      | ok origins => exact ih (hok origins rfl).1 hlater origin h

/-- `internal_id` undoes `external_id`, which gives every connection an id of its own that is not
0. So an operation on an id that was reported runs on the connection the id was made for. -/
theorem reported_ids_routed (net : AddressFamily → Net W) (fuel : Nat)
    (verifyLibp2pCertificate : Bytes → Except String PeerId) :
    (∀ family id, Mappable id →
      internalId (externalId family id) = (family, id) ∧ (externalId family id).asU64 ≠ 0) ∧
    (∀ origin origin' : Origin, Mappable origin.2 → Mappable origin'.2 →
      origin.handedOut = origin'.handedOut → origin = origin') ∧
    ∀ world calls reported d,
      runDual net fuel verifyLibp2pCertificate (.new world) calls = some (reported, d) →
      ∃ origins,
        runOrigins net fuel verifyLibp2pCertificate (.new world) calls = some (origins, d) ∧
        reported = origins.map Origin.handedOut ∧
        ∀ origin ∈ origins, origin.2.asU64 ≠ 0 ∧
          (origin.2.asU64.toNat < 2 ^ 63 → Routed net fuel origin) := by
  refine ⟨fun family id hid => ?_, fun origin origin' h h' heq => ?_, ?_⟩
  · exact ⟨internalId_externalId family hid, externalId_ne_zero family hid⟩
  · obtain ⟨hfamily, hid⟩ := externalId_injective h h' heq
    exact Prod.ext hfamily hid
  · intro world calls reported d hrun
    rw [runDual_eq, Option.map_eq_some_iff] at hrun
    obtain ⟨⟨origins, d'⟩, horigins, heq⟩ := hrun
    cases heq
    have hnew : BothSound (.new world) := by
      intro family
      cases family <;> exact sound_new world
    refine ⟨origins, horigins, rfl, fun origin horigin => ?_⟩
    have hid := runOrigins_numbered hnew horigins origin horigin
    refine ⟨hid, fun hlt => routed_of_mappable ⟨?_, hlt⟩⟩
    exact Nat.pos_of_ne_zero fun hzero => hid (UInt64.toNat_inj.mp hzero)

end Runs

/-- The address [fd00::1]:4001 of `somePeer`. -/
def somePeerAddr6 : PeerAddr where
  transport := ⟨[.ip6 #v[0xfd, 0, 0, 0, 0, 0, 0, 0, 0, 0, 0, 0, 0, 0, 0, 1], .udp 4001, .quicV1]⟩
  peerId := somePeer
  noPeerId := rfl
  nonempty := rfl

/-- A network on which nothing arrives, for each side. -/
def idleNets (_ : AddressFamily) : Net Unit := .idle Unit (.v4 (.replicate 4 0) 4001)

/-- Both sides dial their first connection. The IPv6 one is handed out as 2, and streams on 2 are
opened on the connection 1 of the IPv6 side. -/
theorem reported_ids_routed_dialed :
    ∃ d, @runDual Unit idleNets 1 multihashCodec (fun _ => .ok somePeer) (.new ())
        [.dial somePeerAddr, .dial somePeerAddr6, .poll] = some ([⟨1⟩, ⟨2⟩], d) ∧
      openStreamDual idleNets ⟨2⟩ = onSide .ipv6 (openStreamOn (idleNets .ipv6) ⟨1⟩) := by
  have hreported : (@runDual Unit idleNets 1 multihashCodec (fun _ => .ok somePeer) (.new ())
      [.dial somePeerAddr, .dial somePeerAddr6, .poll]).map Prod.fst = some [⟨1⟩, ⟨2⟩] := by
    decide +kernel
  have hmade : (@runOrigins Unit idleNets 1 multihashCodec (fun _ => .ok somePeer) (.new ())
      [.dial somePeerAddr, .dial somePeerAddr6, .poll]).map Prod.fst =
        some [(.ipv4, ⟨1⟩), (.ipv6, ⟨1⟩)] := by
    decide +kernel
  obtain ⟨⟨reported, d⟩, hrun, rfl⟩ := Option.map_eq_some_iff.mp hreported
  obtain ⟨-, -, hroutes⟩ :=
    @reported_ids_routed Unit multihashCodec idleNets 1 fun _ => .ok somePeer
  obtain ⟨origins, horigins, -, hrouted⟩ := hroutes _ _ _ _ hrun
  rw [horigins, Option.map_some, Option.some.injEq] at hmade
  obtain rfl : origins = _ := hmade
  refine ⟨d, hrun, ?_⟩
  exact ((hrouted (.ipv6, ⟨1⟩) (by decide)).2 (by decide)).openStream

end Minip2p.Quic
