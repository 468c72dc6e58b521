import Minip2p.Stack.Platform
import Minip2p.Swarm.Actions
import Minip2p.Swarm.DriverInvariants

/-!
# A swarm over QUIC keeps the contract of its core

The results about the core speak of runs in which its transport keeps a contract. Here the contract
is discharged for the QUIC transport: as long as its run is orderly, the calls the driver makes on
the core are a handshake run. Core and transport need each other for this: the core sends on
streams only that were announced to it, because the transport kept the contract so far.
-/

namespace Minip2p.Stack

open Swarm (Call Connected Announced SwarmCore SwarmAction SwarmEvent Driver DriverCall HandshakeRun
  NoCollision Inverse Within)
open Swarm.SwarmCore (syntheticPeerId)
open Quic (Host HostMethod Net)

section Runs

variable {W : Type} [Sha256] [MultihashCodec]

/-! ## What the core asks for -/

/-- In a handshake run every queued stream action names a stream that was announced. -/
theorem queued_announced (hsha : NoCollision) (identifyConfig : Identify.IdentifyConfig)
    (pingConfig : Ping.PingConfig) {calls : List Call} (hrun : HandshakeRun calls) :
    ∀ a ∈ (Swarm.run (SwarmCore.new identifyConfig pingConfig) calls).actions,
      ∀ k, a.key? = some k → Announced calls k := by
  refine (Swarm.handshake_invariant hsha identifyConfig pingConfig
    (I := fun calls s => ∀ a ∈ s.actions, ∀ k, a.key? = some k → Announced calls k) hrun
    (by rintro a ⟨⟩) ?_).2
  intro before call s _ hcoherent hrepresented hcontract _ hclash hactions
  obtain ⟨kept, added, heq, hkept, hadded⟩ :=
    Swarm.step_actions hcoherent hrepresented.unique hcontract hclash
  intro a ha k hk
  rw [heq] at ha
  rcases List.mem_append.mp ha with ha | ha
  · exact (hactions a (hkept.subset ha) k hk).concat
  · exact (hadded a ha k hk).2

/-! ## The invariant -/

section Invariant

variable {machine : Machine W} {laws : MachineLaws machine} {core₀ : SwarmCore} {fuel : Nat}
  {verifyLibp2pCertificate : Bytes → Except String PeerId} {driver : Driver (Adapter W)}

/-- The core is where its calls have brought it, and the transport mirrors these calls. -/
structure Kept (laws : MachineLaws machine)
    (verifyLibp2pCertificate : Bytes → Except String PeerId) (core₀ : SwarmCore)
    (driver : Driver (Adapter W)) : Prop where
  core : driver.core = Swarm.run core₀ driver.calls
  mirrors : ∀ nowMs,
    HostMirrors (laws.setup verifyLibp2pCertificate) .pending driver.calls nowMs driver.world.host
  reported : ∀ c, reports driver.world.reported c = true → Connected driver.calls c

/-- All of this holds while the run is orderly. -/
def InOrder (laws : MachineLaws machine) (verifyLibp2pCertificate : Bytes → Except String PeerId)
    (core₀ : SwarmCore) (driver : Driver (Adapter W)) : Prop :=
  driver.world.orderly = true → Kept laws verifyLibp2pCertificate core₀ driver

/-- The transport has reported verified peers only. -/
theorem Kept.verifiedRun (h : Kept laws verifyLibp2pCertificate core₀ driver) :
    VerifiedRun (fun p => ∃ der, verifyLibp2pCertificate der = .ok p) driver.calls :=
  (Runs.eachStep_append.mp (h.mirrors 0).table.known.run).1

/-! ## Steps of the transport -/

omit [Sha256] [MultihashCodec] in
/-- A method that kept the order has returned. -/
theorem Adapter.run_orderly {α : Type} {s : Adapter W} {method : HostMethod W α} {inOrder : Bool}
    (h : (s.run method inOrder).2.orderly = true) :
    s.orderly = true ∧ inOrder = true ∧ ∃ r host, Prog.exec method s.host = some (r, host) ∧
      s.run method inOrder = (r, { s with host }) := by
  unfold Adapter.run at h ⊢
  cases hexec : Prog.exec method s.host with
  | none =>
    rw [hexec] at h
    cases h
  | some p =>
    obtain ⟨r, host⟩ := p
    rw [hexec] at h
    obtain ⟨horderly, hinOrder⟩ := Bool.and_eq_true_iff.mp h
    refine ⟨horderly, hinOrder, r, host, rfl, ?_⟩
    rw [horderly, hinOrder]
    rfl

/-- The transport moved on without reporting anything that is handed out. -/
theorem Kept.withHost (h : Kept laws verifyLibp2pCertificate core₀ driver) {host : Host W}
    (hmirrors : ∀ nowMs,
      HostMirrors (laws.setup verifyLibp2pCertificate) .pending driver.calls nowMs host) :
    Kept laws verifyLibp2pCertificate core₀ { driver with world := { driver.world with host } } :=
  ⟨h.core, hmirrors, h.reported⟩

/-- A method that keeps the mirror, at whatever time its events will be told. -/
theorem InOrder.run {α : Type} {method : HostMethod W α} {inOrder : Bool}
    (h : InOrder laws verifyLibp2pCertificate core₀ driver)
    (hmethod : driver.world.orderly = true → inOrder = true → ∀ nowMs,
      Triple (fun host => host = driver.world.host) method
        (fun _ => HostMirrors (laws.setup verifyLibp2pCertificate) .pending driver.calls nowMs)
        (HostMirrors (laws.setup verifyLibp2pCertificate) .pending driver.calls nowMs)) :
    InOrder laws verifyLibp2pCertificate core₀
      { driver with world := (driver.world.run method inOrder).2 } := by
  intro horderly
  obtain ⟨hbefore, hinOrder, r, host, hexec, heq⟩ := Adapter.run_orderly horderly
  rw [heq]
  exact (h hbefore).withHost fun nowMs => (hmethod hbefore hinOrder nowMs).of_exec rfl hexec

/-- The machine itself moves on. -/
theorem InOrder.ask {α : Type} (h : InOrder laws verifyLibp2pCertificate core₀ driver)
    (op : W → α × W)
    (hop : ∀ n raw w, laws.finished n raw w → laws.finished n raw (op w).2) :
    InOrder laws verifyLibp2pCertificate core₀
      { driver with world := (driver.world.ask op).2 } := fun horderly =>
  (h horderly).withHost fun nowMs => ((h horderly).mirrors nowMs).withWorld fun n raw =>
    hop n raw driver.world.host.world

/-- A call on the core that is no transport event. -/
theorem Kept.onCore (h : Kept laws verifyLibp2pCertificate core₀ driver) {call : Call}
    (hmirrors : ∀ nowMs, HostMirrors (laws.setup verifyLibp2pCertificate) .pending
      (driver.calls ++ [call]) nowMs driver.world.host) :
    Kept laws verifyLibp2pCertificate core₀ (driver.onCore call) := by
  refine ⟨?_, hmirrors, fun c hc => (h.reported c hc).concat⟩
  show Swarm.step driver.core call = Swarm.run core₀ (driver.calls ++ [call])
  rw [Swarm.run_concat, h.core]

/-- A call of the application keeps the account. -/
theorem Kept.tell (h : Kept laws verifyLibp2pCertificate core₀ driver) {call : Call}
    (hevent : call.transportEvent? = none) (hannounces : call.announces? = none) :
    Kept laws verifyLibp2pCertificate core₀ (driver.onCore call) := by
  refine h.onCore fun nowMs => (h.mirrors nowMs).tell hevent ?_ ?_
  · rcases call with (⟨event, nowMs⟩ | ⟨c, t, token, nowMs⟩ | _ | _ | _) | _
    case input.transport => cases hevent
    case input.streamOpened => cases hannounces
    all_goals trivial
  · intro k hk
    cases hannounces.symm.trans hk

/-- A call of the application keeps the order. -/
theorem InOrder.tell (h : InOrder laws verifyLibp2pCertificate core₀ driver) {call : Call}
    (hevent : call.transportEvent? = none) (hannounces : call.announces? = none) :
    InOrder laws verifyLibp2pCertificate core₀ (driver.onCore call) := fun horderly =>
  (h horderly).tell hevent hannounces

/-- The transport refuses an action, or carries it out. -/
theorem InOrder.reportRefused (h : InOrder laws verifyLibp2pCertificate core₀ driver)
    (c : ConnectionId) (result : Except TransportError Unit) (detail : TransportError → String) :
    InOrder laws verifyLibp2pCertificate core₀ (driver.reportRefused c result detail) := by
  cases result with
  | ok u => exact h
  | error e => exact h.tell rfl rfl

/-- The driver opens a stream and tells the core, which did not know it. -/
theorem InOrder.openStream (h : InOrder laws verifyLibp2pCertificate core₀ driver)
    (c : ConnectionId) (token : Swarm.OpenStreamToken) (captured : Option StreamId) :
    InOrder laws verifyLibp2pCertificate core₀
      (Driver.dispatchAction (platform machine fuel verifyLibp2pCertificate) driver
        (.openStream c token) captured).1 := by
  have hasked : ∀ {r : Except TransportError StreamId} {host : Host W},
      Prog.exec (Quic.openStreamOn machine.toNet c) driver.world.host = some (r, host) →
      driver.world.orderly = true → hasStreamIds driver.world.host c = true → ∀ nowMs,
      (∀ t, r = .ok t → Opened (laws.setup verifyLibp2pCertificate) driver.calls nowMs c t host) ∧
        (∀ e, r = .error e →
          HostMirrors (laws.setup verifyLibp2pCertificate) .pending driver.calls nowMs host) :=
    fun hexec hbefore hids nowMs =>
      openStreamOn_opened ((h hbefore).mirrors nowMs) hids _ rfl _ _ hexec
  cases hresult : ((platform machine fuel verifyLibp2pCertificate).openStream c
    driver.world).1 with
  | ok t =>
    simp only [Driver.dispatchAction, Driver.ask, hresult]
    intro horderly
    obtain ⟨hbefore, hids, r, host, hexec, heq⟩ := Adapter.run_orderly horderly
    obtain rfl : r = .ok t := (congrArg Prod.fst heq).symm.trans hresult
    have hopened := fun nowMs => (hasked hexec hbefore hids nowMs).1 t rfl
    have hworld : ((platform machine fuel verifyLibp2pCertificate).openStream c driver.world).2 =
        { driver.world with host } := congrArg Prod.snd heq
    rw [hworld]
    refine ((h hbefore).withHost fun nowMs => ?_).onCore fun nowMs => ?_
    · exact (hopened nowMs).mirrors.withWorld fun n raw => laws.nowMs n raw _
    · exact ((hopened nowMs).withWorld fun n raw => laws.nowMs n raw _).announce
  | error e =>
    simp only [Driver.dispatchAction, Driver.ask, hresult]
    intro horderly
    obtain ⟨hbefore, hids, r, host, hexec, heq⟩ := Adapter.run_orderly horderly
    obtain rfl : r = .error e := (congrArg Prod.fst heq).symm.trans hresult
    have hfailed := fun nowMs => (hasked hexec hbefore hids nowMs).2 e rfl
    have hworld : ((platform machine fuel verifyLibp2pCertificate).openStream c driver.world).2 =
        { driver.world with host } := congrArg Prod.snd heq
    rw [hworld]
    refine Kept.tell ((h hbefore).withHost fun nowMs => ?_) rfl rfl
    exact (hfailed nowMs).withWorld fun n raw => laws.nowMs n raw _

/-- Carrying out an action that the core has queued. -/
theorem InOrder.action (hsha : NoCollision)
    (hverify : ∀ der p, verifyLibp2pCertificate der = .ok p → ∀ c, p ≠ syntheticPeerId c)
    {identifyConfig : Identify.IdentifyConfig} {pingConfig : Ping.PingConfig}
    (h : InOrder laws verifyLibp2pCertificate (SwarmCore.new identifyConfig pingConfig) driver)
    {a : SwarmAction}
    (ha : driver.core.pollOutput.2 = some (.action a)) (captured : Option StreamId) :
    InOrder laws verifyLibp2pCertificate (SwarmCore.new identifyConfig pingConfig)
      (Driver.dispatchAction (platform machine fuel verifyLibp2pCertificate)
        (driver.onCore .pollOutput) a captured).1 := by
  have hpolled : InOrder laws verifyLibp2pCertificate (SwarmCore.new identifyConfig pingConfig)
      (driver.onCore .pollOutput) := h.tell rfl rfl
  have hmem : a ∈ driver.core.actions := by
    rcases Swarm.pollOutput_cases driver.core with
      ⟨b, actions, hactions, heq⟩ | ⟨e, events, -, -, heq⟩ | ⟨-, -, heq⟩
    · rw [heq] at ha
      cases ha
      rw [hactions]
      exact List.mem_cons_self
    · rw [heq] at ha
      cases ha
    · rw [heq] at ha
      cases ha
  -- the core sends on announced streams only, because the contract has been kept so far
  have hknown : driver.world.orderly = true → ∀ k, a.key? = some k →
      Announced (driver.onCore .pollOutput).calls k := by
    intro horderly k hk
    have hkept := h horderly
    rw [hkept.core] at hmem
    have hrun := hkept.verifiedRun.handshake fun p hp => hp.elim fun der hder => hverify der p hder
    exact (queued_announced hsha identifyConfig pingConfig hrun a hmem k hk).concat
  cases a with
  | openStream c token => exact hpolled.openStream c token captured
  | sendStream c t data =>
    refine InOrder.reportRefused (hpolled.run fun horderly _ nowMs => ?_) c _ _
    exact (sendStreamOn_mirrors data).mono (fun _ hh => hh ▸ ⟨(hpolled horderly).mirrors nowMs,
      announced_history nowMs (hknown horderly _ rfl)⟩) (fun _ _ hh => hh) fun _ hh => hh
  | closeStreamWrite c t =>
    refine InOrder.reportRefused (hpolled.run fun horderly _ nowMs => ?_) c _ _
    exact closeStreamWriteOn_mirrors.mono (fun _ hh => hh ▸ ⟨(hpolled horderly).mirrors nowMs,
      announced_history nowMs (hknown horderly _ rfl)⟩) (fun _ _ hh => hh) fun _ hh => hh
  | resetStream c t =>
    refine InOrder.reportRefused (hpolled.run fun horderly _ nowMs => ?_) c _ _
    exact resetStreamOn_mirrors.mono (fun _ hh => hh ▸ (hpolled horderly).mirrors nowMs)
      (fun _ _ hh => hh) fun _ hh => hh
  | closeConnection c =>
    refine InOrder.reportRefused (hpolled.run fun horderly _ nowMs => ?_) c _ _
    exact closeOn_mirrors.mono (fun _ hh => hh ▸ (hpolled horderly).mirrors nowMs)
      (fun _ _ hh => hh) fun _ hh => hh

/-! ## Polls -/

omit [Sha256] in
/-- A poll that kept the order has returned events. -/
theorem pollAdapter_orderly {s : Adapter W}
    (h : (pollAdapter machine fuel verifyLibp2pCertificate s).2.orderly = true) :
    s.orderly = true ∧ s.hasConnectionIds fuel = true ∧
      pollReadsReported machine.toNet fuel s.reported verifyLibp2pCertificate s.host = true ∧
      ∃ events host, Prog.exec (Quic.poll machine.toNet fuel verifyLibp2pCertificate) s.host =
          some (.ok events, host) ∧
        pollAdapter machine fuel verifyLibp2pCertificate s =
          (.ok events, { s with host, reported := s.reported ++ events }) := by
  unfold pollAdapter at h ⊢
  split at h
  · next events after heq =>
    have hkept := h
    rw [← congrArg (fun p => p.2.orderly) heq] at hkept
    obtain ⟨hbefore, hinOrder, r, host, hexec, hsame⟩ := Adapter.run_orderly hkept
    rw [hsame] at heq
    cases heq
    obtain ⟨hids, hreads⟩ := Bool.and_eq_true_iff.mp hinOrder
    exact ⟨hbefore, hids, hreads, events, host, hexec, rfl⟩
  · cases h

/-- The core is told what a poll has returned. -/
theorem feedEvents_told (driver : Driver (Adapter W)) (events : List TransportEvent)
    (nowMs : UInt64) :
    (driver.feedEvents events nowMs).calls = history driver.calls nowMs events ∧
      (driver.feedEvents events nowMs).world = driver.world := by
  induction events generalizing driver with
  | nil => exact ⟨history_nil.symm, rfl⟩
  | cons event events ih =>
    obtain ⟨hcalls, hworld⟩ := ih (driver.onCore (.input (.transport event nowMs)))
    exact ⟨hcalls.trans (List.append_assoc _ [_] _), hworld⟩

/-- The core is what the calls made on it make of it. -/
theorem feedEvents_core {events : List TransportEvent} {nowMs : UInt64}
    (hcore : driver.core = Swarm.run core₀ driver.calls) :
    (driver.feedEvents events nowMs).core =
      Swarm.run core₀ (driver.feedEvents events nowMs).calls := by
  induction events generalizing driver with
  | nil => exact hcore
  | cons event events ih =>
    refine ih ?_
    show Swarm.step driver.core (.input (.transport event nowMs)) =
      Swarm.run core₀ (driver.calls ++ [.input (.transport event nowMs)])
    rw [Swarm.run_concat, hcore]

/-- What a poll of the transport reports keeps the order. -/
theorem InOrder.poll (h : InOrder laws verifyLibp2pCertificate core₀ driver)
    {events : List TransportEvent}
    (hevents : (pollAdapter machine fuel verifyLibp2pCertificate driver.world).1 = .ok events)
    (nowMs : UInt64) :
    InOrder laws verifyLibp2pCertificate core₀
      ((driver.ask (platform machine fuel verifyLibp2pCertificate).poll).2.feedEvents events
        nowMs) := by
  intro horderly
  obtain ⟨hcalls, hworld⟩ := feedEvents_told
    (driver.ask (platform machine fuel verifyLibp2pCertificate).poll).2 events nowMs
  rw [hworld] at horderly
  obtain ⟨hbefore, hids, hreads, _, host, hexec, heq⟩ := pollAdapter_orderly horderly
  obtain rfl := Except.ok.inj ((congrArg Prod.fst heq).symm.trans hevents)
  have hkept := h hbefore
  have hverified : ∀ der p, verifyLibp2pCertificate der = .ok p →
      (laws.setup verifyLibp2pCertificate).verified p := fun der p hder => ⟨der, hder⟩
  have hpoll := (poll_mirrors hverified hkept.reported (hkept.mirrors nowMs)
    (of_decide_eq_true hids) hreads).and (Quic.poll_collects driver.world.host)
  obtain ⟨hmirrors, hsame, -⟩ := (hpoll _ ⟨rfl, rfl⟩ _ _ hexec).1 _ rfl
  have hasked : (driver.ask (platform machine fuel verifyLibp2pCertificate).poll).2 =
      { driver with world := { driver.world with
          host, reported := driver.world.reported ++ host.events } } := by
    rw [← hsame]
    exact congrArg (fun p => { driver with world := p.2 }) heq
  refine ⟨feedEvents_core hkept.core, ?_, ?_⟩
  · intro now
    rw [hcalls, hworld, hasked, hsame]
    exact hmirrors.handOut now
  · rw [hcalls, hworld, hasked, hsame]
    exact fun c hc => connected_of_reports hkept.reported hc

/-! ## Runs -/

/-- The invariant is kept by everything the driver does. -/
theorem inOrder_invariant (hsha : NoCollision) (identifyConfig : Identify.IdentifyConfig)
    (pingConfig : Ping.PingConfig) (laws : MachineLaws machine)
    (hverify : ∀ der p, verifyLibp2pCertificate der = .ok p → ∀ c, p ≠ syntheticPeerId c) :
    Driver.Invariant (platform machine fuel verifyLibp2pCertificate)
      (InOrder laws verifyLibp2pCertificate (SwarmCore.new identifyConfig pingConfig)) where
  buffer driver events h horderly :=
    ⟨(h horderly).core, (h horderly).mirrors, (h horderly).reported⟩
  listen driver addr h := h.run fun horderly _ nowMs =>
    (listen_mirrors addr).mono (fun _ hh => hh ▸ (h horderly).mirrors nowMs) (fun _ _ hh => hh)
      fun _ hh => hh
  dial driver addr h := h.run fun horderly hids nowMs => by
    refine (dial_mirrors addr (of_decide_eq_true hids)).mono ?_ (fun _ _ hh => hh) fun _ hh => hh
    rintro _ rfl
    exact ⟨(h horderly).mirrors nowMs, Nat.le_refl _⟩
  localAddresses driver h := h.run fun horderly _ nowMs =>
    HostMirrors.along.localAddresses_keeps.mono (fun _ hh => hh ▸ (h horderly).mirrors nowMs)
      (fun _ _ hh => hh) fun _ hh => hh
  nowMs driver h := h.ask machine.nowMs laws.nowMs
  randPingPayload driver h := h.ask machine.randPingPayload laws.randPingPayload
  instantNow driver h := h.ask machine.instantNow laws.instantNow
  sleep driver h := h.ask (fun w => ((), machine.sleep w)) laws.sleep
  tell driver call hevent hannounces h := h.tell hevent hannounces
  action driver a captured ha h := h.action hsha hverify ha captured
  refused driver e he h horderly := by
    obtain ⟨-, -, -, events, host, -, heq⟩ := pollAdapter_orderly horderly
    cases (congrArg Prod.fst heq).symm.trans he
  poll driver events nowMs hevents h := h.poll hevents nowMs

/-- A socket that was just bound mirrors that nothing has been said. -/
theorem kept_new (laws : MachineLaws machine)
    (verifyLibp2pCertificate : Bytes → Except String PeerId)
    (identifyConfig : Identify.IdentifyConfig) (pingConfig : Ping.PingConfig)
    (localPeerId : PeerId) (world : W) :
    Kept laws verifyLibp2pCertificate (SwarmCore.new identifyConfig pingConfig)
      (Driver.new identifyConfig pingConfig localPeerId (.new world)) where
  core := rfl
  mirrors nowMs := by
    have hnone : ∀ {id : ConnectionId} {entry : Quic.Entry},
        ¬ (∅ : BTreeMap ConnectionId Quic.Entry)[id]? = some entry := by
      intro id entry h
      rw [Std.ExtTreeMap.getElem?_empty] at h
      cases h
    have hcounter : 0 < (1 : UInt64).toNat := by decide
    refine ⟨⟨Known.nil _, hcounter, fun _ _ h => absurd h hnone, fun _ _ h => absurd h hnone⟩, ?_,
      by rintro ⟨⟩⟩
    rintro - e he
    cases he
  reported := by
    rintro c ⟨⟩

/-- Whatever the application calls, an orderly run keeps the order, and so the mirror. -/
theorem kept_of_orderly (hsha : NoCollision) (laws : MachineLaws machine)
    (hverify : ∀ der p, verifyLibp2pCertificate der = .ok p → ∀ c, p ≠ syntheticPeerId c)
    {identifyConfig : Identify.IdentifyConfig} {pingConfig : Ping.PingConfig}
    {localPeerId : PeerId} {world : W} {turns : Nat} {calls : List (DriverCall (Adapter W))}
    (hcalls : ∀ call ∈ calls, call.LeavesWorld) {handed : List SwarmEvent}
    (hrun : (Driver.new identifyConfig pingConfig localPeerId (.new world)).drive
      (platform machine fuel verifyLibp2pCertificate) turns calls = some (handed, driver))
    (horderly : driver.world.orderly = true) :
    Kept laws verifyLibp2pCertificate (SwarmCore.new identifyConfig pingConfig) driver :=
  (inOrder_invariant hsha identifyConfig pingConfig laws hverify).drive hcalls
    (fun _ => kept_new laws verifyLibp2pCertificate identifyConfig pingConfig localPeerId world)
    hrun horderly

/-- The calls of an orderly run on the core of a swarm over QUIC are a handshake run, and so the
core is where its invariants hold: its connection maps are mutually inverse, its tables have
entries for connected peers only, and no stream was asked for on a connection of another peer. -/
theorem driver_keeps_contract (hsha : NoCollision) (machine : Machine W)
    (laws : MachineLaws machine) (fuel turns : Nat)
    (verifyLibp2pCertificate : Bytes → Except String PeerId)
    (hverify : ∀ der p, verifyLibp2pCertificate der = .ok p → ∀ c, p ≠ syntheticPeerId c)
    (identifyConfig : Identify.IdentifyConfig) (pingConfig : Ping.PingConfig)
    (localPeerId : PeerId) (world : W) (calls : List (DriverCall (Adapter W)))
    (hcalls : ∀ call ∈ calls, call.LeavesWorld) (handed : List SwarmEvent)
    (driver : Driver (Adapter W))
    (hrun : (Driver.new identifyConfig pingConfig localPeerId (.new world)).drive
      (platform machine fuel verifyLibp2pCertificate) turns calls = some (handed, driver))
    (horderly : driver.world.orderly = true) :
    HandshakeRun driver.calls ∧
      driver.core = Swarm.run (SwarmCore.new identifyConfig pingConfig) driver.calls ∧
      Inverse driver.core ∧ Within (· ∈ driver.core.peerToConn) driver.core ∧
      driver.core.debugAssertFailed = false := by
  have hkept := kept_of_orderly hsha laws hverify hcalls hrun horderly
  have hhandshake := hkept.verifiedRun.handshake fun p hp => hp.elim fun der => hverify der p
  have hrepresented := (Swarm.handshake_invariant hsha identifyConfig pingConfig
    (I := fun _ _ => True) hhandshake trivial fun _ _ _ _ _ _ _ _ _ _ => trivial).1
  have hcontract : Swarm.ContractRun driver.calls := hhandshake.mono fun _ _ h => h.1
  have hprimary := (Swarm.coherent_run identifyConfig pingConfig hcontract).primary
  rw [hkept.core]
  exact ⟨hhandshake, rfl, Swarm.inverse_iff.mpr ⟨hprimary, hrepresented.unique⟩,
    hrepresented.within, hrepresented.asserted⟩

end Invariant

end Runs

/-! ## A concrete run -/

namespace Sample

/-- Packets that wait in the socket, and whether the peer's stream is still to be read. -/
structure World where
  inbox : List Bytes
  unread : Bool
deriving DecidableEq

/-- The address of the remote. -/
def remote : Quic.SocketAddr := .v4 (.replicate 4 1) 4001

/-- A connection that is established with its first packet, to a peer that presents `cert` and
sends an empty stream. -/
def quiche (cert : Bytes) : Quic.Quiche World where
  recv _ w := (.ok (), w)
  isEstablished w := (true, w)
  isServer w := (false, w)
  peerCert w := (some cert, w)
  close _ _ w := (.ok (), w)
  readable w := (if w.unread then [1] else [], w)
  streamRecv _ w := (.ok ([], true), { w with unread := false })
  streamSend _ data _ w := (.ok data.length, w)
  streamShutdown _ _ w := (.ok (), { w with unread := false })
  send w := (.error .done, w)
  sendTo _ w := (.ok (), w)
  keyOrder keys w := (keys, w)
  keyOrder_perm keys _ := .refl keys

/-- A machine on which the remote answers with this certificate. -/
def machine (cert : Bytes) : Machine World where
  quiche _ := quiche cert
  sourceId _ w := ([], w)
  isClosed _ w := (false, w)
  header _ := none
  connect _ _ _ w := (.ok 0, w)
  accept _ _ _ w := (.ok 0, w)
  generateScid w := (.ok [], w)
  localAddr w := (.ok remote, w)
  recvFrom w :=
    match w.inbox with
    | [] => (.wouldBlock, w)
    | packet :: inbox => (.packet packet remote, { w with inbox })
  sendTo _ _ w := (.ok (), w)
  toSocketAddrs _ w := (.ok [], w)
  keyOrder keys w := (keys, w)
  keyOrder_perm keys _ := .refl keys
  nowMs w := (0, w)
  randPingPayload w := (Vector.replicate _ 0, w)
  instantNow w := (0, w)
  sleep w := w

/-- Nothing makes the stream unread again. -/
theorem unread_lasts {cert : Bytes} {w w' : World} (h : (machine cert).Moves w w')
    (hw : w.unread = false) : w'.unread = false := by
  cases h with
  | quiche n h =>
    cases h with
    | silent h => cases h <;> exact hw
    | streamSend => exact hw
    | streamRecv => rfl
    | streamShutdown => rfl
  | recvFrom =>
    show ((machine cert).recvFrom w).2.unread = false
    unfold machine
    dsimp only
    split <;> exact hw
  | _ => exact hw

/-- What holds of that machine. -/
def laws (cert : Bytes) : MachineLaws (machine cert) where
  server _ := false
  finished _ _ w := w.unread = false
  isServer _ _ := rfl
  lasts _ _ _ _ h hw := unread_lasts h hw
  fin _ _ _ _ _ := rfl
  shut _ _ _ _ := rfl
  unreadable n raw w hraw hw := by
    have hnone : (((machine cert).quiche n).readable w).1 = [] := by
      show (if w.unread then [1] else []) = ([] : List UInt64)
      rw [hw]
      rfl
    rw [hnone] at hraw
    cases hraw
  nowMs _ _ _ h := h
  randPingPayload _ _ _ h := h
  instantNow _ _ _ h := h
  sleep _ _ _ h := h

/-- The address of a peer. -/
def addr (peer : PeerId) : PeerAddr where
  transport := ⟨[.ip4 (.replicate 4 1), .udp 4001, .quicV1]⟩
  peerId := peer
  noPeerId := rfl
  nonempty := rfl

/-- A peer is dialed and answers with one packet. -/
def dialed (cert : Bytes) (verifyLibp2pCertificate : Bytes → Except String PeerId)
    (peer : PeerId) : Option (List SwarmEvent × Driver (Adapter World)) :=
  @Driver.drive _ Swarm.Sample.sha256 multihashCodec
    (@platform _ multihashCodec (machine cert) 9 verifyLibp2pCertificate) 1
    (.new { protocolVersion := "ipfs/0.1.0", agentVersion := "minip2p/0.1.0", protocols := [],
            publicKey := [] } default peer (.new ⟨[[]], true⟩)) [.dial (addr peer), .poll]

/-- Alice is dialed, who is known by an empty certificate. -/
def aliceDialed : Option (List SwarmEvent × Driver (Adapter World)) :=
  dialed [] (fun _ => .ok Swarm.Sample.alice) Swarm.Sample.alice

end Sample

theorem driver_keeps_contract_dialed :
    ∃ handed driver, Sample.aliceDialed = some (handed, driver) ∧
      .connectionEstablished Swarm.Sample.alice ∈ handed ∧
      @HandshakeRun Swarm.Sample.sha256 driver.calls ∧ Inverse driver.core := by
  obtain ⟨⟨handed, driver⟩, hrun⟩ :=
    Option.isSome_iff_exists.mp (show Sample.aliceDialed.isSome = true by decide +kernel)
  have hhanded : Sample.aliceDialed.map (·.1) =
      some [.connectionEstablished Swarm.Sample.alice] := by decide +kernel
  have horderly : Sample.aliceDialed.map (·.2.world.orderly) = some true := by decide +kernel
  rw [hrun] at hhanded horderly
  have hkeeps := @driver_keeps_contract _ Swarm.Sample.sha256 multihashCodec
    Swarm.Sample.noCollision (Sample.machine []) (Sample.laws []) 9 1
    (fun _ => .ok Swarm.Sample.alice)
    (by rintro _ _ ⟨⟩; exact Swarm.Sample.alice_ne_syntheticPeerId) _ _ _ _ _
    (by simp [DriverCall.LeavesWorld]) handed driver hrun (Option.some.inj horderly)
  refine ⟨handed, driver, hrun, ?_, hkeeps.1, hkeeps.2.2.1⟩
  rw [show handed = [_] from Option.some.inj hhanded]
  exact List.mem_cons_self

end Minip2p.Stack
