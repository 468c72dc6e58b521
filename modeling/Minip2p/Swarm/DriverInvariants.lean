import Minip2p.Swarm.Driver

/-!
# Invariants of the driver

What the driver does is made of a few steps: it asks the platform, makes a call on the core, and
carries out the action or takes the event the core hands out. A property that each of these steps
keeps (`Driver.Invariant`) holds after every sequence of public calls, as long as the application
leaves the transport alone.
-/

namespace Minip2p.Swarm

/-- The application does not reach into the transport, neither itself nor in its predicates. -/
def DriverCall.LeavesWorld {W : Type} : DriverCall W → Prop
  | .transportMut use => ∀ w, use w = w
  | .runUntil _ predicate => ∀ event w, (predicate event w).2 = w
  | _ => True

namespace Driver

variable {W : Type} [Sha256] [MultihashCodec] {platform : Platform W} {I : Driver W → Prop}

/-- Every step of the driver keeps `I`. -/
structure Invariant (platform : Platform W) (I : Driver W → Prop) : Prop where
  buffer : ∀ driver events, I driver → I { driver with eventBuffer := events }
  listen : ∀ driver addr, I driver → I (driver.ask (platform.listen addr)).2
  dial : ∀ driver addr, I driver → I (driver.ask (platform.dial addr)).2
  localAddresses : ∀ driver, I driver → I (driver.ask platform.localAddresses).2
  nowMs : ∀ driver, I driver → I (driver.ask platform.nowMs).2
  randPingPayload : ∀ driver, I driver → I (driver.ask platform.randPingPayload).2
  instantNow : ∀ driver, I driver → I (driver.ask platform.instantNow).2
  sleep : ∀ driver, I driver → I { driver with world := platform.sleep driver.world }
  /-- A call that reports nothing of the transport. -/
  tell : ∀ driver call, call.transportEvent? = none → call.announces? = none → I driver →
    I (driver.onCore call)
  action : ∀ driver a captured, driver.core.pollOutput.2 = some (.action a) → I driver →
    I (dispatchAction platform (driver.onCore .pollOutput) a captured).1
  refused : ∀ driver e, (platform.poll driver.world).1 = .error e → I driver →
    I (driver.ask platform.poll).2
  poll : ∀ driver events nowMs, (platform.poll driver.world).1 = .ok events → I driver →
    I ((driver.ask platform.poll).2.feedEvents events nowMs)

namespace Invariant

variable {driver : Driver W} (hI : Invariant platform I)

include hI

theorem drainGo (fuel : Nat) (captured : Option StreamId) (queue : List SwarmEvent)
    (h : I driver) : I (Driver.drainGo platform fuel driver captured queue).1 := by
  induction fuel generalizing driver captured queue with
  | zero => exact h
  | succ fuel ih =>
    rw [Driver.drainGo]
    split
    · exact h
    · next a ha => exact ih _ _ (hI.action driver a captured ha h)
    · exact ih _ _ (hI.tell driver _ rfl rfl h)

theorem drainToBuffer (h : I driver) : I (driver.drainToBuffer platform).1 :=
  hI.buffer _ _ (hI.drainGo _ none _ h)

theorem flushActions (h : I driver) : I (driver.flushActions platform) := hI.drainToBuffer h

theorem request (call : Call) (hevent : call.transportEvent? = none)
    (hannounces : call.announces? = none) (result : Except SwarmError Unit) (h : I driver) :
    I (driver.request platform call result).2 := by
  have hcall := hI.tell driver call hevent hannounces h
  cases result with
  | error e => exact hcall
  | ok u => exact hI.flushActions hcall

theorem openUserStream (p : PeerId) (protocolId : String) (h : I driver) :
    I (driver.openUserStream platform p protocolId).2 := by
  have hcall := hI.tell driver (.openUserStream p protocolId) rfl rfl h
  simp only [Driver.openUserStream]
  split
  · exact hcall
  · have hflush := hI.flushActions (hI.drainToBuffer hcall)
    generalize Driver.flushActions platform _ = flushed at hflush ⊢
    split
    · exact hflush
    · exact hflush

theorem listenAsPeer (addr : Multiaddr) (h : I driver) :
    I (driver.listenAsPeer platform addr).2 := by
  have hlisten := hI.listen driver addr h
  simp only [Driver.listenAsPeer, Driver.listen]
  split
  · next heq =>
    rw [heq] at hlisten
    exact hlisten
  · next heq =>
    rw [heq] at hlisten
    split
    · exact hlisten
    · exact hlisten

theorem listenOnAddrs (addrs : List Multiaddr) (resolved : List PeerAddr) (h : I driver) :
    I (Driver.listenOnAddrs platform addrs driver resolved).2 := by
  induction addrs generalizing driver resolved with
  | nil => exact h
  | cons addr addrs ih =>
    have hlisten := hI.listenAsPeer addr h
    rw [Driver.listenOnAddrs]
    split
    · next heq =>
      rw [heq] at hlisten
      exact hlisten
    · next heq =>
      rw [heq] at hlisten
      exact ih _ hlisten

theorem takeEvents (h : I driver) : I (driver.takeEvents platform).1 :=
  hI.drainGo _ none _ (hI.buffer driver [] h)

/-- A poll keeps the invariant, whether it succeeds or fails. -/
theorem pollOnce (h : I driver) : I (driver.poll platform).2 := by
  have hask := hI.localAddresses _ (hI.nowMs driver h)
  have hset := hI.tell _ (.setLocalAddresses ((driver.ask platform.nowMs).2.ask
    platform.localAddresses).1) rfl rfl hask
  simp only [Driver.poll]
  split
  · next e after heq =>
    have hfailed := hI.refused _ e (congrArg Prod.fst heq) hset
    rw [heq] at hfailed
    exact hfailed
  · next events after heq =>
    have hfed := hI.poll _ events (driver.ask platform.nowMs).1 (congrArg Prod.fst heq) hset
    rw [heq] at hfed
    dsimp only at hfed
    have hticked := hI.tell _ (.input (.tick (driver.ask platform.nowMs).1)) rfl rfl hfed
    have hflushed := hI.flushActions hticked
    dsimp only
    generalize Driver.flushActions platform _ = flushed at hflushed ⊢
    exact hI.takeEvents hflushed

theorem popFront (h : I driver) : I driver.popFront.2 := hI.buffer driver _ h

theorem pollNext {deadline fuel : Nat} {result : Except TransportError (Option SwarmEvent)}
    {after : Driver W} (h : I driver)
    (hrun : Driver.pollNext platform deadline fuel driver = some (result, after)) : I after := by
  induction fuel generalizing driver with
  | zero => cases hrun
  | succ fuel ih =>
    rw [Driver.pollNext] at hrun
    have hpop := hI.popFront h
    split at hrun
    · next heq =>
      cases hrun
      rw [heq] at hpop
      exact hpop
    · next heq =>
      rw [heq] at hpop
      have hpoll := hI.pollOnce hpop
      split at hrun
      · next heq =>
        cases hrun
        rw [heq] at hpoll
        exact hpoll
      · next events polled heq =>
        rw [heq] at hpoll
        have hback := hI.popFront (hI.buffer _ (polled.eventBuffer ++ events) hpoll)
        split at hrun
        · next heq =>
          cases hrun
          rw [heq] at hback
          exact hback
        · next heq =>
          rw [heq] at hback
          have hnow := hI.instantNow _ hback
          split at hrun
          next now d hask =>
          rw [hask] at hnow
          split at hrun
          · cases hrun
            exact hnow
          · exact ih (hI.sleep _ hnow) hrun

theorem runUntilGo {deadline fuel turns : Nat} {predicate : SwarmEvent → W → Bool × W}
    (hpredicate : ∀ event w, (predicate event w).2 = w) {seen : List SwarmEvent}
    {result : Except TransportError (Option SwarmEvent)} {after : Driver W}
    {shown : List SwarmEvent} (h : I driver)
    (hrun : Driver.runUntilGo platform deadline predicate fuel turns driver seen =
      some (result, after, shown)) : I after := by
  induction turns generalizing driver seen with
  | zero => cases hrun
  | succ turns ih =>
    rw [Driver.runUntilGo] at hrun
    split at hrun
    · cases hrun
    · next heq =>
      cases hrun
      exact hI.pollNext h heq
    · next heq =>
      cases hrun
      exact hI.pollNext h heq
    · next event polled heq =>
      have hpolled := hI.pollNext h heq
      have hsame : (polled.ask (predicate event)).2 = polled := by
        rw [Driver.ask, hpredicate]
      split at hrun
      next found d hask =>
      rw [hask] at hsame
      obtain rfl : d = polled := hsame
      split at hrun
      · cases hrun
        exact hpolled
      · exact ih hpolled hrun

/-- A public call keeps the invariant. -/
theorem perform {fuel : Nat} {call : DriverCall W} (hcall : call.LeavesWorld)
    {events : List SwarmEvent} {after : Driver W} (h : I driver)
    (hrun : driver.perform platform fuel call = some (events, after)) : I after := by
  have hdone : ∀ {d : Driver W}, I d → some (([] : List SwarmEvent), d) = some (events, after) →
      I after := by
    intro d hd heq
    cases heq
    exact hd
  cases call with
  | transportMut use =>
    refine hdone ?_ hrun
    rw [hcall driver.world]
    exact h
  | addUserProtocol protocolId => exact hdone (hI.tell driver _ rfl rfl h) hrun
  | listen addr => exact hdone (hI.listen driver addr h) hrun
  | listenOnBoundAddrs =>
    refine hdone ?_ hrun
    have hask := hI.localAddresses driver h
    simp only [Driver.listenOnBoundAddrs]
    split
    · exact hask
    · exact hI.listenOnAddrs _ _ hask
  | listenOnBoundAddr =>
    refine hdone ?_ hrun
    have hask := hI.localAddresses driver h
    simp only [Driver.listenOnBoundAddr]
    split
    · next heq =>
      rw [heq] at hask
      exact hask
    · next heq =>
      rw [heq] at hask
      exact hI.listenAsPeer _ hask
  | dial addr => exact hdone (hI.dial driver addr h) hrun
  | onDialed id => exact hdone h hrun
  | ping p =>
    have hask := hI.nowMs _ (hI.randPingPayload driver h)
    exact hdone (hI.request (.ping p _ _) rfl rfl _ hask) hrun
  | disconnect p => exact hdone (hI.request (.disconnect p) rfl rfl _ h) hrun
  | openUserStream p protocolId => exact hdone (hI.openUserStream p protocolId h) hrun
  | sendUserStream p t data =>
    exact hdone (hI.request (.sendUserStream p t data) rfl rfl _ h) hrun
  | closeUserStreamWrite p t =>
    exact hdone (hI.request (.closeUserStreamWrite p t) rfl rfl _ h) hrun
  | resetUserStream p t =>
    exact hdone (hI.request (.resetUserStream p t) rfl rfl _ h) hrun
  | poll =>
    have hpoll := hI.pollOnce h
    simp only [Driver.perform] at hrun
    split at hrun
    · next heq =>
      cases hrun
      rw [heq] at hpoll
      exact hpoll
    · next heq =>
      rw [heq] at hpoll
      exact hdone hpoll hrun
  | pollNext deadline =>
    obtain ⟨⟨result, d⟩, hpoll, heq⟩ := Option.map_eq_some_iff.mp hrun
    cases heq
    exact hI.pollNext h hpoll
  | runUntil deadline predicate =>
    obtain ⟨⟨result, d, shown⟩, hloop, heq⟩ := Option.map_eq_some_iff.mp hrun
    cases heq
    exact hI.runUntilGo hcall h hloop

/-- So does every sequence of calls. -/
theorem drive {fuel : Nat} {calls : List (DriverCall W)}
    (hcalls : ∀ call ∈ calls, call.LeavesWorld) {events : List SwarmEvent} {after : Driver W}
    (h : I driver) (hrun : driver.drive platform fuel calls = some (events, after)) :
    I after := by
  induction calls generalizing driver events with
  | nil =>
    cases hrun
    exact h
  | cons call calls ih =>
    rw [Driver.drive] at hrun
    split at hrun
    · cases hrun
    · next first d hcall =>
      obtain ⟨⟨rest, last⟩, hrest, heq⟩ := Option.map_eq_some_iff.mp hrun
      cases heq
      exact ih (fun other hother => hcalls other (List.mem_cons_of_mem _ hother))
        (hI.perform (hcalls call List.mem_cons_self) h hcall) hrest

end Invariant

end Driver

end Minip2p.Swarm
