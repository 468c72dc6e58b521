import Minip2p.Swarm.Driver
import Minip2p.Swarm.EventQueue
import Minip2p.Swarm.Refusals

/-!
# What the driver delivers

Whatever the transport answers, a drain ends because every turn lowers the load of the core, so
between two public calls the core is idle. The events pass from the core to a buffer and from there
to the application, in order; `Settled` says which of them are where.
-/

namespace Minip2p.Swarm

open SwarmCore

/-- The action asks for a stream. -/
def SwarmAction.isOpen : SwarmAction → Bool
  | openStream _ _ => true
  | _ => false

/-! ## Load -/

theorem SwarmCore.load_of_actions {core : SwarmCore} {a : SwarmAction} {actions : List SwarmAction}
    (h : core.actions = a :: actions) :
    core.load = a.load + { core with actions := actions }.load := by
  rw [load, load, h, List.map_cons, List.sum_cons, Nat.add_assoc]

theorem SwarmCore.load_of_events {core : SwarmCore} {e : SwarmEvent} {events : List SwarmEvent}
    (h : core.events = e :: events) : core.load = { core with events := events }.load + 1 := by
  rw [load, load, h, List.length_cons, Nat.add_assoc]

theorem SwarmAction.load_pos (a : SwarmAction) : 2 ≤ a.load := by
  cases a <;> simp [load]

/-- A core without load is idle. -/
theorem SwarmCore.isIdle_of_load {core : SwarmCore} (h : core.load = 0) : core.isIdle = true := by
  rcases pollOutput_cases core with ⟨a, actions, ha, -⟩ | ⟨e, events, -, he, -⟩ | ⟨ha, he, -⟩
  · rw [load_of_actions ha] at h
    have := a.load_pos
    omega
  · rw [load_of_events he] at h
    cases h
  · rw [isIdle, ha, he]
    rfl

theorem SwarmCore.isIdle_iff {core : SwarmCore} :
    core.isIdle = true ↔ core.actions = [] ∧ core.events = [] := by
  rw [isIdle, Bool.and_eq_true, List.isEmpty_iff, List.isEmpty_iff]

/-! ## Requests -/

namespace Driver

variable {W : Type} [Sha256] [MultihashCodec] {platform : Platform W} {driver : Driver W}

/-! ## Actions -/

/-- Everything that carrying out an action can come to: the answer to an open request goes to the
core, and so does the refusal of any other action. -/
inductive Dispatched (platform : Platform W) (driver : Driver W) (captured : Option StreamId) :
    SwarmAction → Driver W × Option StreamId → Prop
  | opened (c : ConnectionId) (token : OpenStreamToken) (t : StreamId) (nowMs : UInt64) (world : W)
      (hopen : (platform.openStream c driver.world).1 = .ok t) :
    Dispatched platform driver captured (.openStream c token)
      ({ driver with world := world }.onCore (.input (.streamOpened c t token nowMs)), some t)
  | failed (c : ConnectionId) (token : OpenStreamToken) (e : TransportError) (nowMs : UInt64)
      (world : W) (hopen : (platform.openStream c driver.world).1 = .error e) :
    Dispatched platform driver captured (.openStream c token)
      ({ driver with world := world }.onCore (.input (.openStreamFailed token e.display nowMs)),
        captured)
  | done (a : SwarmAction) (world : W) (ha : a.isOpen = false) :
    Dispatched platform driver captured a ({ driver with world := world }, captured)
  | refused (a : SwarmAction) (world : W) (error : SwarmRuntimeError) (ha : a.isOpen = false) :
    Dispatched platform driver captured a
      ({ driver with world := world }.onCore (.input (.runtimeError error)), captured)

theorem Dispatched.reportRefused (driver : Driver W) (captured : Option StreamId) {a : SwarmAction}
    (ha : a.isOpen = false) (question : W → Except TransportError Unit × W) (c : ConnectionId)
    (detail : TransportError → String) :
    Dispatched platform driver captured a
      ((driver.ask question).2.reportRefused c (driver.ask question).1 detail, captured) := by
  simp only [ask, Driver.reportRefused]
  split
  · exact .done a _ ha
  · exact .refused a _ _ ha

variable (platform) in
theorem dispatchAction_dispatched (driver : Driver W) (a : SwarmAction)
    (captured : Option StreamId) :
    Dispatched platform driver captured a (dispatchAction platform driver a captured) := by
  cases a with
  | openStream c token =>
    cases hopen : (platform.openStream c driver.world).1 with
    | ok t =>
      simp only [dispatchAction, ask, hopen]
      exact .opened c token t _ _ hopen
    | error e =>
      simp only [dispatchAction, ask, hopen]
      exact .failed c token e _ _ hopen
  | sendStream c t data => exact .reportRefused driver captured rfl _ c _
  | closeStreamWrite c t => exact .reportRefused driver captured rfl _ c _
  | resetStream c t => exact .reportRefused driver captured rfl _ c _
  | closeConnection c => exact .reportRefused driver captured rfl _ c _

namespace Dispatched

variable {a : SwarmAction} {captured : Option StreamId} {out : Driver W × Option StreamId}

/-- Carrying out an action adds less than the action took away. -/
theorem load_lt (h : Dispatched platform driver captured a out) :
    out.1.core.load < driver.core.load + a.load := by
  have hevent : ∀ {core : SwarmCore}, core.actions = driver.core.actions →
      (∃ e, core.events = driver.core.events ++ [e]) → core.load = driver.core.load + 1 := by
    rintro core ha ⟨e, he⟩
    rw [load, load, ha, he, List.length_append, List.length_singleton, Nat.add_assoc]
  cases h with
  | opened c token t nowMs world =>
    show (driver.core.handleStreamOpened ⟨c, t⟩ token).load < driver.core.load + 3
    rcases handleStreamOpened_queues driver.core ⟨c, t⟩ token with ⟨ha, he⟩ | ⟨data, ha, he⟩
    · rw [hevent ha he]
      omega
    · have hwrite : (SwarmAction.sendStream c t data).load = 2 := rfl
      rw [load, load, ha, he, List.map_append, List.sum_append, List.map_singleton,
        List.sum_singleton, hwrite]
      omega
  | failed c token e nowMs world =>
    show (driver.core.handleOpenStreamFailed token e.display).load < driver.core.load + 3
    obtain ⟨ha, he⟩ := handleOpenStreamFailed_queues driver.core token e.display
    rw [hevent ha he]
    omega
  | done a world =>
    have hpos := a.load_pos
    show driver.core.load < driver.core.load + a.load
    omega
  | refused a world error =>
    have hpos := a.load_pos
    have hmore : (driver.core.pushEvent (.error error)).load = driver.core.load + 1 :=
      hevent rfl ⟨_, rfl⟩
    show (driver.core.pushEvent (.error error)).load < driver.core.load + a.load
    omega

theorem eventBuffer_eq (h : Dispatched platform driver captured a out) :
    out.1.eventBuffer = driver.eventBuffer := by
  cases h <;> rfl

end Dispatched

/-! ## The drain -/

theorem onCore_pollOutput_core {core : SwarmCore} {o : Option SwarmOutput}
    (h : driver.core.pollOutput = (core, o)) : (driver.onCore .pollOutput).core = core := by
  show driver.core.pollOutput.1 = core
  rw [h]

/-- What an action adds to the core is less than it stood for there. -/
theorem load_dispatchAction_lt (platform : Platform W) {a : SwarmAction}
    {actions : List SwarmAction} (ha : driver.core.actions = a :: actions)
    (h : driver.core.pollOutput = ({ driver.core with actions := actions }, some (.action a)))
    (captured : Option StreamId) :
    (dispatchAction platform (driver.onCore .pollOutput) a captured).1.core.load <
      driver.core.load := by
  have hlt := (dispatchAction_dispatched platform (driver.onCore .pollOutput) a captured).load_lt
  rw [onCore_pollOutput_core h] at hlt
  rw [load_of_actions ha, Nat.add_comm]
  exact hlt

theorem load_onCore_pollOutput_lt {e : SwarmEvent} {events : List SwarmEvent}
    (he : driver.core.events = e :: events)
    (h : driver.core.pollOutput = ({ driver.core with events := events }, some (.event e))) :
    (driver.onCore .pollOutput).core.load < driver.core.load := by
  rw [onCore_pollOutput_core h, load_of_events he]
  exact Nat.lt_succ_self _

/-- A drain with fuel for the load of the core leaves it idle. -/
theorem drainGo_idle {fuel : Nat} (hload : driver.core.load ≤ fuel) (captured : Option StreamId)
    (queue : List SwarmEvent) :
    (drainGo platform fuel driver captured queue).1.core.isIdle = true := by
  induction fuel generalizing driver captured queue with
  | zero => exact isIdle_of_load (Nat.le_zero.mp hload)
  | succ fuel ih =>
    rw [drainGo]
    rcases pollOutput_cases driver.core with
      ⟨a, actions, ha, h⟩ | ⟨e, events, -, he, h⟩ | ⟨ha, he, h⟩
    · simp only [h]
      apply ih
      have hlt := load_dispatchAction_lt platform ha h captured
      omega
    · simp only [h]
      apply ih
      have hlt := load_onCore_pollOutput_lt he h
      omega
    · simp only [h]
      exact isIdle_iff.mpr ⟨ha, he⟩

theorem drainGo_eventBuffer (fuel : Nat) (driver : Driver W) (captured : Option StreamId)
    (queue : List SwarmEvent) :
    (drainGo platform fuel driver captured queue).1.eventBuffer = driver.eventBuffer := by
  induction fuel generalizing driver captured queue with
  | zero => rfl
  | succ fuel ih =>
    rw [drainGo]
    split
    · rfl
    · next a _ =>
      have hdispatched := dispatchAction_dispatched platform (driver.onCore .pollOutput) a captured
      rw [ih]
      exact hdispatched.eventBuffer_eq
    · rw [ih]
      rfl

/-! ## The stream of an open request -/

/-- The core is where its calls have brought it from `core₀`, and `out` is what was polled. -/
structure Records (core₀ : SwarmCore) (driver : Driver W) (out : List SwarmEvent) : Prop where
  core : driver.core = run core₀ driver.calls
  polled : polledEvents core₀ driver.calls = out

namespace Records

variable {core₀ : SwarmCore} {out : List SwarmEvent}

theorem onCore (h : Records core₀ driver out) {call : Call} (hcall : call ≠ .pollOutput) :
    Records core₀ (driver.onCore call) out where
  core := by
    show step driver.core call = run core₀ (driver.calls ++ [call])
    rw [run_concat, h.core]
  polled := by
    show polledEvents core₀ (driver.calls ++ [call]) = out
    rw [polledEvents_concat, polledBy_of_ne hcall, List.append_nil, h.polled]

theorem onCore_poll (h : Records core₀ driver out) :
    Records core₀ (driver.onCore .pollOutput) (out ++ polledBy driver.core .pollOutput) where
  core := by
    show step driver.core .pollOutput = run core₀ (driver.calls ++ [.pollOutput])
    rw [run_concat, h.core]
  polled := by
    show polledEvents core₀ (driver.calls ++ [.pollOutput]) = _
    rw [polledEvents_concat, h.polled, ← h.core]

theorem withWorld (h : Records core₀ driver out) (world : W) :
    Records core₀ { driver with world := world } out := ⟨h.core, h.polled⟩

theorem dispatched (h : Records core₀ driver out) {a : SwarmAction} {captured : Option StreamId}
    {result : Driver W × Option StreamId}
    (hresult : Dispatched platform driver captured a result) : Records core₀ result.1 out := by
  cases hresult with
  | opened c token t nowMs world => exact (h.withWorld world).onCore (by rintro ⟨⟩)
  | failed c token e nowMs world => exact (h.withWorld world).onCore (by rintro ⟨⟩)
  | done a world => exact h.withWorld world
  | refused a world error => exact (h.withWorld world).onCore (by rintro ⟨⟩)

variable (platform) in
/-- A drain moves events from the core to the end of `queue`. -/
theorem drainGo {handed : List SwarmEvent} (fuel : Nat) (captured : Option StreamId)
    {queue : List SwarmEvent} (h : Records core₀ driver (handed ++ queue)) :
    Records core₀ (drainGo platform fuel driver captured queue).1
      (handed ++ (drainGo platform fuel driver captured queue).2.2) := by
  induction fuel generalizing driver captured queue with
  | zero => exact h
  | succ fuel ih =>
    rw [Driver.drainGo]
    have hpoll := h.onCore_poll
    split
    · exact h
    · next a ha =>
      simp only [polledBy, ha, List.append_nil] at hpoll
      exact ih _ (hpoll.dispatched (dispatchAction_dispatched platform _ a captured))
    · next e he =>
      simp only [polledBy, he, List.append_assoc] at hpoll
      exact ih _ hpoll

end Records

/-- Between two calls the core is idle, and what it queued has been handed out or is buffered. -/
structure Settled (core₀ : SwarmCore) (handed : List SwarmEvent) (driver : Driver W) : Prop where
  idle : driver.core.isIdle = true
  records : Records core₀ driver (handed ++ driver.eventBuffer)

variable (platform) in
/-- A drain settles whatever the core has queued. -/
theorem Records.drainToBuffer {core₀ : SwarmCore} {handed : List SwarmEvent}
    (h : Records core₀ driver (handed ++ driver.eventBuffer)) :
    Settled core₀ handed (driver.drainToBuffer platform).1 := by
  have hdrain := h.drainGo platform driver.core.load none
  exact ⟨drainGo_idle (Nat.le_refl _) none _, hdrain.core, hdrain.polled⟩

variable (platform) in
theorem Records.flushActions {core₀ : SwarmCore} {handed : List SwarmEvent}
    (h : Records core₀ driver (handed ++ driver.eventBuffer)) :
    Settled core₀ handed (driver.flushActions platform) := h.drainToBuffer platform

namespace Settled

variable {core₀ : SwarmCore} {handed : List SwarmEvent}

omit [MultihashCodec] in
theorem new (identifyConfig : Identify.IdentifyConfig) (pingConfig : Ping.PingConfig)
    (localPeerId : PeerId) (world : W) [MultihashCodec] :
    Settled (SwarmCore.new identifyConfig pingConfig) []
      (Driver.new identifyConfig pingConfig localPeerId world) := ⟨rfl, rfl, rfl⟩

theorem withWorld (h : Settled core₀ handed driver) (world : W) :
    Settled core₀ handed { driver with world := world } := ⟨h.idle, h.records.withWorld world⟩

theorem ask {α : Type} (h : Settled core₀ handed driver) (question : W → α × W) :
    Settled core₀ handed (driver.ask question).2 := h.withWorld _

/-- A call on the core that queues nothing. -/
theorem onCore (h : Settled core₀ handed driver) (call : Call) (hcall : call ≠ .pollOutput)
    (hidle : (step driver.core call).isIdle = true) :
    Settled core₀ handed (driver.onCore call) := ⟨hidle, h.records.onCore hcall⟩

/-- The core refuses a request without queueing anything, or its actions are carried out. -/
theorem request (h : Settled core₀ handed driver) (call : Call) (hcall : call ≠ .pollOutput)
    {result : Except SwarmError Unit}
    (hrefused : ∀ e, result = .error e → step driver.core call = driver.core) :
    Settled core₀ handed (driver.request platform call result).2 := by
  cases result with
  | error e => exact h.onCore call hcall (by rw [hrefused e rfl]; exact h.idle)
  | ok u => exact (h.records.onCore hcall).flushActions platform

theorem openUserStream (h : Settled core₀ handed driver) (p : PeerId) (protocolId : String) :
    Settled core₀ handed (driver.openUserStream platform p protocolId).2 := by
  have hcall : Call.openUserStream p protocolId ≠ .pollOutput := (by rintro ⟨⟩)
  simp only [Driver.openUserStream]
  split
  · next e he =>
    have hsame : step driver.core (.openUserStream p protocolId) = driver.core :=
      openUserStream_refused he
    exact h.onCore _ hcall (by rw [hsame]; exact h.idle)
  · have hdrain := (h.records.onCore hcall).drainToBuffer platform
    have hflush := hdrain.records.flushActions platform
    generalize flushActions platform _ = flushed at hflush ⊢
    split
    · exact hflush
    · exact hflush

variable (platform) in
theorem listenAsPeer (h : Settled core₀ handed driver) (addr : Multiaddr) :
    Settled core₀ handed (driver.listenAsPeer platform addr).2 := by
  have hlisten := h.ask (platform.listen addr)
  simp only [Driver.listenAsPeer, Driver.listen]
  split
  · next heq =>
    rw [heq] at hlisten
    exact hlisten
  · next heq =>
    rw [heq] at hlisten
    split
    · exact hlisten
    · exact hlisten

theorem listenOnAddrs (addrs : List Multiaddr) (h : Settled core₀ handed driver)
    (resolved : List PeerAddr) :
    Settled core₀ handed (Driver.listenOnAddrs platform addrs driver resolved).2 := by
  induction addrs generalizing driver resolved with
  | nil => exact h
  | cons addr addrs ih =>
    have hlisten := h.listenAsPeer platform addr
    rw [Driver.listenOnAddrs]
    split
    · next heq =>
      rw [heq] at hlisten
      exact hlisten
    · next heq =>
      rw [heq] at hlisten
      exact ih hlisten _

variable (platform) in
/-- The buffered events are handed out. -/
theorem takeEvents (h : Settled core₀ handed driver) :
    Settled core₀ (handed ++ (driver.takeEvents platform).2) (driver.takeEvents platform).1 ∧
      (driver.takeEvents platform).1.eventBuffer = [] := by
  have hempty : Records core₀ { driver with eventBuffer := [] } (handed ++ driver.eventBuffer) :=
    ⟨h.records.core, h.records.polled⟩
  have hdrain := hempty.drainGo platform driver.core.load none
  have hbuffer : (driver.takeEvents platform).1.eventBuffer = [] := drainGo_eventBuffer _ _ _ _
  refine ⟨⟨drainGo_idle (Nat.le_refl _) none _, ?_⟩, hbuffer⟩
  rw [hbuffer, List.append_nil]
  exact hdrain

end Settled

theorem Records.feedEvents {core₀ : SwarmCore} {handed : List SwarmEvent}
    (h : Records core₀ driver (handed ++ driver.eventBuffer)) (events : List TransportEvent)
    (nowMs : UInt64) :
    Records core₀ (driver.feedEvents events nowMs)
      (handed ++ (driver.feedEvents events nowMs).eventBuffer) := by
  induction events generalizing driver with
  | nil => exact h
  | cons event events ih => exact ih (h.onCore (by rintro ⟨⟩))

variable (platform) in
/-- What a poll returns is handed out, and then nothing is left in the buffer. -/
theorem Settled.poll {core₀ : SwarmCore} {handed : List SwarmEvent}
    (h : Settled core₀ handed driver) :
    (∃ events after, driver.poll platform = (.ok events, after) ∧
        Settled core₀ (handed ++ events) after ∧ after.eventBuffer = []) ∨
      ∃ e after, driver.poll platform = (.error e, after) ∧ Settled core₀ handed after := by
  have hask := (h.ask platform.nowMs).ask platform.localAddresses
  have hset : Settled core₀ handed (((driver.ask platform.nowMs).2.ask
      platform.localAddresses).2.onCore (.setLocalAddresses
        ((driver.ask platform.nowMs).2.ask platform.localAddresses).1)) :=
    hask.onCore _ (by rintro ⟨⟩) h.idle
  have hpoll := hset.ask platform.poll
  simp only [Driver.poll]
  split
  · next e after heq =>
    rw [heq] at hpoll
    exact .inr ⟨e, after, rfl, hpoll⟩
  · next events fed heq =>
    have hfed : Settled core₀ handed fed := by
      rw [heq] at hpoll
      exact hpoll
    have hticked : Records core₀ ((fed.feedEvents events (driver.ask platform.nowMs).1).onCore
        (.input (.tick (driver.ask platform.nowMs).1))) _ :=
      (hfed.records.feedEvents events _).onCore (by rintro ⟨⟩)
    exact .inl ⟨_, _, rfl, (hticked.flushActions platform).takeEvents platform⟩

namespace Settled

variable {core₀ : SwarmCore} {handed : List SwarmEvent}

theorem popFront (h : Settled core₀ handed driver) :
    Settled core₀ (handed ++ driver.popFront.1.toList) driver.popFront.2 := by
  refine ⟨h.idle, h.records.core, ?_⟩
  have hpolled : polledEvents core₀ driver.calls = handed ++ driver.eventBuffer :=
    h.records.polled
  show polledEvents core₀ driver.calls =
    handed ++ driver.eventBuffer.head?.toList ++ driver.eventBuffer.tail
  rw [hpolled, List.append_assoc]
  cases driver.eventBuffer <;> rfl

/-- Events that were polled and not handed out go back to the buffer. -/
theorem putBack {events : List SwarmEvent} (h : Settled core₀ (handed ++ events) driver)
    (hbuffer : driver.eventBuffer = []) :
    Settled core₀ handed { driver with eventBuffer := driver.eventBuffer ++ events } := by
  refine ⟨h.idle, h.records.core, ?_⟩
  have hpolled : polledEvents core₀ driver.calls = handed ++ events ++ driver.eventBuffer :=
    h.records.polled
  show polledEvents core₀ driver.calls = handed ++ (driver.eventBuffer ++ events)
  rw [hpolled, hbuffer, List.append_nil, List.nil_append]

theorem pollNext (h : Settled core₀ handed driver) {deadline fuel : Nat}
    {result : Except TransportError (Option SwarmEvent)} {after : Driver W}
    (hrun : pollNext platform deadline fuel driver = some (result, after)) :
    Settled core₀ (handed ++ returnedEvent result) after := by
  induction fuel generalizing driver with
  | zero => cases hrun
  | succ fuel ih =>
    rw [Driver.pollNext] at hrun
    have hpop := h.popFront
    split at hrun
    · next heq =>
      cases hrun
      rw [heq] at hpop
      exact hpop
    · next heq =>
      rw [heq, Option.toList_none, List.append_nil] at hpop
      rcases hpop.poll platform with
        ⟨events, polled, hpoll, hpolled, hbuffer⟩ | ⟨e, polled, hpoll, hpolled⟩
      · have hback := (hpolled.putBack hbuffer).popFront
        rw [hpoll] at hrun
        simp only at hrun
        split at hrun
        · next heq =>
          cases hrun
          rw [heq] at hback
          exact hback
        · next heq =>
          rw [heq, Option.toList_none, List.append_nil] at hback
          split at hrun
          · cases hrun
            rw [returnedEvent, Option.toList_none, List.append_nil]
            exact hback.ask platform.instantNow
          · exact ih ((hback.ask platform.instantNow).withWorld _) hrun
      · rw [hpoll] at hrun
        cases hrun
        rw [returnedEvent, List.append_nil]
        exact hpolled

theorem runUntilGo (h : Settled core₀ handed driver) {deadline fuel turns : Nat}
    {predicate : SwarmEvent → W → Bool × W} {seen : List SwarmEvent}
    {result : Except TransportError (Option SwarmEvent)} {after : Driver W}
    {shown : List SwarmEvent}
    (hrun : runUntilGo platform deadline predicate fuel turns driver seen =
      some (result, after, shown)) :
    ∃ more, shown = seen ++ more ∧ Settled core₀ (handed ++ more) after := by
  induction turns generalizing driver handed seen with
  | zero => cases hrun
  | succ turns ih =>
    rw [Driver.runUntilGo] at hrun
    split at hrun
    · cases hrun
    · next heq =>
      cases hrun
      exact ⟨[], (List.append_nil _).symm, h.pollNext heq⟩
    · next heq =>
      cases hrun
      exact ⟨[], (List.append_nil _).symm, h.pollNext heq⟩
    · next event polled heq =>
      have hnext : Settled core₀ (handed ++ [event]) (polled.ask (predicate event)).2 :=
        (h.pollNext heq).ask (predicate event)
      split at hrun
      next found d hask =>
      rw [hask] at hnext
      split at hrun
      · cases hrun
        exact ⟨[event], rfl, hnext⟩
      · obtain ⟨more, hshown, hafter⟩ := ih hnext hrun
        rw [List.append_assoc] at hshown hafter
        exact ⟨event :: more, hshown, hafter⟩

/-- A public call leaves the driver settled, with what it handed out. -/
theorem perform (h : Settled core₀ handed driver) {fuel : Nat} {call : DriverCall W}
    {events : List SwarmEvent} {after : Driver W}
    (hrun : driver.perform platform fuel call = some (events, after)) :
    Settled core₀ (handed ++ events) after := by
  have hquiet : ∀ {d : Driver W}, Settled core₀ handed d → some ([], d) = some (events, after) →
      Settled core₀ (handed ++ events) after := by
    intro d hd heq
    cases heq
    rw [List.append_nil]
    exact hd
  cases call with
  | transportMut use => exact hquiet (h.withWorld _) hrun
  | addUserProtocol protocolId =>
    exact hquiet (h.onCore (.addUserProtocol protocolId) (by rintro ⟨⟩) h.idle) hrun
  | listen addr => exact hquiet (h.ask _) hrun
  | listenOnBoundAddrs =>
    refine hquiet ?_ hrun
    have hask := h.ask platform.localAddresses
    simp only [Driver.listenOnBoundAddrs]
    split
    · exact hask
    · exact hask.listenOnAddrs _ _
  | listenOnBoundAddr =>
    refine hquiet ?_ hrun
    have hask := h.ask platform.localAddresses
    simp only [Driver.listenOnBoundAddr]
    split
    · next heq =>
      rw [heq] at hask
      exact hask
    · next heq =>
      rw [heq] at hask
      exact hask.listenAsPeer platform _
  | dial addr => exact hquiet (h.ask _) hrun
  | onDialed id => exact hquiet h hrun
  | ping p =>
    have hask := (h.ask platform.randPingPayload).ask platform.nowMs
    exact hquiet (hask.request (.ping p _ _) (by rintro ⟨⟩) fun _ he =>
      pingPeer_refused he) hrun
  | disconnect p =>
    exact hquiet (h.request (.disconnect p) (by rintro ⟨⟩) fun _ he =>
      disconnect_refused he) hrun
  | openUserStream p protocolId => exact hquiet (h.openUserStream p protocolId) hrun
  | sendUserStream p t data =>
    exact hquiet (h.request (.sendUserStream p t data) (by rintro ⟨⟩) fun _ he =>
      userStreamAction_refused he) hrun
  | closeUserStreamWrite p t =>
    exact hquiet (h.request (.closeUserStreamWrite p t) (by rintro ⟨⟩) fun _ he =>
      userStreamAction_refused he) hrun
  | resetUserStream p t =>
    exact hquiet (h.request (.resetUserStream p t) (by rintro ⟨⟩) fun _ he =>
      userStreamAction_refused he) hrun
  | poll =>
    simp only [Driver.perform] at hrun
    rcases h.poll platform with
      ⟨polled, d, hpoll, hd, -⟩ | ⟨e, d, hpoll, hd⟩
    · rw [hpoll] at hrun
      cases hrun
      exact hd
    · rw [hpoll] at hrun
      exact hquiet hd hrun
  | pollNext deadline =>
    obtain ⟨⟨result, d⟩, hpoll, heq⟩ := Option.map_eq_some_iff.mp hrun
    cases heq
    exact h.pollNext hpoll
  | runUntil deadline predicate =>
    obtain ⟨⟨result, d, shown⟩, hloop, heq⟩ := Option.map_eq_some_iff.mp hrun
    cases heq
    obtain ⟨more, rfl, hd⟩ := h.runUntilGo hloop
    exact hd

/-- So does every sequence of calls. -/
theorem drive (h : Settled core₀ handed driver) {fuel : Nat} {calls : List (DriverCall W)}
    {events : List SwarmEvent} {after : Driver W}
    (hrun : driver.drive platform fuel calls = some (events, after)) :
    Settled core₀ (handed ++ events) after := by
  induction calls generalizing driver handed events with
  | nil =>
    cases hrun
    rw [List.append_nil]
    exact h
  | cons call calls ih =>
    rw [Driver.drive] at hrun
    split at hrun
    · cases hrun
    · next first d hcall =>
      obtain ⟨⟨rest, last⟩, hrest, heq⟩ := Option.map_eq_some_iff.mp hrun
      cases heq
      rw [← List.append_assoc]
      exact ih (h.perform hcall) hrest

end Settled

end Driver

/-! ## The driver as a whole -/

section Runs

variable {W : Type} [Sha256] [MultihashCodec]

end Runs

namespace Sample

/-- A transport that reports one list of events at each poll and refuses nothing. -/
def platform : Platform (List (List TransportEvent)) where
  dial _ world := (.ok ⟨1⟩, world)
  listen addr world := (.ok addr, world)
  openStream _ world := (.ok ⟨4⟩, world)
  sendStream _ _ _ world := (.ok (), world)
  closeStreamWrite _ _ world := (.ok (), world)
  resetStream _ _ world := (.ok (), world)
  close _ world := (.ok (), world)
  poll world := (.ok (world.headD []), world.tail)
  localAddresses world := ([], world)
  nowMs world := (0, world)
  randPingPayload world := (Vector.replicate _ 0, world)
  instantNow world := (0, world)
  sleep world := world

/-- An application that registers a protocol and polls, over the events of one poll. -/
def polled (events : List TransportEvent) :
    Option (List SwarmEvent × Driver (List (List TransportEvent))) :=
  @Driver.drive _ sha256 multihashCodec platform 1
    { world := [events], core := core, localPeerId := alice, eventBuffer := [], calls := [] }
    [.addUserProtocol "/u", .poll]

end Sample

end Minip2p.Swarm
