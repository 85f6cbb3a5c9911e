import Flom.Talk

set_option autoImplicit false

namespace Flom

def ClientEvent.isConnected : ClientEvent → Bool
  | .connected _ => true
  | _ => false

def ClientEvent.isReleased : ClientEvent → Bool
  | .release _ true => true
  | _ => false

def ApiCall.isLock : ApiCall → Bool
  | .lock _ _ => true
  | _ => false

structure Spends (events : List ClientEvent) (most : Nat) : Prop where
  kept : (events.countP ClientEvent.isConnected : Int) ≤
    openDescriptors events + events.countP ClientEvent.isReleased
  bound : openDescriptors events ≤ most

section

variable {session : Session}

theorem Spends.append {first second : List ClientEvent} {most more : Nat}
    (before : Spends first most) (after : Spends second more) :
    Spends (first ++ second) (most + more) where
  kept := by
    have := before.kept
    have := after.kept
    simp only [List.countP_append, openDescriptors_append, Nat.cast_add]
    omega
  bound := by
    have := before.bound
    have := after.bound
    simp only [openDescriptors_append, Nat.cast_add]
    omega

theorem spends_nil (most : Nat) : Spends [] most := ⟨by simp, by simp⟩

theorem Paved.countP_connected {startDaemon : Bool} {lifespan : Int} {way : List ClientEvent}
    (paved : Paved startDaemon lifespan way) : way.countP ClientEvent.isConnected = 0 := by
  refine List.countP_eq_zero.mpr fun event member => ?_
  have quiet := List.all_eq_true.mp paved.quiet event member
  cases event <;> simp_all [ClientEvent.quiet, ClientEvent.isConnected]

theorem Paved.countP_released {startDaemon : Bool} {lifespan : Int} {way : List ClientEvent}
    (paved : Paved startDaemon lifespan way) : way.countP ClientEvent.isReleased = 0 := by
  refine List.countP_eq_zero.mpr fun event member => ?_
  have quiet := List.all_eq_true.mp paved.quiet event member
  cases event <;> simp_all [ClientEvent.quiet, ClientEvent.isReleased]

theorem Paved.spends {startDaemon : Bool} {lifespan : Int} {way : List ClientEvent}
    (paved : Paved startDaemon lifespan way) : Spends way 1 where
  kept := by
    rw [paved.countP_connected, paved.countP_released]
    simpa using paved.nonneg
  bound := by simpa using paved.single

theorem Connected.Establishes.spends {connected : Connected} {config : Config}
    {options : ConnectOptions} {conn : ClientConn} {startDaemon : Bool}
    (established : connected.Establishes config options conn startDaemon) :
    Spends connected.events 1 := by
  by_cases ok : connected.rc = .ok
  · obtain ⟨way, events, paved, one⟩ := established.ok ok
    have connects := paved.countP_connected
    rw [events]
    constructor
    · simp [connects, one, paved.countP_released, ClientEvent.weight, ClientEvent.isConnected,
        ClientEvent.isReleased]
    · simp [one, ClientEvent.weight]
  · exact (established.failed ok).spends

def ClientEvent.spoken : ClientEvent → Bool
  | .lock _ _ | .answer _ _ | .exec _ | .unlock _ _ | .shutdown _ => true
  | _ => false

theorem spoken_counts {events : List ClientEvent} (spoken : events.all ClientEvent.spoken = true) :
    openDescriptors events = 0 ∧ events.countP ClientEvent.isConnected = 0 ∧
      events.countP ClientEvent.isReleased = 0 ∧ ClientEvent.daemon ∉ events := by
  induction events with
  | nil => simp
  | cons event rest ih =>
    simp only [List.all_cons, Bool.and_eq_true] at spoken
    obtain ⟨opened, connected, released, domestic⟩ := ih spoken.2
    have first := spoken.1
    cases event <;> simp_all [ClientEvent.spoken, ClientEvent.weight, ClientEvent.isConnected,
      ClientEvent.isReleased]

theorem spends_spoken {events : List ClientEvent} (spoken : events.all ClientEvent.spoken = true) :
    Spends events 0 := by
  obtain ⟨opened, connected, released, _⟩ := spoken_counts spoken
  exact ⟨by simp [opened, connected, released], by simp [opened]⟩

theorem handleAsk_spoken (net : ClientNet) :
    (handleAsk session net).events.all ClientEvent.spoken = true := by
  refine List.all_eq_true.mpr fun event member => ?_
  obtain ⟨name, _, rfl⟩ | ⟨rc, rfl⟩ := handleAsk_events net event member <;> rfl

theorem handleSeek_spends (net : ConnectNet) (asks : ClientNet) :
    Spends (handleSeek session net asks).events 1 := by
  have established := @clientConnect_establishes session.handle.config session.options session.conn
    true net
  unfold handleSeek
  dsimp only
  split_ifs
  · exact established.spends.append (spends_spoken (handleAsk_spoken asks))
  · exact established.spends

theorem handleDisconnect_events (net : UnlockNet) : ∃ closes,
    (handleDisconnect session net).events = .shutdown session.conn.sockfd :: closes ∧
      (closes = [] ∨ ∃ fd closed, session.conn.state ≠ .remove ∧ closes = [.release fd closed] ∧
        (handleDisconnect session net).session.conn.state = .remove) ∧
      (session.conn.state = .remove →
          (handleDisconnect session net).session.conn.state = .remove) := by
  have removed : (clientTerminate session.conn net.closed).2.1.state = .remove := by
    unfold clientTerminate
    split_ifs with gone
    · exact gone
    · cases session.conn.sockfd <;> rfl
    · cases session.conn.sockfd <;> rfl
  unfold handleDisconnect
  dsimp only
  split_ifs
  · exact ⟨[], rfl, .inl rfl, id⟩
  all_goals
    obtain ⟨_, same | ⟨fd, _, live, same⟩⟩ | ⟨_, live, _, fd, _, same⟩ :=
      clientTerminate_cases session.conn net.closed
    · exact ⟨_, by rw [same], .inl rfl, fun _ => removed⟩
    · exact ⟨_, by rw [same], .inr ⟨fd, true, live, rfl, removed⟩, fun _ => removed⟩
    · exact ⟨_, by rw [same], .inr ⟨fd, false, live, rfl, removed⟩, fun _ => removed⟩

def Session.closedBy (session : Session) (seen : List ClientEvent) : Prop :=
  seen.countP ClientEvent.isReleased ≤ 1 ∧
    (session.conn.state ≠ .remove → seen.countP ClientEvent.isReleased = 0)

structure Session.Leaves (session : Session) (called : Called) (most : Nat) : Prop where
  spends : Spends called.events most
  closes : called.events.countP ClientEvent.isReleased = 0 ∧
      (called.session.conn.state ≠ .remove → session.conn.state ≠ .remove) ∨
    called.events.countP ClientEvent.isReleased ≤ 1 ∧ session.conn.state ≠ .remove ∧
      called.session.conn.state = .remove
  domestic : session.options.lifespan = 0 → .daemon ∉ called.events ∧
    called.session.options.lifespan = 0

theorem leaves_still (rc : Rc) (most : Nat) : session.Leaves ⟨rc, session, []⟩ most :=
  ⟨spends_nil most, .inl ⟨rfl, id⟩, fun still => ⟨by simp, still⟩⟩

theorem handleAsk_leaves (net : ClientNet) : session.Leaves (handleAsk session net) 0 := by
  have spoken := @handleAsk_spoken session net
  obtain ⟨_, _, released, domestic⟩ := spoken_counts spoken
  obtain ⟨_, _, conn, options⟩ := @handleAsk_keeps session net
  refine ⟨spends_spoken spoken, .inl ⟨released, ?_⟩, fun still => ⟨domestic, ?_⟩⟩
  · rw [conn]
    exact id
  · rw [options]
    exact still

theorem Connected.Establishes.released {connected : Connected} {config : Config}
    {options : ConnectOptions} {conn : ClientConn} {startDaemon : Bool}
    (established : connected.Establishes config options conn startDaemon) :
    connected.events.countP ClientEvent.isReleased = 0 := by
  refine List.countP_eq_zero.mpr fun event member => ?_
  obtain quiet | ⟨fd, rfl⟩ := established.quiet member
  · cases event <;> simp_all [ClientEvent.quiet, ClientEvent.isReleased]
  · simp [ClientEvent.isReleased]

theorem Connected.Establishes.domestic {connected : Connected} {config : Config}
    {options : ConnectOptions} {conn : ClientConn} {startDaemon : Bool}
    (established : connected.Establishes config options conn startDaemon)
    (still : options.lifespan = 0) : .daemon ∉ connected.events := by
  by_cases ok : connected.rc = .ok
  · obtain ⟨way, events, paved, _⟩ := established.ok ok
    rw [events, List.mem_append, not_or]
    exact ⟨paved.domestic (.inr still), by simp⟩
  · exact (established.failed ok).domestic (.inr still)

theorem handleSeek_leaves (net : ConnectNet) (asks : ClientNet) :
    session.Leaves (handleSeek session net asks) 1 := by
  have established := @clientConnect_establishes session.handle.config session.options session.conn
    true net
  have spends := @handleSeek_spends session net asks
  unfold handleSeek at spends ⊢
  dsimp only at spends ⊢
  split_ifs at spends ⊢ with ok
  · obtain ⟨_, _, conn, options⟩ := @handleAsk_keeps (session.connected
      (clientConnect session.handle.config session.options session.conn true net) .connected) asks
    obtain ⟨_, _, released, domestic⟩ := spoken_counts (@handleAsk_spoken (session.connected
      (clientConnect session.handle.config session.options session.conn true net) .connected) asks)
    refine ⟨spends, .inl ⟨?_, ?_⟩, fun still => ⟨?_, ?_⟩⟩
    · rw [List.countP_append, established.released, released]
    · rw [conn]
      exact fun live => established.state ▸ live
    · rw [List.mem_append, not_or]
      exact ⟨established.domestic still, domestic⟩
    · rw [options]
      exact established.lifespan.trans still
  · exact ⟨spends, .inl ⟨established.released, fun live => established.state ▸ live⟩,
      fun still => ⟨established.domestic still, established.lifespan.trans still⟩⟩

theorem handleDisconnect_leaves (net : UnlockNet) :
    session.Leaves (handleDisconnect session net) 0 := by
  obtain ⟨closes, events, closed, gone⟩ := @handleDisconnect_events session net
  have options : (handleDisconnect session net).session.options = session.options := by
    unfold handleDisconnect
    dsimp only
    split_ifs <;> rfl
  have live (was : (handleDisconnect session net).session.conn.state ≠ .remove) :
      session.conn.state ≠ .remove :=
    fun same => was (gone same)
  refine ⟨?_, ?_, fun still => ⟨?_, options ▸ still⟩⟩
  all_goals
    rw [events]
    obtain rfl | ⟨fd, shut, was, rfl, now⟩ := closed
  · exact spends_spoken rfl
  · cases shut <;>
      exact ⟨by simp [ClientEvent.weight, ClientEvent.isConnected, ClientEvent.isReleased],
        by simp [ClientEvent.weight]⟩
  · exact .inl ⟨rfl, live⟩
  · refine .inr ⟨?_, was, now⟩
    cases shut <;> simp [List.countP_cons, ClientEvent.isReleased]
  · simp
  · simp

theorem leaves_blind {most : Nat} (called : Called) (rc : Rc)
    (leaves : session.Leaves called most) :
    session.Leaves { called with rc := rc } most := ⟨leaves.spends, leaves.closes, leaves.domestic⟩

theorem handleGiveBack_leaves (rollback : Bool) (net : UnlockNet) :
    session.Leaves (handleGiveBack session rollback net) 0 := by
  refine handleGiveBack_rule (session.Leaves · 0) (leaves_still · 0)
    (fun _ => handleDisconnect_leaves net) (fun name _ _ => ?_)
  have ended := @handleDisconnect_leaves
    { session with handle := { session.handle with state := .connected } } net
  refine ⟨@Spends.append [.unlock _ _] _ 0 0 (spends_spoken rfl) ended.spends, ?_, fun still => ?_⟩
  · rw [List.countP_cons_of_neg (by simp [ClientEvent.isReleased])]
    exact ended.closes
  · obtain ⟨domestic, lifespan⟩ := ended.domestic still
    exact ⟨by simpa using domestic, lifespan⟩

theorem handleUnlockInternal_leaves (rollback : Bool) (net : UnlockNet) :
    session.Leaves (handleUnlockInternal session rollback net) 0 :=
  handleUnlockInternal_rule (session.Leaves · 0) leaves_blind (handleGiveBack_leaves _ net)

theorem handleLock_leaves (net : ConnectNet) (asks : ClientNet) :
    session.Leaves (handleLock session net asks) 1 := by
  refine handleLock_rule (session.Leaves · 1) (leaves_still · 1) (fun _ => ?_)
    (fun _ => handleSeek_leaves net asks)
  have asked := @handleAsk_leaves session asks
  exact ⟨⟨asked.spends.kept, asked.spends.bound.trans (by decide)⟩, asked.closes, asked.domestic⟩

theorem handleClean_leaves (net : UnlockNet) : session.Leaves (handleClean session net) 0 :=
  handleClean_rule (session.Leaves · 0) leaves_blind (leaves_still _ 0)
    (handleUnlockInternal_leaves false net) fun _ leaves _ =>
    ⟨leaves.spends, leaves.closes, leaves.domestic⟩

theorem handleTune_lifespan {allowed : HandleState → Bool} {change : Session → Rc × Session}
    (keeps : ∀ session, (change session).2.options.lifespan = session.options.lifespan)
    (session : Session) :
    (handleTune allowed change session).2.options.lifespan = session.options.lifespan := by
  unfold handleTune
  split_ifs
  · exact keeps session
  · rfl

theorem sessionTune_lifespan (session : Session) (tuning : Tuning) :
    (sessionTune session tuning).2.options.lifespan = session.options.lifespan := by
  cases tuning with
  | tlsCertificate resolved | tlsPrivateKey resolved | tlsCaCertificate resolved =>
    exact handleTune_lifespan (fun session => by cases resolved <;> rfl) session
  | networkInterface value scope =>
    exact handleTune_lifespan (fun session => by cases scope <;> rfl) session
  | _ => exact handleTune_lifespan (fun _ => rfl) session

theorem apiCall_leaves (call : ApiCall) : session.Leaves (apiCall session call)
    (if call.isLock then 1 else 0) := by
  cases call with
  | lock net asks => exact handleLock_leaves net asks
  | unlock net | unlockRollback net => exact handleUnlockInternal_leaves _ net
  | clean net => exact handleClean_leaves net
  | delete net =>
    have cleaned := @handleClean_leaves session net
    exact ⟨cleaned.spends, cleaned.closes, cleaned.domestic⟩
  | set setting value =>
    simp only [apiCall]
    cases handleSet session.handle (setting, value) with
    | none | some set => exact ⟨spends_nil _, .inl ⟨rfl, id⟩, fun still => ⟨by simp, still⟩⟩
  | tune tuning =>
    obtain ⟨_, conn, _⟩ := sessionTune_keeps session tuning
    refine ⟨spends_nil _, .inl ⟨rfl, ?_⟩, fun still =>
      ⟨by simp [apiCall], (sessionTune_lifespan session tuning).trans still⟩⟩
    simp only [apiCall, conn]
    exact id

theorem sessionStep_leaves (call : ApiCall) :
    session.Leaves ⟨.ok, (sessionStep session call).1, (sessionStep session call).2⟩
      (if call.isLock then 1 else 0) := by
  unfold sessionStep
  by_cases stopped : session.stopped = true
  · rw [if_pos stopped]
    exact leaves_still _ _
  · rw [if_neg stopped]
    have called := @apiCall_leaves session call
    exact ⟨called.spends, called.closes, called.domestic⟩

theorem emitted_spends (calls : List ApiCall) :
    Spends (Monitor.emitted sessionStep session calls) (calls.countP ApiCall.isLock) := by
  induction calls generalizing session with
  | nil => exact spends_nil _
  | cons call rest ih =>
    rw [List.countP_cons, Nat.add_comm]
    exact (sessionStep_leaves call).spends.append ih

theorem Session.Leaves.closedBy {called : Called} {most : Nat} (leaves : session.Leaves called most)
    {seen : List ClientEvent} (closed : session.closedBy seen) :
    called.session.closedBy (seen ++ called.events) := by
  unfold Session.closedBy
  rw [List.countP_append]
  obtain ⟨none, live⟩ | ⟨one, live, gone⟩ := leaves.closes
  · rw [none, Nat.add_zero]
    exact ⟨closed.1, fun still => closed.2 (live still)⟩
  · rw [closed.2 live, Nat.zero_add]
    exact ⟨one, fun still => absurd gone still⟩

end

-- A handle closes the first of its connections only: each later one, and each that failed half
-- way, keeps its descriptor for as long as the process lives.
theorem session_descriptors (config : Config) (settings : ClientConfig) (options : ConnectOptions)
    (calls : List ApiCall) :
    let seen := Monitor.emitted sessionStep (handleInit config settings options) calls
    seen.countP ClientEvent.isReleased ≤ 1 ∧
      (seen.countP ClientEvent.isConnected : Int) ≤ openDescriptors seen + 1 ∧
      openDescriptors seen ≤ calls.countP ApiCall.isLock := by
  intro seen
  have spends : Spends seen _ := emitted_spends calls
  have closed := @Monitor.emitted_invariant _ _ _ sessionStep Session.closedBy
    (fun session call _ closed => (sessionStep_leaves call).closedBy closed)
      (handleInit config settings options) []
    ⟨Nat.zero_le _, fun _ => rfl⟩ calls
  have released : seen.countP ClientEvent.isReleased ≤ 1 := by simpa using closed.1
  have kept := spends.kept
  exact ⟨released, by omega, spends.bound⟩

theorem session_never_daemon (config : Config) (settings : ClientConfig) (options : ConnectOptions)
    (calls : List ApiCall) :
    ClientEvent.daemon ∉ Monitor.emitted sessionStep
      (handleInit config settings options) calls := by
  have domestic := @Monitor.emitted_invariant _ _ _ sessionStep
    (fun session seen => session.options.lifespan = 0 ∧ ClientEvent.daemon ∉ seen)
    (fun session call seen holds => by
      obtain ⟨quiet, still⟩ := (sessionStep_leaves call).domestic holds.1
      exact ⟨still, by simp [holds.2, quiet]⟩)
    (handleInit config settings options) [] ⟨rfl, by simp⟩ calls
  simpa using domestic.2

end Flom
