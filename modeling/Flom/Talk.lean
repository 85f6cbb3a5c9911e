import Flom.ConnectSound
import Flom.Lib.Monitor
import Flom.Session

set_option autoImplicit false

namespace Flom

inductive Talk where
  | silent
  | open (fd : Option Nat)
  | asked (fd : Option Nat) (name : Option Name)
  | holding (fd : Option Nat) (name : Option Name)
  | left (fd : Option Nat)
  | shut (fd : Option Nat)
deriving DecidableEq, Repr

def talkSeek (talk : Talk) (event : ClientEvent) : Option Talk :=
  match event with
  | .connected fd => some (.open fd)
  | event => if event.quiet then some talk else none

/-- The conversation a lock manager may rely on: nothing is said on a connection that holds a lock
but that the lock is given back, by its name, and nothing at all behind that. -/
def talkStep (talk : Talk) (event : ClientEvent) : Option Talk :=
  match talk, event with
  | .open fd, .lock on request =>
    if on = fd ∧ request.verb = .lock ∧ request.step = msgStepIncr then some
      (.asked fd request.lock8.name) else none
  | .open fd, .answer on rc => if on = fd ∧ rc ≠ .ok then some (.open fd) else none
  | .asked fd name, .answer on rc =>
    if on = fd then some (if rc = .ok then .holding fd name else .open fd) else none
  | .holding fd name, .exec _ => some (.holding fd name)
  | .holding fd name, .unlock on request =>
    if on = fd ∧ request.verb = .unlock ∧ request.unlock8.name = name then some (.left fd) else none
  | .open fd, .shutdown on | .left fd, .shutdown on => if on = fd then some (.shut fd) else none
  | .shut fd, .release on closed =>
    if some on = fd then some (if closed then .silent else .open fd) else none
  | .silent, event | .shut _, event => talkSeek talk event
  | _, _ => none

def Session.Speaks (session : Session) (talk : Talk) : Prop :=
  session.stopped = true ∨
    match session.handle.state with
    | .init => talk = .silent
    | .connected => talk = .open session.conn.sockfd
    | .locked => talk = .holding session.conn.sockfd session.handle.config.resourceName
    | .disconnected | .cleaned => talk = .silent ∨ ∃ fd, talk = .shut fd

def Talk.ended : Talk → Bool
  | .silent | .shut _ => true
  | _ => false

theorem talk_quiet {talk : Talk} (ended : talk.ended = true) {event : ClientEvent}
    (quiet : event.quiet = true) :
    talkStep talk event = some talk := by
  cases talk <;> cases ended <;> cases event <;> first | rfl | cases quiet

theorem talk_way {talk : Talk} (ended : talk.ended = true) {events : List ClientEvent}
    (quiet : events.all ClientEvent.quiet = true) :
    Monitor.watch talkStep talk events = some talk :=
  Monitor.watch_still fun event member => talk_quiet ended (List.all_eq_true.mp quiet event member)

theorem talk_connected {talk : Talk} (ended : talk.ended = true) (fd : Option Nat) :
    talkStep talk (.connected fd) = some (.open fd) := by
  cases talk <;> first | rfl | cases ended

section

variable {session : Session} {talk : Talk}

theorem clientLock_sent {config : ClientConfig} {net : ClientNet} {locked : ClientLocked}
    (result : clientLock config net = some locked) (ok : locked.rc = .ok) :
    clientLockSent config net = true := by
  unfold clientLock at result
  unfold clientLockSent
  split_ifs at result with nobody unserialized unsent
  · cases result
    cases ok
  · cases result
    exact absurd ok unserialized
  · cases result
    exact absurd ok unsent
  · have known : config.peerid.isSome = true := Option.isSome_iff_ne_none.mpr nobody
    simp [known, not_not.mp unserialized, not_not.mp unsent]

theorem handleAsk_events (net : ClientNet) : ∀ event ∈ (handleAsk session net).events,
    (∃ name, session.handle.config.resourceName = some name ∧
      event = .lock session.conn.sockfd (clientRequest (session.request name))) ∨
        ∃ rc, event = .answer session.conn.sockfd rc := by
  unfold handleAsk
  cases session.handle.config.resourceName with
  | none => simp
  | some name =>
    dsimp only
    cases clientLock (session.request name) net with
    | none =>
      dsimp only
      split_ifs <;> simp
    | some locked =>
      dsimp only
      split_ifs <;> simp

theorem handleAsk_keeps (net : ClientNet) :
    (handleAsk session net).session.handle.config = session.handle.config ∧
    (handleAsk session net).session.settings = session.settings ∧
    (handleAsk session net).session.conn = session.conn ∧
    (handleAsk session net).session.options = session.options := by
  unfold handleAsk
  dsimp only
  split
  · exact ⟨rfl, rfl, rfl, rfl⟩
  · split
    · exact ⟨rfl, rfl, rfl, rfl⟩
    · split_ifs <;> exact ⟨rfl, rfl, rfl, rfl⟩

def Called.Talks (called : Called) (talk : Talk) : Prop :=
  ∃ after, Monitor.watch talkStep talk called.events = some after ∧ called.session.Speaks after

theorem handleAsk_talks (state : session.handle.state = .connected) (net : ClientNet) :
    (handleAsk session net).Talks (.open session.conn.sockfd) := by
  unfold handleAsk
  cases named : session.handle.config.resourceName with
  | none =>
    refine ⟨.open session.conn.sockfd, ?_, .inr ?_⟩
    · dsimp only
      split_ifs <;> simp [Monitor.watch, talkStep]
    · simp only [state]
  | some name =>
    dsimp only
    cases result : clientLock (session.request name) net with
    | none =>
      refine ⟨?_, ?_, .inl rfl⟩
      · exact if clientLockSent (session.request name) net then .asked session.conn.sockfd
          (some name) else .open session.conn.sockfd
      · dsimp only
        split_ifs <;> simp [Monitor.watch, talkStep, ClientConfig.lock8, Session.request]
    | some locked =>
      dsimp only
      by_cases ok : locked.rc = .ok
      · rw [if_pos ok, if_pos (clientLock_sent result ok), ok]
        refine ⟨.holding session.conn.sockfd (some name), ?_, .inr ?_⟩
        · simp [Monitor.watch, talkStep, ClientConfig.lock8, Session.request]
        · simp only [named]
      · rw [if_neg ok]
        refine ⟨.open session.conn.sockfd, ?_, .inr ?_⟩
        · split_ifs <;> simp [Monitor.watch, talkStep, ok]
        · simp only [state]

theorem handleSeek_talks (ended : talk.ended = true) (idle : session.handle.state.idle = true)
    (speaks : session.Speaks talk) (live : session.stopped = false) (net : ConnectNet)
    (asks : ClientNet) :
    (handleSeek session net asks).Talks talk := by
  have established := @clientConnect_establishes session.handle.config session.options session.conn
    true net
  unfold handleSeek
  dsimp only
  split_ifs with ok
  · obtain ⟨way, events, paved, _⟩ := established.ok ok
    obtain ⟨after, watched, follows⟩ := @handleAsk_talks (session.connected _ .connected) rfl asks
    refine ⟨after, ?_, follows⟩
    rw [events]
    refine Monitor.watch_trans (Monitor.watch_trans (talk_way ended paved.quiet) ?_) watched
    rw [Monitor.watch, talk_connected ended]
    rfl
  · refine ⟨talk, talk_way ended (established.failed ok).quiet, ?_⟩
    obtain stopped | same := speaks
    · simp [stopped] at live
    · refine .inr ?_
      unfold Session.connected
      cases state : session.handle.state <;> simp_all [HandleState.idle]

theorem clientTerminate_cases (conn : ClientConn) (closed : Bool) :
    (clientTerminate conn closed).1 = .ok ∧
        ((clientTerminate conn closed).2.2 = [] ∨ ∃ fd, conn.sockfd = some fd ∧
        conn.state ≠ .remove ∧
          (clientTerminate conn closed).2.2 = [.release fd true]) ∨
      (clientTerminate conn closed).1 = .closeError ∧ conn.state ≠ .remove ∧ 
        (clientTerminate conn closed).2.1.sockfd = conn.sockfd ∧
        ∃ fd, conn.sockfd = some fd ∧ (clientTerminate conn closed).2.2 = [.release fd false] := by
  unfold clientTerminate
  by_cases gone : conn.state = .remove
  · rw [if_pos gone]
    exact .inl ⟨rfl, .inl rfl⟩
  · rw [if_neg gone]
    cases sockfd : conn.sockfd with
    | none => exact .inl ⟨rfl, .inl rfl⟩
    | some fd =>
      cases closed with
      | true => exact .inl ⟨rfl, .inr ⟨fd, rfl, gone, rfl⟩⟩
      | false => exact .inr ⟨rfl, gone, rfl, fd, rfl, rfl⟩

theorem talk_release (fd : Nat) (closed : Bool) :
    Monitor.watch talkStep (.shut (some fd)) [.release fd closed] = some
      (if closed then .silent else .open (some fd)) := by
  simp [Monitor.watch, talkStep]

def Farewell (fd : Option Nat) (events : List ClientEvent) : Prop :=
  events = [.shutdown fd] ∨ ∃ own closed, fd = some own ∧
    events = [.shutdown fd, .release own closed]

theorem handleDisconnect_farewell (net : UnlockNet) :
    Farewell session.conn.sockfd (handleDisconnect session net).events := by
  have closes := clientTerminate_cases session.conn net.closed
  unfold handleDisconnect
  dsimp only
  split_ifs
  · exact .inl rfl
  all_goals
    obtain ⟨_, same | ⟨fd, own, _, same⟩⟩ | ⟨_, _, _, fd, own, same⟩ := closes
    · exact .inl (by rw [same])
    · exact .inr ⟨fd, true, own, by rw [same]⟩
    · exact .inr ⟨fd, false, own, by rw [same]⟩

theorem handleDisconnect_ends (net : UnlockNet) : ∀ event ∈ (handleDisconnect session net).events,
    (∃ fd, event = .shutdown fd) ∨ ∃ fd closed, event = .release fd closed := by
  intro event member
  obtain same | ⟨own, closed, _, same⟩ := @handleDisconnect_farewell session net
  · rw [same, List.mem_singleton] at member
    exact .inl ⟨_, member⟩
  · rw [same, List.mem_cons, List.mem_singleton] at member
    exact member.imp (fun shut => ⟨_, shut⟩) fun release => ⟨_, _, release⟩

theorem handleDisconnect_talks (state : session.handle.state = .connected) (net : UnlockNet)
    (ready : talk = .open session.conn.sockfd ∨ talk = .left session.conn.sockfd) :
    (handleDisconnect session net).Talks talk := by
  have shut (rest : List ClientEvent) : Monitor.watch talkStep talk
    (.shutdown session.conn.sockfd :: rest) =
      Monitor.watch talkStep (.shut session.conn.sockfd) rest := by
    obtain rfl | rfl := ready <;> simp [Monitor.watch, talkStep]
  unfold Called.Talks handleDisconnect
  dsimp only
  split_ifs with unheard ended
  · exact ⟨_, shut [], .inl rfl⟩
  · obtain ⟨_, same | ⟨fd, sockfd, _, same⟩⟩ | ⟨failed, _⟩ :=
      clientTerminate_cases session.conn net.closed
    · rw [same, shut]
      exact ⟨_, rfl, .inr (.inr ⟨_, rfl⟩)⟩
    · rw [same, shut, sockfd]
      exact ⟨_, talk_release fd true, .inr (.inl rfl)⟩
    · cases failed.symm.trans ended
  · obtain ⟨done, _⟩ | ⟨_, _, kept, fd, sockfd, same⟩ :=
      clientTerminate_cases session.conn net.closed
    · exact absurd done ended
    · rw [same, shut, sockfd]
      refine ⟨_, talk_release fd false, .inr ?_⟩
      simp only [state, kept, sockfd]
      rfl

theorem talks_still (speaks : session.Speaks talk) (rc : Rc) :
    Called.Talks ⟨rc, session, []⟩ talk := ⟨talk, rfl, speaks⟩

theorem talks_blind (called : Called) (rc : Rc) (talks : called.Talks talk) :
    Called.Talks { called with rc := rc } talk := talks

theorem handleGiveBack_talks (speaks : session.Speaks talk) (live : session.stopped = false)
    (rollback : Bool) (net : UnlockNet) : (handleGiveBack session rollback net).Talks talk := by
  have told := speaks.resolve_left (by simp [live])
  refine handleGiveBack_rule (·.Talks talk) (talks_still speaks) (fun connected => ?_)
    (fun name locked named => ?_)
  · rw [connected] at told
    exact handleDisconnect_talks connected net (.inl told)
  · rw [locked, named] at told
    obtain ⟨after, watched, follows⟩ := @handleDisconnect_talks
      { session with handle := { session.handle with state := .connected } }
        (.left session.conn.sockfd) rfl net (.inr rfl)
    refine ⟨after, ?_, follows⟩
    rw [Monitor.watch, told]
    simpa [talkStep, Session.release, clientUnlockRequest, Session.request] using watched

theorem handleUnlockInternal_talks (speaks : session.Speaks talk) (live : session.stopped = false)
    (rollback : Bool) (net : UnlockNet) : (handleUnlockInternal session rollback net).Talks talk :=
  handleUnlockInternal_rule (·.Talks talk) talks_blind (handleGiveBack_talks speaks live _ net)

theorem handleLock_talks (speaks : session.Speaks talk) (live : session.stopped = false)
    (net : ConnectNet) (asks : ClientNet) :
    (handleLock session net asks).Talks talk := by
  have told := speaks.resolve_left (by simp [live])
  refine handleLock_rule (·.Talks talk) (talks_still speaks) (fun connected => ?_) (fun idle => ?_)
  · rw [connected] at told
    obtain rfl := told
    exact handleAsk_talks connected asks
  · refine handleSeek_talks ?_ idle speaks live net asks
    cases state : session.handle.state <;> simp only [state] at told idle
    case init => rw [told]; rfl
    case disconnected => obtain rfl | ⟨fd, rfl⟩ := told <;> rfl
    all_goals cases idle

theorem handleClean_talks (speaks : session.Speaks talk) (live : session.stopped = false)
    (net : UnlockNet) :
    (handleClean session net).Talks talk := by
  refine handleClean_rule (·.Talks talk) talks_blind (talks_still speaks _)
    (handleUnlockInternal_talks speaks live false net) ?_
  rintro called ⟨after, watched, follows⟩ idle
  refine ⟨after, watched, follows.imp (fun stopped => stopped) fun told => ?_⟩
  cases state : called.session.handle.state with
  | init =>
    rw [state] at told
    exact .inl told
  | disconnected =>
    rw [state] at told
    exact told
  | connected | locked | cleaned => simp [state, HandleState.idle] at idle

theorem handleTune_keeps {allowed : HandleState → Bool} {change : Session → Rc × Session}
    (keeps : ∀ session, (change session).2.handle = session.handle ∧
      (change session).2.conn = session.conn ∧
      (change session).2.stopped = session.stopped) (session : Session) :
    (handleTune allowed change session).2.handle = session.handle ∧
      (handleTune allowed change session).2.conn = session.conn ∧
      (handleTune allowed change session).2.stopped = session.stopped := by
  unfold handleTune
  split_ifs
  · exact keeps session
  · exact ⟨rfl, rfl, rfl⟩

theorem sessionTune_keeps (session : Session) (tuning : Tuning) :
    (sessionTune session tuning).2.handle = session.handle ∧
    (sessionTune session tuning).2.conn = session.conn ∧
      (sessionTune session tuning).2.stopped = session.stopped := by
  cases tuning with
  | tlsCertificate resolved | tlsPrivateKey resolved | tlsCaCertificate resolved =>
    exact handleTune_keeps (fun session => by cases resolved <;> exact ⟨rfl, rfl, rfl⟩) session
  | networkInterface value scope =>
    exact handleTune_keeps (fun session => by cases scope <;> exact ⟨rfl, rfl, rfl⟩) session
  | _ => exact handleTune_keeps (fun _ => ⟨rfl, rfl, rfl⟩) session

theorem apiCall_talks (speaks : session.Speaks talk) (live : session.stopped = false)
    (call : ApiCall) :
    (apiCall session call).Talks talk := by
  cases call with
  | lock net asks => exact handleLock_talks speaks live net asks
  | unlock net | unlockRollback net => exact handleUnlockInternal_talks speaks live _ net
  | clean net => exact handleClean_talks speaks live net
  | delete net =>
    obtain ⟨after, watched, _⟩ := handleClean_talks speaks live net
    exact ⟨after, watched, .inl rfl⟩
  | set setting value =>
    refine ⟨talk, ?_⟩
    simp only [apiCall]
    cases sets : handleSet session.handle (setting, value) with
    | none => exact ⟨rfl, .inl rfl⟩
    | some set =>
      refine ⟨rfl, .inr ?_⟩
      have told := speaks.resolve_left (by simp [live])
      obtain ⟨state, name⟩ | ⟨state, unlocked, _⟩ := handleSet_name sets
      · simpa only [state, name] using told
      · simp only [state]
        cases reached : session.handle.state <;> simp only [reached] at told ⊢ <;> try exact told
        exact absurd reached unlocked
  | tune tuning =>
    obtain ⟨handle, conn, stopped⟩ := sessionTune_keeps session tuning
    refine ⟨talk, rfl, ?_⟩
    simpa only [Session.Speaks, apiCall, handle, conn, stopped] using speaks

theorem session_talks (config : Config) (settings : ClientConfig) (options : ConnectOptions)
    (calls : List ApiCall) :
    ∃ talk, Monitor.watch talkStep .silent
      (Monitor.emitted sessionStep (handleInit config settings options) calls) = some talk ∧
        (Run.run (fun session call => (sessionStep session call).1)
          (handleInit config settings options) calls).Speaks talk := by
  refine Monitor.watch_emitted Session.Speaks (fun session call talk speaks => ?_) (.inr rfl) calls
  unfold sessionStep
  split_ifs with stopped
  · exact ⟨talk, rfl, speaks⟩
  · exact apiCall_talks speaks (by simpa using stopped) call

end

def Granted (seen : List ClientEvent) (fd : Option Nat) (name : Option Name) : Prop :=
  ∃ earlier request commands, seen = earlier ++ .lock fd request :: .answer fd .ok :: commands ∧
    request.lock8.name = name ∧ ∀ event ∈ commands, ∃ element, event = .exec element

def Talk.Recalls (talk : Talk) (seen : List ClientEvent) : Prop :=
  match talk with
  | .asked fd name =>
    ∃ earlier request, seen = earlier ++ [.lock fd request] ∧ request.lock8.name = name
  | .holding fd name => Granted seen fd name
  | _ => True

theorem talk_recalls (talk : Talk) (seen : List ClientEvent) (event : ClientEvent) (after : Talk)
    (recalls : talk.Recalls seen) (next : talkStep talk event = some after) :
    after.Recalls (seen ++ [event]) := by
  have seek (ended : talk.ended = true) (sought : talkSeek talk event = some after) :
      after.Recalls (seen ++ [event]) := by
    unfold talkSeek at sought
    split at sought
    · cases sought
      trivial
    · split_ifs at sought
      cases sought
      cases talk <;> trivial
  unfold talkStep at next
  split at next
  · next fd on request =>
    split_ifs at next with asks
    cases next
    exact ⟨seen, request, by rw [asks.1], rfl⟩
  · split_ifs at next
    cases next
    trivial
  · next fd name on rc =>
    split_ifs at next with same ok
    · cases next
      obtain ⟨earlier, request, rfl, named⟩ := recalls
      exact ⟨earlier, request, [], by simp [same, ok], named, by simp⟩
    · cases next
      trivial
  · next fd name element =>
    cases next
    obtain ⟨earlier, request, commands, rfl, named, only⟩ := recalls
    refine ⟨earlier, request, commands ++ [.exec element], by simp, named, fun event member => ?_⟩
    obtain old | new := List.mem_append.mp member
    · exact only event old
    · exact ⟨element, List.mem_singleton.mp new⟩
  · split_ifs at next
    cases next
    trivial
  · split_ifs at next
    cases next
    trivial
  · split_ifs at next
    cases next
    trivial
  · split_ifs at next
    all_goals
      cases next
      trivial
  · exact seek rfl next
  · exact seek rfl next
  · cases next

theorem holding_granted {seen : List ClientEvent} {fd : Option Nat} {name : Option Name}
    (watched : Monitor.watch talkStep .silent seen = some (.holding fd name)) :
    Granted seen fd name :=
  @Monitor.watch_invariant _ _ talkStep .silent Talk.Recalls trivial talk_recalls seen _ watched

theorem unlock_taken {here after : Talk} {fd : Option Nat} {request : Msg}
    (taken : talkStep here (.unlock fd request) = some after) :
    here = .holding fd request.unlock8.name ∧ after = .left fd := by
  cases here with
  | holding own name =>
    simp only [talkStep] at taken
    split_ifs at taken with agrees
    cases taken
    exact ⟨by rw [agrees.1, agrees.2.2], by rw [agrees.1]⟩
  | silent | «open» | asked | left | shut => cases taken

theorem left_shuts {fd : Option Nat} {behind : List ClientEvent} {talk : Talk}
    (rest : Monitor.watch talkStep (.left fd) behind = some talk) : behind = [] ∨ ∃ later,
    behind = .shutdown fd :: later := by
  cases behind with
  | nil => exact .inl rfl
  | cons event later =>
    obtain ⟨after, taken, _⟩ := Option.bind_eq_some_iff.mp rest
    cases event with
    | shutdown on =>
      simp only [talkStep] at taken
      split_ifs at taken with same
      exact .inr ⟨later, by rw [same]⟩
    | _ => cases taken

-- A lock is given back only on the connection on which it was granted last, by the name it was
-- asked with; then the connection is shut.
theorem unlock_follows_grant (config : Config) (settings : ClientConfig) (options : ConnectOptions)
    (calls : List ApiCall) (before behind : List ClientEvent) (fd : Option Nat) (request : Msg)
    (said : Monitor.emitted sessionStep (handleInit config settings options) calls =
      before ++ .unlock fd request :: behind) :
    Granted before fd request.unlock8.name ∧
    (behind = [] ∨ ∃ later, behind = .shutdown fd :: later) := by
  obtain ⟨talk, watched, _⟩ := session_talks config settings options calls
  rw [said] at watched
  obtain ⟨here, after, seen, taken, rest⟩ := Monitor.watch_split watched
  obtain ⟨holds, left⟩ := unlock_taken taken
  rw [holds] at seen
  rw [left] at rest
  exact ⟨holding_granted seen, left_shuts rest⟩

def localNet (fd : Nat) : ConnectNet :=
  let tcp : TcpNet := ⟨fun _ _ => none, true⟩
  let tcps : TcpNets := ⟨tcp, .ok, tcp⟩
  let discover : DiscoverNet :=
    ⟨fun _ => none, .ok, true, [], ⟨.inet, [], 0, 0⟩, .ok ⟨none, 0⟩, .ok [], tcps,
    ⟨none, true, true⟩⟩
  ⟨⟨some fd, .connected, .ok, true⟩, tcps, discover, .ok, discover, true, .ok, .ok, .ok⟩

def grantedNet : ClientNet :=
  ⟨.ok, .ok, none, true, .ok,
    [.answer .ok (msgBuildAnswer msgInit .lock (2 * msgStepIncr) .ok none).2]⟩

def localConfig (resourceName : Name) : Config := ⟨some resourceName, false, some ['s'], none, none⟩

def localSettings : ClientConfig := ⟨some ['p'], [], .ex, -1, 1, 1, 0, false⟩

def localOptions : ConnectOptions := ⟨0, 28015, none, 0, 2, none, none, none⟩

theorem unlock_follows_grant_local :
    let calls : List ApiCall := [.lock (localNet 3) grantedNet, .unlock ⟨.ok, .ok, true, true⟩]
    let start := handleInit (localConfig ['r']) localSettings localOptions
    let asked := clientRequest (start.request ['r'])
    let before : List ClientEvent :=
      [.socket 3, .connect 3 (.path ['s']), .connected (some 3), .lock (some 3) asked,
          .answer (some 3) .ok]
    let given := start.release ['r'] false
    let behind : List ClientEvent := [.shutdown (some 3), .release 3 true]
    Monitor.emitted sessionStep start calls = before ++ .unlock (some 3) given :: behind ∧
      Granted before (some 3) given.unlock8.name ∧
      (behind = [] ∨ ∃ later, behind = .shutdown (some 3) :: later) := by
  intro calls start asked before given behind
  have said : Monitor.emitted sessionStep start calls = before ++ .unlock
    (some 3) given :: behind := by decide
  exact ⟨said, unlock_follows_grant (localConfig ['r']) localSettings localOptions calls before
    behind (some 3) given said⟩

end Flom
