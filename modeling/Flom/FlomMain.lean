import Flom.Talk

set_option autoImplicit false

namespace Flom

abbrev Rc.forkError : Rc := .other (-109)
abbrev Rc.sigemptysetError : Rc := .other (-136)
abbrev Rc.waitError : Rc := .other (-142)

abbrev esRequesterCantWait : Nat := 96
abbrev esUnableToExecuteCommand : Nat := 97
abbrev esResourceBusy : Nat := 98
abbrev esGenericError : Nat := 99

inductive Waited where
  | never
  | failed
  | ended (status : Nat)
deriving DecidableEq, Repr

structure ExecNet where
  fork : Bool
  sigemptyset : Bool
  wait : Waited

/-- WEXITSTATUS. What a signal has ended has no exit status, and reads zero. -/
def wexitstatus (status : Nat) : Nat := status / 256 % 256

structure Executed where
  rc : Rc
  childStatus : Nat
  events : List ClientEvent

def flomExec (element : Option Name) (net : ExecNet) : Executed :=
  if net.fork = false then ⟨.forkError, 0, []⟩
  else if net.sigemptyset = false then ⟨.sigemptysetError, 0, [.exec element]⟩
  else
    match net.wait with
    | .never => ⟨.blocked, 0, [.exec element]⟩
    | .failed => ⟨.waitError, 0, [.exec element]⟩
    | .ended status => ⟨.ok, wexitstatus status, [.exec element]⟩

structure CommandNet where
  connect : ConnectNet
  lock : ClientNet
  exec : ExecNet
  unlock : UnlockNet

/-- A command without an exit status waits for ever, or has crashed. -/
structure Ran where
  status : Option Nat
  events : List ClientEvent

/-- A resource need not be transactional to be asked for a rollback here. -/
def clientUnlock (session : Session) (rollback : Bool) (net : UnlockNet) : Rc × List ClientEvent :=
  match session.handle.config.resourceName with
  | none => (.gStrdupError, [])
  | some name =>
    if net.serialize ≠ .ok then (net.serialize, [])
    else if net.send ≠ .ok then (net.send, [])
    else (.ok, [.unlock session.conn.sockfd (session.release name rollback)])

def flomDisconnect (session : Session) (net : UnlockNet) (status : Nat) : Ran :=
  let ended := handleDisconnect
    { session with handle := { session.handle with state := .connected } } net
  ⟨if ended.session.stopped then none else some status, ended.events⟩

def flomRefused (session : Session) (rc : Rc) (net : UnlockNet) : Ran :=
  match rc with
  | .lockBusy | .networkTimeout => flomDisconnect session net esResourceBusy
  | .lockCantWait => flomDisconnect session net esRequesterCantWait
  | .lockImpossible => flomDisconnect session net esGenericError
  | _ => ⟨some esGenericError, []⟩

def flomHold (session : Session) (exec : ExecNet) (net : UnlockNet) : Ran :=
  let executed := flomExec session.lockedElement exec
  if executed.rc = .blocked then ⟨none, executed.events⟩
  else if executed.rc ≠ .ok then ⟨some esUnableToExecuteCommand, executed.events⟩
  else
    let unlocked := clientUnlock session (executed.childStatus ≠ 0) net
    if unlocked.1 ≠ .ok then ⟨some esGenericError, executed.events ++ unlocked.2⟩
    else
      let ended := flomDisconnect session net executed.childStatus
      ⟨ended.status, executed.events ++ (unlocked.2 ++ ended.events)⟩

/-- From the connection on; the options of the command are read by then. -/
def flomMain (config : Config) (settings : ClientConfig) (options : ConnectOptions)
    (net : CommandNet) : Ran :=
  let connected := clientConnect config options connZeroed true net.connect
  let session : Session := ⟨⟨.connected, connected.config⟩, settings, connected.options,
    connected.conn, none, false⟩
  if connected.rc = .crash then ⟨none, connected.events⟩
  else if connected.rc ≠ .ok then ⟨some esGenericError, connected.events⟩
  else
    let asked := handleAsk session net.lock
    if asked.session.stopped then ⟨none, connected.events ++ asked.events⟩
    else
      let ran :=
        if asked.rc = .ok then flomHold asked.session net.exec net.unlock
        else flomRefused asked.session asked.rc net.unlock
      ⟨ran.status, connected.events ++ asked.events ++ ran.events⟩

def ClientEvent.guarded : ClientEvent → Bool
  | .exec _ | .unlock _ _ => true
  | _ => false

section

variable {session : Session}

theorem Connected.Establishes.unguarded {connected : Connected} {config : Config}
    {options : ConnectOptions} {conn : ClientConn} {startDaemon : Bool}
    (established : connected.Establishes config options conn startDaemon) :
    ∀ event ∈ connected.events, event.guarded = false := by
  intro event member
  obtain quiet | ⟨fd, rfl⟩ := established.quiet member
  · cases event <;> first | rfl | cases quiet
  · rfl

theorem Farewell.unguarded {fd : Option Nat} {events : List ClientEvent}
    (farewell : Farewell fd events) :
    ∀ event ∈ events, event.guarded = false := by
  obtain rfl | ⟨own, closed, _, rfl⟩ := farewell <;> simp [ClientEvent.guarded]

theorem flomRefused_unguarded (rc : Rc) (net : UnlockNet) :
    (∀ event ∈ (flomRefused session rc net).events, event.guarded = false) ∧
      ∀ status, (flomRefused session rc net).status = some status →
        status = esRequesterCantWait ∨ status = esResourceBusy ∨ status = esGenericError := by
  have leaves (own : Nat) (known : own = esRequesterCantWait ∨ own = esResourceBusy ∨
    own = esGenericError) :
      (∀ event ∈ (flomDisconnect session net own).events, event.guarded = false) ∧
        ∀ status, (flomDisconnect session net own).status = some status →
          status = esRequesterCantWait ∨ status = esResourceBusy ∨ status = esGenericError := by
    refine ⟨(handleDisconnect_farewell net).unguarded, fun status reported => ?_⟩
    simp only [flomDisconnect] at reported
    split_ifs at reported
    obtain rfl := Option.some.inj reported
    exact known
  unfold flomRefused
  split
  · exact leaves _ (by simp)
  · exact leaves _ (by simp)
  · exact leaves _ (by simp)
  · exact leaves _ (by simp)
  · exact ⟨by simp, by simp⟩

theorem handleAsk_unguarded (net : ClientNet) : ∀ event ∈ (handleAsk session net).events,
    event.guarded = false := by
  intro event member
  obtain ⟨name, _, rfl⟩ | ⟨rc, rfl⟩ := handleAsk_events net event member <;> rfl

theorem handleAsk_locked {net : ClientNet} (ok : (handleAsk session net).rc = .ok) :
    (handleAsk session net).session.handle.state = .locked := by
  unfold handleAsk at ok ⊢
  cases named : session.handle.config.resourceName with
  | none =>
    simp only [named] at ok
    split_ifs at ok
  | some name =>
    simp only [named] at ok ⊢
    cases result : clientLock (session.request name) net with
    | none =>
      rw [result] at ok
      cases ok
    | some locked =>
      simp only [result] at ok ⊢
      by_cases done : locked.rc = .ok
      · rw [if_pos done]
      · rw [if_neg done] at ok
        exact absurd ok done

theorem handleAsk_refused {net : ClientNet} (failed : (handleAsk session net).rc ≠ .ok)
    (live : (handleAsk session net).session.stopped ≠ true) :
    (handleAsk session net).session = session := by
  unfold handleAsk at failed live ⊢
  cases named : session.handle.config.resourceName with
  | none => rfl
  | some name =>
    simp only [named] at failed live ⊢
    cases result : clientLock (session.request name) net with
    | none =>
      rw [result] at live
      exact absurd rfl live
    | some locked =>
      simp only [result] at failed ⊢
      by_cases done : locked.rc = .ok
      · rw [if_pos done] at failed
        exact absurd rfl failed
      · rw [if_neg done]

theorem flomDisconnect_talks {talk : Talk}
    (ready : talk = .open session.conn.sockfd ∨ talk = .left session.conn.sockfd) (net : UnlockNet)
    (status : Nat) :
    ∃ after,
      Monitor.watch talkStep talk (flomDisconnect session net status).events = some after := by
  obtain ⟨after, watched, _⟩ := @handleDisconnect_talks
    { session with handle := { session.handle with state := .connected } } talk rfl net ready
  exact ⟨after, watched⟩

theorem flomRefused_talks (rc : Rc) (net : UnlockNet) :
    ∃ after, Monitor.watch talkStep (.open session.conn.sockfd)
      (flomRefused session rc net).events = some after := by
  unfold flomRefused
  split
  case h_5 => exact ⟨_, rfl⟩
  all_goals exact flomDisconnect_talks (.inl rfl) net _

theorem flomExec_talks (fd : Option Nat) (name element : Option Name) (net : ExecNet) :
    Monitor.watch talkStep (.holding fd name) (flomExec element net).events = some
      (.holding fd name) := by
  unfold flomExec
  split_ifs
  · rfl
  · rfl
  · cases net.wait <;> rfl

theorem clientUnlock_cases (session : Session) (rollback : Bool) (net : UnlockNet) :
    ((clientUnlock session rollback net).1 ≠ .ok ∧ (clientUnlock session rollback net).2 = []) ∨
      ∃ name, session.handle.config.resourceName = some name ∧
      (clientUnlock session rollback net).1 = .ok ∧
        (clientUnlock session rollback net).2 =
          [.unlock session.conn.sockfd (session.release name rollback)] := by
  unfold clientUnlock
  cases session.handle.config.resourceName with
  | none => exact .inl ⟨nofun, rfl⟩
  | some name =>
    dsimp only
    split_ifs with unserialized unsent
    · exact .inl ⟨unserialized, rfl⟩
    · exact .inl ⟨unsent, rfl⟩
    · exact .inr ⟨name, rfl, rfl, rfl⟩

theorem flomHold_talks (exec : ExecNet) (net : UnlockNet) :
    ∃ after, Monitor.watch talkStep
      (.holding session.conn.sockfd session.handle.config.resourceName)
        (flomHold session exec net).events = some after := by
  have executed := flomExec_talks session.conn.sockfd session.handle.config.resourceName
    session.lockedElement exec
  unfold flomHold
  dsimp only
  split_ifs with _ _ refused
  · exact ⟨_, executed⟩
  · exact ⟨_, executed⟩
  · obtain ⟨_, nothing⟩ | ⟨_, _, done, _⟩ :=
      clientUnlock_cases session ((flomExec session.lockedElement exec).childStatus ≠ 0) net
    · rw [nothing, List.append_nil]
      exact ⟨_, executed⟩
    · exact absurd done refused
  · obtain ⟨failed, _⟩ | ⟨name, named, _, said⟩ :=
      clientUnlock_cases session ((flomExec session.lockedElement exec).childStatus ≠ 0) net
    · exact absurd failed refused
    · obtain ⟨after, watched⟩ := @flomDisconnect_talks session (.left session.conn.sockfd)
        (.inr rfl) net (flomExec session.lockedElement exec).childStatus
      refine ⟨after, Monitor.watch_trans executed ?_⟩
      rw [said, named]
      simpa [Monitor.watch, talkStep, Session.release, clientUnlockRequest, Session.request]
        using watched

inductive Ran.Goes (ran : Ran) (config : Config) (net : CommandNet) : Prop where
  | gaveUp (reached : Talk) (talks : Monitor.watch talkStep .silent ran.events = some reached)
      (unguarded : ∀ event ∈ ran.events, event.guarded = false)
      (reports : ∀ status, ran.status = some status →
        status = esRequesterCantWait ∨ status = esResourceBusy ∨ status = esGenericError)
  | went (front : List ClientEvent) (session : Session)
      (events : ran.events = front ++ (flomHold session net.exec net.unlock).events)
      (status : ran.status = (flomHold session net.exec net.unlock).status)
      (talks : Monitor.watch talkStep .silent front =
        some (.holding session.conn.sockfd session.handle.config.resourceName))
      (named : session.handle.config.resourceName = config.resourceName)
      (unguarded : ∀ event ∈ front, event.guarded = false)

theorem flomMain_goes (config : Config) (settings : ClientConfig) (options : ConnectOptions)
    (net : CommandNet) :
    (flomMain config settings options net).Goes config net := by
  have established := @clientConnect_establishes config options connZeroed true net.connect
  unfold flomMain
  dsimp only
  by_cases crashed : (clientConnect config options connZeroed true net.connect).rc = .crash
  · rw [if_pos crashed]
    have paved := established.failed (by simp [crashed])
    exact .gaveUp .silent (talk_way rfl paved.quiet) established.unguarded nofun
  rw [if_neg crashed]
  by_cases failed : (clientConnect config options connZeroed true net.connect).rc ≠ .ok
  · rw [if_pos failed]
    have paved := established.failed failed
    exact .gaveUp .silent (talk_way rfl paved.quiet) established.unguarded (by simp)
  rw [if_neg failed]
  obtain ⟨way, events, paved, _⟩ := established.ok (not_not.mp failed)
  have named := established.name
  have quiet := established.unguarded
  generalize clientConnect config options connZeroed true net.connect = connected at *
  set session : Session :=
    ⟨⟨.connected, connected.config⟩, settings, connected.options, connected.conn, none, false⟩
      with sessions
  have opened : Monitor.watch talkStep .silent connected.events = some
      (.open session.conn.sockfd) := by
    rw [events]
    exact Monitor.watch_trans (talk_way rfl paved.quiet) rfl
  obtain ⟨after, watched, follows⟩ := @handleAsk_talks session rfl net.lock
  have talks := Monitor.watch_trans opened watched
  have unguarded : ∀ event ∈ connected.events ++ (handleAsk session net.lock).events,
      event.guarded = false := by
    intro event member
    exact (List.mem_append.mp member).elim (quiet event) (handleAsk_unguarded net.lock event)
  by_cases stopped : (handleAsk session net.lock).session.stopped = true
  · rw [if_pos stopped]
    exact .gaveUp after talks unguarded nofun
  rw [if_neg stopped]
  have told := follows.resolve_left stopped
  by_cases ok : (handleAsk session net.lock).rc = .ok
  · rw [if_pos ok]
    have state := handleAsk_locked ok
    obtain ⟨own, _⟩ := @handleAsk_keeps session net.lock
    simp only [state] at told
    exact .went _ _ rfl rfl (told ▸ talks) (by rw [own]; exact named) unguarded
  · rw [if_neg ok]
    have same := handleAsk_refused ok stopped
    obtain ⟨unspoken, reports⟩ := @flomRefused_unguarded (handleAsk session net.lock).session
      (handleAsk session net.lock).rc net.unlock
    obtain ⟨last, later⟩ := @flomRefused_talks (handleAsk session net.lock).session
      (handleAsk session net.lock).rc net.unlock
    rw [same] at told
    simp only [sessions] at told
    refine .gaveUp last (Monitor.watch_trans (told ▸ talks) (by rw [same] at later ⊢; exact later))
      ?_ reports
    intro event member
    exact (List.mem_append.mp member).elim (unguarded event) (unspoken event)

end

theorem command_talks (config : Config) (settings : ClientConfig) (options : ConnectOptions)
    (net : CommandNet) :
    ∃ talk,
      Monitor.watch talkStep .silent (flomMain config settings options net).events = some talk := by
  obtain ⟨reached, talks, _, _⟩ | ⟨front, session, events, _, talks, _, _⟩ :=
    flomMain_goes config settings options net
  · exact ⟨reached, talks⟩
  · obtain ⟨after, later⟩ := flomHold_talks net.exec net.unlock
    rw [events]
    exact ⟨after, Monitor.watch_trans talks later⟩

inductive Holds (exec : ExecNet) (fd : Option Nat) (name : Option Name) : List ClientEvent →
    Option Nat → Prop where
  | unforked (report : Option Nat) (failed : report = some esUnableToExecuteCommand) :
      Holds exec fd name [] report
  | left (element : Option Name) (report : Option Nat)
      (failed : report = none ∨ report = some esUnableToExecuteCommand ∨
        report = some esGenericError) :
      Holds exec fd name [.exec element] report
  | released (element : Option Name) (status : Nat) (ended : exec.wait = .ended status)
      (request : Msg) (named : request.unlock8.name = name)
      (undone : request.unlock8.rollback = if wexitstatus status = 0 then 0 else 1)
      (behind : List ClientEvent) (farewell : Farewell fd behind) (report : Option Nat)
      (reports : report = none ∨ report = some (wexitstatus status)) :
      Holds exec fd name (.exec element :: .unlock fd request :: behind) report

theorem flomExec_cases (element : Option Name) (exec : ExecNet) :
    ((flomExec element exec).rc ≠ .ok ∧ (flomExec element exec).rc ≠ .blocked ∧
      (flomExec element exec).events = []) ∨
      (flomExec element exec).rc ≠ .ok ∧ (flomExec element exec).events = [.exec element] ∨
      ∃ status, exec.wait = .ended status ∧ flomExec element exec =
          ⟨.ok, wexitstatus status, [.exec element]⟩ := by
  unfold flomExec
  split_ifs
  · exact .inl ⟨nofun, nofun, rfl⟩
  · exact .inr (.inl ⟨nofun, rfl⟩)
  · cases waited : exec.wait with
    | never | failed => exact .inr (.inl ⟨nofun, rfl⟩)
    | ended status => exact .inr (.inr ⟨status, rfl, rfl⟩)

theorem flomHold_holds (session : Session) (exec : ExecNet) (net : UnlockNet) :
    Holds exec session.conn.sockfd session.handle.config.resourceName
      (flomHold session exec net).events
        (flomHold session exec net).status := by
  unfold flomHold
  dsimp only
  obtain ⟨failed, back, none⟩ | ⟨failed, one⟩ | ⟨status, ended, done⟩ :=
    flomExec_cases session.lockedElement exec
  · rw [if_neg back, if_pos failed, none]
    exact .unforked _ rfl
  · split_ifs
    · rw [one]
      exact .left _ _ (.inl rfl)
    · rw [one]
      exact .left _ _ (.inr (.inl rfl))
  · rw [done]
    simp only [reduceCtorEq, if_false, ne_eq, not_true_eq_false]
    obtain ⟨failed, unsaid⟩ | ⟨name, named, given, said⟩ :=
      clientUnlock_cases session (wexitstatus status ≠ 0) net
    · rw [if_pos failed, unsaid]
      exact .left _ _ (.inr (.inr rfl))
    · rw [if_neg (not_not.mpr given), said, named]
      refine .released session.lockedElement status ended
        (session.release name (wexitstatus status ≠ 0)) rfl ?_
        (flomDisconnect session net (wexitstatus status)).events
        (handleDisconnect_farewell net) _ ?_
      · by_cases zero : wexitstatus status = 0 <;> simp [Session.release, clientUnlockRequest, zero]
      · simp only [flomDisconnect]
        split_ifs
        · exact .inl rfl
        · exact .inr rfl

theorem split_guarded {front rest before behind : List ClientEvent} {event : ClientEvent}
    (guarded : event.guarded = true) (unguarded : ∀ event ∈ front, event.guarded = false)
    (same : front ++ rest = before ++ event :: behind) :
    ∃ between, before = front ++ between ∧ rest = between ++ event :: behind := by
  obtain further | ⟨between, split, tail⟩ := List.append_eq_append_iff.mp same
  · exact further
  · cases between with
    | nil => exact ⟨[], by simpa using split.symm, by simpa using tail.symm⟩
    | cons first later =>
      obtain ⟨rfl, _⟩ := List.cons.inj tail
      have quiet := unguarded event (by simp [split])
      simp [quiet] at guarded

def GivenBack (exec : ExecNet) (fd : Option Nat) (name : Option Name) (behind : List ClientEvent) :
    Prop :=
  ∃ request later status, behind = .unlock fd request :: later ∧ request.unlock8.name = name ∧
    exec.wait = .ended status ∧ request.unlock8.rollback =
      (if wexitstatus status = 0 then 0 else 1) ∧
      Farewell fd later

theorem Holds.given {exec : ExecNet} {fd : Option Nat} {name : Option Name}
    {events before behind : List ClientEvent} {report : Option Nat} {element : Option Name}
    (holds : Holds exec fd name events report)
    (split : events = before ++ .exec element :: behind) : before = [] ∧
    (behind = [] ∨ GivenBack exec fd name behind) := by
  cases holds with
  | unforked => simp at split
  | left =>
    cases before with
    | nil => exact ⟨rfl, .inl (by simpa using (List.cons.inj split).2.symm)⟩
    | cons first rest => simp at split
  | released own status ended request named undone later farewell _ reports =>
    cases before with
    | nil =>
      obtain ⟨_, rest⟩ := List.cons.inj split
      exact ⟨rfl, .inr ⟨request, later, status, rest.symm, named, ended, undone, farewell⟩⟩
    | cons first rest =>
      obtain ⟨_, tail⟩ := List.cons.inj split
      cases rest with
      | nil => simp at tail
      | cons second rest =>
        obtain ⟨_, tail⟩ := List.cons.inj tail
        have quiet := farewell.unguarded (.exec element) (by simp [tail])
        cases quiet

theorem command_guarded (config : Config) (settings : ClientConfig) (options : ConnectOptions)
    (net : CommandNet) (before behind : List ClientEvent) (element : Option Name)
    (said : (flomMain config settings options net).events = before ++ .exec element :: behind) :
    ∃ fd, Granted before fd config.resourceName ∧
    (behind = [] ∨ GivenBack net.exec fd config.resourceName behind) := by
  obtain ⟨_, _, unguarded, _⟩ | ⟨front, session, events, _, talks, named, unguarded⟩ :=
    flomMain_goes config settings options net
  · have quiet := unguarded (.exec element) (by simp [said])
    cases quiet
  · rw [said] at events
    obtain ⟨between, rfl, rest⟩ := split_guarded rfl unguarded events.symm
    obtain ⟨rfl, given⟩ := (flomHold_holds session net.exec net.unlock).given rest
    rw [named] at talks given
    exact ⟨session.conn.sockfd, by simpa using holding_granted talks, given⟩

def failedNet : CommandNet := ⟨localNet 3, grantedNet, ⟨true, true, .ended 256⟩,
      ⟨.ok, .ok, true, true⟩⟩

theorem command_guarded_failed :
    let start := handleInit (localConfig ['r']) localSettings localOptions
    let before : List ClientEvent := [.socket 3, .connect 3 (.path ['s']), .connected (some 3),
      .lock (some 3) (clientRequest (start.request ['r'])), .answer (some 3) .ok]
    let behind : List ClientEvent :=
      [.unlock (some 3) (start.release ['r'] true), .shutdown (some 3), .release 3 true]
    (flomMain (localConfig ['r']) localSettings localOptions failedNet).events =
    before ++ .exec none :: behind ∧
      ∃ fd, Granted before fd (localConfig ['r']).resourceName ∧
        (behind = [] ∨ GivenBack failedNet.exec fd (localConfig ['r']).resourceName behind) := by
  intro start before behind
  have said : (flomMain (localConfig ['r']) localSettings localOptions failedNet).events =
      before ++ .exec none :: behind := by
    decide
  exact ⟨said, command_guarded (localConfig ['r']) localSettings localOptions failedNet before
    behind none said⟩

theorem command_succeeds (config : Config) (settings : ClientConfig) (options : ConnectOptions)
    (net : CommandNet) (succeeds : (flomMain config settings options net).status = some 0) :
    ∃ before fd element request behind status,
      (flomMain config settings options net).events =
        before ++ .exec element :: .unlock fd request :: behind ∧
        Granted before fd config.resourceName ∧ request.unlock8.name = config.resourceName ∧
          request.unlock8.rollback = 0 ∧ net.exec.wait = .ended status ∧
          wexitstatus status = 0 := by
  obtain ⟨_, _, _, reports⟩ | ⟨front, session, events, status, talks, named, _⟩ :=
    flomMain_goes config settings options net
  · obtain impossible | impossible | impossible := reports 0 succeeds <;> cases impossible
  · have holds := flomHold_holds session net.exec net.unlock
    rw [← status, succeeds, named] at holds
    rw [named] at talks
    generalize (flomHold session net.exec net.unlock).events = rest at events holds
    cases holds with
    | unforked _ failed => cases failed
    | left element _ failed => simp at failed
    | released element status ended request named undone behind farewell _ reports =>
      have zero : wexitstatus status = 0 := Eq.symm (by simpa using reports)
      exact ⟨front, _, element, request, behind, status, events, holding_granted talks,
        named, by simpa [zero] using undone,
        ended, zero⟩

/-- A command that SIGKILL has ended counts as one that succeeded. -/
def killedNet : CommandNet := { failedNet with exec := ⟨true, true, .ended 9⟩ }

theorem command_succeeds_killed :
    (flomMain (localConfig ['r']) localSettings localOptions killedNet).status = some 0 ∧
      ∃ before fd element request behind status,
        (flomMain (localConfig ['r']) localSettings localOptions killedNet).events =
            before ++ .exec element :: .unlock fd request :: behind ∧
          Granted before fd (localConfig ['r']).resourceName ∧
            request.unlock8.name = (localConfig ['r']).resourceName ∧
            request.unlock8.rollback = 0 ∧ killedNet.exec.wait = .ended status ∧
            wexitstatus status = 0 := by
  have succeeds : (flomMain (localConfig ['r']) localSettings localOptions killedNet).status =
    some 0 := by decide
  exact ⟨succeeds, command_succeeds (localConfig ['r']) localSettings localOptions killedNet
    succeeds⟩

end Flom
