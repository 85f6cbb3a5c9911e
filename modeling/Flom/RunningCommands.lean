import Flom.FlomMain
import Flom.Honoured

set_option autoImplicit false

namespace Flom

structure Command where
  config : Config
  settings : ClientConfig
  options : ConnectOptions
  net : CommandNet

def Command.ran (command : Command) : Ran :=
  flomMain command.config command.settings command.options command.net

def Command.asks (command : Command) : ClientConfig :=
  { command.settings with resourceName := command.config.resourceName.getD [] }

theorem command_locks {command : Command} {element : Option Name}
    (started : .exec element ∈ command.ran.events) :
    ∃ locked, clientLock command.asks command.net.lock = some locked ∧ locked.rc = .ok := by
  have established := @clientConnect_establishes command.config command.options connZeroed true
    command.net.connect
  have named := established.name
  have quiet := established.unguarded
  unfold Command.ran flomMain at started
  dsimp only at started
  generalize clientConnect command.config command.options connZeroed true command.net.connect =
    connected at *
  set session : Session :=
    ⟨⟨.connected, connected.config⟩, command.settings, connected.options, connected.conn, none,
      false⟩
  have unasked : .exec element ∉ connected.events := fun member => by cases quiet _ member
  have unheard : .exec element ∉ (handleAsk session command.net.lock).events := fun member => by
    cases handleAsk_unguarded command.net.lock _ member
  split_ifs at started with crashed failed stopped ok
  · exact absurd started unasked
  · exact absurd started unasked
  · exact ((List.mem_append.mp started).elim unasked unheard).elim
  · unfold handleAsk at ok
    have same : session.handle.config.resourceName = command.config.resourceName := named
    cases own : session.handle.config.resourceName with
    | none =>
      rw [own] at ok
      dsimp only at ok
      split_ifs at ok
    | some name =>
      rw [own] at ok
      dsimp only at ok
      have asks : command.asks = session.request name := by
        rw [Command.asks, ← same, own]
        rfl
      rw [asks]
      cases result : clientLock (session.request name) command.net.lock with
      | none =>
        rw [result] at ok
        cases ok
      | some locked =>
        rw [result] at ok
        dsimp only at ok
        by_cases done : locked.rc = .ok
        · exact ⟨locked, rfl, done⟩
        · rw [if_neg done] at ok
          exact absurd ok done
  · obtain earlier | later := List.mem_append.mp started
    · exact ((List.mem_append.mp earlier).elim unasked unheard).elim
    · cases (flomRefused_unguarded _ command.net.unlock).1 _ later

/-- A command that has been started by flom, and whose lock has not been given back: all that flom
has read is what the lock manager has sent it, and a locker still has its connection. -/
structure Command.Runs (command : Command) (decode : Name → Name) (multicast tlsCheckPeerId : Bool)
    (turns : List Turn)
    (key : Key) (client : ConnId) : Prop where
  started : ∃ before element, command.ran.events = before ++ [.exec element]
  delivered : ∃ skipped, Carries
    ((mailTo client (Run.run (daemonStep decode)
      (daemonStart multicast tlsCheckPeerId) turns).mail).drop skipped)
    command.net.lock.deliveries
  single : Run.Along (daemonStep decode)
    (fun daemon turn => turn.Single decode client (clientRequest command.asks) daemon)
    (daemonStart multicast tlsCheckPeerId) turns
  served : ∃ slot ∈ (Run.run (daemonStep decode)
    (daemonStart multicast tlsCheckPeerId) turns).lockers,
    slot.thread.resource.key = key ∧ slot.thread.hosting client = true
  named : key.accepts command.asks.resourceName = true

theorem Command.Runs.hasLock {command : Command} {decode : Name → Name}
    {multicast tlsCheckPeerId : Bool} {turns : List Turn} {key : Key} {client : ConnId}
    (runs : command.Runs decode multicast tlsCheckPeerId turns key client) :
    HasLock decode multicast tlsCheckPeerId turns key client command.asks := by
  obtain ⟨before, element, started⟩ := runs.started
  obtain ⟨locked, result, ok⟩ := @command_locks command element (by simp [started])
  obtain ⟨skipped, delivered⟩ := runs.delivered
  exact ⟨runs.single, ⟨command.net.lock, locked, skipped, delivered, result, ok⟩, runs.served,
    runs.named⟩

def ClientConfig.Beside (key : Key) (first second : ClientConfig) : Prop :=
  match key with
  | .level _ => Comparable (hierLevels first.resourceName) (hierLevels second.resourceName) →
      ModesCompatible first.lockMode second.lockMode
  | .whole name => rsrcGetType name = .simple → ModesCompatible first.lockMode second.lockMode

theorem beside_of_fits {key : Key} {first second : ClientConfig} {held held' : Grant}
    (fits : held.Fits key.type (clientRequest first))
    (fits' : held'.Fits key.type (clientRequest second)) (agrees : held.Agrees held') :
    first.Beside key second := by
  cases key with
  | level label =>
    cases held with
    | path levels mode =>
      cases held' with
      | path levels' mode' =>
        obtain ⟨rfl, name, same, rfl⟩ := fits
        obtain ⟨rfl, name', same', rfl⟩ := fits'
        obtain rfl := Option.some.inj same
        obtain rfl := Option.some.inj same'
        exact agrees
      | _ => exact fits'.elim
    | _ => exact fits.elim
  | whole name =>
    intro simple
    rw [Key.type, simple] at fits fits'
    cases held with
    | mode held =>
      cases held' with
      | mode held' =>
        obtain rfl := fits
        obtain rfl := fits'
        exact agrees
      | _ => exact fits'.elim
    | _ => exact fits.elim

-- Commands that run at one time under the locks of one resource ask for nothing that excludes
-- another of them, and for no more together than there is.
theorem running_commands (decode : Name → Name) (multicast tlsCheckPeerId : Bool)
    (turns : List Turn)
    (along : Run.Along (daemonStep decode)
      (fun daemon turn => (daemonStep decode daemon turn).keepsControl)
      (daemonStart multicast tlsCheckPeerId) turns)
    (admitted : Run.Along (daemonStep decode)
      (fun daemon turn => turn.Along decode (fun _ _ _ => True)
        (LockerSlot.Makes Resource.Admits) daemon)
      (daemonStart multicast tlsCheckPeerId) turns)
    (key : Key) (commands : List (ConnId × Command)) (distinct : (commands.map Prod.fst).Nodup)
    (running : ∀ command ∈ commands, command.2.Runs decode multicast tlsCheckPeerId turns key
      command.1) :
    commands.Pairwise (fun first second => first.2.asks.Beside key second.2.asks) ∧
      ∀ name total, key = .whole name → rsrcGetNumber name (rsrcGetType name) = .ok total →
      0 ≤ total →
        (commands.map fun command => command.2.asks.weight (rsrcGetType name)).sum ≤
          total.toInt := by
  constructor
  · have agree := grants_exclusive (housed_run along)
      (resources_run exclusive_init exclusive_call admitted) key
    have : Std.Symm fun first second : ConnId × Grant => first.2.Agrees second.2 :=
      ⟨fun _ _ => Grant.Agrees.symm⟩
    refine (List.pairwise_map.mp distinct).imp_of_mem fun {first second} member member' apart => ?_
    obtain ⟨held, listed, fits⟩ := hasLock_grant (running first member).hasLock
    obtain ⟨held', listed', fits'⟩ := hasLock_grant (running second member').hasLock
    exact beside_of_fits fits fits'
      (agree.forall listed listed' fun same => apart (Prod.mk.inj same).1)
  · rintro name total rfl number positive
    obtain ⟨weights, bound⟩ := grants_weights (housed_run along)
      (resources_run exclusive_init exclusive_call admitted) number positive
    have fits := @granted_weights _ (rsrcGetType name) total.toInt weights bound
      (commands.map fun command => (command.1, command.2.asks))
        (by simpa [Function.comp_def] using distinct)
      fun client member => by
        obtain ⟨command, inside, rfl⟩ := List.mem_map.mp member
        exact hasLock_grant (running command inside).hasLock
    simpa [Function.comp_def] using fits

def toldCommand (client : ConnId) (holding : List ConnId) (asked : ClientConfig) : Command where
  config := localConfig asked.resourceName
  settings := asked
  options := localOptions
  net := ⟨localNet 3, mailNet [⟨client, 2 * msgStepIncr, .ok, holding⟩], ⟨true, true, .never⟩,
    ⟨.ok, .ok, true, true⟩⟩

theorem runs_told {decode : Name → Name} {turns : List Turn} {key : Key} {client : ConnId}
    {holding : List ConnId} {asked : ClientConfig}
    (has : HasLock decode false false turns key client asked)
    (sent : mailTo client (Run.run (daemonStep decode) (daemonStart false false) turns).mail =
      [⟨client, 2 * msgStepIncr, .ok, holding⟩])
    (started : (toldCommand client holding asked).ran.events =
      [.socket 3, .connect 3 (.path ['s']), .connected (some 3),
      .lock (some 3) (clientRequest asked), .answer (some 3) .ok] ++ [.exec none]) :
    (toldCommand client holding asked).Runs decode false false turns key client where
  started := ⟨_, none, started⟩
  delivered := ⟨0, by rw [sent]; exact ⟨fun _ => ⟨rfl, rfl, rfl⟩, trivial⟩⟩
  single := has.single
  served := has.served
  named := has.named

theorem running_commands_beside :
    (let turns := [joinTurn 2, exclusiveTurn encodedFirst, readTurn, joinTurn 3,
      exclusiveTurn encodedSecond, readTurn]
      let commands :=
        [((2 : ConnId), toldCommand 2 [2] (exclusiveConfig (decodePaths encodedFirst))),
              (3, toldCommand 3 [2, 3] (exclusiveConfig (decodePaths encodedSecond)))]
      (∀ command ∈ commands,
        command.2.Runs decodePaths false false turns (.level ['a']) command.1) ∧
        commands.Pairwise (fun first second => first.2.asks.Beside (.level ['a']) second.2.asks)) ∧
      let turns := [joinTurn 2, requestTurn [.quiet] ['1'] ['1'], readTurn, joinTurn 3,
        requestTurn [.quiet] ['4'] ['1'],
        readTurn]
      let name := decodeFive encodedFive
      let commands := [((2 : ConnId), toldCommand 2 [2] (fiveConfig 1 1)),
        (3, toldCommand 3 [3, 2] (fiveConfig 4 1))]
      (∀ command ∈ commands, command.2.Runs decodeFive false false turns (.whole name) command.1) ∧
        (commands.map fun command => command.2.asks.weight (rsrcGetType name)).sum ≤
        (5 : Int32).toInt := by
  constructor
  · intro turns commands
    have running : ∀ command ∈ commands, command.2.Runs decodePaths false false turns
        (.level ['a']) command.1 := by
      refine List.forall_mem_cons.mpr ⟨?_, List.forall_mem_singleton.mpr ?_⟩
      · exact runs_told (@hasLock_told decodePaths turns _ 2 _ [2] (by decide) (by decide)
          (by decide) (by decide) (by decide)) (by decide) (by decide)
      · exact runs_told (@hasLock_told decodePaths turns _ 3 _ [2, 3] (by decide) (by decide)
          (by decide) (by decide) (by decide)) (by decide) (by decide)
    exact ⟨running, (running_commands decodePaths false false turns (by decide) (by decide)
      (.level ['a']) commands (by decide) running).1⟩
  · intro turns name commands
    have running : ∀ command ∈ commands, command.2.Runs decodeFive false false turns
        (.whole name) command.1 := by
      refine List.forall_mem_cons.mpr ⟨?_, List.forall_mem_singleton.mpr ?_⟩
      · exact runs_told (@hasLock_told decodeFive turns _ 2 _ [2] (by decide) (by decide)
          (by decide) (by decide) (by decide)) (by decide) (by decide)
      · exact runs_told (@hasLock_told decodeFive turns _ 3 _ [3, 2] (by decide) (by decide)
          (by decide) (by decide) (by decide)) (by decide) (by decide)
    exact ⟨running, (running_commands decodeFive false false turns (by decide) (by decide)
      (.whole name) commands (by decide) running).2 name 5 rfl (by decide) (by decide)⟩

end Flom
