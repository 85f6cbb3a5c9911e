import Flom.ClientConnect
import Mathlib.Algebra.BigOperators.Group.List.Basic

set_option autoImplicit false

namespace Flom

def ClientEvent.weight : ClientEvent → Int
  | .socket _ => 1
  | .close (some _) | .release _ true => -1
  | _ => 0

def openDescriptors (events : List ClientEvent) : Int := (events.map ClientEvent.weight).sum

def ClientEvent.quiet : ClientEvent → Bool
  | .socket _ | .close _ | .connect _ _ | .sendto _ _ | .daemon => true
  | _ => false

@[simp] theorem openDescriptors_nil : openDescriptors [] = 0 := rfl

@[simp] theorem openDescriptors_cons (event : ClientEvent) (events : List ClientEvent) :
    openDescriptors (event :: events) = event.weight + openDescriptors events := by
  simp [openDescriptors]

@[simp] theorem openDescriptors_append (first second : List ClientEvent) :
    openDescriptors (first ++ second) = openDescriptors first + openDescriptors second := by
  simp [openDescriptors]

structure Paved (startDaemon : Bool) (lifespan : Int) (events : List ClientEvent) : Prop where
  quiet : events.all ClientEvent.quiet = true
  nonneg : 0 ≤ openDescriptors events
  single : openDescriptors events ≤ 1
  domestic : startDaemon = false ∨ lifespan = 0 → ClientEvent.daemon ∉ events

structure Connected.Opens (connected : Connected) (config : Config) (options : ConnectOptions)
    (conn : ClientConn)
    (startDaemon : Bool) : Prop where
  paved : Paved startDaemon options.lifespan connected.events
  one : connected.rc = .ok → openDescriptors connected.events = 1
  state : connected.conn.state = conn.state
  name : connected.config.resourceName = config.resourceName
  lifespan : connected.options.lifespan = options.lifespan

structure Connected.Tries (connected : Connected) (config : Config) (options : ConnectOptions)
    (conn : ClientConn)
    (startDaemon : Bool) : Prop extends connected.Opens config options conn startDaemon where
  refused : connected.rc = .connectionRefused → openDescriptors connected.events = 0

section

variable {config : Config} {options : ConnectOptions} {conn : ClientConn} {startDaemon : Bool}

theorem paved_nil (startDaemon : Bool) (lifespan : Int) : Paved startDaemon lifespan [] := by
  constructor <;> simp

theorem paved_of {lifespan : Int} {events : List ClientEvent}
    (quiet : events.all ClientEvent.quiet = true)
    (opened : openDescriptors events = 0 ∨ openDescriptors events = 1)
    (domestic : startDaemon = false ∨ lifespan = 0 → .daemon ∉ events) :
    Paved startDaemon lifespan events :=
  ⟨quiet, by omega, by omega, domestic⟩

theorem Paved.append {lifespan : Int} {first second : List ClientEvent}
    (before : Paved startDaemon lifespan first) (after : Paved startDaemon lifespan second)
    (closed : openDescriptors first = 0) :
    Paved startDaemon lifespan (first ++ second) where
  quiet := by rw [List.all_append, before.quiet, after.quiet]; rfl
  nonneg := by
    rw [openDescriptors_append, closed, zero_add]
    exact after.nonneg
  single := by
    rw [openDescriptors_append, closed, zero_add]
    exact after.single
  domestic := fun home member =>
    (List.mem_append.mp member).elim (before.domestic home) (after.domestic home)

theorem Paved.started {lifespan lifespan' : Int} {events : List ClientEvent}
    (paved : Paved false lifespan events) :
    Paved startDaemon lifespan' events :=
  ⟨paved.quiet, paved.nonneg, paved.single, fun _ => paved.domestic (.inl rfl)⟩

theorem Connected.Tries.behind {connected : Connected}
    (tries : connected.Tries config options conn startDaemon) {events : List ClientEvent}
    (paved : Paved startDaemon options.lifespan events) (closed : openDescriptors events = 0) :
    Connected.Tries { connected with events := events ++ connected.events } config options conn
      startDaemon where
  paved := paved.append tries.paved closed
  one := fun ok => by simp [closed, tries.one ok]
  refused := fun refused => by simp [closed, tries.refused refused]
  state := tries.state
  name := tries.name
  lifespan := tries.lifespan

theorem tries_closed (rc : Rc) {events : List ClientEvent}
    (paved : Paved startDaemon options.lifespan events) (closed : openDescriptors events = 0)
    (failed : rc ≠ .ok) {after : ClientConn} (state : after.state = conn.state) :
    Connected.Tries ⟨rc, config, options, after, events⟩ config options conn startDaemon :=
  ⟨⟨paved, fun ok => absurd ok failed, state, rfl, rfl⟩, fun _ => closed⟩

theorem opens_left {fd : Nat} (rc : Rc) (events : List ClientEvent)
    (quiet : events.all ClientEvent.quiet = true) (single : openDescriptors events = 1)
    (domestic : startDaemon = false ∨ options.lifespan = 0 → .daemon ∉ events) :
    Connected.Opens ⟨rc, config, options, { conn with sockfd := some fd }, events⟩ config options
      conn startDaemon :=
  ⟨paved_of quiet (.inr single) domestic, fun _ => single, rfl, rfl, rfl⟩

theorem clientConnectLocal_opens (name : Name) (net : LocalNet) :
    (clientConnectLocal config options conn startDaemon name net).Opens config options conn
    startDaemon := by
  unfold clientConnectLocal
  cases net.socket with
  | none =>
    have ended : Connected.Tries ⟨.socketError, config, options, { conn with sockfd := none }, []⟩
      config options conn
        startDaemon := tries_closed .socketError (paved_nil _ _) rfl nofun rfl
    exact ended.toOpens
  | some fd =>
    cases net.connect with
    | connected => exact opens_left _ _ rfl rfl (by simp)
    | failed => exact opens_left _ _ rfl rfl (by simp)
    | absent =>
      dsimp only
      by_cases home : startDaemon = false
      · rw [if_pos home]
        exact opens_left _ _ rfl rfl (by simp)
      · rw [if_neg home]
        by_cases still : options.lifespan = 0
        · rw [if_pos still]
          exact opens_left _ _ rfl rfl (by simp)
        · rw [if_neg still]
          split_ifs
          all_goals exact opens_left _ _ rfl rfl fun either => (either.elim home still).elim

theorem tcpTryConnect_paved (tries : List AddrTry) :
    Paved startDaemon options.lifespan (tcpTryConnect options tries).2 ∧
      openDescriptors (tcpTryConnect options tries).2 =
        (tcpTryConnect options tries).1.toList.length := by
  induction tries with
  | nil => exact ⟨paved_nil _ _, rfl⟩
  | cons this rest ih =>
    obtain ⟨paved, opened⟩ := ih
    unfold tcpTryConnect
    cases this.socket with
    | none => exact ⟨paved, opened⟩
    | some fd =>
      dsimp only
      by_cases connects : this.connects = true
      · rw [if_pos connects]
        exact ⟨paved_of rfl (.inr rfl) (by simp), rfl⟩
      · rw [if_neg connects]
        have closed : Paved startDaemon options.lifespan [.socket fd, .close (some fd)] :=
          paved_of rfl (.inl rfl) (by simp)
        refine ⟨closed.append paved rfl, ?_⟩
        simpa [ClientEvent.weight] using opened

theorem tcpConnect_paved (address : Name) (net : TcpNet) :
    Paved startDaemon options.lifespan (tcpConnect options address conn net).2.2 ∧
      (openDescriptors (tcpConnect options address conn net).2.2 =
        if (tcpConnect options address conn net).1 = .ok then 1 else 0) ∧
      (tcpConnect options address conn net).2.1.state = conn.state := by
  unfold tcpConnect
  split
  · exact ⟨paved_nil _ _, rfl, rfl⟩
  · exact ⟨paved_nil _ _, rfl, rfl⟩
  · next tries _ _ =>
    obtain ⟨paved, opened⟩ := @tcpTryConnect_paved options startDaemon tries
    split
    · next events same =>
      rw [same] at paved opened
      exact ⟨paved, opened, rfl⟩
    · next fd events same =>
      rw [same] at paved opened
      exact ⟨paved, opened, rfl⟩

theorem clientConnectTcpWith_tries (address : Name) (net : TcpNet)
    (restart : Option (ClientConn → Connected)) (single : startDaemon = false → restart = none)
    (again : ∀ reached ∈ restart, ∀ after : ClientConn, after.state = conn.state →
      (reached after).Tries config options conn false) :
    (clientConnectTcpWith config options address net restart conn).Tries config options conn
    startDaemon := by
  obtain ⟨paved, opened, state⟩ := @tcpConnect_paved options
    { conn with sockfd := some 0 } startDaemon address net
  unfold clientConnectTcpWith
  dsimp only
  by_cases ok : (tcpConnect options address { conn with sockfd := some 0 } net).1 = .ok
  · rw [if_pos ok]
    rw [if_pos ok] at opened
    split_ifs
    · exact ⟨⟨paved, fun _ => opened, state, rfl, rfl⟩, nofun⟩
    · exact ⟨⟨paved, nofun, state, rfl, rfl⟩, nofun⟩
  · rw [if_neg ok]
    rw [if_neg ok] at opened
    by_cases refused :
      (tcpConnect options address { conn with sockfd := some 0 } net).1 = .connectionRefused
    · rw [if_pos refused]
      cases restart with
      | none => exact tries_closed .daemonNotStarted paved opened nofun state
      | some restart =>
        dsimp only
        by_cases still : options.lifespan = 0
        · rw [if_pos still]
          exact tries_closed .connectError paved opened nofun state
        · rw [if_neg still]
          have away : startDaemon ≠ false := fun home => by cases single home
          have later := again restart rfl _ state
          have started : Connected.Tries (restart _) config options conn startDaemon :=
            ⟨⟨later.paved.started, later.one, later.state, later.name, later.lifespan⟩,
              later.refused⟩
          have daemon : Paved startDaemon options.lifespan [.daemon] :=
            paved_of rfl (.inl rfl) fun either => (either.elim away still).elim
          have both := started.behind (paved.append daemon opened)
            (by rw [openDescriptors_append, opened]; rfl)
          rwa [List.append_assoc] at both
    · rw [if_neg refused]
      exact tries_closed _ paved opened ok state

theorem clientConnectTcpAgain_tries (address : Name) (nets : TcpNets) (after : ClientConn)
    (state : after.state = conn.state) :
    (clientConnectTcpAgain config options address nets after).Tries config options conn false := by
  have again := @clientConnectTcpWith_tries config options after false address nets.second none
    (fun _ => rfl) nofun
  unfold clientConnectTcpAgain
  dsimp only
  split_ifs with failed
  · exact tries_closed _ (paved_nil _ _) rfl failed.1 state
  · exact ⟨⟨again.paved, again.one, again.state.trans state, again.name, again.lifespan⟩,
      again.refused⟩
  · exact ⟨⟨again.paved, nofun, again.state.trans state, again.name, again.lifespan⟩, nofun⟩

theorem clientConnectTcp_tries (address : Name) (nets : TcpNets) :
    (clientConnectTcp config options conn startDaemon address nets).Tries config options conn
    startDaemon := by
  unfold clientConnectTcp
  refine clientConnectTcpWith_tries address nets.first _ (fun home => by rw [home]; rfl) ?_
  intro reached member after state
  split_ifs at member
  · obtain rfl := Option.some.inj member
    exact clientConnectTcpAgain_tries address nets after state
  · cases member

def DiscoverSearch.left : DiscoverSearch → Int
  | .found _ _ => 1
  | .missed | .foreign | .crash => 0

theorem discoverSearch_paved (tries : List DiscoverTry) :
    Paved startDaemon options.lifespan (discoverSearch tries).2 ∧
      openDescriptors (discoverSearch tries).2 = (discoverSearch tries).1.left := by
  fun_induction discoverSearch tries with
  | case1 | case2 | case3 => exact ⟨paved_nil _ _, rfl⟩
  | case4 this foreign next later search unsocketed ih =>
    have closed : Paved startDaemon options.lifespan [.close none] :=
      paved_of rfl (.inl rfl) (by simp)
    exact ⟨closed.append ih.1 rfl, by simpa [ClientEvent.weight] using ih.2⟩
  | case5 => exact ⟨paved_of rfl (.inr rfl) (by simp), rfl⟩
  | case6 this foreign fd rest usable search socketed ih =>
    have closed : Paved startDaemon options.lifespan [.socket fd, .close (some fd)] :=
      paved_of rfl (.inl rfl) (by simp)
    exact ⟨closed.append ih.1 rfl, by simpa [ClientEvent.weight] using ih.2⟩

theorem discoverAttempts_paved (fd : Nat) (entry : AddrInfo) (left : Nat)
    (attempts : List Attempt) :
    Paved startDaemon options.lifespan (discoverAttempts fd entry left attempts).2 ∧
      openDescriptors (discoverAttempts fd entry left attempts).2 = 0 := by
  have sent : Paved startDaemon options.lifespan [.sendto fd entry] :=
    paved_of rfl (.inl rfl) (by simp)
  induction left generalizing attempts with
  | zero => exact ⟨paved_nil _ _, rfl⟩
  | succ left ih =>
    rw [discoverAttempts]
    cases attempts.head?.getD .timeout with
    | unsent => exact ⟨paved_nil _ _, rfl⟩
    | failed | reply => exact ⟨sent, rfl⟩
    | timeout =>
      exact ⟨sent.append (ih attempts.tail).1
        rfl, by simpa [ClientEvent.weight] using (ih attempts.tail).2⟩

theorem clientDiscoverUdpConnect_tries (peer : AddrInfo) (net : DirectNet) :
    (clientDiscoverUdpConnect config options conn peer net).Tries config options conn
    startDaemon := by
  unfold clientDiscoverUdpConnect
  cases net.socket with
  | none => exact tries_closed .socketError (paved_nil _ _) rfl nofun rfl
  | some fd =>
    dsimp only
    split_ifs
    · exact tries_closed .connectError (paved_of rfl (.inl rfl) (by simp)) rfl nofun rfl
    · exact tries_closed .setsockoptError (paved_of rfl (.inl rfl) (by simp)) rfl nofun rfl
    · exact ⟨⟨paved_of rfl (.inr rfl) (by simp), fun _ => rfl, rfl, rfl, rfl⟩, nofun⟩

theorem Connected.Tries.learned {connected : Connected} {config' : Config}
    {options' : ConnectOptions} {conn' : ClientConn}
    (tries : connected.Tries config' options' conn' startDaemon)
    (name : config'.resourceName = config.resourceName)
    (lifespan : options'.lifespan = options.lifespan) (state : conn'.state = conn.state) :
    connected.Tries config options conn startDaemon where
  paved := lifespan ▸ tries.paved
  one := tries.one
  refused := tries.refused
  state := tries.state.trans state
  name := tries.name.trans name
  lifespan := tries.lifespan.trans lifespan

theorem clientDiscoverReply_tries (family : Family) (reply : Discover16) (net : DiscoverNet) :
    (clientDiscoverReply config options conn startDaemon family reply net).Tries config options conn
    startDaemon := by
  unfold clientDiscoverReply
  split
  · exact tries_closed .crash (paved_nil _ _) rfl nofun rfl
  · exact clientDiscoverUdpConnect_tries _ _
  · next address _ _ =>
    dsimp only
    split_ifs
    · cases net.interface with
      | error failure =>
        exact (tries_closed failure.val (paved_nil _ _) rfl failure.property rfl).learned rfl rfl
          rfl
      | ok name => exact (clientConnectTcp_tries address net.tcp).learned rfl rfl rfl
    · exact (clientConnectTcp_tries address net.tcp).learned rfl rfl rfl

theorem Paved.shut {lifespan : Int} {opened asked : List ClientEvent}
    (paved : Paved startDaemon lifespan opened) (single : openDescriptors opened = 1)
    (sent : Paved startDaemon lifespan asked) (still : openDescriptors asked = 0) (fd : Nat) :
    Paved startDaemon lifespan (opened ++ asked ++ [.close (some fd)]) ∧
      openDescriptors (opened ++ asked ++ [.close (some fd)]) = 0 := by
  have closed : openDescriptors (opened ++ asked ++ [.close (some fd)]) = 0 := by
    simp [single, still, ClientEvent.weight]
  refine ⟨paved_of ?_ (.inl closed) fun home member => ?_, closed⟩
  · rw [List.all_append, List.all_append, paved.quiet, sent.quiet]
    rfl
  · simp only [List.mem_append, List.mem_singleton, reduceCtorEq, or_false] at member
    exact member.elim (paved.domestic home) (sent.domestic home)

theorem clientDiscoverUdp_tries (address : Name) (net : DiscoverNet) :
    (clientDiscoverUdp config options conn startDaemon address net).Tries config options conn
    startDaemon := by
  unfold clientDiscoverUdp
  split
  · exact tries_closed .getaddrinfoError (paved_nil _ _) rfl nofun rfl
  · next tries _ =>
    obtain ⟨paved, left⟩ := @discoverSearch_paved options startDaemon tries
    dsimp only
    cases search : (discoverSearch tries).1 with
    | missed => exact tries_closed .connectError paved (left.trans (by rw [search]; rfl)) nofun rfl
    | foreign =>
      exact tries_closed .invalidAiFamilyError paved (left.trans (by rw [search]; rfl)) nofun rfl
    | crash => exact tries_closed .crash paved (left.trans (by rw [search]; rfl)) nofun rfl
    | found entry fd =>
      have single : openDescriptors (discoverSearch tries).2 = 1 := left.trans (by rw [search]; rfl)
      obtain ⟨unsent, shut⟩ := paved.shut single (paved_nil _ _) rfl fd
      rw [List.append_nil] at unsent shut
      obtain ⟨sent, still⟩ := @discoverAttempts_paved options startDaemon fd entry
        options.discoveryAttempts.toNatClampNeg net.attempts
      obtain ⟨asked, closed⟩ := paved.shut single sent still fd
      dsimp only
      by_cases serialized : net.serialize = .ok
      · rw [if_neg (not_not.mpr serialized)]
        by_cases timed : net.rcvtimeo = false
        · rw [if_pos timed]
          exact tries_closed .setsockoptError unsent shut nofun rfl
        · rw [if_neg timed]
          split_ifs with unanswered
          · exact tries_closed _ asked closed unanswered rfl
          · cases net.reply with
            | error failure => exact tries_closed failure.val asked closed failure.property rfl
            | ok reply =>
              exact (clientDiscoverReply_tries entry.family reply net).behind asked closed
      · rw [if_pos serialized]
        exact tries_closed _ unsent shut serialized rfl

theorem clientDiscover_opens (address : Name) (net : ConnectNet) :
    (clientDiscover config options conn startDaemon address net).Opens config options conn
    startDaemon := by
  have found := @clientDiscoverUdp_tries config options conn startDaemon address net.discover
  unfold clientDiscover
  dsimp only
  by_cases refused :
    (clientDiscoverUdp config options conn startDaemon address net.discover).rc = .connectionRefused
  · have closed := found.refused refused
    rw [if_pos refused]
    by_cases home : startDaemon = false
    · rw [if_pos home]
      exact ⟨found.paved, nofun, found.state, found.name, found.lifespan⟩
    · rw [if_neg home]
      by_cases still : options.lifespan = 0
      · rw [if_pos still]
        exact ⟨found.paved, nofun, found.state, found.name, found.lifespan⟩
      · rw [if_neg still]
        have daemon : Paved startDaemon options.lifespan [.daemon] :=
          paved_of rfl (.inl rfl) fun either => (either.elim home still).elim
        have started := found.paved.append daemon closed
        split_ifs with failed
        · exact ⟨started, fun ok => absurd ok failed, found.state, found.name, found.lifespan⟩
        · have again := (@clientDiscoverUdp_tries _ _ _ startDaemon address net.rediscover).learned
            found.name found.lifespan found.state
          have both := again.behind started (by rw [openDescriptors_append, closed]; rfl)
          rw [List.append_assoc] at both
          exact both.toOpens
  · rw [if_neg refused]
    exact found.toOpens

structure Connected.Establishes (connected : Connected) (config : Config) (options : ConnectOptions)
    (conn : ClientConn)
    (startDaemon : Bool) : Prop where
  ok : connected.rc = .ok → ∃ way, connected.events = way ++ [.connected connected.conn.sockfd] ∧
    Paved startDaemon options.lifespan way ∧ openDescriptors way = 1
  failed : connected.rc ≠ .ok → Paved startDaemon options.lifespan connected.events
  state : connected.conn.state = conn.state
  name : connected.config.resourceName = config.resourceName
  lifespan : connected.options.lifespan = options.lifespan

theorem clientConnectSecure_establishes {connected : Connected}
    (opens : connected.Opens config options conn startDaemon) (ok : connected.rc = .ok)
    (net : ConnectNet) :
    (clientConnectSecure connected net).Establishes config options conn startDaemon := by
  have done (tls : Bool) : Connected.Establishes { connected with
      events := connected.events ++ [.connected connected.conn.sockfd], conn :=
        { connected.conn with tls := tls } }
      config options conn startDaemon :=
    ⟨fun _ => ⟨_, rfl, opens.paved, opens.one ok⟩, fun failed => absurd ok failed, opens.state,
      opens.name, opens.lifespan⟩
  have fails {rc : Rc} (failed : rc ≠ .ok) (tls : Bool) : Connected.Establishes { connected with
      rc := rc, conn := { connected.conn with tls := tls } } config options conn startDaemon :=
    ⟨fun ok => absurd ok failed, fun _ => opens.paved, opens.state, opens.name, opens.lifespan⟩
  unfold clientConnectSecure
  dsimp only
  split_ifs with _ _ context cert handshake
  · exact @fails .fcntlError nofun connected.conn.tls
  · exact fails context true
  · exact fails cert true
  · exact fails handshake true
  · exact done true
  · exact done connected.conn.tls

theorem clientConnect_establishes (net : ConnectNet) :
    (clientConnect config options conn startDaemon net).Establishes config options conn
    startDaemon := by
  have ways (connected : Connected) (opens : connected.Opens config options conn startDaemon) :
      Connected.Establishes
        (if connected.rc = .ok then clientConnectSecure connected net else connected)
        config options conn startDaemon := by
    split_ifs with ok
    · exact clientConnectSecure_establishes opens ok net
    · exact ⟨fun done => absurd done ok, fun _ => opens.paved, opens.state, opens.name,
        opens.lifespan⟩
  unfold clientConnect
  dsimp only
  cases chosen : clientConnectChoice config with
  | error rc =>
    refine ways _ (tries_closed rc (paved_nil _ _) rfl ?_ rfl).toOpens
    rintro rfl
    unfold clientConnectChoice at chosen
    split at chosen <;> cases chosen
  | ok endpoint =>
    cases endpoint with
    | «local» name => exact ways _ (clientConnectLocal_opens name net.socket)
    | tcp address => exact ways _ (clientConnectTcp_tries address net.tcp).toOpens
    | discovered address => exact ways _ (clientDiscover_opens address net)

theorem Connected.Establishes.quiet {connected : Connected}
    (established : connected.Establishes config options conn startDaemon) {event : ClientEvent}
    (member : event ∈ connected.events) : event.quiet = true ∨ ∃ fd, event = .connected fd := by
  by_cases ok : connected.rc = .ok
  · obtain ⟨way, events, paved, _⟩ := established.ok ok
    rw [events] at member
    obtain old | new := List.mem_append.mp member
    · exact .inl (List.all_eq_true.mp paved.quiet event old)
    · exact .inr ⟨_, List.mem_singleton.mp new⟩
  · exact .inl (List.all_eq_true.mp (established.failed ok).quiet event member)

end

end Flom
