import Flom.Handshake

set_option autoImplicit false

namespace Flom

def LockerPoint.held : LockerPoint → List Parcel
  | .pairs sequence _ _ => [.token sequence]
  | .imports sequence conn _ _ => [.token sequence, .conn conn]
  | _ => []

def DaemonPoint.unwritten : DaemonPoint → List Parcel
  | .counted sequence conn => [.token sequence, .conn conn]
  | .tokened conn => [.conn conn]
  | .failed unwritten => unwritten
  | _ => []

def Handshake.transit (state : Handshake) : List Parcel :=
  state.point.held ++ state.pipe ++ state.daemon.unwritten

def Handshake.received (state : Handshake) : Int :=
  match state.point with
  | .stores sequence _ _ _ => sequence
  | _ => state.readSequence

def Numbered : Int → List Token → Int → Prop
  | last, [], written => last = written
  | last, token :: rest, written => token.sequence = last + 1 ∧ Numbered (last + 1) rest written

theorem numbered_length {last written : Int} {tokens : List Token}
    (numbered : Numbered last tokens written) :
    written = last + tokens.length := by
  induction tokens generalizing last with
  | nil => simpa using numbered.symm
  | cons token rest ih =>
    rw [ih numbered.2, List.length_cons]
    omega

theorem numbered_append {last written : Int} {tokens : List Token}
    (numbered : Numbered last tokens written) (conn : Conn) :
    Numbered last (tokens ++ [⟨written + 1, conn⟩]) (written + 1) := by
  induction tokens generalizing last with
  | nil =>
    obtain rfl : last = written := numbered
    exact ⟨rfl, rfl⟩
  | cons token rest ih => exact ⟨numbered.1, ih numbered.2⟩

def LockerPoint.handles : LockerPoint → Prop
  | .woken .. | .pairs .. | .imports .. | .stores .. | .processes .. => True
  | _ => False

def LockerPoint.serves : LockerPoint → Option Conn
  | .stores _ conn _ _ | .processes conn _ _ => some conn
  | _ => none

def DaemonPoint.checks : DaemonPoint → Prop
  | .compared | .condemned => True
  | _ => False

structure Handshake.Sound (state : Handshake) : Prop where
  framed : ∃ tokens : List Token, state.transit = tokens.flatMap Token.parcels ∧
    Numbered state.received tokens state.writeSequence ∧
    state.handed = state.imported ++ tokens.map Token.conn
  stored : ∀ sequence conn ready rest, state.point = .stores sequence conn ready rest →
    state.readSequence < sequence
  handling : state.point.handles → state.thread.idlePeriods = 0
  served : ∀ conn ∈ state.point.serves, state.thread.conns.getLast? = some conn
  lonely : 0 < state.thread.idlePeriods → state.thread.alone
  even : state.daemon.checks ∨ state.writePipe = false → state.writeSequence = state.readSequence
  alone : state.daemon = .condemned ∨ state.writePipe = false → state.thread.alone

/-- As long as the daemon has not closed its end, the thread has not closed the other one. -/
def Handshake.keepsControl (state : Handshake) : Prop :=
  state.writePipe = true → state.thread.controlOpen

theorem handshakeStart_sound (control : ConnId) (resource : Resource) :
    (handshakeStart control resource).Sound where
  framed := ⟨[], rfl, rfl, rfl⟩
  stored := by rintro _ _ _ _ ⟨⟩
  handling := False.elim
  served := by rintro _ ⟨⟩
  lonely := fun idle => absurd idle (lt_irrefl 0)
  even := fun _ => rfl
  alone := fun _ => Locker.alone_single rfl rfl rfl

variable {state : Handshake}

theorem Handshake.Sound.settled (sound : state.Sound)
    (equal : state.writeSequence = state.readSequence) :
    state.transit = [] ∧ state.handed = state.imported ∧
      ∀ sequence conn ready rest, state.point ≠ .stores sequence conn ready rest := by
  obtain ⟨tokens, transit, numbered, handed⟩ := sound.framed
  have length := numbered_length numbered
  have unstored : ∀ sequence conn ready rest, state.point ≠ .stores sequence conn ready rest := by
    intro sequence conn ready rest point
    have behind := sound.stored sequence conn ready rest point
    simp only [Handshake.received, point] at length
    omega
  have received : state.received = state.readSequence := by
    unfold Handshake.received
    split
    · next point => exact absurd point (unstored _ _ _ _)
    · rfl
  have none : tokens = [] := by
    apply List.length_eq_zero_iff.mp
    rw [received] at length
    omega
  subst none
  exact ⟨transit, by simpa using handed, unstored⟩

theorem Handshake.Sound.rests (sound : state.Sound) {thread : Locker} {point : LockerPoint}
    {readPipe : Bool}
    (held : state.point.held = []) (unstored : ∀ sequence conn ready rest,
      state.point ≠ .stores sequence conn ready rest)
    (held' : point.held = []) (served' : point.serves = none)
    (handling : point.handles → thread.idlePeriods = 0)
    (idle : thread.idlePeriods ≤ state.thread.idlePeriods)
    (alone : state.thread.alone → thread.alone) :
    Handshake.Sound { state with thread := thread, point := point, readPipe := readPipe } := by
  have unstored' : ∀ sequence conn ready rest, point ≠ .stores sequence conn ready rest := by
    rintro sequence conn ready rest rfl
    cases served'
  obtain ⟨tokens, transit, numbered, handed⟩ := sound.framed
  refine ⟨⟨tokens, ?_, ?_, handed⟩, ?_, handling, ?_, ?_, sound.even, fun closing =>
    alone (sound.alone closing)⟩
  · rw [← transit, Handshake.transit, Handshake.transit, held, held']
  · have before : state.received = state.readSequence := by
      unfold Handshake.received
      split
      · next stores => exact absurd stores (unstored _ _ _ _)
      · rfl
    rw [before] at numbered
    unfold Handshake.received
    split
    · next stores => exact absurd stores (unstored' _ _ _ _)
    · exact numbered
  · intro sequence conn ready rest stores
    exact absurd stores (unstored' _ _ _ _)
  · intro conn serving
    rw [served'] at serving
    cases serving
  · intro positive
    exact alone (sound.lonely (Nat.lt_of_lt_of_le positive idle))

def LockerPoint.free (point : LockerPoint) : Prop :=
  point.held = [] ∧ ∀ sequence conn ready rest, point ≠ .stores sequence conn ready rest

theorem Handshake.Sound.flows (sound : state.Sound) (free : state.point.free) {id : Nat}
    {rest : List Ready} {served : Served} {readPipe : Bool}
    (idle : served.locker.idlePeriods ≤ state.thread.idlePeriods)
    (alone : state.thread.alone → served.locker.alone) :
    Handshake.Sound { state.flows id rest served with readPipe := readPipe } := by
  obtain ⟨flow, locker⟩ := served
  cases flow with
  | next => exact sound.rests free.1 free.2 rfl rfl False.elim idle alone
  | again => exact sound.rests free.1 free.2 rfl rfl False.elim idle alone
  | leave => exact sound.rests free.1 free.2 rfl rfl False.elim idle fun _ => leave_alone locker

theorem Handshake.Sound.hups (sound : state.Sound) (free : state.point.free) {id : Nat}
    {ready : Ready} {rest : List Ready} : (state.hups id ready rest).Sound := by
  refine sound.flows free ?_ ?_
  · exact (lockerHup_loops state.thread id ready).idlePeriods.le
  · exact (lockerHup_seats state.thread id ready).alone

theorem Handshake.Sound.raises (sound : state.Sound) (free : state.point.free) {ready : Ready}
    {rest : List Ready} : (state.raises ready rest).Sound := by
  refine @Handshake.Sound.flows state sound free 0 rest _ _ ?_ ?_
  · exact (lockerDisconnect_loops state.thread 0 ready).idlePeriods.le
  · exact (lockerDisconnect_seats state.thread 0 ready).alone

theorem raises_closes (state : Handshake) (ready : Ready) (rest : List Ready) :
    (state.raises ready rest).writePipe = state.writePipe ∧
    ¬(state.raises ready rest).thread.controlOpen := by
  unfold Handshake.raises
  cases present : state.thread.conns[0]? with
  | none =>
    simp only [lockerDisconnect, present, Handshake.flows]
    refine ⟨trivial, ?_⟩
    rintro ⟨running, _⟩
    cases running
  | some conn =>
    obtain ⟨ended, closed, standing, removed⟩ := lockerDisconnect_closes ready present
    generalize lockerDisconnect state.thread 0 ready = served at ended standing
    obtain ⟨flow, locker⟩ := served
    cases flow with
    | next => exact absurd rfl ended
    | again =>
      refine ⟨rfl, ?_⟩
      rintro ⟨_, other, first, _, state⟩
      obtain rfl := Option.some.inj (standing.symm.trans first)
      exact state removed
    | leave =>
      refine ⟨rfl, ?_⟩
      rintro ⟨running, _⟩
      cases running

theorem parcels_cons {parcel : Parcel} {behind : List Parcel} {tokens : List Token}
    (framed : parcel :: behind = tokens.flatMap Token.parcels) :
    ∃ token later, tokens = token :: later ∧ parcel = .token token.sequence ∧
      behind = .conn token.conn :: later.flatMap Token.parcels := by
  cases tokens with
  | nil => cases framed
  | cons token later =>
    rw [List.flatMap_cons] at framed
    obtain ⟨first, rest⟩ := List.cons.inj framed
    exact ⟨token, later, rfl, first, rest⟩

theorem Handshake.Sound.readsToken (sound : state.Sound) {ready : Ready} {rest : List Ready}
    {readable : Bool} (point : state.point = .woken 0 ready rest) :
    (state.reads ready rest readable fun parcel =>
      parcel.sequence.map fun sequence => .pairs sequence ready rest).Sound := by
  have free : state.point.free := by
    rw [point]
    exact ⟨rfl, by rintro _ _ _ _ ⟨⟩⟩
  unfold Handshake.reads
  split
  · split
    · next parcel pipe filled =>
      obtain ⟨tokens, transit, numbered, handed⟩ := sound.framed
      rw [Handshake.transit, free.1, filled] at transit
      obtain ⟨token, later, _, rfl, _⟩ := parcels_cons transit
      have idle := sound.handling (by rw [point]; trivial)
      refine ⟨⟨tokens, ?_, ?_,
        handed⟩, by rintro _ _ _ _ ⟨⟩, fun _ => idle, by rintro _ ⟨⟩, sound.lonely,
        sound.even, sound.alone⟩
      · rw [← transit]
        rfl
      · rwa [Handshake.received, point] at numbered
    · split_ifs
      · exact sound
      · exact sound.raises free
  · exact sound.raises free

theorem Handshake.Sound.readsConn (sound : state.Sound) {sequence : Int} {ready : Ready}
    {rest : List Ready} {readable : Bool} (point : state.point = .pairs sequence ready rest)
    (keeps : (state.reads ready rest readable fun parcel =>
      parcel.pointer.map fun conn => .imports sequence conn ready rest).keepsControl) :
    (state.reads ready rest readable fun parcel =>
      parcel.pointer.map fun conn => .imports sequence conn ready rest).Sound := by
  have writing : state.writePipe = true := by
    by_contra closed
    have settled := (sound.settled (sound.even (.inr (by simpa using closed)))).1
    simp [Handshake.transit, point, LockerPoint.held] at settled
  have unraised : ¬(state.raises ready rest).keepsControl := by
    obtain ⟨same, closed⟩ := raises_closes state ready rest
    intro kept
    exact closed (kept (same.trans writing))
  obtain ⟨tokens, transit, numbered, handed⟩ := sound.framed
  have idle := sound.handling (by rw [point]; trivial)
  unfold Handshake.reads at keeps ⊢
  by_cases readable : readable = true ∧
    state.thread.conns.head?.any (·.id = state.thread.control) = true
  · rw [if_pos readable] at keeps ⊢
    cases filled : state.pipe with
    | nil =>
      simp only [writing, if_true]
      exact sound
    | cons parcel pipe =>
      rw [Handshake.transit, point, filled] at transit
      obtain ⟨token, later, rfl, same, behind⟩ := parcels_cons transit
      obtain ⟨rfl, _⟩ := List.cons.inj behind
      refine ⟨⟨token :: later, ?_, ?_,
        handed⟩, by rintro _ _ _ _ ⟨⟩, fun _ => idle, by rintro _ ⟨⟩, sound.lonely,
        sound.even, sound.alone⟩
      · rw [← transit]
        rfl
      · rwa [Handshake.received, point] at numbered
  · rw [if_neg readable] at keeps
    exact absurd keeps unraised

theorem lockerPolls_sound (sound : state.Sound) (event : PollEvent) (point : state.point = .polls) :
    (lockerPolls state event).Sound := by
  have free : state.point.free := by
    rw [point]
    exact ⟨rfl, by rintro _ _ _ _ ⟨⟩⟩
  have cleaned : ∀ next : LockerPoint, next.held = [] → next.serves = none → ¬next.handles →
      Handshake.Sound { state with thread := state.thread.cleaned, point := next } := by
    intro next held serves handles
    exact sound.rests free.1 free.2 held serves
      (fun absurd => (handles absurd).elim) le_rfl cleaned_alone
  have left : Handshake.Sound { state with thread := state.thread.cleaned.leave } := by
    refine sound.rests free.1 free.2 free.1 ?_ ?_ le_rfl fun _ => leave_alone _
    · rw [point]
      rfl
    · rw [point]
      exact False.elim
  unfold lockerPolls
  dsimp only
  split_ifs
  · exact left
  · cases event with
    | failed => exact left
    | timeout env => exact cleaned _ rfl rfl id
    | ready revents => exact cleaned _ rfl rfl id
  · exact left
  · exact sound

theorem Handshake.Sound.expires (sound : state.Sound) {env : Env}
    (point : state.point = .expires env)
    (alive : state.writePipe = true → state.thread.controlOpen) :
    Handshake.Sound
      { state with thread := lockerPoll state.thread (.timeout env), point := .polls } := by
  obtain ⟨tokens, transit, numbered, handed⟩ := sound.framed
  have alone : state.thread.alone → (lockerPoll state.thread (.timeout env)).alone :=
    fun alone => timeout_alone alone env
  refine ⟨⟨tokens, ?_, ?_,
    handed⟩, by rintro _ _ _ _ ⟨⟩, False.elim, by rintro _ ⟨⟩, ?_, sound.even,
    fun closing => alone (sound.alone closing)⟩
  · rw [← transit, Handshake.transit, Handshake.transit, point]
    rfl
  · rwa [Handshake.received, point] at numbered
  · intro idle
    by_cases counted : 0 < state.thread.idlePeriods
    · exact alone (sound.lonely counted)
    · apply alone
      by_cases writing : state.writePipe = true
      · obtain ⟨_, conn, first, same, _⟩ := alive writing
        have single := lockerPoll_counts (lt_of_le_of_lt (not_lt.mp counted) idle)
        exact Locker.alone_single single first same
      · exact sound.alone (.inr (by simpa using writing))

theorem Handshake.Sound.imports (sound : state.Sound) {sequence : Int} {conn : Conn} {ready : Ready}
    {rest : List Ready} (point : state.point = .imports sequence conn ready rest) :
    Handshake.Sound { state with
      thread := { state.thread with conns := state.thread.conns ++ [conn] }
      imported := state.imported ++ [conn]
      point := .stores sequence conn ready rest } := by
  obtain ⟨tokens, transit, numbered, handed⟩ := sound.framed
  have idle := sound.handling (by rw [point]; trivial)
  have uneven : state.writeSequence ≠ state.readSequence := by
    intro equal
    have none := (sound.settled equal).1
    simp [Handshake.transit, point, LockerPoint.held] at none
  rw [Handshake.transit, point] at transit
  obtain ⟨token, later, rfl, same, behind⟩ := parcels_cons transit
  obtain ⟨moved, left⟩ := List.cons.inj behind
  obtain rfl := Parcel.token.inj same
  obtain rfl := Parcel.conn.inj moved
  rw [Handshake.received, point] at numbered
  obtain ⟨next, numbered⟩ := numbered
  refine ⟨⟨later, left, ?_, ?_⟩, ?_, fun _ => idle, ?_, ?_, sound.even, ?_⟩
  · rw [← next] at numbered
    exact numbered
  · simp [handed]
  · rintro _ _ _ _ ⟨⟩
    simp only [next]
    omega
  · rintro _ ⟨⟩
    exact List.getLast?_concat
  · intro positive
    exact absurd idle (Nat.ne_of_gt positive)
  · intro closing
    refine absurd (sound.even ?_) uneven
    obtain condemned | closed := closing
    · refine .inl ?_
      rw [condemned]
      trivial
    · exact .inr closed

theorem Handshake.Sound.stores (sound : state.Sound) {sequence : Int} {conn : Conn} {ready : Ready}
    {rest : List Ready} (point : state.point = .stores sequence conn ready rest) :
    Handshake.Sound
      { state with readSequence := sequence, point := .processes conn ready rest } := by
  obtain ⟨tokens, transit, numbered, handed⟩ := sound.framed
  have idle := sound.handling (by rw [point]; trivial)
  have last := sound.served conn (by rw [point]; rfl)
  refine ⟨⟨tokens, ?_, ?_,
    handed⟩, by rintro _ _ _ _ ⟨⟩, fun _ => idle, ?_, sound.lonely, ?_, sound.alone⟩
  · rw [← transit, Handshake.transit, Handshake.transit, point]
    rfl
  · rwa [Handshake.received, point] at numbered
  · rintro _ ⟨⟩
    exact last
  · intro checked
    exact absurd point ((sound.settled (sound.even checked)).2.2 _ _ _ _)

theorem Handshake.Sound.processes (sound : state.Sound) {conn : Conn} {ready : Ready}
    {rest : List Ready} (point : state.point = .processes conn ready rest) :
    let polled := lockerProcess state.thread (state.thread.conns.length - 1) conn ready
    Handshake.Sound (if polled.rc = .ok then Handshake.hups { state with thread := polled.locker } 0
      ready rest
      else Handshake.raises { state with thread := polled.locker } ready rest) := by
  intro polled
  have last : state.thread.conns[state.thread.conns.length - 1]? = some conn := by
    rw [← List.getLast?_eq_getElem?]
    exact sound.served conn (by rw [point]; rfl)
  have seats : state.thread.Seats polled.locker := lockerProcess_seats ready last
  have idle : polled.locker.idlePeriods = state.thread.idlePeriods :=
    (lockerProcess_loops _ _ _ _).idlePeriods
  have free : state.point.free := by
    rw [point]
    exact ⟨rfl, by rintro _ _ _ _ ⟨⟩⟩
  -- Every way on from here starts with the thread as inmsg and the answer left it.
  split_ifs
  · refine sound.flows free ?_ ?_
    · exact ((lockerHup_loops _ 0 ready).idlePeriods.trans idle).le
    · exact (seats.trans (lockerHup_seats _ 0 ready)).alone
  · refine @Handshake.Sound.flows state sound free 0 rest _ _ ?_ ?_
    · exact ((lockerDisconnect_loops _ 0 ready).idlePeriods.trans idle).le
    · exact (seats.trans (lockerDisconnect_seats _ 0 ready)).alone

theorem lockerAdvances_sound (sound : state.Sound) (readable : Bool) (before : state.keepsControl)
    (after : (lockerAdvances state readable).keepsControl) :
    (lockerAdvances state readable).Sound := by
  cases point : state.point with
  | polls =>
    simp only [lockerAdvances, point]
    exact sound
  | expires env =>
    simp only [lockerAdvances, point]
    exact sound.expires point before
  | scans id revents =>
    have free : state.point.free := by
      rw [point]
      exact ⟨rfl, by rintro _ _ _ _ ⟨⟩⟩
    cases revents with
    | nil =>
      simp only [lockerAdvances, point]
      exact sound.rests free.1 free.2 rfl rfl False.elim le_rfl fun alone => alone
    | cons ready rest =>
      simp only [lockerAdvances, point]
      split_ifs
      · refine @Handshake.Sound.flows state sound free id rest _ _ ?_ ?_
        · exact (lockerDisconnect_loops state.thread id ready).idlePeriods.le
        · exact (lockerDisconnect_seats state.thread id ready).alone
      · exact sound.rests free.1 free.2 rfl rfl (fun _ => rfl) (Nat.zero_le _) fun alone => alone
      · exact sound.hups free
  | woken id ready rest =>
    simp only [lockerAdvances, point] at after ⊢
    by_cases pipe : id = 0
    · subst pipe
      rw [if_pos rfl]
      exact sound.readsToken point
    · rw [if_neg pipe]
      have seats := lockerServe_seats state.thread id ready
      rw [admitting_client ready pipe] at seats
      refine @Handshake.Sound.flows state sound ?_ id rest _ _
        (lockerServe_idle state.thread id ready) seats.alone
      rw [point]
      exact ⟨rfl, by rintro _ _ _ _ ⟨⟩⟩
  | pairs sequence ready rest =>
    simp only [lockerAdvances, point] at after ⊢
    exact sound.readsConn point after
  | imports sequence conn ready rest =>
    simp only [lockerAdvances, point]
    exact sound.imports point
  | stores sequence conn ready rest =>
    simp only [lockerAdvances, point]
    exact sound.stores point
  | processes conn ready rest =>
    simp only [lockerAdvances, point]
    exact sound.processes point

theorem daemonTransfers_sound (sound : state.Sound) (conn : Conn) :
    (daemonTransfers state conn).Sound := by
  unfold daemonTransfers
  split
  · next loops =>
    split
    · next writing =>
      obtain ⟨tokens, transit, numbered, handed⟩ := sound.framed
      refine ⟨⟨tokens ++ [⟨state.writeSequence + 1, { conn with state := .locker }⟩], ?_, ?_, ?_⟩,
        sound.stored,
        sound.handling, sound.served, sound.lonely, ?_, ?_⟩
      · rw [List.flatMap_append, ← transit, Handshake.transit, Handshake.transit, loops,
          List.append_assoc,
          List.append_assoc, List.append_assoc]
        rfl
      · exact numbered_append numbered _
      · simp [handed]
      · rintro (checks | closed)
        · exact checks.elim
        · exact Bool.noConfusion (writing.symm.trans closed)
      · rintro (⟨⟨⟩⟩ | closed)
        exact Bool.noConfusion (writing.symm.trans closed)
    · exact sound
  · exact sound

theorem Handshake.Sound.writes (sound : state.Sound) {pipe : List Parcel} {daemon : DaemonPoint}
    (row : pipe ++ daemon.unwritten = state.pipe ++ state.daemon.unwritten)
    (checks : ¬daemon.checks) :
    Handshake.Sound { state with pipe := pipe, daemon := daemon } := by
  obtain ⟨tokens, transit, numbered, handed⟩ := sound.framed
  refine ⟨⟨tokens, ?_, numbered, handed⟩, sound.stored, sound.handling, sound.served, sound.lonely,
    ?_, ?_⟩
  · rw [← transit, Handshake.transit, Handshake.transit, List.append_assoc, List.append_assoc, row]
  · exact fun closing => sound.even (.inr (closing.resolve_left checks))
  · refine fun closing => sound.alone (.inr (closing.resolve_left fun condemned => checks ?_))
    rw [show daemon = .condemned from condemned]
    trivial

theorem daemonWrites_sound (sound : state.Sound) (written : Bool) :
    (daemonWrites state written).Sound := by
  unfold daemonWrites
  split
  · next sequence conn counted =>
    split
    · refine sound.writes ?_ id
      rw [counted, List.append_assoc]
      rfl
    · refine sound.writes ?_ id
      rw [counted]
      rfl
  · next conn tokened =>
    split
    · refine sound.writes ?_ id
      rw [tokened, List.append_assoc]
      rfl
    · refine sound.writes ?_ id
      rw [tokened]
      rfl
  · exact sound

theorem Handshake.Sound.looks (sound : state.Sound) {daemon : DaemonPoint} {writePipe : Bool}
    (unwritten : state.daemon.unwritten = []) (unwritten' : daemon.unwritten = [])
    (even : daemon.checks ∨ writePipe = false → state.writeSequence = state.readSequence)
    (alone : daemon = .condemned ∨ writePipe = false → state.thread.alone) :
    Handshake.Sound { state with daemon := daemon, writePipe := writePipe } := by
  obtain ⟨tokens, transit, numbered, handed⟩ := sound.framed
  refine ⟨⟨tokens, ?_, numbered, handed⟩, sound.stored, sound.handling, sound.served, sound.lonely,
    even, alone⟩
  rw [← transit, Handshake.transit, Handshake.transit, unwritten, unwritten']

theorem daemonCompares_sound (sound : state.Sound) : (daemonCompares state).Sound := by
  unfold daemonCompares
  split
  · next loops =>
    split
    · next equal =>
      refine sound.looks (by rw [loops]; rfl) rfl (fun _ => equal) ?_
      rintro (⟨⟨⟩⟩ | closed)
      exact sound.alone (.inr closed)
    · exact sound
  · exact sound

theorem daemonJudges_sound (sound : state.Sound) : (daemonJudges state).Sound := by
  unfold daemonJudges
  split
  · next compared =>
    have equal := sound.even (.inl (by rw [compared]; trivial))
    have unwritten : state.daemon.unwritten = [] := by rw [compared]; rfl
    split_ifs with idle writing reading
    · exact sound.looks unwritten rfl (fun _ => equal) fun _ =>
        sound.lonely (Nat.zero_lt_of_lt idle)
    all_goals
      refine sound.looks unwritten rfl (fun _ => equal) ?_
      rintro (⟨⟨⟩⟩ | closed)
      exact sound.alone (.inr closed)
  · exact sound

theorem daemonCloses_sound (sound : state.Sound) (closed : Bool) :
    (daemonCloses state closed).Sound := by
  unfold daemonCloses
  split
  · next condemned =>
    have equal := sound.even (.inl (by rw [condemned]; trivial))
    have unwritten : state.daemon.unwritten = [] := by rw [condemned]; rfl
    split
    · exact sound.looks unwritten rfl (fun _ => equal) fun _ => sound.alone (.inl condemned)
    · exact sound.looks unwritten rfl (fun _ => equal) fun _ => sound.alone (.inl condemned)
  · exact sound

theorem handshakeStep_sound (sound : state.Sound) (move : Move) (before : state.keepsControl)
    (after : (handshakeStep state move).keepsControl) : (handshakeStep state move).Sound := by
  cases move with
  | poll event =>
    simp only [handshakeStep]
    split
    · next point => exact lockerPolls_sound sound event point
    · exact sound
  | advance readable => exact lockerAdvances_sound sound readable before after
  | transfer conn => exact daemonTransfers_sound sound conn
  | write written => exact daemonWrites_sound sound written
  | compare => exact daemonCompares_sound sound
  | judge => exact daemonJudges_sound sound
  | close closed => exact daemonCloses_sound sound closed

theorem handshake_sound (control : ConnId) (resource : Resource) (moves : List Move)
    (along : Run.Along handshakeStep (fun state move => (handshakeStep state move).keepsControl)
      (handshakeStart control resource) moves) :
    (Run.run handshakeStep (handshakeStart control resource) moves).Sound := by
  refine (Run.along_invariant handshakeStep _ (fun state => state.Sound ∧ state.keepsControl) ?_ _
    moves ?_ along).1
  · intro state move sound after
    exact ⟨handshakeStep_sound sound.1 move sound.2 after, after⟩
  · exact ⟨handshakeStart_sound control resource, fun _ => ⟨rfl, _, rfl, rfl, by simp [connInit]⟩⟩

@[simp] theorem flows_writePipe (state : Handshake) (id : Nat) (rest : List Ready)
    (served : Served) :
    (state.flows id rest served).writePipe = state.writePipe := by
  obtain ⟨flow, locker⟩ := served
  cases flow <;> rfl

@[simp] theorem reads_writePipe (state : Handshake) (ready : Ready) (rest : List Ready)
    (readable : Bool) (taken : Parcel → Option LockerPoint) :
    (state.reads ready rest readable taken).writePipe = state.writePipe := by
  unfold Handshake.reads Handshake.raises
  split_ifs
  · split
    · split
      · rfl
      · exact flows_writePipe _ _ _ _
    · rfl
  · split
    · split
      · rfl
      · exact flows_writePipe _ _ _ _
    · exact flows_writePipe _ _ _ _
  · exact flows_writePipe _ _ _ _

theorem lockerAdvances_writePipe (state : Handshake) (readable : Bool) :
    (lockerAdvances state readable).writePipe = state.writePipe := by
  unfold lockerAdvances Handshake.hups Handshake.raises
  split
  · rfl
  · rfl
  · rfl
  · split_ifs <;> simp
  · split_ifs <;> simp
  · simp
  · rfl
  · rfl
  · dsimp only
    split_ifs <;> simp

theorem lockerPolls_writePipe (state : Handshake) (event : PollEvent) :
    (lockerPolls state event).writePipe = state.writePipe := by
  unfold lockerPolls
  dsimp only
  split_ifs
  · rfl
  · cases event <;> rfl
  · rfl
  · rfl

theorem handshakeStep_closes {move : Move} (writing : state.writePipe = true)
    (closed : (handshakeStep state move).writePipe = false) : state.daemon = .condemned := by
  by_contra spared
  have same : (handshakeStep state move).writePipe = state.writePipe := by
    cases move with
    | poll event =>
      simp only [handshakeStep]
      split
      · exact lockerPolls_writePipe state event
      · rfl
    | advance readable => exact lockerAdvances_writePipe state readable
    | transfer conn =>
      simp only [handshakeStep, daemonTransfers]
      split
      · split <;> rfl
      · rfl
    | write written =>
      simp only [handshakeStep, daemonWrites]
      split
      · split <;> rfl
      · split <;> rfl
      · rfl
    | compare =>
      simp only [handshakeStep, daemonCompares]
      split
      · split <;> rfl
      · rfl
    | judge =>
      simp only [handshakeStep, daemonJudges]
      split <;> rfl
    | close closed => simp only [handshakeStep, daemonCloses]
  rw [same, writing] at closed
  cases closed

theorem locker_termination_safe (control : ConnId) (resource : Resource) (moves : List Move)
    (along : Run.Along handshakeStep (fun state move => (handshakeStep state move).keepsControl)
      (handshakeStart control resource) moves) :
    let reached := Run.run handshakeStep (handshakeStart control resource) moves
    (∀ move, reached.writePipe = true → (handshakeStep reached move).writePipe = false →
        reached.transit = [] ∧ reached.thread.alone ∧ reached.handed = reached.imported) ∧
      (reached.writePipe = false →
        reached.transit = [] ∧ reached.thread.alone ∧ reached.handed = reached.imported) := by
  intro reached
  have sound := handshake_sound control resource moves along
  constructor
  · intro move writing closed
    have condemned := handshakeStep_closes writing closed
    obtain ⟨none, same, _⟩ := sound.settled (sound.even (.inl (by rw [condemned]; trivial)))
    exact ⟨none, sound.alone (.inl condemned), same⟩
  · intro closed
    obtain ⟨none, same, _⟩ := sound.settled (sound.even (.inr closed))
    exact ⟨none, sound.alone (.inr closed), same⟩

instance (state : Handshake) : Decidable state.keepsControl :=
  inferInstanceAs (Decidable (_ → _))

def servedOnce : List Move :=
  [.transfer (handedLock 1 ['x']), .write true, .write true,
    .poll (.ready [{ Ready.idle with pollin := true }]),
    .advance true, .advance true, .advance true, .advance true, .advance true, .advance true,
      .advance true,
    .poll (.ready [Ready.idle, { Ready.idle with pollin := true }]), .advance true, .advance true,
      .advance true,
    .poll (.timeout Env.fine), .advance true, .poll (.timeout Env.fine), .advance true, .compare,
      .judge]

theorem locker_termination_safe_once :
    let start := handshakeStart 0 (.simple (resourceSimpleInit ['x']))
    let reached := Run.run handshakeStep start servedOnce
    reached.handed = [handedLock 1 ['x']] ∧
      (handshakeStep reached (.close true)).writePipe = false ∧
      reached.transit = [] ∧ reached.thread.alone ∧ reached.handed = reached.imported := by
  intro start reached
  have along : Run.Along handshakeStep (fun state move => (handshakeStep state move).keepsControl)
      start servedOnce := by
    decide
  exact ⟨by decide, by decide,
    (locker_termination_safe 0 _ servedOnce along).1 (.close true) (by decide) (by decide)⟩

end Flom
