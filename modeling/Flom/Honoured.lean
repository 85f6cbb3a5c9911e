import Flom.LockerLog
import Flom.LockSound
import Flom.Pledged
import Flom.Routing
import Flom.VfsNotes

set_option autoImplicit false

namespace Flom

open Lists Scan

def Daemon.threads (daemon : Daemon) : List Locker := daemon.lockers.map LockerSlot.thread

def Daemon.granted (daemon : Daemon) (client : ConnId) : Prop :=
  ∃ mail ∈ daemon.mail, mail.conn = client ∧ mail.rc = .ok

def Daemon.underway (daemon : Daemon) (client : ConnId) : Prop :=
  (∃ conn ∈ daemon.conns, conn.id = client) ∨
    ∃ slot ∈ daemon.lockers, ∃ token ∈ slot.pipe, token.conn.id = client

structure Honoured (client : ConnId) (request : Msg) (daemon : Daemon) : Prop where
  owed : ∀ thread ∈ daemon.threads, thread.resource.Owes client request
  alone : daemon.threads.Pairwise fun first second => ¬(first.hosts client ∧ second.hosts client)
  untold : daemon.granted client → ¬daemon.underway client
  kept : daemon.granted client → ∀ thread ∈ daemon.threads, thread.hosts client →
    client ∈ thread.resource.holding

section

variable {decode : Name → Name} {client : ConnId} {request : Msg} {origin daemon : Daemon}
  {id : Nat} {accept : Accept}

theorem Daemon.underway_afoot : daemon.underway client ↔ daemon.afoot client ≠ 0 := by
  constructor
  · rintro (⟨conn, member, mine⟩ | ⟨slot, inside, token, piped, mine⟩)
    · have here := conns_pos member mine
      unfold Daemon.afoot
      omega
    · have there := carries_pos piped mine
      have sum := @carries_le_sum client _ _ inside
      unfold Daemon.afoot
      omega
  · intro some
    by_contra none
    obtain ⟨away, unpiped⟩ := not_or.mp none
    have conns : (daemon.conns.map Conn.id).count client = 0 := by
      simpa [List.count_eq_zero] using away
    have pipes : ∀ count ∈ daemon.lockers.map fun slot => slot.carries client, count = 0 := by
      intro count member
      obtain ⟨slot, inside, rfl⟩ := List.mem_map.mp member
      simp only [not_exists, not_and] at unpiped
      simpa [LockerSlot.carries, List.count_eq_zero] using unpiped slot inside
    exact some (by simp [Daemon.afoot, conns, List.sum_eq_zero pipes])

theorem Honoured.fewer (honoured : Honoured client request origin)
    (threads : daemon.threads.Sublist origin.threads)
    (underway : daemon.underway client → origin.underway client)
    (granted : daemon.granted client → origin.granted client) :
    Honoured client request daemon where
  owed := fun thread member => honoured.owed thread (threads.subset member)
  alone := honoured.alone.sublist threads
  untold := fun told afoot => honoured.untold (granted told) (underway afoot)
  kept := fun told thread member => honoured.kept (granted told) thread (threads.subset member)

theorem modify_threads (lockers : List LockerSlot) (index : Nat) (change : LockerSlot → LockerSlot)
    (same : ∀ slot, (change slot).thread = slot.thread) :
    (lockers.modify index change).map LockerSlot.thread = lockers.map LockerSlot.thread := by
  apply List.ext_getElem?
  intro place
  simp only [List.getElem?_map, List.getElem?_modify]
  cases lockers[place]? with
  | none => rfl
  | some slot =>
    by_cases here : index = place <;> simp [here, same]

def Act.threads : Act → List Locker
  | .start control resource => [lockerStart control resource]
  | _ => []

theorem act_daemon_threads (act : Act) :
    (daemon.act id act).threads = daemon.threads ++ act.threads := by
  cases act with
  | close closed | join conn | parse conn | garble conn | answer conn rc =>
    exact (List.append_nil _).symm
  | start control resource => exact List.map_append
  | spend locker conn | drop position locker conn =>
    refine Eq.trans ?_ (List.append_nil _).symm
    apply modify_threads
    exact fun _ => rfl
  | hand position locker conn =>
    refine Eq.trans ?_ (List.append_nil _).symm
    refine Eq.trans (modify_threads _ locker _ ?_) (modify_threads _ locker _ ?_)
    · exact fun _ => rfl
    · exact fun _ => rfl

theorem act_granted {act : Act} (legal : Legal decode origin id accept daemon act)
    (told : (daemon.act id act).granted client) : daemon.granted client := by
  cases legal with
  | close closed | join | parse | garble | start | spend | drop | hand => exact told
  | answer conn rc name heard present requests lockers answers =>
    obtain ⟨mail, member, mine, ok⟩ := told
    obtain old | new := List.mem_append.mp member
    · exact ⟨mail, old, mine, ok⟩
    · obtain rfl := List.mem_singleton.mp new
      obtain rfl : rc = .ok := ok
      cases answers

theorem conns_underway {after : Daemon} (underway : after.underway client)
    (lockers : after.lockers = daemon.lockers)
    (ids : ∀ conn ∈ after.conns, ∃ old ∈ daemon.conns, old.id = conn.id) :
    daemon.underway client := by
  obtain ⟨conn, member, rfl⟩ | piped := underway
  · obtain ⟨old, before, same⟩ := ids conn member
    exact .inl ⟨old, before, same⟩
  · exact .inr (lockers ▸ piped)

theorem spend_underway (locker : Nat) (conn : Conn)
    (underway : (daemon.spend locker conn).underway client) :
    daemon.underway client := by
  obtain here | ⟨slot, member, token, piped, mine⟩ := underway
  · exact .inl here
  · obtain old | ⟨before, old, rfl⟩ := mem_modify member
    · exact .inr ⟨slot, old, token, piped, mine⟩
    · exact .inr ⟨before, List.mem_of_getElem? old, token, piped, mine⟩

theorem remove_underway {position : Nat} {conn : Conn}
    (present : daemon.conns[position]? = some conn)
    (underway : (daemon.remove position).underway client) : daemon.underway client := by
  refine conns_underway underway rfl fun other member => ⟨other, ?_, rfl⟩
  exact (removeIndexFast_perm present).symm.subset (List.mem_cons_of_mem conn member)

theorem push_underway {locker : Nat} {conn : Conn}
    (underway : (daemon.push locker conn).underway client) :
    daemon.underway client ∨ conn.id = client := by
  obtain here | ⟨slot, member, token, piped, mine⟩ := underway
  · exact .inl (.inl here)
  · obtain old | ⟨before, old, rfl⟩ := mem_modify member
    · exact .inl (.inr ⟨slot, old, token, piped, mine⟩)
    · obtain earlier | last := List.mem_append.mp piped
      · exact .inl (.inr ⟨before, List.mem_of_getElem? old, token, earlier, mine⟩)
      · obtain rfl := List.mem_singleton.mp last
        exact .inr mine

theorem act_underway {act : Act} (legal : Legal decode origin id accept daemon act)
    (underway : (daemon.act id act).underway client) :
    daemon.underway client ∨ ∃ conn, act = .join conn ∧ conn.id = client := by
  cases legal with
  | join conn listening same accepted =>
    obtain ⟨other, member, mine⟩ | piped := underway
    · obtain old | new := List.mem_append.mp member
      · exact .inl (.inl ⟨other, old, mine⟩)
      · obtain rfl := List.mem_singleton.mp new
        exact .inr ⟨other, rfl, mine⟩
    · exact .inl (.inr piped)
  | close closed =>
    left
    refine conns_underway underway rfl ?_
    simp only [Daemon.act, daemonClose, connsCloseFd]
    split
    · next conn present => exact ids_of_set present (connTerminate_id conn closed)
    · exact fun conn member => ⟨conn, member, rfl⟩
  | parse conn same heard =>
    obtain ⟨_, old, feed, present, _, _, rfl⟩ := heard
    rw [← same] at present
    exact .inl (conns_underway underway rfl (ids_of_set present rfl))
  | garble conn old feed same _ present arrived broken spoilt =>
    rw [← same] at present
    exact .inl (conns_underway underway rfl (ids_of_set present (by rw [spoilt])))
  | answer conn rc name heard present =>
    exact .inl (conns_underway underway rfl (ids_of_set present rfl))
  | start conn name resource =>
    obtain here | ⟨slot, member, token, piped, mine⟩ := underway
    · exact .inl (.inl here)
    · obtain old | new := List.mem_append.mp member
      · exact .inl (.inr ⟨slot, old, token, piped, mine⟩)
      · obtain rfl := List.mem_singleton.mp new
        cases piped
  | spend position locker conn => exact .inl (spend_underway locker conn underway)
  | drop position locker conn moves =>
    exact .inl (spend_underway locker conn (remove_underway moves.present.2 underway))
  | hand position locker conn moves =>
    left
    have present := moves.present.2
    obtain before | mine := push_underway underway
    · exact spend_underway locker conn (remove_underway present before)
    · exact .inl ⟨conn, List.mem_of_getElem? present, mine⟩

theorem owes_of_empty {resource : Resource} (free : resource.holding = [])
    (unasked : resource.waiting = []) :
    resource.Owes client request := by
  have nothing {Data Wait H : Type} {m : Manager Data Wait ConnId} {l : Ledger m H}
      {stands : H → Prop} {hopes : Wait → Prop} {data : Data} {queue : List Wait}
      (free : (l.held data).map Prod.fst = [])
      (unasked : queue.map m.conn = []) : l.Owes stands hopes data queue client := by
    obtain none := List.map_eq_nil_iff.mp free
    obtain rfl := List.map_eq_nil_iff.mp unasked
    exact ⟨by simp [Ledger.records_eq_count, none], by simp [none], by simp⟩
  cases resource with
  | simple rsrc => exact nothing (simple_holding rsrc ▸ free) unasked
  | numeric rsrc => exact nothing (numeric_holding rsrc ▸ free) unasked
  | set rsrc => exact nothing (set_holding rsrc ▸ free) unasked
  | hier rsrc => exact nothing (hier_holding rsrc.name rsrc ▸ free) unasked
  | sequence rsrc => exact nothing (sequence_holding rsrc ▸ free) unasked
  | timestamp rsrc => exact nothing (timestamp_holding rsrc ▸ free) unasked

def Unheard (client : ConnId) (daemon : Daemon) (id : Nat) (revents : Revents) : Prop :=
  id = 0 → revents.accept.accepted = some client → ∀ mail ∈ daemon.mail, mail.conn ≠ client

theorem honoured_serve {revents : Revents} (honoured : Honoured client request daemon)
    (pipe : revents.accept.control ≠ client) (unheard : Unheard client daemon id revents) :
    Honoured client request (acceptLoopServe decode daemon id revents).daemon := by
  refine acceptLoopServe_invariant daemon id revents honoured fun reached act honoured legal => ?_
  have threads := @act_daemon_threads reached id act
  by_cases started : act.threads = []
  · rw [started, List.append_nil] at threads
    refine ⟨?_, ?_, fun told underway => ?_, fun told thread member => ?_⟩
    · exact threads ▸ honoured.owed
    · exact threads ▸ honoured.alone
    · obtain before | ⟨conn, rfl, mine⟩ := act_underway legal underway
      · exact honoured.untold (act_granted legal told) before
      · cases legal with
        | join conn listening same accepted =>
          obtain ⟨mail, member, own, _⟩ := told
          exact unheard listening (mine ▸ accepted) mail (same ▸ member) own
    · exact honoured.kept (act_granted legal told) thread (threads ▸ member)
  · cases legal with
    | start conn name resource starts =>
      have free := resourceInit_holding starts.init
      have unasked := resourceInit_waiting starts.init
      have absent : ¬(lockerStart revents.accept.control resource).hosts client := by
        simp [Locker.hosts, lockerStart, connInit, pipe, unasked]
      have extended : ∀ thread ∈ (reached.act id (.start revents.accept.control resource)).threads,
          thread ∈ reached.threads ∨ thread = lockerStart revents.accept.control resource := by
        rw [threads]
        intro thread member
        exact (List.mem_append.mp member).imp_right List.mem_singleton.mp
      refine ⟨fun thread member => ?_, ?_, fun told underway => ?_,
        fun told thread member hosts => ?_⟩
      · obtain old | rfl := extended thread member
        · exact honoured.owed thread old
        · exact owes_of_empty free unasked
      · rw [threads, List.pairwise_append]
        refine ⟨honoured.alone, List.pairwise_singleton _ _, fun first _ second new => ?_⟩
        obtain rfl := List.mem_singleton.mp new
        exact fun both => absent both.2
      · obtain before | ⟨_, joins, _⟩ := act_underway
          (.start conn name resource starts ‹_› ‹_›) underway
        · exact honoured.untold told before
        · cases joins
      · obtain old | rfl := extended thread member
        · exact honoured.kept told thread old hosts
        · exact absurd hosts absent
    | close | join | parse | garble | answer | spend | drop | hand => exact absurd rfl started

theorem honoured_cleaned (honoured : Honoured client request daemon) :
    Honoured client request daemon.cleaned := by
  refine honoured.fewer (List.Sublist.refl _) (fun underway => ?_) fun told => told
  exact conns_underway underway rfl fun conn member =>
    ⟨conn, (connsClean_subperm daemon.conns).subset member, rfl⟩

theorem checked_threads {kept slots : List LockerSlot}
    (checked : List.Forall₂ LockerSlot.Checked kept slots) :
    slots.map LockerSlot.thread = kept.map LockerSlot.thread := by
  induction checked with
  | nil => rfl
  | cons same _ ih =>
    rw [List.map_cons, List.map_cons, ih]
    cases same <;> rfl

theorem honoured_checked (honoured : Honoured client request daemon) (closed : List Bool) :
    Honoured client request
      { daemon with lockers := (acceptLoopChklockers daemon.lockers closed).2 } := by
  obtain ⟨kept, shorter, checked⟩ := acceptLoopChklockers_checked daemon.lockers closed
  refine honoured.fewer ?_ ?_ fun told => told
  · rw [Daemon.threads, checked_threads checked]
    exact shorter.map _
  · rintro (here | ⟨slot', member, token, piped, mine⟩)
    · exact .inl here
    · obtain ⟨slot, old, same⟩ := forall₂_mem checked member
      refine .inr ⟨slot, shorter.subset old, token, ?_, mine⟩
      cases same with
      | kept => exact piped
      | retired => exact piped

end

section

variable {client : ConnId} {request : Msg} {daemon : Daemon} {locker : Nat} {slot : LockerSlot}
  {event : PollEvent}

theorem turn_logs (slot : LockerSlot) (event : PollEvent) :
    { slot.thread with mail := [] }.Logs (slot.turn event).thread (slot.calls event) :=
  lockerStep_logs _ _

def LockerSlot.Takes (client : ConnId) (slot : LockerSlot) (event : PollEvent) : Prop :=
  ∃ token, slot.pipe = token :: (slot.turn event).pipe ∧ token.conn.id = client

theorem turned_client (asks : slot.asks client event) :
    ((slot.turn event).thread.hosts client → slot.thread.hosts client ∨ slot.Takes client event) ∧
      ∀ mail ∈ (slot.turn event).thread.mail,
        mail.honest ∧ (mail.conn = client → slot.thread.hosts client ∨
        slot.Takes client event) := by
  cases turned asks with
  | idle goes same =>
    obtain ⟨new, mail, posted⟩ := goes.mail
    refine ⟨.inl ∘ goes.hosts, fun item member => ?_⟩
    rw [mail] at member
    exact ⟨(posted item member).1, fun mine => .inl ((posted item member).2 mine).2⟩
  | took token opened goes taken honest posted capacity hosts =>
    by_cases mine : token.conn.id = client
    · obtain ⟨new, mail, fine⟩ := goes.mail
      refine ⟨fun _ => .inr ⟨token, taken, mine⟩, fun item member =>
        ⟨?_, fun _ => .inr ⟨token, taken, mine⟩⟩⟩
      rw [mail] at member
      exact (List.mem_append.mp member).elim (honest item) fun later => (fine item later).1
    · have held : opened.hosts client → slot.thread.hosts client :=
        fun hosted => (hosts hosted).resolve_right mine
      obtain ⟨new, mail, fine⟩ := goes.mail
      refine ⟨.inl ∘ held ∘ goes.hosts, fun item member => ?_⟩
      rw [mail] at member
      obtain first | later := List.mem_append.mp member
      · refine ⟨honest item first, fun same => .inl ?_⟩
        cases posted with
        | told queued => exact .inr (same ▸ (queued item first).2)
        | answered only single own =>
          obtain rfl : item = only := by simpa [single] using first
          exact absurd (own.symm.trans same) mine
      · exact ⟨(fine item later).1, fun same => .inl (held ((fine item later).2 same).2)⟩

theorem turn_holds (owed : slot.thread.resource.Owes client request)
    (once : slot.Makes (Resource.AskedOnce client request) event) {mail : Mail}
    (posted : mail ∈ (slot.turn event).thread.mail) (honest : mail.honest)
    (mine : mail.conn = client) (ok : mail.rc = .ok) :
    client ∈ (slot.turn event).thread.resource.holding := by
  have logs := turn_logs slot event
  obtain ⟨new, same, told⟩ := logs.mail
  obtain ⟨made, ⟨rest, split⟩, snapshot⟩ := told mail (by rw [same] at posted; exact posted)
  have held : client ∈ (Run.run resourceCall slot.thread.resource made).holding :=
    snapshot ▸ mine ▸ honest ok
  have along := once
  rw [LockerSlot.Makes, ← split] at along
  obtain ⟨before, after⟩ := Run.along_append.mp along
  rw [logs.resource, ← split, Run.run_append]
  exact holding_calls (owes_calls owed before) after held

theorem alone_others {front behind : List Locker} {item : Locker}
    (alone : (front ++ item :: behind).Pairwise fun first second =>
      ¬(first.hosts client ∧ second.hosts client)) :
    ∀ other ∈ front ++ behind, ¬(other.hosts client ∧ item.hosts client) := by
  obtain ⟨_, tail, across⟩ := List.pairwise_append.mp alone
  intro other member
  obtain before | after := List.mem_append.mp member
  · exact across other before item List.mem_cons_self
  · exact fun both => (List.pairwise_cons.mp tail).1 other after both.symm

theorem alone_replaced {front behind : List Locker} {item new : Locker}
    (alone : (front ++ item :: behind).Pairwise fun first second =>
      ¬(first.hosts client ∧ second.hosts client))
    (others : ∀ other ∈ front ++ behind, ¬(other.hosts client ∧ new.hosts client)) :
    (front ++ new :: behind).Pairwise fun first second =>
    ¬(first.hosts client ∧ second.hosts client) := by
  obtain ⟨head, tail, across⟩ := List.pairwise_append.mp alone
  refine List.pairwise_append.mpr
    ⟨head, List.pairwise_cons.mpr ⟨fun other after => ?_, (List.pairwise_cons.mp tail).2⟩, ?_⟩
  · exact fun both => others other (List.mem_append_right _ after) both.symm
  · intro first before second member
    obtain rfl | after := List.mem_cons.mp member
    · exact others first (List.mem_append_left _ before)
    · exact across first before second (List.mem_cons_of_mem _ after)

theorem underway_turn (underway : (daemonLocker daemon locker event).underway client)
    (slotted : daemon.lockers[locker]? = some slot) : daemon.underway client := by
  simp only [Daemon.underway, daemonLocker, slotted] at underway
  obtain here | ⟨other, member, token, piped, mine⟩ := underway
  · exact .inl here
  · obtain old | rfl := List.mem_or_eq_of_mem_set member
    · exact .inr ⟨other, old, token, piped, mine⟩
    · exact .inr ⟨slot, List.mem_of_getElem? slotted, token, turn_pipe slot event piped, mine⟩

theorem arrived_turn (tracked : Tracked client daemon)
    (slotted : daemon.lockers[locker]? = some slot) (takes : slot.Takes client event) :
    ¬(daemonLocker daemon locker event).underway client := by
  obtain ⟨token, taken, mine⟩ := takes
  have counted := @afoot_set client daemon locker slot (slot.turn event) slotted
    (daemon.mail ++ (slot.turn event).thread.mail)
  have carried : slot.carries client = (slot.turn event).carries client + 1 := by
    simp [LockerSlot.carries, taken, mine]
  have one := tracked.single
  rw [Daemon.underway_afoot]
  simp only [daemonLocker, slotted]
  omega

theorem honoured_turn (tracked : Tracked client daemon) (honoured : Honoured client request daemon)
    (slotted : daemon.lockers[locker]? = some slot) (asks : slot.asks client event)
    (once : slot.Makes (Resource.AskedOnce client request) event) :
    Honoured client request (daemonLocker daemon locker event) := by
  have inside : slot ∈ daemon.lockers := List.mem_of_getElem? slotted
  have owed := honoured.owed slot.thread (List.mem_map_of_mem inside)
  obtain ⟨hosts, posted⟩ := turned_client asks
  obtain ⟨front, behind, split, length⟩ := split_of_getElem? slotted
  have before : daemon.threads = front.map LockerSlot.thread ++ slot.thread ::
      behind.map LockerSlot.thread := by
    simp [Daemon.threads, split]
  have after : (daemonLocker daemon locker event).threads =
      front.map LockerSlot.thread ++ (slot.turn event).thread :: behind.map LockerSlot.thread := by
    rw [Daemon.threads, daemonLocker_lockers slotted, split, ← length]
    simp
  have alone := honoured.alone
  rw [before] at alone
  have others := alone_others alone
  have waits (takes : slot.Takes client event) : daemon.underway client := by
    obtain ⟨token, taken, mine⟩ := takes
    exact .inr ⟨slot, inside, token, by simp [taken], mine⟩
  have away (underway : daemon.underway client) : ∀ thread ∈ daemon.threads,
      ¬thread.hosts client := by
    intro thread member
    obtain ⟨other, place, rfl⟩ := List.mem_map.mp member
    exact tracked.apart (Daemon.underway_afoot.mp underway) other place
  have elsewhere : slot.thread.hosts client ∨ slot.Takes client event →
      ∀ other ∈ front.map LockerSlot.thread ++ behind.map LockerSlot.thread,
      ¬other.hosts client := by
    rintro (here | takes) other member hosted
    · exact others other member ⟨hosted, here⟩
    · refine away (waits takes) other ?_ hosted
      rw [before]
      exact ((List.sublist_cons_self _ _).append_left _).subset member
  have told (granted : (daemonLocker daemon locker event).granted client) : daemon.granted client ∨
      ∃ mail ∈ (slot.turn event).thread.mail, mail.conn = client ∧ mail.rc = .ok := by
    obtain ⟨mail, member, mine, ok⟩ := granted
    simp only [daemonLocker, slotted] at member
    exact (List.mem_append.mp member).imp (fun old => ⟨mail, old, mine, ok⟩) fun new =>
      ⟨mail, new, mine, ok⟩
  refine ⟨?_, ?_, ?_, ?_⟩
  · intro thread member
    rw [after] at member
    obtain head | rest := List.mem_append.mp member
    · exact honoured.owed thread (by rw [before]; exact List.mem_append_left _ head)
    · obtain rfl | tail := List.mem_cons.mp rest
      · rw [turn_resource]
        exact owes_calls owed once
      · exact honoured.owed thread (by simp [before, tail])
  · rw [after]
    refine alone_replaced alone fun other member both => ?_
    exact elsewhere (hosts both.2) other member both.1
  · intro granted underway
    obtain old | ⟨mail, member, mine, ok⟩ := told granted
    · exact honoured.untold old (underway_turn underway slotted)
    · obtain here | takes := (posted mail member).2 mine
      · exact away (underway_turn underway slotted) slot.thread (List.mem_map_of_mem inside) here
      · exact arrived_turn tracked slotted takes underway
  · intro granted thread member hosted
    rw [after] at member
    have standing : thread ∈ front.map LockerSlot.thread ++ behind.map LockerSlot.thread →
        client ∈ thread.resource.holding := by
      intro other
      obtain old | ⟨mail, member, mine, _⟩ := told granted
      · refine honoured.kept old thread ?_ hosted
        rw [before]
        exact ((List.sublist_cons_self _ _).append_left _).subset other
      · exact absurd hosted (elsewhere ((posted mail member).2 mine) thread other)
    obtain head | rest := List.mem_append.mp member
    · exact standing (List.mem_append_left _ head)
    · obtain rfl | tail := List.mem_cons.mp rest
      · obtain old | ⟨mail, member, mine, ok⟩ := told granted
        · obtain here | takes := hosts hosted
          · rw [turn_resource]
            exact holding_calls owed once
              (honoured.kept old slot.thread (List.mem_map_of_mem inside) here)
          · exact absurd (waits takes) (honoured.untold old)
        · exact turn_holds owed once member (posted mail member).1 mine ok
      · exact standing (List.mem_append_right _ tail)

end

/-- The client connects once, asks for one lock, and neither gives it back nor leaves. -/
def Turn.Single (decode : Name → Name) (client : ConnId) (request : Msg) (daemon : Daemon)
    (turn : Turn) : Prop :=
  turn.Along decode
    (fun daemon id revents => (Genuine decode client daemon id revents ∧
      Modest decode client daemon id revents) ∧
      Unheard client daemon id revents)
    (fun slot event => slot.asks client event ∧
      slot.Makes (Resource.AskedOnce client request) event) daemon

section

variable {decode : Name → Name} {multicast tlsCheckPeerId : Bool} {turns : List Turn}
  {client : ConnId} {request : Msg}

theorem honoured_run
    (single : Run.Along (daemonStep decode)
      (fun daemon turn => turn.Single decode client request daemon)
      (daemonStart multicast tlsCheckPeerId) turns) :
    Tracked client (Run.run (daemonStep decode) (daemonStart multicast tlsCheckPeerId) turns) ∧
      Honoured client request
        (Run.run (daemonStep decode) (daemonStart multicast tlsCheckPeerId) turns) := by
  refine Run.along_invariant (daemonStep decode) _
    (fun daemon => Tracked client daemon ∧ Honoured client request daemon)
    (fun daemon turn both along => ?_) _ turns ⟨tracked_start_up _ _, ?_⟩ single
  · refine @daemonStep_invariant decode
      (fun daemon => Tracked client daemon ∧ Honoured client request daemon) _ _ ?_ ?_ ?_ ?_ ?_
      daemon turn both along
    · exact fun _ both => ⟨tracked_cleaned both.1, honoured_cleaned both.2⟩
    · exact fun _ _ _ both allowed =>
        ⟨tracked_serve both.1 allowed.1.1 allowed.1.2,
          honoured_serve both.2 allowed.1.1.pipe allowed.2⟩
    · rintro _ ⟨tracked, honoured⟩
      refine ⟨⟨tracked.honest, tracked.paced, tracked.single, tracked.apart, tracked.incubated,
        tracked.handed⟩, ?_⟩
      exact honoured.fewer (List.Sublist.refl _) (fun underway => underway) fun told => told
    · exact fun _ closed both => ⟨tracked_checked both.1 closed, honoured_checked both.2 closed⟩
    · exact fun _ _ _ _ both slotted quiet =>
        ⟨tracked_turn both.1 slotted quiet.1, honoured_turn both.1 both.2 slotted quiet.1 quiet.2⟩
  · constructor <;> simp [Daemon.threads, Daemon.granted, daemonStart]

theorem typed_run : (Run.run (daemonStep decode)
      (daemonStart multicast tlsCheckPeerId) turns).Resources Resource.Typed := by
  refine @resources_run decode (fun _ _ => True) Resource.Typed typed_init
    (fun resource call typed _ => typed_call resource call typed) multicast tlsCheckPeerId turns
    (Run.along_of_forall _ _ _ _ fun turn _ daemon => ?_)
  cases turn with
  | poll revents closed => exact Run.scanAlong_of_forall fun _ _ _ => trivial
  | timeout waited closed => trivial
  | locker locker event => exact fun slot _ => Run.along_of_forall _ _ _ _ fun _ _ _ => trivial

end

/-- flom_client_lock has returned OK to a client that reads what was sent to it and has asked for
nothing else; a locker still has its connection. -/
structure HasLock (decode : Name → Name) (multicast tlsCheckPeerId : Bool) (turns : List Turn)
    (key : Key)
    (client : ConnId) (config : ClientConfig) : Prop where
  single : Run.Along (daemonStep decode)
    (fun daemon turn => turn.Single decode client (clientRequest config) daemon)
    (daemonStart multicast tlsCheckPeerId) turns
  granted : ∃ net locked skipped, Carries
      ((mailTo client (Run.run (daemonStep decode)
        (daemonStart multicast tlsCheckPeerId) turns).mail).drop skipped)
      net.deliveries ∧ clientLock config net = some locked ∧ locked.rc = .ok
  served : ∃ slot ∈ (Run.run (daemonStep decode)
    (daemonStart multicast tlsCheckPeerId) turns).lockers,
    slot.thread.resource.key = key ∧ slot.thread.hosting client = true
  named : key.accepts config.resourceName = true

theorem hasLock_grant {decode : Name → Name} {multicast tlsCheckPeerId : Bool} {turns : List Turn}
    {key : Key} {client : ConnId} {config : ClientConfig}
    (has : HasLock decode multicast tlsCheckPeerId turns key client config) :
    ∃ held, (client, held) ∈ (Run.run (daemonStep decode)
      (daemonStart multicast tlsCheckPeerId) turns).grants key ∧
      held.Fits key.type (clientRequest config) := by
  obtain ⟨tracked, honoured⟩ := honoured_run has.single
  obtain ⟨net, locked, skipped, delivered, result, ok⟩ := has.granted
  obtain ⟨mail, msg, inside, _, _, granted⟩ :=
    accepted_granted (tracked.paced.drop skipped) delivered result ok
  obtain ⟨sent, addressed⟩ := List.mem_filter.mp (List.mem_of_mem_drop inside)
  obtain ⟨slot, place, rfl, hosting⟩ := has.served
  have thread : slot.thread ∈ Daemon.threads _ := List.mem_map_of_mem place
  obtain ⟨⟨conn, member, mine, _⟩, _⟩ :=
    (Bool.and_eq_true_iff.mp hosting).imp of_decide_eq_true of_decide_eq_true
  have holds := honoured.kept ⟨mail, sent, of_decide_eq_true addressed, granted⟩ slot.thread thread
    (.inl ⟨conn, member, mine⟩)
  rw [← grants_fst] at holds
  obtain ⟨grant, listed, rfl⟩ := List.mem_map.mp holds
  refine ⟨grant.2, List.mem_flatMap.mpr ⟨slot, place, ?_⟩, ?_⟩
  · rw [if_pos rfl]
    exact List.mem_filter.mpr ⟨listed, hosting⟩
  · have fits := owes_fits (honoured.owed slot.thread thread) rfl has.named grant listed rfl
    rwa [← @typed_run decode multicast tlsCheckPeerId turns slot place] at fits

theorem Grant.Agrees.symm {first second : Grant} (agrees : first.Agrees second) :
    second.Agrees first := by
  cases first <;> cases second <;> simp only [Grant.Agrees] at agrees ⊢
  · exact agrees.symm
  · exact fun comparable => (agrees comparable.symm).symm
  · exact Ne.symm agrees

theorem locked_clients_agree (decode : Name → Name) (multicast tlsCheckPeerId : Bool)
    (turns : List Turn)
    (along : Run.Along (daemonStep decode)
      (fun daemon turn => (daemonStep decode daemon turn).keepsControl)
      (daemonStart multicast tlsCheckPeerId) turns)
    (admitted : Run.Along (daemonStep decode)
      (fun daemon turn => turn.Along decode (fun _ _ _ => True)
        (LockerSlot.Makes Resource.Admits) daemon)
      (daemonStart multicast tlsCheckPeerId) turns)
    (key : Key) (first second : ConnId) (distinct : first ≠ second) (config config' : ClientConfig)
    (has : HasLock decode multicast tlsCheckPeerId turns key first config)
    (has' : HasLock decode multicast tlsCheckPeerId turns key second config') :
    let grants :=
      (Run.run (daemonStep decode) (daemonStart multicast tlsCheckPeerId) turns).grants key
    ∃ held held' : Grant, (first, held) ∈ grants ∧ (second, held') ∈ grants ∧
      held.Fits key.type (clientRequest config) ∧ held'.Fits key.type (clientRequest config') ∧
      held.Agrees held' := by
  obtain ⟨held, listed, fits⟩ := hasLock_grant has
  obtain ⟨held', listed', fits'⟩ := hasLock_grant has'
  have agree := grants_exclusive (housed_run along)
    (resources_run exclusive_init exclusive_call admitted) key
  have : Std.Symm fun first second : ConnId × Grant => first.2.Agrees second.2 :=
    ⟨fun _ _ => Grant.Agrees.symm⟩
  exact ⟨held, held', listed, listed', fits, fits',
    agree.forall listed listed' fun same => distinct (congrArg Prod.fst same)⟩

def ClientConfig.weight (config : ClientConfig) : RsrcType → Int
  | .numeric => config.resourceQuantity.toInt
  | .sequence | .timestamp => 1
  | .null | .simple | .set | .hier => 0

theorem fits_weight {type : RsrcType} {config : ClientConfig} {held : Grant}
    (fits : held.Fits type (clientRequest config)) : held.weight = config.weight type := by
  cases type <;> cases held <;> first | exact fits.elim | rfl | exact congrArg Int32.toInt fits

theorem owners_weight {grants : List (ConnId × Grant)}
    (weights : ∀ grant ∈ grants, 0 ≤ grant.2.weight) {owners : List (ConnId × Grant)}
    (distinct : (owners.map Prod.fst).Nodup) (inside : owners ⊆ grants) :
    (owners.map fun grant => grant.2.weight).sum ≤
    (grants.map fun grant => grant.2.weight).sum := by
  obtain ⟨listed, same, part⟩ := (List.Nodup.of_map Prod.fst distinct).subperm inside
  rw [← (same.map fun grant => grant.2.weight).sum_eq]
  refine (part.map _).sum_le_sum fun weight member => ?_
  obtain ⟨grant, present, rfl⟩ := List.mem_map.mp member
  exact weights grant present

theorem granted_weights {grants : List (ConnId × Grant)} {type : RsrcType} {total : Int}
    (weights : ∀ grant ∈ grants, 0 ≤ grant.2.weight)
    (bound : (grants.map fun grant => grant.2.weight).sum ≤ total)
    {clients : List (ConnId × ClientConfig)} (distinct : (clients.map Prod.fst).Nodup)
    (granted : ∀ client ∈ clients, ∃ held, (client.1, held) ∈ grants ∧
      held.Fits type (clientRequest client.2)) :
    (clients.map fun client => client.2.weight type).sum ≤ total := by
  have own (client : {client // client ∈ clients}) := granted client client.property
  choose held listed fits using own
  have owners : (clients.map fun client => client.2.weight type) =
      (clients.attach.map fun client => (client.val.1, held client)).map fun grant =>
      grant.2.weight := by
    rw [List.map_map]
    conv_lhs => rw [← List.attach_map_subtype_val clients, List.map_map]
    exact List.map_congr_left fun client _ => (fits_weight (fits client)).symm
  rw [owners]
  refine (owners_weight weights ?_ fun grant member => ?_).trans bound
  · rw [List.map_map]
    rw [← List.attach_map_subtype_val clients, List.map_map] at distinct
    exact distinct
  · obtain ⟨client, _, rfl⟩ := List.mem_map.mp member
    exact listed client

theorem locked_clients_bounded (decode : Name → Name) (multicast tlsCheckPeerId : Bool)
    (turns : List Turn)
    (along : Run.Along (daemonStep decode)
      (fun daemon turn => (daemonStep decode daemon turn).keepsControl)
      (daemonStart multicast tlsCheckPeerId) turns)
    (admitted : Run.Along (daemonStep decode)
      (fun daemon turn => turn.Along decode (fun _ _ _ => True)
        (LockerSlot.Makes Resource.Admits) daemon)
      (daemonStart multicast tlsCheckPeerId) turns)
    (name : Name) (total : Int32) (number : rsrcGetNumber name (rsrcGetType name) = .ok total)
    (positive : 0 ≤ total) (clients : List (ConnId × ClientConfig))
    (distinct : (clients.map Prod.fst).Nodup)
    (locks : ∀ client ∈ clients, HasLock decode multicast tlsCheckPeerId turns
      (.whole name) client.1 client.2) :
    (clients.map fun client => client.2.weight (rsrcGetType name)).sum ≤ total.toInt := by
  obtain ⟨weights, bound⟩ := grants_weights (housed_run along)
    (resources_run exclusive_init exclusive_call admitted) number positive
  exact granted_weights weights bound distinct fun client member =>
    hasLock_grant (locks client member)

def Arrival.plain (decode : Name → Name) (conn : Conn) : Arrival → Prop
  | .bytes feed =>
    feed.wellFormed = true ∧ (conn.fed decode feed).lastStep = msgStepIncr ∧
      (conn.fed decode feed).msg.lock8.create ≠ 0
  | _ => True

instance plainDecidable (decode : Name → Name) (conn : Conn) : (arrival : Arrival) →
    Decidable (arrival.plain decode conn)
  | .bytes _ => inferInstanceAs (Decidable (_ ∧ _ ∧ _))
  | .failed _ | .empty | .stalled => isTrue trivial

def Plain (decode : Name → Name) (client : ConnId) (daemon : Daemon) (id : Nat)
    (revents : Revents) : Prop :=
  (id = 0 → revents.accept.accepted = some client → (daemon.afoot client = 0 ∧
      ∀ slot ∈ daemon.lockers, client ∉ slot.thread.conns.map Conn.id ∧
      client ∉ slot.thread.resource.waiting) ∧
    ∀ mail ∈ daemon.mail, mail.conn ≠ client) ∧
  revents.accept.control ≠ client ∧
  ∀ conn ∈ daemon.conns[id]?, conn.id = client → revents.accept.arrival.plain decode conn

instance (decode : Name → Name) (client : ConnId) (daemon : Daemon) (id : Nat) (revents : Revents) :
    Decidable (Plain decode client daemon id revents) := inferInstanceAs (Decidable (_ ∧ _ ∧ _))

def Received.silent : Received → Bool
  | .failed _ => true
  | .data _ _ => false

def PollEvent.unread (event : PollEvent) : Bool :=
  match event with
  | .ready [entry] => entry.received.silent
  | _ => false

theorem asks_of_unread {client : ConnId} {slot : LockerSlot} {event : PollEvent}
    (unread : event.unread = true) :
    slot.asks client event := by
  unfold PollEvent.unread at unread
  split at unread
  · rename_i entry
    obtain ⟨rc, failed⟩ : ∃ rc, entry.received = .failed rc := by
      cases received : entry.received <;> simp [received, Received.silent] at unread ⊢
    cases count : slot.thread.cleaned.conns.length <;>
      simp [LockerSlot.asks, PollEvent.piped, count, Run.ScanAlong, Ready.asks, failed]
  · cases unread

theorem turn_single {decode : Name → Name} {client : ConnId} {request : Msg} {daemon : Daemon}
    {turn : Turn}
    (plain : turn.Along decode (Plain decode client)
      (fun slot event => event.unread = true ∧ slot.Makes (Resource.AskedOnce client request) event)
        daemon) :
    turn.Single decode client request daemon := by
  refine Turn.Along.imp (fun daemon id revents plain => ?_)
    (fun slot event both => ⟨asks_of_unread both.1, both.2⟩) plain
  obtain ⟨joins, pipe, asks⟩ := plain
  refine ⟨⟨⟨fun first joined => ?_, pipe, ?_⟩, ?_⟩, fun first joined => (joins first joined).2⟩
  · obtain ⟨⟨away, apart⟩, _⟩ := joins first joined
    exact ⟨away, fun slot member => by simpa [Locker.hosts] using apart slot member⟩
  · intro conn feed present mine arrived
    have fed := asks conn present mine
    rw [arrived] at fed
    exact ⟨fed.1, fed.2.1⟩
  · intro conn feed name present mine arrived _ answers
    have fed := asks conn present mine
    rw [arrived] at fed
    cases answers with
    | incubated _ _ create _ => exact absurd create fed.2.2

instance makesOnceDecidable (client : ConnId) (request : Msg) (slot : LockerSlot)
    (event : PollEvent) :
    Decidable (slot.Makes (Resource.AskedOnce client request) event) :=
  inferInstanceAs (Decidable (Run.Along _ _ _ _))

theorem hasLock_told {decode : Name → Name} {turns : List Turn} {key : Key} {client : ConnId}
    {config : ClientConfig} {holding : List ConnId}
    (plain : Run.Along (daemonStep decode)
      (fun daemon turn => turn.Along decode (Plain decode client) (fun slot event =>
        event.unread = true ∧ slot.Makes (Resource.AskedOnce client (clientRequest config)) event)
          daemon)
      (daemonStart false false) turns)
    (sent : mailTo client (Run.run (daemonStep decode) (daemonStart false false) turns).mail =
      [⟨client, 2 * msgStepIncr, .ok, holding⟩])
    (told : (clientLock config (mailNet [⟨client, 2 * msgStepIncr, .ok, holding⟩])).map
      ClientLocked.rc = some .ok)
    (served : ∃ slot ∈ (Run.run (daemonStep decode) (daemonStart false false) turns).lockers,
      slot.thread.resource.key = key ∧ slot.thread.hosting client = true)
    (named : key.accepts config.resourceName = true) :
    HasLock decode false false turns key client config := by
  obtain ⟨locked, result, ok⟩ := Option.map_eq_some_iff.mp told
  refine ⟨Run.along_imp (fun _ _ => turn_single) plain, ⟨mailNet _, locked, 0, ?_, result, ok⟩,
    served, named⟩
  rw [sent]
  exact ⟨fun _ => ⟨rfl, rfl, rfl⟩, trivial⟩

def exclusiveConfig (name : Name) : ClientConfig := ⟨some ['p'], name, .ex, -1, 1, 1, 0, false⟩

theorem locked_clients_agree_siblings :
    let turns := [joinTurn 2, exclusiveTurn encodedFirst, readTurn, joinTurn 3,
      exclusiveTurn encodedSecond, readTurn]
    let first := exclusiveConfig (decodePaths encodedFirst)
    let second := exclusiveConfig (decodePaths encodedSecond)
    let key := Key.level ['a']
    let grants := (Run.run (daemonStep decodePaths) (daemonStart false false) turns).grants key
    ∃ held held' : Grant, (2, held) ∈ grants ∧ (3, held') ∈ grants ∧
    held.Fits key.type (clientRequest first) ∧
      held'.Fits key.type (clientRequest second) ∧ held.Agrees held' := by
  intro turns first second key
  have has : HasLock decodePaths false false turns key 2 first :=
    @hasLock_told decodePaths turns key 2 first [2] (by decide) (by decide) (by decide) (by decide)
      (by decide)
  have has' : HasLock decodePaths false false turns key 3 second :=
    @hasLock_told decodePaths turns key 3 second [2, 3] (by decide) (by decide) (by decide)
      (by decide) (by decide)
  exact locked_clients_agree decodePaths false false turns (by decide) (by decide) key 2 3
    (by decide) first second has has'

theorem locked_clients_bounded_beside :
    let turns := [joinTurn 2, requestTurn [.quiet] ['1'] ['1'], readTurn, joinTurn 3,
      requestTurn [.quiet] ['4'] ['1'], readTurn]
    let name := decodeFive encodedFive
    let clients := [((2 : ConnId), fiveConfig 1 1), (3, fiveConfig 4 1)]
    (∀ client ∈ clients, HasLock decodeFive false false turns (.whole name) client.1 client.2) ∧
      (clients.map fun client => client.2.weight (rsrcGetType name)) = [1, 4] ∧
      (clients.map fun client => client.2.weight (rsrcGetType name)).sum ≤ (5 : Int32).toInt := by
  intro turns name clients
  have first : HasLock decodeFive false false turns (.whole name) 2 (fiveConfig 1 1) :=
    @hasLock_told decodeFive turns _ 2 (fiveConfig 1 1) [2] (by decide) (by decide) (by decide)
      (by decide) (by decide)
  have second : HasLock decodeFive false false turns (.whole name) 3 (fiveConfig 4 1) :=
    @hasLock_told decodeFive turns _ 3 (fiveConfig 4 1) [3, 2] (by decide) (by decide) (by decide)
      (by decide) (by decide)
  have locks : ∀ client ∈ clients, HasLock decodeFive false false turns
      (.whole name) client.1 client.2 := by
    simpa [clients] using And.intro first second
  refine ⟨locks, by decide, ?_⟩
  exact locked_clients_bounded decodeFive false false turns (by decide) (by decide) name 5
    (by decide) (by decide) clients (by decide) locks

end Flom
