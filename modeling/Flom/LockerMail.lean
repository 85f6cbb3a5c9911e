import Flom.LockerControl
import Flom.ResourceQueue
import Flom.Lib.Run

set_option autoImplicit false

namespace Flom

def Mail.honest (mail : Mail) : Prop := mail.rc = .ok → mail.conn ∈ mail.holding

/-- What a client that waits may be told: nothing but OK ends the wait at step 24. -/
def Mail.fair (mail : Mail) : Prop :=
  mail.step = 3 * msgStepIncr → mail.rc = .ok ∨ mail.rc = .lockEnqueued

def Locker.hosts (locker : Locker) (client : ConnId) : Prop :=
  (∃ conn ∈ locker.conns, conn.id = client) ∨ client ∈ locker.resource.waiting

structure Locker.Goes (client : ConnId) (before after : Locker) : Prop where
  capacity : after.resource.capacity = before.resource.capacity
  hosts : after.hosts client → before.hosts client
  mail : ∃ new, after.mail = before.mail ++ new ∧
    ∀ mail ∈ new, mail.honest ∧ (mail.conn = client → mail.fair ∧ before.hosts client)

variable {client : ConnId}

theorem Locker.goes_quietly {before after : Locker} (resource : after.resource = before.resource)
    (conns : ∀ conn ∈ after.conns, ∃ other ∈ before.conns, other.id = conn.id)
    (mail : after.mail = before.mail) : before.Goes client after := by
  refine ⟨by rw [resource], ?_, [], by simp [mail], by simp⟩
  rintro (⟨conn, member, rfl⟩ | queued)
  · exact .inl (conns conn member)
  · exact .inr (resource ▸ queued)

theorem Locker.goes_refl (locker : Locker) : locker.Goes client locker :=
  Locker.goes_quietly rfl (fun conn member => ⟨conn, member, rfl⟩) rfl

theorem Locker.Goes.trans {first second third : Locker} (before : first.Goes client second)
    (after : second.Goes client third) : first.Goes client third := by
  obtain ⟨new, posted, fine⟩ := before.mail
  obtain ⟨new', posted', fine'⟩ := after.mail
  refine ⟨after.capacity.trans before.capacity, before.hosts ∘ after.hosts, new ++ new', ?_, ?_⟩
  · rw [posted', posted, List.append_assoc]
  · intro mail member
    obtain early | late := List.mem_append.mp member
    · exact fine mail early
    · obtain ⟨honest, mine⟩ := fine' mail late
      exact ⟨honest, fun same => ⟨(mine same).1, before.hosts (mine same).2⟩⟩

theorem ids_of_set {conns : List Conn} {id : Nat} {conn conn' : Conn}
    (present : conns[id]? = some conn) (same : conn'.id = conn.id) : ∀ other ∈ conns.set id conn',
    ∃ old ∈ conns, old.id = other.id := by
  intro other member
  obtain old | rfl := List.mem_or_eq_of_mem_set member
  · exact ⟨other, old, rfl⟩
  · exact ⟨conn, List.mem_of_getElem? present, same.symm⟩

theorem setConn_goes {locker : Locker} {id : Nat} {conn conn' : Conn}
    (present : locker.conns[id]? = some conn) (same : conn'.id = conn.id) :
    locker.Goes client (locker.setConn id conn') :=
  Locker.goes_quietly rfl (ids_of_set present same) rfl

theorem lockerClose_goes (locker : Locker) (id : Nat) (closed : Bool) :
    locker.Goes client (lockerClose locker id closed).2 := by
  refine Locker.goes_quietly rfl ?_ rfl
  simp only [lockerClose, connsCloseFd]
  split
  · next conn present => exact ids_of_set present (connTerminate_id conn closed)
  · exact fun conn member => ⟨conn, member, rfl⟩

theorem leave_goes (locker : Locker) : locker.Goes client locker.leave :=
  Locker.goes_quietly rfl (by simp [Locker.leave]) rfl

theorem cleaned_goes (locker : Locker) : locker.Goes client locker.cleaned :=
  Locker.goes_quietly rfl
    (fun conn member => ⟨conn, (connsClean_subperm locker.conns).subset member, rfl⟩) rfl

theorem reply_goes {locker : Locker} {reply : ResourceReply} (serves : locker.resource.Serves reply)
    (held : ∀ other ∈ reply.told, other ∈ reply.resource.holding)
    (capacity : reply.resource.capacity = locker.resource.capacity) :
    locker.Goes client ({ locker with resource := reply.resource }.send reply.mail) := by
  refine ⟨capacity, ?_, reply.mail, rfl, ?_⟩
  · rintro (served | queued)
    · exact .inl served
    · exact .inr (serves.waiting queued)
  · intro mail member
    obtain ⟨other, told, rfl⟩ := List.mem_map.mp member
    exact ⟨fun _ => held other told, fun same =>
      ⟨fun _ => .inl rfl, .inr (serves.told (same ▸ told))⟩⟩

theorem clean_goes (locker : Locker) (conn : ConnId) (env : Env) :
    let reply := resourceClean locker.resource conn env
    locker.Goes client ({ locker with resource := reply.resource }.send reply.mail) :=
  reply_goes (resourceClean_serves locker.resource conn env)
    (resourceClean_told locker.resource conn env) (resourceClean_capacity locker.resource conn env)

theorem timeout_goes (locker : Locker) (env : Env) :
    let reply := resourceTimeout locker.resource env
    locker.Goes client ({ locker with resource := reply.resource }.send reply.mail) :=
  reply_goes (resourceTimeout_serves locker.resource env) (resourceTimeout_told locker.resource env)
    (resourceTimeout_capacity locker.resource env)

inductive Posted (resource : Resource) (conn : Conn) (new : List Mail) : Prop
  | told (queued : ∀ mail ∈ new, mail.rc = .ok ∧ mail.conn ∈ resource.waiting)
  | answered (mail : Mail) (single : new = [mail]) (mine : mail.conn = conn.id)
      (step : mail.step = conn.lastStep + msgStepIncr) (lock : conn.msg.verb = .lock)
      (granted : resource.suits conn.msg → mail.rc = .ok ∨ mail.rc = .lockEnqueued)

theorem answer_mail_honest (resource : Resource) (conn : ConnId) (lastStep : Int) (msg : Msg)
    (env : Env) :
    ∀ mail ∈ (resourceInmsg resource conn lastStep msg env).mail, mail.honest := by
  intro mail member
  obtain ⟨other, told, rfl⟩ := List.mem_map.mp member
  exact fun _ => resourceInmsg_told resource conn lastStep msg env other told

theorem answer_mail_told (resource : Resource) (conn : Conn) (lastStep : Int) (msg : Msg)
    (env : Env) :
    Posted resource conn (resourceInmsg resource conn.id lastStep msg env).mail := by
  refine .told fun mail member => ?_
  obtain ⟨other, told, rfl⟩ := List.mem_map.mp member
  exact ⟨rfl, (resourceInmsg_serves resource conn.id lastStep msg env).1 told⟩

theorem answer_posted {resource : Resource} {conn : Conn} {env : Env}
    (done : (resourceInmsg resource conn.id conn.lastStep conn.msg env).rc = .ok)
    (ready : (resourceInmsg resource conn.id conn.lastStep conn.msg env).msg.state = .ready)
    (send : Rc) :
    let answer := resourceInmsg resource conn.id conn.lastStep conn.msg env
    (∀ mail ∈ answer.mail ++ answer.post conn.id send, mail.honest) ∧
      Posted resource conn (answer.mail ++ answer.post conn.id send) := by
  have lock := resourceInmsg_posted done ready
  obtain ⟨step, holds, suits⟩ := resourceInmsg_lock lock done
  have silent : (resourceInmsg resource conn.id conn.lastStep conn.msg env).mail = [] := by
    simp [ResourceReply.mail, resourceInmsg_lock_told lock]
  simp only [silent, List.nil_append, ResourceAnswer.post]
  split_ifs
  · refine ⟨?_, .answered _ rfl rfl step lock suits⟩
    rw [List.forall_mem_singleton]
    exact holds
  · exact ⟨by simp, .told (by simp)⟩

theorem lockerProcess_posts (locker : Locker) (id : Nat) (conn : Conn) (ready : Ready) :
    ∃ new, (lockerProcess locker id conn ready).locker.mail = locker.mail ++ new ∧
      (∀ mail ∈ new, mail.honest) ∧ Posted locker.resource conn new := by
  have honest := answer_mail_honest locker.resource conn.id conn.lastStep conn.msg ready.env
  have told := answer_mail_told locker.resource conn conn.lastStep conn.msg ready.env
  have posted := @answer_posted locker.resource conn ready.env
  unfold lockerProcess
  dsimp only
  generalize resourceInmsg locker.resource conn.id conn.lastStep conn.msg ready.env = answer at *
  split_ifs with request done filled serialized sent
  · refine ⟨answer.mail ++ answer.post conn.id (connSend conn ready.send), ?_, posted done filled _⟩
    split <;> simp [Locker.send, Locker.setConn, List.append_assoc]
  · exact ⟨answer.mail, rfl, honest, told⟩
  · exact ⟨answer.mail, rfl, honest, told⟩
  · refine ⟨answer.mail, ?_, honest, told⟩
    split <;> rfl
  · exact ⟨answer.mail, rfl, honest, told⟩
  · exact ⟨[], by simp, by simp, .told (by simp)⟩

theorem lockerProcess_capacity (locker : Locker) (id : Nat) (conn : Conn) (ready : Ready) :
    (lockerProcess locker id conn ready).locker.resource.capacity = locker.resource.capacity := by
  by_cases request : conn.msg.verb = .lock ∨ conn.msg.verb = .unlock
  · obtain ⟨_, _, _, _, _, same⟩ := lockerProcess_locker locker id conn ready request
    rw [same]
    exact resourceInmsg_capacity locker.resource conn.id conn.lastStep conn.msg ready.env
  · rw [lockerProcess, if_neg request]

theorem lockerProcess_hosts {locker : Locker} {id : Nat} {conn : Conn} {ready : Ready}
    (hosts : (lockerProcess locker id conn ready).locker.hosts client) :
    locker.hosts client ∨ conn.id = client := by
  by_cases request : conn.msg.verb = .lock ∨ conn.msg.verb = .unlock
  · obtain ⟨conn', _, same, _, _, after⟩ := lockerProcess_locker locker id conn ready request
    rw [after] at hosts
    obtain ⟨other, member, rfl⟩ | queued := hosts
    · obtain old | rfl := List.mem_or_eq_of_mem_set member
      · exact .inl (.inl ⟨other, old, rfl⟩)
      · exact .inr same.symm
    · have serves := resourceInmsg_serves locker.resource conn.id conn.lastStep conn.msg ready.env
      obtain rfl | earlier := List.mem_cons.mp (serves.2 queued)
      · exact .inr rfl
      · exact .inl (.inr earlier)
  · rw [lockerProcess, if_neg request] at hosts
    exact .inl hosts

theorem lockerProcess_goes {locker : Locker} {id : Nat} {conn : Conn} (ready : Ready)
    (served : conn.id = client → locker.hosts client ∧ conn.lastStep = msgStepIncr) :
    locker.Goes client (lockerProcess locker id conn ready).locker := by
  obtain ⟨new, same, honest, posted⟩ := lockerProcess_posts locker id conn ready
  refine ⟨lockerProcess_capacity locker id conn ready, ?_, new, same, ?_⟩
  · intro hosts
    exact (lockerProcess_hosts hosts).elim (fun before => before) fun mine => (served mine).1
  · intro mail member
    refine ⟨honest mail member, fun mine => ?_⟩
    cases posted with
    | told queued =>
      obtain ⟨ok, waiting⟩ := queued mail member
      exact ⟨fun _ => .inl ok, .inr (mine ▸ waiting)⟩
    | answered only single own step lock granted =>
      obtain rfl : mail = only := by simpa [single] using member
      obtain ⟨hosts, asked⟩ := served (own.symm.trans mine)
      refine ⟨fun last => ?_, hosts⟩
      rw [step, asked] at last
      simp [msgStepIncr] at last

def Ready.asks (client : ConnId) (locker : Locker) (id : Nat) (ready : Ready) : Prop :=
  ∀ conn msg, locker.conns[id]? = some conn → conn.id = client → ready.received = .data .ok msg →
    msg.step = msgStepIncr

theorem lockerData_goes {locker : Locker} {id : Nat} {conn : Conn} (rc : Rc) (msg : Msg)
    (ready : Ready) (present : locker.conns[id]? = some conn)
    (asks : conn.id = client → rc = .ok → msg.step = msgStepIncr) :
    locker.Goes client (lockerData locker id conn rc msg ready).locker := by
  have stepped := @setConn_goes client _ _ _
    { conn with lastStep := msg.step, msg := msg } present rfl
  have closed := stepped.trans (lockerClose_goes _ id ready.closed)
  obtain ⟨bound, _⟩ := List.getElem?_eq_some_iff.mp present
  unfold lockerData
  dsimp only
  split_ifs with parsed invalid closing
  · obtain ⟨sockfd, terminated⟩ :=
      connTerminate_snd { conn with lastStep := msg.step, msg := msg } ready.closed
    refine closed.trans (lockerProcess_goes ready fun mine => ?_)
    rw [terminated] at mine ⊢
    simp only [lockerClose, connsCloseFd, Locker.setConn, List.getElem?_set_self bound,
      List.set_set]
    exact ⟨.inl ⟨_, List.mem_set bound _, (connTerminate_id _ _).trans mine⟩, asks mine parsed⟩
  · exact closed
  · refine stepped.trans (lockerProcess_goes ready fun mine => ⟨?_, asks mine parsed⟩)
    exact .inl ⟨_, List.mem_set bound _, mine⟩
  · exact setConn_goes present rfl

theorem lockerLoopPollin_goes {locker : Locker} {id : Nat} {ready : Ready} (behind : id ≠ 0)
    (asks : ready.asks client locker id) : locker.Goes client
    (lockerLoopPollin locker id ready).locker := by
  have woken : locker.Goes client { locker with idlePeriods := 0 } :=
    Locker.goes_quietly rfl (fun conn member => ⟨conn, member, rfl⟩) rfl
  unfold lockerLoopPollin
  split
  · exact locker.goes_refl
  · next conn present =>
    simp only [behind, if_false]
    split
    · exact woken
    · next rc msg data =>
      refine woken.trans (lockerData_goes rc msg ready present fun mine parsed => ?_)
      exact asks conn msg present mine (parsed ▸ data)

theorem lockerDisconnect_goes (locker : Locker) (id : Nat) (ready : Ready) :
    locker.Goes client (lockerDisconnect locker id ready).locker := by
  have closed := @lockerClose_goes client locker id ready.closed
  unfold lockerDisconnect
  split
  · next conn present =>
    dsimp only
    split
    · exact closed.trans (clean_goes _ conn.id ready.cleanEnv)
    · exact closed
  · exact locker.goes_refl

theorem lockerHup_goes (locker : Locker) (id : Nat) (ready : Ready) :
    locker.Goes client (lockerHup locker id ready).locker := by
  unfold lockerHup
  split_ifs
  · exact lockerClose_goes locker id ready.closed
  · exact lockerDisconnect_goes locker id ready
  · exact locker.goes_refl

def Locker.opened (locker : Locker) (id : Nat) (ready : Ready) : Locker :=
  if ready.err = false ∧ ready.pollin = true then (lockerLoopPollin locker id ready).locker
    else locker

theorem lockerServe_goes (locker : Locker) (id : Nat) (ready : Ready) :
    (locker.opened id ready).Goes client (lockerServe locker id ready).locker := by
  unfold lockerServe Locker.opened
  by_cases err : ready.err = true
  · simp only [err, if_true, Bool.true_eq_false, false_and, if_false]
    exact lockerDisconnect_goes locker id ready
  · by_cases pollin : ready.pollin = true
    · simp only [err, pollin, if_true, and_self, Bool.false_eq_true, if_false]
      split_ifs
      · exact Locker.goes_refl _
      · exact lockerHup_goes _ id ready
      · exact lockerDisconnect_goes _ id ready
    · simp only [err, pollin, Bool.false_eq_true, and_false, if_false]
      exact lockerHup_goes locker id ready

def lockerNext (locker : Locker) (id : Nat) (ready : Ready) : Option Locker :=
  match lockerServe locker id ready with
  | ⟨.next, served⟩ => some served
  | _ => none

theorem lockerScan_goes {locker : Locker} {id : Nat} {revents : List Ready} (behind : id ≠ 0)
    (asks : Run.ScanAlong lockerNext (fun locker id ready => ready.asks client locker id) locker id
      revents) :
    locker.Goes client (lockerScan locker id revents) := by
  induction revents generalizing locker id with
  | nil => exact locker.goes_refl
  | cons ready rest ih =>
    have served : locker.Goes client (lockerServe locker id ready).locker := by
      refine Locker.Goes.trans ?_ (lockerServe_goes locker id ready)
      unfold Locker.opened
      split_ifs
      · exact lockerLoopPollin_goes behind asks.1
      · exact locker.goes_refl
    have later := asks.2
    unfold lockerNext at later
    rw [lockerScan]
    generalize lockerServe locker id ready = reached at served later
    obtain ⟨flow, after⟩ := reached
    cases flow with
    | next => exact served.trans (ih (by omega) (later after rfl))
    | again => exact served
    | leave => exact served.trans (leave_goes after)

end Flom
