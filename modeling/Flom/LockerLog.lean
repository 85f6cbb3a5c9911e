import Flom.LockerCalls

set_option autoImplicit false

namespace Flom

structure Locker.Logs (before after : Locker) (calls : List LockerCall) : Prop where
  resource : after.resource = Run.run resourceCall before.resource calls
  mail : ∃ new, after.mail = before.mail ++ new ∧ ∀ mail ∈ new, ∃ made, made <+: calls ∧
    mail.holding = (Run.run resourceCall before.resource made).holding

section

variable {locker : Locker} {id : Nat} {ready : Ready}

theorem Locker.logs_quietly {before after : Locker} (resource : after.resource = before.resource)
    (mail : after.mail = before.mail) : before.Logs after [] :=
  ⟨resource, [], by simp [mail], by simp⟩

theorem Locker.Logs.trans {first second third : Locker} {calls later : List LockerCall}
    (before : first.Logs second calls) (after : second.Logs third later) :
    first.Logs third (calls ++ later) := by
  obtain ⟨new, posted, told⟩ := before.mail
  obtain ⟨new', posted', told'⟩ := after.mail
  refine ⟨?_, new ++ new', ?_, ?_⟩
  · rw [Run.run_append, ← before.resource, after.resource]
  · rw [posted', posted, List.append_assoc]
  · intro mail member
    obtain early | late := List.mem_append.mp member
    · obtain ⟨made, part, same⟩ := told mail early
      exact ⟨made, part.trans (List.prefix_append _ _), same⟩
    · obtain ⟨made, part, same⟩ := told' mail late
      refine ⟨calls ++ made, (List.prefix_append_right_inj calls).mpr part, ?_⟩
      rw [Run.run_append, ← before.resource, same]

theorem Locker.logs_call {before after : Locker} {call : LockerCall} {new : List Mail}
    (resource : after.resource = resourceCall before.resource call)
    (mail : after.mail = before.mail ++ new)
    (told : ∀ mail ∈ new, mail.holding = after.resource.holding) : before.Logs after [call] :=
  ⟨resource, new, mail, fun item member =>
    ⟨[call], List.prefix_rfl, (told item member).trans (by rw [resource]; rfl)⟩⟩

theorem reply_told (reply : ResourceReply) : ∀ mail ∈ reply.mail,
    mail.holding = reply.resource.holding := by
  intro mail member
  obtain ⟨_, _, rfl⟩ := List.mem_map.mp member
  rfl

theorem post_told (answer : ResourceAnswer) (conn : ConnId) (send : Rc) :
    ∀ mail ∈ answer.post conn send, mail.holding = answer.resource.holding := by
  intro mail member
  unfold ResourceAnswer.post at member
  split_ifs at member
  · obtain rfl := List.mem_singleton.mp member
    rfl
  · cases member

theorem lockerProcess_told (locker : Locker) (id : Nat) (conn : Conn) (ready : Ready)
    (request : conn.msg.verb = .lock ∨ conn.msg.verb = .unlock) :
    ∃ new, (lockerProcess locker id conn ready).locker.mail = locker.mail ++ new ∧
      ∀ mail ∈ new, mail.holding =
        (resourceInmsg locker.resource conn.id conn.lastStep conn.msg
          ready.env).resource.holding := by
  have told := reply_told (resourceInmsg locker.resource conn.id conn.lastStep conn.msg
    ready.env).toResourceReply
  have post := post_told (resourceInmsg locker.resource conn.id conn.lastStep conn.msg ready.env)
    conn.id (connSend conn ready.send)
  unfold lockerProcess
  dsimp only
  rw [if_pos request]
  generalize resourceInmsg locker.resource conn.id conn.lastStep conn.msg ready.env = answer at *
  split_ifs
  · refine ⟨answer.mail ++ answer.post conn.id (connSend conn ready.send), ?_,
      List.forall_mem_append.mpr ⟨told, post⟩⟩
    split <;> simp [Locker.send, Locker.setConn, List.append_assoc]
  · exact ⟨answer.mail, rfl, told⟩
  · exact ⟨answer.mail, rfl, told⟩
  · refine ⟨answer.mail, ?_, told⟩
    split <;> rfl
  · exact ⟨answer.mail, rfl, told⟩

theorem lockerProcess_logs (locker : Locker) (id : Nat) (conn : Conn) (ready : Ready) :
    locker.Logs (lockerProcess locker id conn ready).locker (lockerProcessCalls conn ready) := by
  unfold lockerProcessCalls
  by_cases request : conn.msg.verb = .lock ∨ conn.msg.verb = .unlock
  · obtain ⟨_, _, _, _, _, after⟩ := lockerProcess_locker locker id conn ready request
    obtain ⟨new, mail, told⟩ := lockerProcess_told locker id conn ready request
    rw [if_pos request]
    refine Locker.logs_call ?_ mail ?_
    · rw [after]
      rfl
    · rw [after]
      exact told
  · rw [if_neg request, lockerProcess, if_neg request]
    exact Locker.logs_quietly rfl rfl

theorem lockerData_logs (locker : Locker) (id : Nat) (conn : Conn) (rc : Rc) (msg : Msg)
    (ready : Ready) :
    locker.Logs (lockerData locker id conn rc msg ready).locker
      (lockerDataCalls locker id conn rc msg ready) := by
  have stepped (conn : Conn) : locker.Logs (locker.setConn id conn) [] :=
    Locker.logs_quietly rfl rfl
  have closed (conn : Conn) : locker.Logs (lockerClose (locker.setConn id conn) id ready.closed).2
      [] :=
    Locker.logs_quietly rfl rfl
  unfold lockerData lockerDataCalls
  dsimp only
  split_ifs
  · exact (closed _).trans (lockerProcess_logs _ id _ ready)
  · exact closed _
  · exact (stepped _).trans (lockerProcess_logs _ id _ ready)
  · exact stepped _

theorem lockerDisconnect_logs : locker.Logs (lockerDisconnect locker id ready).locker
    (lockerDisconnectCalls locker id ready) := by
  unfold lockerDisconnect lockerDisconnectCalls
  cases locker.conns[id]? with
  | none => exact Locker.logs_quietly rfl rfl
  | some conn =>
    by_cases closed : (lockerClose locker id ready.closed).1 = .ok
    · simp only [if_pos closed]
      exact Locker.logs_call rfl rfl (reply_told _)
    · simp only [if_neg closed]
      exact Locker.logs_quietly rfl rfl

theorem lockerHup_logs : locker.Logs (lockerHup locker id ready).locker
    (lockerHupCalls locker id ready) := by
  unfold lockerHup lockerHupCalls
  split_ifs
  · exact Locker.logs_quietly rfl rfl
  · exact lockerDisconnect_logs
  · exact Locker.logs_quietly rfl rfl

theorem lockerLoopPollin_logs :
    locker.Logs (lockerLoopPollin locker id ready).locker
      (lockerLoopPollinCalls locker id ready) := by
  have woken : locker.Logs { locker with idlePeriods := 0 } [] := Locker.logs_quietly rfl rfl
  unfold lockerLoopPollin lockerLoopPollinCalls
  cases locker.conns[id]? with
  | none => exact Locker.logs_quietly rfl rfl
  | some conn =>
    dsimp only
    split_ifs
    · unfold lockerHandover lockerHandoverCalls
      have read : lockerRead { locker with idlePeriods := 0 } ready = lockerRead locker ready := rfl
      rw [read]
      cases lockerRead locker ready with
      | none => exact woken
      | some handed =>
        have joined : locker.Logs
            { locker with idlePeriods := 0, conns := locker.conns ++ [handed] } [] :=
          Locker.logs_quietly rfl rfl
        exact joined.trans (lockerProcess_logs _ locker.conns.length handed ready)
    · cases ready.received with
      | failed rc => exact woken
      | data rc msg => exact woken.trans (lockerData_logs _ id conn rc msg ready)

theorem lockerServe_logs : locker.Logs (lockerServe locker id ready).locker
    (lockerServeCalls locker id ready) := by
  unfold lockerServe lockerServeCalls
  dsimp only
  split_ifs
  · exact lockerDisconnect_logs
  · simpa using @lockerLoopPollin_logs locker id ready
  · exact lockerLoopPollin_logs.trans lockerHup_logs
  · exact lockerLoopPollin_logs.trans lockerDisconnect_logs
  · exact lockerHup_logs

theorem leave_logs {left : Locker} {calls : List LockerCall} (logs : locker.Logs left calls) :
    locker.Logs left.leave calls := ⟨logs.resource, logs.mail⟩

theorem lockerScan_logs {revents : List Ready} :
    locker.Logs (lockerScan locker id revents) (lockerScanCalls locker id revents) := by
  induction revents generalizing locker id with
  | nil => exact Locker.logs_quietly rfl rfl
  | cons first rest ih =>
    have served := @lockerServe_logs locker id first
    rw [lockerScan, lockerScanCalls]
    generalize lockerServe locker id first = reached at served
    obtain ⟨flow, after⟩ := reached
    cases flow with
    | next => exact served.trans ih
    | again => simpa using served
    | leave => simpa using leave_logs served

theorem lockerStep_logs (locker : Locker) (event : PollEvent) :
    locker.Logs (lockerStep locker event) (lockerStepCalls locker event) := by
  have cleaned : locker.Logs locker.cleaned [] := Locker.logs_quietly rfl rfl
  unfold lockerStep lockerStepCalls
  split_ifs
  · exact Locker.logs_quietly rfl rfl
  · refine cleaned.trans ?_
    cases event with
    | failed => exact Locker.logs_quietly rfl rfl
    | ready revents => exact lockerScan_logs
    | timeout env =>
      have timed : locker.cleaned.Logs ({ locker.cleaned with
          resource := (resourceTimeout locker.cleaned.resource env).resource }.send
            (resourceTimeout locker.cleaned.resource env).mail) [.timeout env] :=
        Locker.logs_call rfl rfl (reply_told _)
      simp only [lockerPoll]
      split_ifs
      · exact ⟨timed.resource, timed.mail⟩
      · exact timed
      · exact leave_logs timed
  · exact Locker.logs_quietly rfl rfl
  · exact Locker.logs_quietly rfl rfl

end

end Flom
