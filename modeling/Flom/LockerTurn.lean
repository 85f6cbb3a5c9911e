import Flom.DaemonRun
import Flom.LockerMail

set_option autoImplicit false

namespace Flom

section

variable {client : ConnId} {slot : LockerSlot}

def LockerSlot.asks (client : ConnId) (slot : LockerSlot) (event : PollEvent) : Prop :=
  match event.piped (slot.pipe.head?.map Token.conn) with
  | .ready revents => Run.ScanAlong lockerNext (fun locker id ready => ready.asks client locker id)
      { slot.thread with mail := [] }.cleaned 0 (revents.take slot.thread.cleaned.conns.length)
  | _ => True

inductive LockerSlot.Turned (client : ConnId) (slot : LockerSlot) (thread : Locker)
    (pipe : List Token) : Prop
  | idle (goes : { slot.thread with mail := [] }.Goes client thread) (same : pipe = slot.pipe)
  | took (token : Token) (opened : Locker) (goes : opened.Goes client thread)
      (taken : slot.pipe = token :: pipe) (honest : ∀ mail ∈ opened.mail, mail.honest)
      (posted : Posted slot.thread.resource token.conn opened.mail)
      (capacity : opened.resource.capacity = slot.thread.resource.capacity)
      (hosts : opened.hosts client → slot.thread.hosts client ∨ token.conn.id = client)

theorem opened_idle {locker : Locker} {ready : Ready}
    (unread : ¬(ready.err = false ∧ ready.pollin = true ∧
      locker.conns.head?.any (·.id = locker.control) = true) ∨
      ready.handed = none) :
    locker.Goes client (locker.opened 0 ready) := by
  have woken : locker.Goes client { locker with idlePeriods := 0 } :=
    Locker.goes_quietly rfl (fun conn member => ⟨conn, member, rfl⟩) rfl
  unfold Locker.opened
  split_ifs with polled
  · unfold lockerLoopPollin
    split
    · exact locker.goes_refl
    · rw [if_pos rfl]
      unfold lockerHandover
      split
      · next conn handed =>
        unfold lockerRead at handed
        split_ifs at handed with control
        obtain closed | none := unread
        · exact absurd ⟨polled.1, polled.2, control⟩ closed
        · cases none.symm.trans handed
      · exact woken
  · exact locker.goes_refl

theorem opened_took {locker : Locker} {ready : Ready} {conn : Conn} (quiet : ready.err = false)
    (pollin : ready.pollin = true) (control : locker.conns.head?.any (·.id = locker.control) = true)
    (handed : ready.handed = some conn) :
    locker.opened 0 ready =
      (lockerProcess { locker with idlePeriods := 0, conns := locker.conns ++ [conn] }
        locker.conns.length conn
        ready).locker := by
  have first : ∃ head, locker.conns[0]? = some head := by
    cases conns : locker.conns with
    | nil => simp [conns] at control
    | cons head rest => exact ⟨head, rfl⟩
  obtain ⟨head, present⟩ := first
  simp only [Locker.opened, quiet, pollin, and_self, if_true, lockerLoopPollin, present,
    lockerHandover,
    lockerRead, control, handed]

theorem scan_opened {locker : Locker} {ready : Ready} {rest : List Ready}
    (asks : Run.ScanAlong lockerNext (fun locker id ready => ready.asks client locker id) locker 0
      (ready :: rest)) :
    (locker.opened 0 ready).Goes client (lockerScan locker 0 (ready :: rest)) := by
  have served := @lockerServe_goes client locker 0 ready
  have later := asks.2
  unfold lockerNext at later
  rw [lockerScan]
  generalize lockerServe locker 0 ready = reached at served later
  obtain ⟨flow, after⟩ := reached
  cases flow with
  | next => exact served.trans (lockerScan_goes (by omega) (later after rfl))
  | again => exact served
  | leave => exact served.trans (leave_goes after)

end

section

variable {client : ConnId}

theorem reads_iff {locker : Locker} {first : Ready} {rest : List Ready}
    (running : locker.running = true) (polls : connsSetEvents locker.cleaned.conns = .ok) :
    locker.reads (.ready (first :: rest)) = true ↔
      first.err = false ∧ first.pollin = true ∧
        locker.cleaned.conns.head?.any (·.id = locker.cleaned.control) = true := by
  have control : locker.cleaned.control = locker.control := rfl
  simp only [Locker.reads, running, polls, control, decide_true, Bool.and_eq_true,
    Bool.not_eq_true', true_and,
    and_assoc]

theorem lockerStep_ready {locker : Locker} {first : Ready} {rest : List Ready}
    (running : locker.running = true) (left : locker.cleaned.conns ≠ [])
    (polls : connsSetEvents locker.cleaned.conns = .ok)
    (asks : Run.ScanAlong lockerNext (fun locker id ready => ready.asks client locker id)
      locker.cleaned 0
      ((first :: rest).take locker.cleaned.conns.length)) :
    (locker.cleaned.opened 0 first).Goes client (lockerStep locker (.ready (first :: rest))) := by
  obtain ⟨count, length⟩ := Nat.exists_eq_add_one_of_ne_zero
    (fun none => left (List.length_eq_zero_iff.mp none))
  rw [length, List.take_succ_cons] at asks
  have goes := scan_opened asks
  rwa [lockerStep, if_pos running, if_neg left, if_pos polls, lockerPoll, length,
    List.take_succ_cons]

theorem lockerStep_idle {locker : Locker} {event : PollEvent}
    (asks : match event with
      | .ready revents =>
        Run.ScanAlong lockerNext (fun locker id ready => ready.asks client locker id)
          locker.cleaned 0 (revents.take locker.cleaned.conns.length)
      | _ => True)
    (unread : locker.reads event = false ∨
      ∀ first rest, event = .ready (first :: rest) → first.handed = none) :
    locker.Goes client (lockerStep locker event) := by
  have cleaned := @cleaned_goes client locker
  by_cases running : locker.running = true
  · rw [lockerStep, if_pos running]
    split_ifs with left polls
    · exact cleaned.trans (leave_goes _)
    · cases event with
      | failed => exact cleaned.trans (leave_goes _)
      | timeout env =>
        refine cleaned.trans ((timeout_goes locker.cleaned env).trans ?_)
        simp only [lockerPoll]
        split_ifs
        · exact Locker.goes_quietly rfl (fun conn member => ⟨conn, member, rfl⟩) rfl
        · exact Locker.goes_refl _
        · exact leave_goes _
      | ready revents =>
        cases revents with
        | nil =>
          simp only [lockerPoll, List.take_nil, lockerScan]
          exact cleaned
        | cons first rest =>
          have opened := lockerStep_ready running left polls asks
          rw [lockerStep, if_pos running, if_neg left, if_pos polls] at opened
          refine cleaned.trans (Locker.Goes.trans (opened_idle ?_) opened)
          refine unread.imp (fun closed polled => ?_) fun none => none first rest rfl
          rw [(reads_iff running polls).mpr polled] at closed
          cases closed
    · exact cleaned.trans (leave_goes _)
  · rw [lockerStep, if_neg running]
    exact locker.goes_refl

theorem reads_ready {locker : Locker} {event : PollEvent} (read : locker.reads event = true) :
    locker.running = true ∧ connsSetEvents locker.cleaned.conns = .ok ∧
      ∃ first rest, event = .ready (first :: rest) := by
  cases event with
  | failed | timeout env => cases read
  | ready revents =>
    cases revents with
    | nil => cases read
    | cons first rest =>
      simp only [Locker.reads, Bool.and_eq_true, decide_eq_true_eq] at read
      exact ⟨read.1.1.1.1, read.1.1.1.2, first, rest, rfl⟩

theorem lockerStep_took {locker : Locker} {first : Ready} {rest : List Ready} {conn : Conn}
    (asks : Run.ScanAlong lockerNext (fun locker id ready => ready.asks client locker id)
      locker.cleaned 0
      ((first :: rest).take locker.cleaned.conns.length))
    (read : locker.reads (.ready (first :: rest)) = true) (handed : first.handed = some conn) :
    (lockerProcess { locker.cleaned with idlePeriods := 0, conns := locker.cleaned.conns ++ [conn] }
      locker.cleaned.conns.length conn first).locker.Goes client
          (lockerStep locker (.ready (first :: rest))) := by
  obtain ⟨running, polls, _⟩ := reads_ready read
  obtain ⟨quiet, pollin, control⟩ := (reads_iff running polls).mp read
  have left : locker.cleaned.conns ≠ [] := by
    intro none
    simp [none] at control
  have goes := lockerStep_ready running left polls asks
  rwa [opened_took quiet pollin control handed] at goes

end

section

variable {client : ConnId} {slot : LockerSlot} {event : PollEvent}

theorem piped_reads (locker : Locker) (handed : Option Conn) (event : PollEvent) :
    locker.reads (event.piped handed) = locker.reads event := by
  cases event with
  | failed | timeout env => rfl
  | ready revents => cases revents <;> rfl

theorem turned (asks : slot.asks client event) :
    slot.Turned client (slot.turn event).thread (slot.turn event).pipe := by
  have steps := @lockerStep_idle client { slot.thread with mail := [] }
    (event.piped (slot.pipe.head?.map Token.conn))
  cases read : slot.thread.reads event with
  | false =>
    have unread : slot.thread.reads (event.piped (slot.pipe.head?.map Token.conn)) = false := by
      rw [piped_reads, read]
    exact .idle (steps asks (.inl unread)) (by simp [LockerSlot.turn, unread])
  | true =>
    have taken : slot.thread.reads (event.piped (slot.pipe.head?.map Token.conn)) = true := by
      rw [piped_reads, read]
    have pipe : (slot.turn event).pipe = slot.pipe.tail := by simp [LockerSlot.turn, taken]
    obtain ⟨_, _, first, rest, rfl⟩ := reads_ready read
    rw [pipe]
    cases tokens : slot.pipe with
    | nil =>
      refine .idle (steps asks (.inr ?_)) (by rw [tokens]; rfl)
      intro other later same
      rw [tokens] at same
      obtain ⟨rfl, _⟩ := List.cons.inj (PollEvent.ready.inj same)
      rfl
    | cons token later =>
      have handed : slot.pipe.head?.map Token.conn = some token.conn := by rw [tokens]; rfl
      have goes := @lockerStep_took client { slot.thread with mail := [] }
        { first with handed := slot.pipe.head?.map Token.conn } rest token.conn asks taken handed
      obtain ⟨new, mail, honest, posted⟩ := lockerProcess_posts
        { { slot.thread with mail := [] }.cleaned with
          idlePeriods := 0, conns := { slot.thread with mail := [] }.cleaned.conns ++ [token.conn] }
        { slot.thread with mail := [] }.cleaned.conns.length token.conn
        { first with handed := slot.pipe.head?.map Token.conn }
      refine .took token _ goes tokens ?_ ?_ ?_ ?_
      · rw [mail]
        exact honest
      · rw [mail]
        exact posted
      · exact lockerProcess_capacity _ _ _ _
      · intro hosts
        obtain (⟨conn, member, mine⟩ | queued) | mine := lockerProcess_hosts hosts
        · obtain old | new := List.mem_append.mp member
          · exact .inl (.inl ⟨conn, (connsClean_subperm slot.thread.conns).subset old, mine⟩)
          · obtain rfl := List.mem_singleton.mp new
            exact .inr mine
        · exact .inl (.inr queued)
        · exact .inr mine

end

end Flom
